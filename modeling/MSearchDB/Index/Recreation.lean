import MSearchDB.Lib.OrderedMap
import MSearchDB.Index.SchemaEvolution
import MSearchDB.Index.TwoEngines

/-!
# Collections that are created again

`drop_collection` takes the collection out of the registry. In RAM its documents are gone with
it; on disk the directory stays, and `create_collection` opens what it finds there. A directory
can also be that of another name, whose writer still has documents to commit.

A call on one collection leaves the entries of the others alone. What it can do to them is to
panic in the schema builder while it holds the lock of the registry, after which every search
fails.

`recreate_isolate` is the exact account of both, for every state of the manager: a collection
starts empty after a drop exactly where its directory is empty and stays so, and the searches
on other collections are unchanged exactly where the call does not panic.
-/

set_option autoImplicit false

namespace MSearchDB.Index

open MSearchDB.Lib
open MSearchDB.Core
open Std (ExtTreeMap)

/-- A search that looks at no field does not fail. -/
class TotalSearcher extends NamedSearcher where
  hits_everything : ∀ schema docs,
    ∃ found, hits schema docs (.boolean [(.mustNot, .boolean []), (.must, .all)]) = .ok found

namespace CollectionIndexManager

/-- The collection that a call is about. -/
def Op.collection : Op → String
  | .createCollection c => c
  | .dropCollection c => c
  | .indexDocument call => call.collection
  | .deleteDocument c _ => c
  | .commit c => c

/-- The document was made by one of the calls. -/
def IndexedBy (ops : List Op) (doc : TantivyDocument) : Prop :=
  ∃ call fieldMap, .indexDocument call ∈ ops ∧
    doc = buildTantivyDoc call.doc fieldMap call.fieldOrder call.now

/-! ## Panics -/

/-- `SchemaBuilder` panics at the name of one of the fields: it is not valid, or it is that of
a meta-field. -/
def Unbuildable (mapping : FieldMapping) : Prop :=
  ∃ name ∈ mapping.fields, isValidFieldName name = false ∨ name ∈ (metaFields true).map FieldEntry.name

/-- The call brings a new field, and the fields are then some that the builder panics at. -/
def Panics (m : CollectionIndexManager) : Op → Prop
  | .indexDocument call => m.poisoned = false ∧ ∃ updated newFields,
      detectFields call = .ok (updated, newFields) ∧ newFields ≠ [] ∧ Unbuildable updated
  | _ => False

theorem addEntry_isSome_iff (acc : Schema × FieldMap) (entry : FieldEntry) :
    (addEntry acc entry).isSome ↔
      isValidFieldName entry.name = true ∧ entry.name ∉ acc.1.entries.map FieldEntry.name := by
  rw [addEntry, Option.isSome_map, Schema.addField]
  split
  · rename_i h
    simpa using h
  · rename_i h
    simpa using h

/-- The builder takes a list of fields with valid and different names. -/
theorem foldlM_addEntry_isSome_iff (entries : List FieldEntry) :
    ∀ acc : Schema × FieldMap, (acc.1.entries.map FieldEntry.name).Nodup →
      ((entries.foldlM addEntry acc).isSome ↔
        (∀ e ∈ entries, isValidFieldName e.name = true) ∧
          ((acc.1.entries ++ entries).map FieldEntry.name).Nodup) := by
  induction entries with
  | nil =>
      intro acc hacc
      simpa [List.foldlM] using hacc
  | cons entry entries ih =>
      intro acc hacc
      rw [List.foldlM_cons]
      cases hadd : addEntry acc entry with
      | none =>
          have hnot : ¬ (isValidFieldName entry.name = true ∧
              entry.name ∉ acc.1.entries.map FieldEntry.name) := by
            rw [← addEntry_isSome_iff, hadd]
            simp
          refine iff_of_false (by simp) fun ⟨hvalid, hnodup⟩ => hnot ⟨hvalid entry List.mem_cons_self, ?_⟩
          intro hmem
          rw [List.map_append, List.map_cons, List.nodup_middle, List.nodup_cons] at hnodup
          exact hnodup.1 (List.mem_append_left _ hmem)
      | some acc' =>
          obtain ⟨hvalid, hfresh⟩ := (addEntry_isSome_iff acc entry).1 (by rw [hadd]; rfl)
          have hentries : acc'.1.entries = acc.1.entries ++ [entry] := by
            simp only [addEntry, Schema.addField, hvalid, hfresh, not_false_eq_true, and_self, if_true,
              Option.map_some, Option.some.injEq] at hadd
            rw [← hadd]
          have hnext : (acc'.1.entries.map FieldEntry.name).Nodup := by
            rw [hentries, List.map_append, List.nodup_append]
            refine ⟨hacc, List.nodup_singleton _, ?_⟩
            rintro a ha b hb rfl
            rw [List.map_singleton, List.mem_singleton] at hb
            exact hfresh (hb ▸ ha)
          simp only [Option.bind_eq_bind, Option.bind_some]
          rw [ih acc' hnext, hentries, List.append_assoc, List.singleton_append, List.forall_mem_cons]
          simp [hvalid]

/-- **When the builder panics.** -/
theorem buildSchemaFromMapping_eq_none_iff (order : HashOrder MappedFieldType) (mapping : FieldMapping) :
    buildSchemaFromMapping order mapping true = none ↔ Unbuildable mapping := by
  have hmeta : ((metaFields true).map FieldEntry.name).Nodup := by decide
  have hvalid : ∀ e ∈ metaFields true, isValidFieldName e.name = true := by decide
  have hnames : (userFields (order.iter mapping.fields)).map FieldEntry.name =
      (order.iter mapping.fields).map Prod.fst := by
    rw [userFields, List.map_map]
    rfl
  have hmem : ∀ name, name ∈ (order.iter mapping.fields).map Prod.fst ↔ name ∈ mapping.fields := by
    intro name
    rw [((order.perm mapping.fields).map Prod.fst).mem_iff, ExtTreeMap.map_fst_toList_eq_keys,
      ExtTreeMap.mem_keys]
  have hnodup : ((order.iter mapping.fields).map Prod.fst).Nodup := nodup_fst_of_perm (order.perm mapping.fields)
  have hsome : (buildSchemaFromMapping order mapping true).isSome ↔ ¬ Unbuildable mapping := by
    rw [buildSchemaFromMapping, foldlM_addEntry_isSome_iff _ (⟨[]⟩, ∅) List.nodup_nil]
    simp only [List.nil_append, List.map_append, hnames]
    rw [List.nodup_append]
    constructor
    · rintro ⟨hall, -, -, hdisjoint⟩ ⟨name, hname, hbad⟩
      have hiter := (hmem name).2 hname
      rcases hbad with hbad | hbad
      · obtain ⟨e, he, rfl⟩ := List.mem_map.1 (hnames ▸ hiter)
        rw [hall e (List.mem_append_right _ he)] at hbad
        cases hbad
      · exact hdisjoint name hbad name hiter rfl
    · intro hgood
      refine ⟨fun e he => ?_, hmeta, hnodup, ?_⟩
      · rcases List.mem_append.1 he with he | he
        · exact hvalid e he
        · by_contra hbad
          have hname : e.name ∈ (order.iter mapping.fields).map Prod.fst := by
            rw [← hnames]
            exact List.mem_map_of_mem he
          exact hgood ⟨e.name, (hmem _).1 hname, .inl (by simpa using hbad)⟩
      · rintro name hname name' hname' rfl
        exact hgood ⟨name, (hmem name).1 hname', .inr hname⟩
  rw [← Option.not_isSome_iff_eq_none, hsome, not_not]

/-! ## Other collections -/

/-- What a change of the manager leaves alone: the other collections and the mode. -/
structure Frame (c : String) (m m' : CollectionIndexManager) : Prop where
  others : ∀ d, d ≠ c → m'.collections[d]? = m.collections[d]?
  onDisk : m'.onDisk = m.onDisk

theorem Frame.of_eq {c : String} {m m' : CollectionIndexManager} (hcols : m'.collections = m.collections)
    (hdisk : m'.onDisk = m.onDisk) : Frame c m m' :=
  ⟨fun _ _ => by rw [hcols], hdisk⟩

theorem Frame.trans {c : String} {m m' m'' : CollectionIndexManager} (h : Frame c m m')
    (h' : Frame c m' m'') : Frame c m m'' :=
  ⟨fun d hd => (h'.others d hd).trans (h.others d hd), h'.onDisk.trans h.onDisk⟩

theorem Frame.of_insert {c : String} {m m' : CollectionIndexManager} (col : CollectionIndex)
    (hcols : m'.collections = m.collections.insert c col) (hdisk : m'.onDisk = m.onDisk) : Frame c m m' :=
  ⟨fun d hd => by rw [hcols, ExtTreeMap.getElem?_insert, if_neg (by simpa using Ne.symm hd)], hdisk⟩

theorem Frame.of_erase {c : String} {m m' : CollectionIndexManager}
    (hcols : m'.collections = m.collections.erase c) (hdisk : m'.onDisk = m.onDisk) : Frame c m m' :=
  ⟨fun d hd => by rw [hcols, ExtTreeMap.getElem?_erase, if_neg (by simpa using Ne.symm hd)], hdisk⟩

section Frame

variable [Tantivy] [FileSystem]

theorem frame_createCollection (m : CollectionIndexManager) (c : String) :
    Frame c m (m.createCollection c).2 ∧ (m.createCollection c).2.poisoned = m.poisoned := by
  rw [createCollection]
  split
  · exact ⟨.of_eq rfl rfl, rfl⟩
  · split
    · exact ⟨.of_eq rfl rfl, rfl⟩
    · split
      · exact ⟨.of_eq rfl rfl, rfl⟩
      · exact ⟨.of_insert _ rfl rfl, rfl⟩

omit [Tantivy] [FileSystem] in
theorem frame_dropCollection (m : CollectionIndexManager) (c : String) :
    Frame c m (m.dropCollection c).2 ∧ (m.dropCollection c).2.poisoned = m.poisoned := by
  rw [dropCollection]
  split
  · exact ⟨.of_eq rfl rfl, rfl⟩
  · exact ⟨.of_erase rfl rfl, rfl⟩

omit [FileSystem] in
theorem frame_deleteDocument (m : CollectionIndexManager) (c : String) (id : DocumentId) :
    Frame c m (m.deleteDocument c id).2 ∧ (m.deleteDocument c id).2.poisoned = m.poisoned := by
  rw [deleteDocument]
  split
  · exact ⟨.of_eq rfl rfl, rfl⟩
  · split
    · exact ⟨.of_eq rfl rfl, rfl⟩
    · split
      · exact ⟨.of_eq rfl rfl, rfl⟩
      · exact ⟨.of_insert _ rfl rfl, rfl⟩

theorem frame_commit (m : CollectionIndexManager) (c : String) :
    Frame c m (m.commit c).2 ∧ (m.commit c).2.poisoned = m.poisoned := by
  rw [commit]
  split
  · exact ⟨.of_eq rfl rfl, rfl⟩
  · split
    · exact ⟨.of_eq rfl rfl, rfl⟩
    · split
      · exact ⟨.of_eq rfl rfl, rfl⟩
      · exact ⟨.of_insert _ rfl rfl, rfl⟩

omit [FileSystem] in
theorem frame_addDocument (m : CollectionIndexManager) (call : IndexCall) :
    Frame call.collection m (m.addDocument call).2 ∧ (m.addDocument call).2.poisoned = m.poisoned := by
  rw [addDocument]
  split
  · exact ⟨.of_eq rfl rfl, rfl⟩
  · split
    · exact ⟨.of_eq rfl rfl, rfl⟩
    · dsimp only
      split
      · exact ⟨.of_eq rfl rfl, rfl⟩
      · exact ⟨.of_insert _ rfl rfl, rfl⟩

theorem frame_rebuildSchema (m : CollectionIndexManager) (c : String) (order : HashOrder MappedFieldType)
    (mapping : FieldMapping) :
    Frame c m (m.rebuildSchema c order mapping).2 ∧
      ((m.rebuildSchema c order mapping).2.poisoned = true ↔ m.poisoned = true ∨ Unbuildable mapping) := by
  rw [rebuildSchema, ← buildSchemaFromMapping_eq_none_iff order]
  split
  · rename_i hpoisoned
    exact ⟨.of_eq rfl rfl, by simp [hpoisoned]⟩
  · rename_i hpoisoned
    dsimp only
    split
    · rename_i hbuild
      exact ⟨.of_erase rfl rfl, by simp [hbuild]⟩
    · rename_i hbuild
      split
      · exact ⟨.of_erase rfl rfl, by simp [hpoisoned, hbuild]⟩
      · refine ⟨?_, by simp [hpoisoned, hbuild]⟩
        have herase : Frame c m { m with collections := m.collections.erase c } := .of_erase rfl rfl
        exact herase.trans (.of_insert _ rfl rfl)

theorem frame_indexDocument (m : CollectionIndexManager) (call : IndexCall) :
    Frame call.collection m (m.indexDocument call).2 ∧
      ((m.indexDocument call).2.poisoned = true ↔
        m.poisoned = true ∨ Panics m (.indexDocument call)) := by
  rw [indexDocument, Panics]
  cases hdetect : detectFields call with
  | error e => exact ⟨.of_eq rfl rfl, by simp⟩
  | ok detected =>
      obtain ⟨updated, newFields⟩ := detected
      dsimp only
      by_cases hnew : newFields = []
      · rw [if_pos hnew]
        obtain ⟨hframe, hpoisoned⟩ := frame_addDocument m call
        exact ⟨hframe, by simp [hpoisoned, hnew]⟩
      · rw [if_neg hnew]
        obtain ⟨hframe, hpoisoned⟩ := frame_rebuildSchema m call.collection call.mappingOrder updated
        have hpanics : m.poisoned = true ∨ (m.poisoned = false ∧ ∃ updated' newFields',
            (.ok (updated, newFields) : DbResult _) = .ok (updated', newFields') ∧ newFields' ≠ [] ∧
              Unbuildable updated') ↔ m.poisoned = true ∨ Unbuildable updated := by
          cases m.poisoned with
          | true => simp
          | false => simp [hnew]
        rw [hpanics, ← hpoisoned]
        split
        · rename_i hrebuilt
          rw [hrebuilt] at hframe
          exact ⟨hframe, by rw [hrebuilt]⟩
        · rename_i hrebuilt
          rw [hrebuilt] at hframe
          exact ⟨hframe, by rw [hrebuilt]⟩
        · rename_i m' hrebuilt
          rw [hrebuilt] at hframe
          obtain ⟨hadd, hsame⟩ := frame_addDocument m' call
          exact ⟨hframe.trans hadd, by rw [hrebuilt, hsame]⟩

/-- **What a call leaves alone**, and when it poisons the lock. -/
theorem frame_step (m : CollectionIndexManager) (op : Op) :
    Frame op.collection m (m.step op) ∧
      ((m.step op).poisoned = true ↔ m.poisoned = true ∨ Panics m op) := by
  cases op with
  | createCollection c =>
      obtain ⟨hframe, hpoisoned⟩ := frame_createCollection m c
      exact ⟨hframe, by simp [step, Panics, hpoisoned]⟩
  | dropCollection c =>
      obtain ⟨hframe, hpoisoned⟩ := frame_dropCollection m c
      exact ⟨hframe, by simp [step, Panics, hpoisoned]⟩
  | indexDocument call => exact frame_indexDocument m call
  | deleteDocument c id =>
      obtain ⟨hframe, hpoisoned⟩ := frame_deleteDocument m c id
      exact ⟨hframe, by simp [step, Panics, hpoisoned]⟩
  | commit c =>
      obtain ⟨hframe, hpoisoned⟩ := frame_commit m c
      exact ⟨hframe, by simp [step, Panics, hpoisoned]⟩

end Frame

/-! ## Searches on other collections -/

section Searches

variable [Searcher]

/-- A search reads the collection it is about and the lock. -/
theorem queryHits_congr {m m' : CollectionIndexManager} {d : String} (hpoisoned : m'.poisoned = m.poisoned)
    (hcol : m'.collections[d]? = m.collections[d]?) (query : Query) :
    m'.queryHits d query = m.queryHits d query := by
  rw [queryHits, queryHits, hpoisoned, hcol]

/-- The searches on a collection give the same in both states. -/
def SameSearches (d : String) (m m' : CollectionIndexManager) : Prop :=
  ∀ query, m'.search d query = m.search d query ∧
    ∀ options, m'.searchWithOptions d query options = m.searchWithOptions d query options

/-- With a lock that is not poisoned, a query without clauses does not find it poisoned. -/
theorem search_ne_lockPoisoned {m : CollectionIndexManager} (h : m.poisoned = false) (d : String) :
    m.search d (.bool [] [] []) ≠ .error lockPoisoned := by
  have htranslate : ∀ (index : Schema) (fieldMap : FieldMap),
      translateQuery index fieldMap (.bool [] [] []) = .ok (.boolean []) := fun _ _ => rfl
  rw [search, topDocs, queryHits, h, if_neg Bool.false_ne_true]
  cases m.collections[d]? with
  | none => simp [bind, Except.bind, indexNotFound, lockPoisoned]
  | some col =>
      simp only [htranslate, bind, Except.bind]
      cases Searcher.hits col.index col.reader (.boolean []) with
      | ok found => simp
      | error e =>
          intro heq
          have htext : "search failed: " ++ e = "lock poisoned: poisoned lock: another task failed inside" := by
            simpa [lockPoisoned] using heq
          have hhead := congrArg (fun s : String => s.toList.head?) htext
          simp at hhead

theorem search_of_poisoned {m : CollectionIndexManager} (h : m.poisoned = true) (d : String) (query : Query) :
    m.search d query = .error lockPoisoned := by
  rw [search, topDocs, queryHits, if_pos h]
  rfl

variable [Tantivy] [FileSystem]

/-- **Isolation.** A call changes the searches on another collection exactly when it
panics. -/
theorem sameSearches_step_iff (m : CollectionIndexManager) (op : Op) {d : String} (hd : d ≠ op.collection) :
    SameSearches d m (m.step op) ↔ ¬ Panics m op := by
  obtain ⟨hframe, hpoisoned⟩ := frame_step m op
  have hcol := hframe.others d hd
  cases hm : m.poisoned with
  | true =>
      have hnot : ¬ Panics m op := by
        cases op with
        | indexDocument call => simp [Panics, hm]
        | _ => exact id
      have hsame : (m.step op).poisoned = m.poisoned := by rw [hm, hpoisoned, hm]; simp
      refine iff_of_true (fun query => ?_) hnot
      simp only [search, searchWithOptions, topDocs, queryHits_congr hsame hcol, true_and, implies_true]
  | false =>
      by_cases hpanics : Panics m op
      · refine iff_of_false (fun hsame => ?_) (not_not_intro hpanics)
        refine search_ne_lockPoisoned hm d ?_
        rw [← (hsame (.bool [] [] [])).1]
        exact search_of_poisoned (hpoisoned.2 (.inr hpanics)) d _
      · have hsame : (m.step op).poisoned = m.poisoned := by
          rw [hm, Bool.eq_false_iff, Ne, hpoisoned, hm]
          simpa using hpanics
        refine iff_of_true (fun query => ?_) hpanics
        simp only [search, searchWithOptions, topDocs, queryHits_congr hsame hcol, true_and, implies_true]

end Searches

/-! ## Documents from before -/

section Renewed

variable [FileSystem]

/-- What a writer on the one collection publishes, the other finds when it is opened: they
are the same, or have one directory. -/
def Reaches (onDisk : Bool) (c d : String) : Prop :=
  d = c ∨ onDisk = true ∧ ∃ dir, FileSystem.createDirAll c = .ok dir ∧ FileSystem.createDirAll d = .ok dir

/-- Only documents of a kind can be found in the collection, now and after later commits. -/
structure Renewed (P : TantivyDocument → Prop) (c : String) (m : CollectionIndexManager) : Prop where
  reader : ∀ col, m.collections[c]? = some col → ∀ doc ∈ col.reader, P doc
  pending : ∀ d col, m.collections[d]? = some col → Reaches m.onDisk c d → col.writer.killed = false →
    ∀ doc ∈ col.writer.pending, P doc
  disk : m.onDisk = true → ∀ dir stored, FileSystem.createDirAll c = .ok dir → m.disk dir = some stored →
    ∀ doc ∈ stored.docs, P doc

variable {P : TantivyDocument → Prop} {c : String} {m : CollectionIndexManager}

/-- Collections that are taken out. -/
theorem Renewed.erase (h : Renewed P c m) (d : String) :
    Renewed P c { m with collections := m.collections.erase d } where
  reader col hcol := h.reader col (getElem?_of_erase hcol)
  pending d' col hcol := h.pending d' col (getElem?_of_erase hcol)
  disk := h.disk

theorem Renewed.poison (h : Renewed P c m) : Renewed P c { m with poisoned := true } :=
  ⟨h.reader, h.pending, h.disk⟩

/-- A collection that is put in. -/
theorem Renewed.insert (h : Renewed P c m) {d : String} {col : CollectionIndex}
    (hreader : d = c → ∀ doc ∈ col.reader, P doc)
    (hpending : Reaches m.onDisk c d → col.writer.killed = false → ∀ doc ∈ col.writer.pending, P doc) :
    Renewed P c { m with collections := m.collections.insert d col } where
  reader col' hcol' := by
    rcases getElem?_insert_cases hcol' with ⟨hd, rfl⟩ | ⟨-, hold⟩
    · exact hreader hd.symm
    · exact h.reader col' hold
  pending d' col' hcol' := by
    rcases getElem?_insert_cases hcol' with ⟨rfl, rfl⟩ | ⟨-, hold⟩
    · exact hpending
    · exact h.pending d' col' hold
  disk := h.disk

/-- Another content of the directories. -/
theorem Renewed.setDisk (h : Renewed P c m) {disk : String → Option StoredIndex}
    (hdisk : m.onDisk = true → ∀ dir stored, FileSystem.createDirAll c = .ok dir → disk dir = some stored →
      ∀ doc ∈ stored.docs, P doc) : Renewed P c { m with disk := disk } :=
  ⟨h.reader, h.pending, hdisk⟩

variable [Tantivy]

/-- Opening an index creates empty directories only. -/
theorem Renewed.openIndex_disk (h : Renewed P c m) (d : String) (schema : Schema) (fieldMap : FieldMap) :
    Renewed P c { m with disk := (m.openIndex d schema fieldMap).2 } := by
  refine h.setDisk fun hmode dir stored hdir hstored doc hdoc => ?_
  rcases CollectionIndexManager.openIndex_disk m d schema fieldMap hstored with hold | rfl
  · exact h.disk hmode dir stored hdir hold doc hdoc
  · exact nomatch hdoc

/-- What an opened index shows was in its directory. -/
theorem Renewed.openIndex_ok (h : Renewed P c m) {d : String} {schema : Schema} {fieldMap : FieldMap}
    {col : CollectionIndex} (hopen : (m.openIndex d schema fieldMap).1 = .ok col)
    (hreaches : Reaches m.onDisk c d) :
    (∀ doc ∈ col.reader, P doc) ∧ ∀ doc ∈ col.writer.pending, P doc := by
  rw [openIndex] at hopen
  by_cases hmode : m.onDisk = true
  · rw [if_pos hmode] at hopen
    cases hdir : FileSystem.createDirAll d with
    | error e =>
        rw [hdir] at hopen
        cases hopen
    | ok dir =>
        have hc : FileSystem.createDirAll c = .ok dir := by
          rcases hreaches with rfl | ⟨-, dir', hc, hd⟩
          · exact hdir
          · rw [hc, ← hd, hdir]
        have hstored : ∀ doc ∈ ((m.disk dir).getD ⟨schema, []⟩).docs, P doc := by
          cases hold : m.disk dir with
          | none => exact fun doc hdoc => absurd hdoc List.not_mem_nil
          | some stored => exact h.disk hmode dir stored hc hold
        rw [hdir] at hopen
        dsimp only at hopen
        split at hopen
        · cases hopen
        · rw [← Except.ok.inj hopen]
          exact ⟨hstored, hstored⟩
  · rw [if_neg hmode] at hopen
    rw [← Except.ok.inj hopen]
    exact ⟨fun _ hdoc => absurd hdoc List.not_mem_nil, fun _ hdoc => absurd hdoc List.not_mem_nil⟩

/-- An index that is opened and put in. -/
theorem Renewed.opened (h : Renewed P c m) {d : String} {schema : Schema} {fieldMap : FieldMap}
    {col : CollectionIndex} {disk : String → Option StoredIndex}
    (hopen : m.openIndex d schema fieldMap = (.ok col, disk)) :
    Renewed P c { m with collections := m.collections.insert d col, disk := disk } := by
  have hok : (m.openIndex d schema fieldMap).1 = .ok col := by rw [hopen]
  have hdisk := h.openIndex_disk d schema fieldMap
  rw [hopen] at hdisk
  exact hdisk.insert (fun hd => (h.openIndex_ok hok (.inl hd)).1) fun hreaches _ =>
    (h.openIndex_ok hok hreaches).2

theorem Renewed.createCollection (h : Renewed P c m) (d : String) : Renewed P c (m.createCollection d).2 := by
  rw [CollectionIndexManager.createCollection]
  split
  · exact h
  · split
    · exact h
    · split
      · rename_i hopen
        have hdisk := h.openIndex_disk d initialSchema initialFieldMap
        rwa [hopen] at hdisk
      · rename_i hopen
        exact h.opened hopen

theorem Renewed.rebuildSchema (h : Renewed P c m) (d : String) (order : HashOrder MappedFieldType)
    (mapping : FieldMapping) : Renewed P c (m.rebuildSchema d order mapping).2 := by
  rw [CollectionIndexManager.rebuildSchema]
  split
  · exact h
  · dsimp only
    split
    · exact (h.erase d).poison
    · rename_i schema fieldMap hbuild
      have hdisk := h.openIndex_disk d schema fieldMap
      split
      · rename_i hopen
        rw [hopen] at hdisk
        exact hdisk.erase d
      · rename_i hopen
        have hok := congrArg Prod.fst hopen
        rw [hopen] at hdisk
        exact (hdisk.erase d).insert (fun hd => (h.openIndex_ok hok (.inl hd)).1) fun hreaches _ =>
          (h.openIndex_ok hok hreaches).2

omit [FileSystem] in
/-- A document is added to what a writer has, or ends the writer. -/
theorem mem_pending_addDocument {schema : Schema} {w w' : IndexWriter} {doc doc' : TantivyDocument}
    (h : w.addDocument schema doc = (.ok (), w')) (halive : w'.killed = false) (hdoc : doc' ∈ w'.pending) :
    w.killed = false ∧ (doc' ∈ w.pending ∨ doc' = doc) := by
  rw [IndexWriter.addDocument] at h
  split at h
  · cases h
  · rename_i hw
    split at h
    · rw [← (Prod.mk.inj h).2] at hdoc
      exact ⟨by simpa using hw, by simpa using hdoc⟩
    · rw [← (Prod.mk.inj h).2] at halive
      cases halive

theorem Renewed.addDocument (h : Renewed P c m) (call : IndexCall)
    (hcall : ∀ fieldMap, P (buildTantivyDoc call.doc fieldMap call.fieldOrder call.now)) :
    Renewed P c (m.addDocument call).2 := by
  rw [CollectionIndexManager.addDocument]
  split
  · exact h
  · split
    · exact h
    · rename_i col hcol
      dsimp only
      split
      · exact h
      · rename_i writer hadd
        refine h.insert (fun hd => ?_) fun hreaches halive doc hdoc => ?_
        · exact h.reader col (hd ▸ hcol)
        · obtain ⟨hwas, hold | rfl⟩ := mem_pending_addDocument hadd halive hdoc
          · exact h.pending _ col hcol hreaches hwas doc hold
          · exact hcall _

theorem Renewed.indexDocument (h : Renewed P c m) (call : IndexCall)
    (hcall : ∀ fieldMap, P (buildTantivyDoc call.doc fieldMap call.fieldOrder call.now)) :
    Renewed P c (m.indexDocument call).2 := by
  rw [CollectionIndexManager.indexDocument]
  split
  · exact h
  · rename_i updated newFields hdetect
    dsimp only
    have hrebuilt : Renewed P c (if newFields = [] then (some (.ok ()), m)
        else m.rebuildSchema call.collection call.mappingOrder updated).2 := by
      split
      · exact h
      · exact h.rebuildSchema _ _ _
    split
    · rename_i heq
      rwa [heq] at hrebuilt
    · rename_i heq
      rwa [heq] at hrebuilt
    · rename_i heq
      rw [heq] at hrebuilt
      exact hrebuilt.addDocument call hcall

theorem Renewed.deleteDocument (h : Renewed P c m) (d : String) (id : DocumentId) :
    Renewed P c (m.deleteDocument d id).2 := by
  rw [CollectionIndexManager.deleteDocument]
  split
  · exact h
  · split
    · exact h
    · rename_i col hcol
      split
      · exact h
      · refine h.insert (fun hd => ?_) fun hreaches halive doc hdoc => ?_
        · exact h.reader col (hd ▸ hcol)
        · exact h.pending d col hcol hreaches halive doc (List.mem_of_mem_filter hdoc)

theorem Renewed.commit (h : Renewed P c m) (d : String) : Renewed P c (m.commit d).2 := by
  rw [CollectionIndexManager.commit]
  split
  · exact h
  · split
    · exact h
    · rename_i col hcol
      split
      · exact h
      · rename_i docs hcommit
        rw [IndexWriter.commit] at hcommit
        split at hcommit
        · cases hcommit
        · rename_i halive
          have hdocs := Except.ok.inj hcommit
          have hpublished : Reaches m.onDisk c d → ∀ doc ∈ docs, P doc := by
            rw [← hdocs]
            exact fun hreaches => h.pending d col hcol hreaches (by simpa using halive)
          dsimp only
          have hset : ∀ disk : String → Option StoredIndex,
              (m.onDisk = true → ∀ dir stored, FileSystem.createDirAll c = .ok dir → disk dir = some stored →
                ∀ doc ∈ stored.docs, P doc) →
              Renewed P c { m with
                collections := m.collections.insert d { col with reader := docs }, disk := disk } := by
            intro disk hdisk
            exact (h.setDisk hdisk).insert (fun hd => hpublished (.inl hd)) (h.pending d col hcol)
          apply hset
          intro hmode dir stored hdir hstored
          cases hd : FileSystem.createDirAll d with
          | error e =>
              simp only [hmode, hd] at hstored
              exact h.disk hmode dir stored hdir hstored
          | ok dir' =>
              simp only [hmode, hd] at hstored
              by_cases hsame : dir = dir'
              · rw [hsame, Function.update_self] at hstored
                rw [← Option.some.inj hstored]
                exact hpublished (.inr ⟨hmode, dir', hsame ▸ hdir, hd⟩)
              · rw [Function.update_of_ne hsame] at hstored
                exact h.disk hmode dir stored hdir hstored

/-- **A call keeps a collection renewed** if the documents that it indexes are of the
kind. -/
theorem Renewed.step (h : Renewed P c m) (op : Op)
    (hop : ∀ call fieldMap, op = .indexDocument call →
      P (buildTantivyDoc call.doc fieldMap call.fieldOrder call.now)) : Renewed P c (m.step op) := by
  cases op with
  | createCollection d => exact h.createCollection d
  | dropCollection d =>
      show Renewed P c (m.dropCollection d).2
      rw [CollectionIndexManager.dropCollection]
      split
      · exact h
      · exact h.erase d
  | indexDocument call => exact h.indexDocument call fun fieldMap => hop call fieldMap rfl
  | deleteDocument d id => exact h.deleteDocument d id
  | commit d => exact h.commit d

theorem Renewed.run {ops : List Op} (h : Renewed P c m) (hops : ∀ doc, IndexedBy ops doc → P doc) :
    Renewed P c (m.run ops) := by
  induction ops generalizing m with
  | nil => exact h
  | cons op ops ih =>
      refine ih (h.step op fun call fieldMap hop => ?_) fun doc hdoc => ?_
      · exact hops _ ⟨call, fieldMap, by rw [hop]; exact List.mem_cons_self, rfl⟩
      · obtain ⟨call, fieldMap, hcall, rfl⟩ := hdoc
        exact hops _ ⟨call, fieldMap, List.mem_cons_of_mem _ hcall, rfl⟩

end Renewed

/-! ## Re-creation -/

section Recreate

variable [FileSystem]

/-- The directory of the collection has no documents, and no open collection with the same
directory has documents to commit. In RAM there is nothing to ask. -/
def Fresh (m : CollectionIndexManager) (c : String) : Prop :=
  m.poisoned = false → m.onDisk = true → ∀ dir, FileSystem.createDirAll c = .ok dir →
    (∀ stored, m.disk dir = some stored → stored.docs = []) ∧
      ∀ d col, d ≠ c → m.collections[d]? = some col → FileSystem.createDirAll d = .ok dir →
        col.writer.killed = false → col.writer.pending = []

omit [FileSystem] in
theorem dropCollection_eq {m : CollectionIndexManager} (h : m.poisoned = false) (c : String) :
    m.dropCollection c = (.ok (), { m with collections := m.collections.erase c }) := by
  rw [dropCollection, h, if_neg Bool.false_ne_true]

/-- What a drop leaves of a fresh collection. -/
theorem Fresh.renewed {m : CollectionIndexManager} {c : String} (h : Fresh m c) (hm : m.poisoned = false)
    (P : TantivyDocument → Prop) : Renewed P c { m with collections := m.collections.erase c } where
  reader col hcol := by simp at hcol
  pending d col hcol hreaches halive doc hdoc := by
    by_cases hd : d = c
    · simp [hd] at hcol
    · obtain ⟨hmode, dir, hdir, hdir'⟩ := hreaches.resolve_left hd
      rw [(h hm hmode dir hdir).2 d col hd (getElem?_of_erase hcol) hdir' halive] at hdoc
      exact nomatch hdoc
  disk hmode dir stored hdir hstored doc hdoc := by
    rw [(h hm hmode dir hdir).1 stored hstored] at hdoc
    exact nomatch hdoc

variable [Tantivy]

/-- Drops of some collections. -/
theorem run_drops (cs : List String) :
    ∀ m : CollectionIndexManager, m.poisoned = false →
      ∃ collections : ExtTreeMap String CollectionIndex,
        m.run (cs.map Op.dropCollection) = { m with collections := collections } ∧
          ∀ d, collections[d]? = if d ∈ cs then none else m.collections[d]? := by
  induction cs with
  | nil => exact fun m _ => ⟨m.collections, rfl, fun d => by simp⟩
  | cons c cs ih =>
      intro m hm
      obtain ⟨collections, hrun, hget⟩ := ih { m with collections := m.collections.erase c } hm
      refine ⟨collections, ?_, fun d => ?_⟩
      · rw [List.map_cons]
        show ((m.dropCollection c).2).run (cs.map Op.dropCollection) = _
        rw [dropCollection_eq hm, hrun]
      · rw [hget d, ExtTreeMap.getElem?_erase]
        by_cases hd : d = c
        · simp [hd]
        · have hne : compare c d ≠ .eq := mt Std.LawfulEqCmp.compare_eq_iff_eq.1 (Ne.symm hd)
          rw [if_neg hne]
          simp only [List.mem_cons, hd, false_or]

/-- A collection opened where nothing else is open shows what is in its directory. -/
theorem createCollection_of_empty {m : CollectionIndexManager} (hm : m.poisoned = false)
    (hempty : ∀ d : String, m.collections[d]? = none) (hmode : m.onDisk = true) {c dir : String}
    (hdir : FileSystem.createDirAll c = .ok dir) {stored : StoredIndex} (hstored : m.disk dir = some stored) :
    (m.createCollection c).1 = .ok () ∧ (m.createCollection c).2.poisoned = false ∧
      ∃ col, (m.createCollection c).2.collections[c]? = some col ∧ col.reader = stored.docs := by
  have hnot : ∀ d : String, d ∉ m.collections := by
    intro d
    rw [ExtTreeMap.mem_iff_isSome_getElem?, hempty d]
    exact Bool.false_ne_true
  have hlocked : m.locked dir = false := by
    rw [locked, List.any_eq_false]
    intro d hd
    exact absurd (ExtTreeMap.mem_keys.1 hd) (hnot d)
  rw [createCollection, hm, if_neg Bool.false_ne_true, if_neg (hnot c), openIndex, if_pos hmode, hdir]
  simp [hlocked, hstored]

/-- Calls after which the directory of a collection that is not fresh has documents. -/
theorem exists_stored_of_not_fresh {m : CollectionIndexManager} {c : String} (h : ¬ Fresh m c) :
    m.poisoned = false ∧ m.onDisk = true ∧ ∃ (dir : String) (cs : List String) (stored : StoredIndex),
      FileSystem.createDirAll c = .ok dir ∧
      let m' := (m.dropCollection c).2.run (cs.map Op.commit)
      m'.poisoned = false ∧ m'.onDisk = true ∧ m'.disk dir = some stored ∧ stored.docs ≠ [] := by
  simp only [Fresh, not_forall] at h
  obtain ⟨hm, hmode, dir, hdir, hbad⟩ := h
  refine ⟨hm, hmode, dir, ?_⟩
  rw [dropCollection_eq hm]
  rcases not_and_or.1 hbad with hbad | hbad
  · simp only [not_forall] at hbad
    obtain ⟨stored, hstored, hdocs⟩ := hbad
    exact ⟨[], stored, hdir, hm, hmode, hstored, hdocs⟩
  · simp only [not_forall] at hbad
    obtain ⟨d, col, hd, hcol, hdir', halive, hpending⟩ := hbad
    have hcol' : (m.collections.erase c)[d]? = some col := by
      rw [ExtTreeMap.getElem?_erase, if_neg (mt Std.LawfulEqCmp.compare_eq_iff_eq.1 (Ne.symm hd)), hcol]
    have hcommit : CollectionIndexManager.commit { m with collections := m.collections.erase c } d =
        (.ok (), { m with
          collections := (m.collections.erase c).insert d { col with reader := col.writer.pending }
          disk := Function.update m.disk dir (some ⟨col.index, col.writer.pending⟩) }) := by
      simp [CollectionIndexManager.commit, hm, hcol', IndexWriter.commit, halive, hmode, hdir']
    refine ⟨[d], ⟨col.index, col.writer.pending⟩, hdir, ?_⟩
    show (CollectionIndexManager.commit _ d).2.poisoned = false ∧
      (CollectionIndexManager.commit _ d).2.onDisk = true ∧
      (CollectionIndexManager.commit _ d).2.disk dir = some _ ∧ _
    rw [hcommit]
    exact ⟨hm, hmode, Function.update_self _ _ _, hpending⟩

variable [TotalSearcher]

/-- After a drop and a creation, whatever comes between and afterwards, a search finds
only documents indexed since the drop. -/
def StartsEmpty (m : CollectionIndexManager) (c : String) : Prop :=
  ∀ mid post : List Op,
    let dropped := m.dropCollection c
    let created := (dropped.2.run mid).createCollection c
    dropped.1 = .ok () → created.1 = .ok () →
      ∀ query fieldMap found, (created.2.run post).queryHits c query = .ok (fieldMap, found) →
        ∀ hit ∈ found, IndexedBy (mid ++ post) hit.2

omit [FileSystem] [Tantivy] in
/-- A search finds what the reader shows. -/
theorem mem_reader_of_queryHits {m : CollectionIndexManager} {c : String} {query : Query} {fieldMap : FieldMap}
    {found : List (F32 × TantivyDocument)} (h : m.queryHits c query = .ok (fieldMap, found))
    {hit : F32 × TantivyDocument} (hhit : hit ∈ found) :
    ∃ col, m.collections[c]? = some col ∧ hit.2 ∈ col.reader := by
  rw [queryHits] at h
  split at h
  · cases h
  · cases hcol : m.collections[c]? with
    | none =>
        rw [hcol] at h
        cases h
    | some col =>
        rw [hcol] at h
        cases htranslate : translateQuery col.index col.fieldMap query with
        | error e =>
            simp [htranslate, bind, Except.bind] at h
        | ok tq =>
            simp only [htranslate, bind, Except.bind] at h
            split at h
            · cases h
            · rename_i hits hhits
              have hfound : hits = found := (Prod.mk.inj (Except.ok.inj h)).2
              refine ⟨col, rfl, ?_⟩
              have hperm := NamedSearcher.hits_perm _ _ _ _ hhits
              exact List.mem_of_mem_filter (hperm.mem_iff.1 (List.mem_map_of_mem (hfound ▸ hhit)))

/-- A query for everything. -/
def everythingQuery : Query := .bool [] [] [.bool [] [] []]

omit [FileSystem] [Tantivy] in
/-- It finds what the reader shows. -/
theorem queryHits_everythingQuery {m : CollectionIndexManager} {c : String} {col : CollectionIndex}
    (hm : m.poisoned = false) (hcol : m.collections[c]? = some col) :
    ∃ found, m.queryHits c everythingQuery = .ok (col.fieldMap, found) ∧
      (found.map Prod.snd).Perm col.reader := by
  have htranslate : translateQuery col.index col.fieldMap everythingQuery =
      .ok (.boolean [(.mustNot, .boolean []), (.must, .all)]) := rfl
  obtain ⟨found, hfound⟩ := TotalSearcher.hits_everything col.index col.reader
  refine ⟨found, ?_, ?_⟩
  · rw [queryHits, hm, if_neg Bool.false_ne_true, hcol]
    simp only [htranslate, hfound, bind, Except.bind]
  · have hperm := NamedSearcher.hits_perm _ _ _ _ hfound
    rwa [List.filter_eq_self.2] at hperm
    exact fun doc _ => rfl

theorem startsEmpty_iff_fresh (m : CollectionIndexManager) (c : String) : StartsEmpty m c ↔ Fresh m c := by
  constructor
  · intro hempty
    by_contra hfresh
    obtain ⟨hm, hmode, dir, cs, stored, hdir, hm', hmode', hstored, hdocs⟩ := exists_stored_of_not_fresh hfresh
    -- with every collection dropped, the directory can be opened again
    generalize hcommitted : (m.dropCollection c).2.run (cs.map Op.commit) = m' at hm' hmode' hstored
    obtain ⟨collections, hrun, hget⟩ := run_drops m'.collections.keys m' hm'
    have hnone : ∀ d : String, collections[d]? = none := by
      intro d
      rw [hget d]
      split
      · rfl
      · rename_i hd
        exact ExtTreeMap.getElem?_eq_none fun hmem => hd (ExtTreeMap.mem_keys.2 hmem)
    have hmid : (m.dropCollection c).2.run (cs.map Op.commit ++ m'.collections.keys.map Op.dropCollection) =
        { m' with collections := collections } := by
      rw [← hrun, ← hcommitted, run, run, run, List.foldl_append]
    obtain ⟨hok, hpoisoned, col, hcol, hreader⟩ :=
      createCollection_of_empty (m := { m' with collections := collections }) hm' hnone hmode' hdir hstored
    obtain ⟨found, hfound, hperm⟩ := queryHits_everythingQuery hpoisoned hcol
    obtain ⟨doc, hdoc⟩ := List.exists_mem_of_ne_nil _ hdocs
    obtain ⟨hit, hhit, -⟩ := List.mem_map.1 (hperm.mem_iff.2 (hreader ▸ hdoc))
    have hsince := hempty (cs.map Op.commit ++ m'.collections.keys.map Op.dropCollection) []
      (by rw [dropCollection_eq hm]) (by rw [hmid]; exact hok) everythingQuery col.fieldMap found
      (by rw [hmid]; exact hfound) hit hhit
    -- none of these calls indexes a document
    obtain ⟨call, -, hcall, -⟩ := hsince
    simp at hcall
  · intro hfresh mid post dropped created hdropped hcreated query fieldMap found hfound hit hhit
    have hm : m.poisoned = false := by
      by_contra hm
      have hlocked : dropped.1 = .error lockPoisoned := by
        show (m.dropCollection c).1 = _
        rw [dropCollection, if_pos (by simpa using hm)]
      rw [hlocked] at hdropped
      cases hdropped
    have hstart : Renewed (IndexedBy (mid ++ post)) c dropped.2 := by
      show Renewed _ c (m.dropCollection c).2
      rw [dropCollection_eq hm]
      exact hfresh.renewed hm _
    have hmid : ∀ doc, IndexedBy mid doc → IndexedBy (mid ++ post) doc := by
      rintro doc ⟨call, fm, hcall, hdoc⟩
      exact ⟨call, fm, List.mem_append_left _ hcall, hdoc⟩
    have hpost : ∀ doc, IndexedBy post doc → IndexedBy (mid ++ post) doc := by
      rintro doc ⟨call, fm, hcall, hdoc⟩
      exact ⟨call, fm, List.mem_append_right _ hcall, hdoc⟩
    have hend := ((hstart.run hmid).createCollection c).run hpost
    obtain ⟨col, hcol, hmem⟩ := mem_reader_of_queryHits hfound hhit
    exact hend.reader col hcol hit.2 hmem

/-- **Collections that are created again.** After a drop a collection starts empty exactly
where it is fresh, in RAM always; and a call changes the searches on another collection
exactly when it panics. -/
theorem recreate_isolate (m : CollectionIndexManager) :
    (∀ c, StartsEmpty m c ↔ Fresh m c) ∧
      ∀ op d, d ≠ op.collection → (SameSearches d m (m.step op) ↔ ¬ Panics m op) :=
  ⟨startsEmpty_iff_fresh m, fun op _ hd => sameSearches_step_iff m op hd⟩

end Recreate

/-! ## A directory that stays -/

/-- The searches of `phraseSearcher` do not fail. -/
@[reducible] def phraseTotal : TotalSearcher where
  toNamedSearcher := phraseSearcher
  hits_everything _ _ := ⟨_, rfl⟩

theorem recreate_isolate_inRam :
    @StartsEmpty indexDirs wordTantivy phraseTotal newInRam "c" ∧
      @SameSearches phraseTotal.toSearcher "b" newInRam (newInRam.step (.createCollection "c")) := by
  obtain ⟨hempty, hisolated⟩ := @recreate_isolate indexDirs wordTantivy phraseTotal newInRam
  refine ⟨(hempty "c").2 fun _ hmode => ?_, (hisolated (.createCollection "c") "b" (by decide)).2 id⟩
  exact absurd hmode (by decide)

/-- The calls that put a document into a collection on disk. -/
def plainOps : List Op := [.createCollection "c", .indexDocument plainCall, .commit "c"]

/-- On disk, a document from before the drop is found in the new collection. -/
theorem not_startsEmpty_onDisk :
    letI : TotalSearcher := phraseTotal
    ¬ StartsEmpty (CollectionIndexManager.new.run plainOps) "c" := by
  intro h
  have hempty := h [] []
  have hfound : (@queryHits phraseTotal.toSearcher
      (((CollectionIndexManager.new.run plainOps).dropCollection "c").2.createCollection "c").2 "c"
        everythingQuery).toOption.map (fun found => found.2.length) = some 1 := by
    decide
  cases hquery : @queryHits phraseTotal.toSearcher
      (((CollectionIndexManager.new.run plainOps).dropCollection "c").2.createCollection "c").2 "c"
        everythingQuery with
  | error e =>
      rw [hquery] at hfound
      exact nomatch hfound
  | ok found =>
      rw [hquery] at hfound
      have hlength : found.2.length = 1 := Option.some.inj hfound
      obtain ⟨hit, hhit⟩ := List.exists_mem_of_length_pos (hlength ▸ Nat.one_pos)
      have hok : (((CollectionIndexManager.new.run plainOps).dropCollection "c").2.createCollection "c").1 =
          .ok () := by
        decide
      obtain ⟨call, -, hcall, -⟩ := hempty rfl hok everythingQuery found.1 found.2 hquery hit hhit
      exact nomatch hcall

end CollectionIndexManager

end MSearchDB.Index
