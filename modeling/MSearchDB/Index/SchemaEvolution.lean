import MSearchDB.Index.FieldHandles

/-!
# Documents and schema rebuilds

A document with a field that the mapping of its call does not have makes
`index_document` rebuild the schema of the collection. A rebuild of an index in RAM
starts with an empty index, and a rebuild of an open index on disk fails, because the
old writer still holds the directory, and leaves the collection closed with what was
not committed. `nothingLost_of_along` says which runs lose nothing all the same: every
document that was indexed and not deleted since is found by its id after the next
commit, as long as no rebuild comes when the collection still has such a document.
-/

set_option autoImplicit false

namespace MSearchDB.Index

open MSearchDB.Lib
open MSearchDB.Core
open Std (ExtTreeMap)

/-! ## Documents and their ids -/

/-- The id can be a term. -/
def ShortId (id : DocumentId) : Prop := (asBytes id.val).length ≤ maxTokenLen

/-- The document has this id and no other, under the first handle. -/
def HasId (doc : TantivyDocument) (id : DocumentId) : Prop :=
  doc.getFirst 0 = some (.str id.val) ∧ ∀ v ∈ doc.values, v.1 = 0 → v.2 = .str id.val

theorem HasId.mem {doc : TantivyDocument} {id : DocumentId} (h : HasId doc id) :
    (0, OwnedValue.str id.val) ∈ doc.values := by
  obtain ⟨v, hv, hval⟩ := Option.map_eq_some_iff.1 h.1
  have hfield : v.1 = 0 := by simpa using List.find?_some hv
  have hmem := List.mem_of_find?_eq_some hv
  rwa [← hval, ← hfield]

/-- The first two facts about an open collection that every run keeps: the id has the
first handle in the field map and in the index. -/
structure IdFirst (col : CollectionIndex) : Prop where
  map_id : col.fieldMap["_id"]? = some 0
  only_id : ∀ name : String, col.fieldMap[name]? = some 0 → name = "_id"
  entry : col.index.entries[0]? = some ⟨"_id", .text "raw"⟩

theorem idFirst_of_wellBuilt {m : CollectionIndexManager} (h : m.WellBuilt) {c : String}
    {col : CollectionIndex} (hcol : m.collections[c]? = some col) : IdFirst col := by
  obtain ⟨order, mapping, hbuild⟩ := h.built c col hcol
  have hdescribes := (buildSchemaFromMapping_spec hbuild).1
  have hschema : col.schema.entries[0]? = some ⟨"_id", .text "raw"⟩ :=
    List.prefix_iff_getElem?.1 (CollectionIndexManager.meta_prefix_build hbuild) 0 (by decide)
  refine ⟨(hdescribes _ _).2 ⟨_, hschema⟩, fun name hname => ?_, ?_⟩
  · obtain ⟨ty, hty⟩ := (hdescribes name 0).1 hname
    have hentry := Option.some.inj (hty.symm.trans hschema)
    exact congrArg FieldEntry.name hentry
  · exact List.prefix_iff_getElem?.1 (h.meta_prefix c col hcol) 0 (by decide)

/-- A search for an id finds the documents that have it. -/
theorem hasTerm_id_iff [Tantivy] {schema : Schema}
    (hentry : schema.entries[0]? = some ⟨"_id", .text "raw"⟩) {doc : TantivyDocument}
    {id : DocumentId} (hdoc : HasId doc id) (hid : ShortId id) (text : String) :
    schema.hasTerm 0 text doc = true ↔ text = id.val := by
  have hterms : Tantivy.terms "raw" id.val = [id.val] := Tantivy.terms_raw _ hid
  simp only [Schema.hasTerm, hentry, Option.any_some, List.any_eq_true, Bool.and_eq_true,
    decide_eq_true_eq]
  constructor
  · rintro ⟨v, hv, hfield, hterm⟩
    rw [hdoc.2 v hv hfield, FieldType.termsOf, hterms, List.mem_singleton] at hterm
    exact hterm
  · rintro rfl
    exact ⟨_, hdoc.mem, rfl, by rw [FieldType.termsOf, hterms]; exact List.mem_singleton_self _⟩

theorem reconstructDocument_id {col : CollectionIndex} (hcol : IdFirst col) {doc : TantivyDocument}
    {id : DocumentId} (hdoc : HasId doc id) : (reconstructDocument doc col.fieldMap).id = id := by
  simp [reconstructDocument, hcol.map_id, hdoc.1]

/-- The values of a field have its handle and its type. -/
theorem mem_fieldValues {field : Field} {value : FieldValue} {v : Field × OwnedValue}
    (h : v ∈ fieldValues field value) :
    v.1 = field ∧ (schemaType (fieldValueToMappedType value)).accepts v.2 = true := by
  cases value with
  | text s => cases List.mem_singleton.1 h; exact ⟨rfl, rfl⟩
  | number x => cases List.mem_singleton.1 h; exact ⟨rfl, rfl⟩
  | boolean b => cases List.mem_singleton.1 h; exact ⟨rfl, rfl⟩
  | array vs =>
      obtain ⟨s, -, rfl⟩ := List.mem_map.1 h
      exact ⟨rfl, rfl⟩

/-- **Where a value comes from**: the id, the time, a field, or the body. -/
theorem mem_buildTantivyDoc {doc : Document} {fieldMap : FieldMap} {order : HashOrder FieldValue}
    {now : UInt64} {v : Field × OwnedValue}
    (h : v ∈ (buildTantivyDoc doc fieldMap order now).values) :
    (fieldMap["_id"]? = some v.1 ∧ v.2 = .str doc.id.val) ∨
      (fieldMap["_timestamp"]? = some v.1 ∧ v.2 = .u64 now) ∨
      (∃ (name : String) (value : FieldValue),
        doc.fields[name]? = some value ∧ fieldMap[name]? = some v.1 ∧
          (schemaType (fieldValueToMappedType value)).accepts v.2 = true) ∨
      (fieldMap["_body"]? = some v.1 ∧ ∃ text, v.2 = .str text) := by
  simp only [buildTantivyDoc, List.mem_append] at h
  rcases h with ((h | h) | h) | h
  · obtain ⟨f, hf, rfl⟩ := Option.map_eq_some_iff.1 (Option.mem_toList.1 h)
    exact .inl ⟨hf, rfl⟩
  · obtain ⟨f, hf, rfl⟩ := Option.map_eq_some_iff.1 (Option.mem_toList.1 h)
    exact .inr (.inl ⟨hf, rfl⟩)
  · obtain ⟨⟨name, value⟩, hmem, hval⟩ := List.mem_flatMap.1 h
    have hfields := ExtTreeMap.mem_toList_iff_getElem?_eq_some.1 ((order.perm doc.fields).mem_iff.1 hmem)
    cases hfield : fieldMap[name]? with
    | none =>
        rw [hfield] at hval
        cases hval
    | some field =>
        rw [hfield] at hval
        obtain ⟨rfl, hacc⟩ := mem_fieldValues hval
        exact .inr (.inr (.inl ⟨name, value, hfields, hfield, hacc⟩))
  · split at h
    · cases h
    · obtain ⟨f, hf, rfl⟩ := Option.map_eq_some_iff.1 (Option.mem_toList.1 h)
      exact .inr (.inr (.inr ⟨hf, _, rfl⟩))

/-- A document gets its id as the first value, and no other where it has no field of
that name. -/
theorem hasId_buildTantivyDoc {col : CollectionIndex} (hcol : IdFirst col) {doc : Document}
    (hfield : doc.fields["_id"]? = none) (order : HashOrder FieldValue) (now : UInt64) :
    HasId (buildTantivyDoc doc col.fieldMap order now) doc.id := by
  constructor
  · simp [TantivyDocument.getFirst, buildTantivyDoc, hcol.map_id]
  · intro v hv hzero
    rcases mem_buildTantivyDoc hv with ⟨-, hval⟩ | ⟨hf, -⟩ | ⟨name, value, hdoc, hf, -⟩ | ⟨hf, -⟩
    · exact hval
    · rw [hzero] at hf
      exact absurd (hcol.only_id _ hf) (by decide)
    · rw [hzero] at hf
      rw [hcol.only_id _ hf, hfield] at hdoc
      cases hdoc
    · rw [hzero] at hf
      exact absurd (hcol.only_id _ hf) (by decide)

/-! ## Documents and the schemas built for them -/

theorem registerStep_ok {acc acc' : FieldMapping × List (String × MappedFieldType)}
    {nv : String × FieldValue} (h : CollectionIndexManager.registerStep acc nv = .ok acc') :
    acc'.1.fields[nv.1]? = some (fieldValueToMappedType nv.2) ∧ acc.1.Le acc'.1 := by
  simp only [CollectionIndexManager.registerStep] at h
  split at h
  · cases h
  next hregister =>
    obtain rfl := Except.ok.inj h
    obtain ⟨hfield, hle, -⟩ := FieldMapping.registerField_ok hregister
    exact ⟨hfield, hle⟩
  next hregister =>
    obtain rfl := Except.ok.inj h
    obtain ⟨hfield, hle, -⟩ := FieldMapping.registerField_ok hregister
    exact ⟨hfield, hle⟩

theorem foldlM_registerStep_ok (nvs : List (String × FieldValue)) :
    ∀ {acc acc' : FieldMapping × List (String × MappedFieldType)},
      nvs.foldlM CollectionIndexManager.registerStep acc = .ok acc' →
        (∀ nv ∈ nvs, acc'.1.fields[nv.1]? = some (fieldValueToMappedType nv.2)) ∧ acc.1.Le acc'.1 := by
  induction nvs with
  | nil =>
      intro acc acc' h
      cases h
      exact ⟨fun _ hmem => (by cases hmem), fun _ _ hold => hold⟩
  | cons nv nvs ih =>
      intro acc acc' h
      rw [List.foldlM_cons] at h
      cases hstep : CollectionIndexManager.registerStep acc nv with
      | error e =>
          rw [hstep] at h
          cases h
      | ok mid =>
          rw [hstep] at h
          obtain ⟨hnv, hkeep⟩ := registerStep_ok hstep
          obtain ⟨hrest, hkeep'⟩ := ih h
          refine ⟨fun nv' hmem => ?_, fun name ty hold => hkeep' _ _ (hkeep _ _ hold)⟩
          rcases List.mem_cons.1 hmem with rfl | hmem
          · exact hkeep' _ _ hnv
          · exact hrest nv' hmem

/-- **Detected fields.** The updated mapping has the type of every field of the
document. -/
theorem detectFields_ok {call : IndexCall} {updated : FieldMapping}
    {newFields : List (String × MappedFieldType)}
    (h : CollectionIndexManager.detectFields call = .ok (updated, newFields)) {name : String}
    {value : FieldValue} (hfield : call.doc.fields[name]? = some value) :
    updated.fields[name]? = some (fieldValueToMappedType value) :=
  (foldlM_registerStep_ok _ h).1 (name, value) ((call.fieldOrder.perm _).mem_iff.2
    (ExtTreeMap.mem_toList_iff_getElem?_eq_some.2 hfield))

/-- A field of the mapping has its type in the schema, also under the names of the
meta-fields. -/
theorem typeInMapping_of_mem {order : HashOrder MappedFieldType} {mapping : FieldMapping}
    {schema : Schema} {fieldMap : FieldMap}
    (h : buildSchemaFromMapping order mapping true = some (schema, fieldMap)) {name : String}
    {ty : MappedFieldType} (hfield : mapping.fields[name]? = some ty) :
    typeInMapping mapping name = some (schemaType ty) := by
  have hmem : (name, ty) ∈ order.iter mapping.fields :=
    (order.perm _).mem_iff.2 (ExtTreeMap.mem_toList_iff_getElem?_eq_some.2 hfield)
  have hentry : (⟨name, schemaType ty⟩ : FieldEntry) ∈ schema.entries := by
    rw [(buildSchemaFromMapping_spec h).2]
    exact List.mem_append_right _ (List.mem_map.2 ⟨_, hmem, rfl⟩)
  obtain ⟨field, hget⟩ := List.mem_iff_getElem?.1 hentry
  exact typeInMapping_of_build h hget

/-- A schema that could be built has no user field `_id`. -/
theorem id_notMem_of_build {order : HashOrder MappedFieldType} {mapping : FieldMapping}
    {schema : Schema} {fieldMap : FieldMap}
    (h : buildSchemaFromMapping order mapping true = some (schema, fieldMap)) :
    mapping.fields["_id"]? = none := by
  cases hfield : mapping.fields["_id"]? with
  | none => rfl
  | some ty =>
      have htype := typeInMapping_of_mem h hfield
      have hmeta : typeInMapping mapping "_id" = some (.text "raw") := rfl
      rw [hmeta] at htype
      cases ty <;> simp [schemaType] at htype

/-- No document has a field `_id` when the schema of its mapping is built. -/
theorem idField_eq_none {call : IndexCall} {updated : FieldMapping}
    {newFields : List (String × MappedFieldType)}
    (hdetect : CollectionIndexManager.detectFields call = .ok (updated, newFields))
    {order : HashOrder MappedFieldType} {schema : Schema} {fieldMap : FieldMap}
    (hbuild : buildSchemaFromMapping order updated true = some (schema, fieldMap)) :
    call.doc.fields["_id"]? = none := by
  cases hfield : call.doc.fields["_id"]? with
  | none => rfl
  | some value =>
      have hmem := detectFields_ok hdetect hfield
      rw [id_notMem_of_build hbuild] at hmem
      cases hmem

/-- **A document fits the schema that was built for it**, and every index that begins
with it. -/
theorem fits_buildTantivyDoc {call : IndexCall} {updated : FieldMapping}
    {newFields : List (String × MappedFieldType)}
    (hdetect : CollectionIndexManager.detectFields call = .ok (updated, newFields))
    {order : HashOrder MappedFieldType} {schema index : Schema} {fieldMap : FieldMap}
    (hbuild : buildSchemaFromMapping order updated true = some (schema, fieldMap))
    (hpre : schema.entries <+: index.entries) (fields : HashOrder FieldValue) (now : UInt64) :
    index.Fits (buildTantivyDoc call.doc fieldMap fields now) := by
  -- the entry behind a handle of the field map
  have hentry : ∀ {name : String} {field : Field} {ty : FieldType}, fieldMap[name]? = some field →
      typeInMapping updated name = some ty → index.entries[field]? = some ⟨name, ty⟩ := by
    intro name field ty hfield htype
    obtain ⟨ty', hty'⟩ := ((buildSchemaFromMapping_spec hbuild).1 name field).1 hfield
    have hsame := Option.some.inj (htype.symm.trans (typeInMapping_of_build hbuild hty'))
    obtain ⟨hbound, hget⟩ := List.getElem?_eq_some_iff.1 hty'
    rw [List.prefix_iff_getElem?.1 hpre field hbound, hget, hsame]
  intro v hv
  rcases mem_buildTantivyDoc hv with ⟨hf, hval⟩ | ⟨hf, hval⟩ | ⟨name, value, hdoc, hf, hacc⟩ |
    ⟨hf, text, hval⟩
  · exact ⟨_, hentry hf rfl, by rw [hval]; rfl⟩
  · exact ⟨_, hentry hf rfl, by rw [hval]; rfl⟩
  · exact ⟨_, hentry hf (typeInMapping_of_mem hbuild (detectFields_ok hdetect hdoc)), hacc⟩
  · exact ⟨_, hentry hf rfl, by rw [hval]; rfl⟩

/-! ## Runs and what they owe -/

/-- A manager, with the documents that were indexed and not deleted since. -/
structure Tracked where
  manager : CollectionIndexManager
  indexed : List (String × DocumentId)

namespace Tracked

open CollectionIndexManager (Op)

variable [Tantivy] [FileSystem]

/-- What is owed after a call: an addition or a deletion counts when it returned
`Ok`. -/
def indexedAfter (t : Tracked) : Op → List (String × DocumentId)
  | .indexDocument call =>
      match (t.manager.indexDocument call).1 with
      | some (.ok _) => (call.collection, call.doc.id) :: t.indexed
      | _ => t.indexed
  | .deleteDocument c id =>
      match (t.manager.deleteDocument c id).1 with
      | .ok () => t.indexed.filter (· ≠ (c, id))
      | .error _ => t.indexed
  | .dropCollection c =>
      match (t.manager.dropCollection c).1 with
      | .ok () => t.indexed.filter (·.1 ≠ c)
      | .error _ => t.indexed
  | _ => t.indexed

def step (t : Tracked) (op : Op) : Tracked := ⟨t.manager.step op, t.indexedAfter op⟩

def run (t : Tracked) (ops : List Op) : Tracked := ops.foldl step t

/-- The start of a run. -/
def start (m : CollectionIndexManager) : Tracked := ⟨m, []⟩

/-- After the next commit a search for the id finds a document with it. -/
def FoundAfterCommit (m : CollectionIndexManager) (c : String) (id : DocumentId) : Prop :=
  ∃ docs, (m.commit c).2.searchTerm c "_id" id.val = .ok docs ∧ ∃ doc ∈ docs, doc.id = id

/-- Every document that was indexed and not deleted since is found. -/
def NothingLost (t : Tracked) : Prop := ∀ c id, (c, id) ∈ t.indexed → FoundAfterCommit t.manager c id

/-- The condition of a call that loses nothing. The id can be a term. A document without
new fields fits the index that is open and brings no id of its own. A document with new
fields comes when the collection has no document that was indexed, does not open an
index again that has not these fields, and panics only when no collection has any. -/
def LosesNothing (t : Tracked) : Op → Prop
  | .indexDocument call =>
      ShortId call.doc.id ∧
        ∀ updated newFields, CollectionIndexManager.detectFields call = .ok (updated, newFields) →
          if newFields = [] then
            call.doc.fields["_id"]? = none ∧
              ∀ col, t.manager.collections[call.collection]? = some col →
                col.index.Fits (buildTantivyDoc call.doc col.fieldMap call.fieldOrder call.now)
          else
            (∀ id, (call.collection, id) ∉ t.indexed) ∧
              CollectionIndexManager.OpensFitting t.manager (.indexDocument call) ∧
              (buildSchemaFromMapping call.mappingOrder updated true = none → t.indexed = [])
  | _ => True

/-- Every document of the writer has one id, and it can be a term. -/
def HasIds (docs : List TantivyDocument) : Prop := ∀ doc ∈ docs, ∃ id, ShortId id ∧ HasId doc id

/-- The invariant of runs that lose nothing. -/
structure Kept (t : Tracked) : Prop where
  wellBuilt : t.manager.WellBuilt
  poisoned : t.manager.poisoned = true → t.indexed = []
  disk : ∀ dir stored, t.manager.disk dir = some stored → HasIds stored.docs
  pending : ∀ (c : String) (col : CollectionIndex), t.manager.collections[c]? = some col →
    HasIds col.writer.pending
  held : ∀ c id, (c, id) ∈ t.indexed → ∃ col, t.manager.collections[c]? = some col ∧
    col.writer.killed = false ∧ ∃ doc ∈ col.writer.pending, ShortId id ∧ HasId doc id

/-- What the writer holds is found after a commit. -/
theorem Kept.nothingLost {t : Tracked} (h : Kept t) : NothingLost t := by
  intro c id howed
  obtain ⟨col, hcol, hkilled, doc, hdoc, hshort, hid⟩ := h.held c id howed
  have hfirst := idFirst_of_wellBuilt h.wellBuilt hcol
  have hpoisoned : t.manager.poisoned = false := by
    by_contra hp
    rw [h.poisoned (by simpa using hp)] at howed
    cases howed
  -- the hits are documents with this id, and there is one
  have hhit : ∀ hit ∈ Tantivy.rank (col.writer.pending.filter (col.index.hasTerm 0 id.val)),
      (reconstructDocument hit col.fieldMap).id = id := by
    intro hit hmem
    obtain ⟨hpending, hterm⟩ := List.mem_filter.1 ((Tantivy.rank_perm _).mem_iff.1 hmem)
    obtain ⟨id', hshort', hid'⟩ := h.pending c col hcol hit hpending
    rw [reconstructDocument_id hfirst hid']
    have heq := (hasTerm_id_iff hfirst.entry hid' hshort' id.val).1 hterm
    exact congrArg DocumentId.mk heq.symm
  have hmem : doc ∈ Tantivy.rank (col.writer.pending.filter (col.index.hasTerm 0 id.val)) :=
    (Tantivy.rank_perm _).mem_iff.2 (List.mem_filter.2
      ⟨hdoc, (hasTerm_id_iff hfirst.entry hid hshort id.val).2 rfl⟩)
  have hsearch : (t.manager.commit c).2.searchTerm c "_id" id.val =
      .ok (((Tantivy.rank (col.writer.pending.filter (col.index.hasTerm 0 id.val))).take
        CollectionIndexManager.defaultSearchLimit).map
          fun doc => reconstructDocument doc col.fieldMap) := by
    simp [CollectionIndexManager.commit, CollectionIndexManager.searchTerm, hpoisoned, hcol,
      IndexWriter.commit, hkilled, hfirst.map_id]
  refine ⟨_, hsearch, ?_⟩
  generalize Tantivy.rank (col.writer.pending.filter (col.index.hasTerm 0 id.val)) = hits
    at hhit hmem
  cases hits with
  | nil => cases hmem
  | cons hit hits =>
      exact ⟨_, List.mem_map_of_mem (by simp [CollectionIndexManager.defaultSearchLimit]),
        hhit hit List.mem_cons_self⟩

/-! ## The calls one by one -/

omit [Tantivy] [FileSystem] in
/-- One collection has changed, and not by losing what it owes. -/
theorem Kept.update {t : Tracked} (h : Kept t) {m' : CollectionIndexManager}
    {indexed : List (String × DocumentId)} (hwell : m'.WellBuilt) (hpoisoned : m'.poisoned = false)
    (hdisk : ∀ dir stored, m'.disk dir = some stored → HasIds stored.docs) (c : String)
    (hother : ∀ d, d ≠ c → m'.collections[d]? = t.manager.collections[d]?)
    (hpending : ∀ col, m'.collections[c]? = some col → HasIds col.writer.pending)
    (howed : ∀ d id, (d, id) ∈ indexed → d ≠ c → (d, id) ∈ t.indexed)
    (hheld : ∀ id, (c, id) ∈ indexed → ∃ col, m'.collections[c]? = some col ∧
      col.writer.killed = false ∧ ∃ doc ∈ col.writer.pending, ShortId id ∧ HasId doc id) :
    Kept ⟨m', indexed⟩ where
  wellBuilt := hwell
  poisoned hp := by
    rw [hpoisoned] at hp
    cases hp
  disk := hdisk
  pending d col hcol := by
    by_cases hd : d = c
    · subst hd
      exact hpending col hcol
    · rw [hother d hd] at hcol
      exact h.pending d col hcol
  held d id hmem := by
    by_cases hd : d = c
    · subst hd
      exact hheld id hmem
    · rw [hother d hd]
      exact h.held d id (howed d id hmem hd)

omit [Tantivy] [FileSystem] in
theorem hasIds_nil : HasIds [] := fun _ hmem => by cases hmem

/-- An index that has just been opened has a new writer, on what its directory had. -/
theorem Kept.openIndex {t : Tracked} (h : Kept t) {c : String} {schema : Schema}
    {fieldMap : FieldMap} {col : CollectionIndex} {disk : String → Option StoredIndex}
    (hopen : t.manager.openIndex c schema fieldMap = (.ok col, disk)) :
    col.writer.killed = false ∧ HasIds col.writer.pending := by
  rw [CollectionIndexManager.openIndex] at hopen
  split at hopen
  · split at hopen
    · cases hopen
    · next dir hdir =>
        dsimp only at hopen
        split at hopen
        · cases hopen
        · cases hopen
          refine ⟨rfl, ?_⟩
          cases hstored : t.manager.disk dir with
          | none => exact hasIds_nil
          | some stored => exact h.disk dir stored hstored
  · cases hopen
    exact ⟨rfl, hasIds_nil⟩

theorem Kept.openIndex_disk {t : Tracked} (h : Kept t) (c : String) (schema : Schema)
    (fieldMap : FieldMap) (dir : String) (stored : StoredIndex)
    (hstored : (t.manager.openIndex c schema fieldMap).2 dir = some stored) :
    HasIds stored.docs := by
  rcases CollectionIndexManager.openIndex_disk _ c schema fieldMap hstored with hold | rfl
  · exact h.disk dir stored hold
  · exact hasIds_nil

omit [Tantivy] [FileSystem] in
theorem Kept.notMem_of_closed {t : Tracked} (h : Kept t) {c : String}
    (hclosed : t.manager.collections[c]? = none) (id : DocumentId) : (c, id) ∉ t.indexed := by
  intro hmem
  obtain ⟨col, hcol, -⟩ := h.held c id hmem
  rw [hclosed] at hcol
  cases hcol

omit [Tantivy] [FileSystem] in
theorem getElem?_insert_of_ne {collections : ExtTreeMap String CollectionIndex} {c d : String}
    (hd : d ≠ c) (col : CollectionIndex) : (collections.insert c col)[d]? = collections[d]? := by
  rw [ExtTreeMap.getElem?_insert, if_neg (mt Std.LawfulEqCmp.compare_eq_iff_eq.1 (Ne.symm hd))]

theorem Kept.createCollection {t : Tracked} (h : Kept t) (c : String) :
    Kept (t.step (.createCollection c)) := by
  have hwell := (CollectionIndexManager.createCollection_spec h.wellBuilt c).1
  have hdisk := h.openIndex_disk c initialSchema initialFieldMap
  show Kept ⟨(t.manager.createCollection c).2, t.indexed⟩
  rw [CollectionIndexManager.createCollection] at hwell ⊢
  split
  · exact h
  next hpoisoned =>
  rw [if_neg hpoisoned] at hwell
  have hnot : t.manager.poisoned = false := by simpa using hpoisoned
  split
  · exact h
  next hclosed =>
  rw [if_neg hclosed] at hwell
  have hnone : t.manager.collections[c]? = none := ExtTreeMap.getElem?_eq_none hclosed
  cases hopen : t.manager.openIndex c initialSchema initialFieldMap with
  | mk result disk =>
      rw [hopen] at hdisk hwell
      cases result with
      | error e =>
          exact h.update hwell hnot hdisk c (fun _ _ => rfl) (h.pending c) (fun _ _ hmem _ => hmem)
            (h.held c)
      | ok col =>
          obtain ⟨-, hpending⟩ := h.openIndex hopen
          refine h.update hwell hnot hdisk c (fun d hd => getElem?_insert_of_ne hd col) ?_
            (fun _ _ hmem _ => hmem) (fun id hmem => absurd hmem (h.notMem_of_closed hnone id))
          intro col' hcol'
          rcases CollectionIndexManager.getElem?_insert_cases hcol' with ⟨-, rfl⟩ | ⟨hne, -⟩
          · exact hpending
          · exact absurd rfl hne

omit [Tantivy] [FileSystem] in
/-- A collection that owes nothing is closed. -/
theorem Kept.erase {t : Tracked} (h : Kept t) {m' : CollectionIndexManager} {c : String}
    (hcollections : m'.collections = t.manager.collections.erase c) (hwell : m'.WellBuilt)
    (hpoisoned : m'.poisoned = false)
    (hdisk : ∀ dir stored, m'.disk dir = some stored → HasIds stored.docs)
    {indexed : List (String × DocumentId)}
    (howed : ∀ d id, (d, id) ∈ indexed → d ≠ c ∧ (d, id) ∈ t.indexed) : Kept ⟨m', indexed⟩ := by
  refine h.update hwell hpoisoned hdisk c (fun d hd => ?_) (fun col hcol => ?_)
    (fun d id hmem _ => (howed d id hmem).2) fun id hmem => absurd rfl (howed c id hmem).1
  · rw [hcollections, ExtTreeMap.getElem?_erase,
      if_neg (mt Std.LawfulEqCmp.compare_eq_iff_eq.1 (Ne.symm hd))]
  · rw [hcollections, ExtTreeMap.getElem?_erase_self] at hcol
    cases hcol

omit [Tantivy] [FileSystem] in
/-- An index takes the place of the one of its collection, where nothing is owed. -/
theorem Kept.replace {t : Tracked} (h : Kept t) {m' : CollectionIndexManager} {c : String}
    {col : CollectionIndex} (hcollections : m'.collections = (t.manager.collections.erase c).insert c col)
    (hwell : m'.WellBuilt) (hpoisoned : m'.poisoned = false)
    (hdisk : ∀ dir stored, m'.disk dir = some stored → HasIds stored.docs)
    (hpending : HasIds col.writer.pending) (howed : ∀ id, (c, id) ∉ t.indexed) :
    Kept ⟨m', t.indexed⟩ := by
  refine h.update hwell hpoisoned hdisk c (fun d hd => ?_) (fun col' hcol' => ?_)
    (fun d id hmem _ => hmem) fun id hmem => absurd hmem (howed id)
  · rw [hcollections, getElem?_insert_of_ne hd, ExtTreeMap.getElem?_erase,
      if_neg (mt Std.LawfulEqCmp.compare_eq_iff_eq.1 (Ne.symm hd))]
  · rw [hcollections, ExtTreeMap.getElem?_insert_self] at hcol'
    cases hcol'
    exact hpending

theorem Kept.dropCollection {t : Tracked} (h : Kept t) (c : String) :
    Kept (t.step (.dropCollection c)) := by
  have hwell := CollectionIndexManager.wellBuilt_step h.wellBuilt (.dropCollection c)
  simp only [step, indexedAfter, CollectionIndexManager.step,
    CollectionIndexManager.dropCollection] at hwell ⊢
  split
  · exact h
  next hpoisoned =>
  rw [if_neg hpoisoned] at hwell
  refine h.erase rfl hwell (by simpa using hpoisoned) h.disk fun d id hmem => ?_
  obtain ⟨hmem, hne⟩ := List.mem_filter.1 hmem
  exact ⟨by simpa using hne, hmem⟩

omit [Tantivy] [FileSystem] in
/-- The writer of an open collection has changed. -/
theorem Kept.writer {t : Tracked} (h : Kept t) {c : String} {col : CollectionIndex}
    (hpoisoned : t.manager.poisoned = false)
    {writer : IndexWriter} {reader : List TantivyDocument} {disk : String → Option StoredIndex}
    (hwell : CollectionIndexManager.WellBuilt { t.manager with
      collections := t.manager.collections.insert c { col with writer := writer, reader := reader }
      disk := disk })
    (hdisk : ∀ dir stored, disk dir = some stored → HasIds stored.docs)
    (hpending : HasIds writer.pending) {indexed : List (String × DocumentId)}
    (howed : ∀ d id, (d, id) ∈ indexed → d ≠ c → (d, id) ∈ t.indexed)
    (hheld : ∀ id, (c, id) ∈ indexed → writer.killed = false ∧
      ∃ doc ∈ writer.pending, ShortId id ∧ HasId doc id) :
    Kept ⟨{ t.manager with
      collections := t.manager.collections.insert c { col with writer := writer, reader := reader }
      disk := disk }, indexed⟩ := by
  refine h.update hwell hpoisoned hdisk c (fun d hd => getElem?_insert_of_ne hd _)
    (fun col' hcol' => ?_) howed fun id hmem => ?_
  · rw [ExtTreeMap.getElem?_insert_self] at hcol'
    cases hcol'
    exact hpending
  · obtain ⟨hkilled, hdoc⟩ := hheld id hmem
    exact ⟨_, ExtTreeMap.getElem?_insert_self, hkilled, hdoc⟩

/-- A deletion takes the documents with its own id. -/
theorem Kept.deleteDocument {t : Tracked} (h : Kept t) (c : String) (id : DocumentId) :
    Kept (t.step (.deleteDocument c id)) := by
  have hwell := CollectionIndexManager.wellBuilt_step h.wellBuilt (.deleteDocument c id)
  simp only [step, indexedAfter, CollectionIndexManager.step,
    CollectionIndexManager.deleteDocument] at hwell ⊢
  split
  · exact h
  next hpoisoned =>
  rw [if_neg hpoisoned] at hwell
  cases hcol : t.manager.collections[c]? with
  | none => exact h
  | some col =>
      have hfirst := idFirst_of_wellBuilt h.wellBuilt hcol
      simp only [hcol, hfirst.map_id] at hwell ⊢
      refine h.writer (by simpa using hpoisoned) hwell h.disk ?_ ?_ ?_
      · exact fun doc hmem => h.pending c col hcol doc (List.mem_filter.1 hmem).1
      · exact fun d id' hmem _ => (List.mem_filter.1 hmem).1
      · intro id' hmem
        obtain ⟨hmem, hne⟩ := List.mem_filter.1 hmem
        obtain ⟨col', hcol', hkilled, doc, hdoc, hshort, hid⟩ := h.held c id' hmem
        cases hcol.symm.trans hcol'
        refine ⟨hkilled, doc, List.mem_filter.2 ⟨hdoc, ?_⟩, hshort, hid⟩
        -- the term that is deleted is another id
        have hterm : ¬ col.index.hasTerm 0 id.val doc = true := by
          rw [hasTerm_id_iff hfirst.entry hid hshort]
          intro heq
          have hsame : id = id' := congrArg DocumentId.mk heq
          simp [hsame] at hne
        simpa using hterm

/-- A commit changes what the reader and the directory have. -/
theorem Kept.commit {t : Tracked} (h : Kept t) (c : String) : Kept (t.step (.commit c)) := by
  have hwell := CollectionIndexManager.wellBuilt_step h.wellBuilt (.commit c)
  simp only [step, indexedAfter, CollectionIndexManager.step, CollectionIndexManager.commit]
    at hwell ⊢
  split
  · exact h
  next hpoisoned =>
  rw [if_neg hpoisoned] at hwell
  cases hcol : t.manager.collections[c]? with
  | none => exact h
  | some col =>
      simp only [hcol, IndexWriter.commit] at hwell ⊢
      by_cases hkilled : col.writer.killed = true
      · rw [if_pos hkilled]
        exact h
      rw [if_neg hkilled] at hwell ⊢
      refine h.writer (by simpa using hpoisoned) hwell ?_ (h.pending c col hcol)
        (fun _ _ hmem _ => hmem) ?_
      · intro dir stored hstored
        split at hstored
        · next dir' _ _ =>
            by_cases hdir : dir = dir'
            · subst hdir
              rw [Function.update_self, Option.some.injEq] at hstored
              rw [← hstored]
              exact h.pending c col hcol
            · rw [Function.update_of_ne hdir] at hstored
              exact h.disk dir stored hstored
        · exact h.disk dir stored hstored
      · intro id hmem
        obtain ⟨col', hcol', hrest⟩ := h.held c id hmem
        cases hcol.symm.trans hcol'
        exact hrest

/-- The second half of `index_document`. -/
def added (t : Tracked) (call : IndexCall) : Tracked :=
  ⟨(t.manager.addDocument call).2,
    match (t.manager.addDocument call).1 with
    | .ok () => (call.collection, call.doc.id) :: t.indexed
    | .error _ => t.indexed⟩

omit [FileSystem] in
/-- A document that fits is held by the writer. -/
theorem Kept.added {t : Tracked} (h : Kept t) {call : IndexCall} (hshort : ShortId call.doc.id)
    (hid : call.doc.fields["_id"]? = none)
    (hfits : ∀ col, t.manager.collections[call.collection]? = some col →
      col.index.Fits (buildTantivyDoc call.doc col.fieldMap call.fieldOrder call.now)) :
    Kept (t.added call) := by
  have hwell : (t.manager.addDocument call).2.WellBuilt := by
    refine h.wellBuilt.congr (CollectionIndexManager.handles_addDocument call) ?_
    rw [CollectionIndexManager.disk_addDocument]
    exact h.wellBuilt.disk
  simp only [Tracked.added, CollectionIndexManager.addDocument] at hwell ⊢
  split
  · exact h
  next hpoisoned =>
  rw [if_neg hpoisoned] at hwell
  cases hcol : t.manager.collections[call.collection]? with
  | none => exact h
  | some col =>
      simp only [hcol, IndexWriter.addDocument] at hwell ⊢
      by_cases hkilled : col.writer.killed = true
      · simp only [hkilled, if_true]
        exact h
      simp only [hkilled, if_neg, if_pos (hfits col hcol), Bool.false_eq_true, not_false_eq_true]
        at hwell ⊢
      have hdoc := hasId_buildTantivyDoc (idFirst_of_wellBuilt h.wellBuilt hcol) hid call.fieldOrder
        call.now
      refine h.writer (by simpa using hpoisoned) hwell h.disk ?_ ?_ ?_
      · intro doc hmem
        rcases List.mem_append.1 hmem with hold | hnew
        · exact h.pending _ col hcol doc hold
        · rw [List.mem_singleton.1 hnew]
          exact ⟨_, hshort, hdoc⟩
      · intro d id hmem hd
        rcases List.mem_cons.1 hmem with heq | hold
        · exact absurd (congrArg Prod.fst heq) hd
        · exact hold
      · intro id hmem
        refine ⟨by simp, ?_⟩
        rcases List.mem_cons.1 hmem with heq | hold
        · obtain rfl := congrArg Prod.snd heq
          exact ⟨_, List.mem_append_right _ (List.mem_singleton_self _), hshort, hdoc⟩
        · obtain ⟨col', hcol', -, doc, hmem', hrest⟩ := h.held _ id hold
          cases hcol.symm.trans hcol'
          exact ⟨doc, List.mem_append_left _ hmem', hrest⟩

/-- A rebuild of a collection that owes nothing, and the document it is made for. -/
theorem Kept.rebuildSchema {t : Tracked} (h : Kept t) {call : IndexCall} {updated : FieldMapping}
    {newFields : List (String × MappedFieldType)}
    (hdetect : CollectionIndexManager.detectFields call = .ok (updated, newFields))
    (hnew : newFields ≠ []) (howed : ∀ id, (call.collection, id) ∉ t.indexed)
    (hopens : t.manager.OpensFitting (.indexDocument call))
    (hpanic : buildSchemaFromMapping call.mappingOrder updated true = none → t.indexed = []) :
    Kept ⟨(t.manager.rebuildSchema call.collection call.mappingOrder updated).2, t.indexed⟩ ∧
      ((t.manager.rebuildSchema call.collection call.mappingOrder updated).1 = some (.ok ()) →
        call.doc.fields["_id"]? = none ∧ ∀ col,
          (t.manager.rebuildSchema call.collection call.mappingOrder
            updated).2.collections[call.collection]? = some col →
          col.index.Fits (buildTantivyDoc call.doc col.fieldMap call.fieldOrder call.now)) := by
  have hwell := (CollectionIndexManager.rebuildSchema_spec h.wellBuilt call.collection
    call.mappingOrder updated).1
  have hsplit : ∀ d id, (d, id) ∈ t.indexed → d ≠ call.collection ∧ (d, id) ∈ t.indexed := by
    rintro d id hmem
    exact ⟨by rintro rfl; exact howed id hmem, hmem⟩
  rw [CollectionIndexManager.rebuildSchema] at hwell ⊢
  by_cases hpoisoned : t.manager.poisoned = true
  · rw [if_pos hpoisoned]
    exact ⟨h, fun hok => by cases hok⟩
  rw [if_neg hpoisoned] at hwell ⊢
  have hnot : t.manager.poisoned = false := by simpa using hpoisoned
  cases hbuild : buildSchemaFromMapping call.mappingOrder updated true with
  | none =>
      -- a panic, when nothing is owed anywhere
      rw [hbuild] at hwell
      refine ⟨⟨hwell, fun _ => hpanic hbuild, h.disk, fun d col hcol => ?_, fun d id hmem => ?_⟩,
        fun hok => by cases hok⟩
      · exact h.pending d col (CollectionIndexManager.getElem?_of_erase hcol)
      · rw [hpanic hbuild] at hmem
        cases hmem
  | some built =>
      obtain ⟨schema, fieldMap⟩ := built
      have hdisk := h.openIndex_disk call.collection schema fieldMap
      simp only [hbuild] at hwell ⊢
      cases hopen : t.manager.openIndex call.collection schema fieldMap with
      | mk result disk =>
          rw [hopen] at hdisk hwell
          cases result with
          | error e =>
              exact ⟨h.erase rfl hwell hnot hdisk hsplit, fun hok => by cases hok⟩
          | ok col =>
              obtain ⟨-, hpending⟩ := h.openIndex hopen
              obtain ⟨-, hmap, hindex⟩ := CollectionIndexManager.openIndex_ok hnot hopen
              constructor
              · exact h.replace rfl hwell hnot hdisk hpending howed
              · intro _
                constructor
                · exact idField_eq_none hdetect hbuild
                · intro col' hcol'
                  rw [ExtTreeMap.getElem?_insert_self] at hcol'
                  cases hcol'
                  rw [hmap]
                  -- an index that was on the disk begins with the schema, as `hopens` says
                  refine fits_buildTantivyDoc hdetect hbuild ?_ _ _
                  rw [hindex]
                  cases hreopened : t.manager.reopened call.collection with
                  | none => exact List.prefix_refl _
                  | some stored =>
                      exact hopens updated newFields schema fieldMap stored hdetect hnew hbuild hreopened

omit [FileSystem] in
/-- What the second half of a call leaves, with what is owed after it. -/
theorem Kept.of_added {t : Tracked} {call : IndexCall} (h : Kept (t.added call))
    {indexed : List (String × DocumentId)}
    (hok : (t.manager.addDocument call).1 = .ok () →
      indexed = (call.collection, call.doc.id) :: t.indexed)
    (herror : ∀ e, (t.manager.addDocument call).1 = .error e → indexed = t.indexed) :
    Kept ⟨(t.manager.addDocument call).2, indexed⟩ := by
  simp only [Tracked.added] at h
  cases hres : (t.manager.addDocument call).1 with
  | ok _ =>
      rw [hok hres]
      rwa [hres] at h
  | error e =>
      rw [herror e hres]
      rwa [hres] at h

/-- **One call.** -/
theorem Kept.step {t : Tracked} (h : Kept t) {op : Op} (hop : t.LosesNothing op) :
    Kept (t.step op) := by
  cases op with
  | createCollection c => exact h.createCollection c
  | dropCollection c => exact h.dropCollection c
  | deleteDocument c id => exact h.deleteDocument c id
  | commit c => exact h.commit c
  | indexDocument call =>
      obtain ⟨hshort, hcall⟩ := hop
      simp only [Tracked.step, indexedAfter, CollectionIndexManager.step,
        CollectionIndexManager.indexDocument]
      cases hdetect : CollectionIndexManager.detectFields call with
      | error e => exact h
      | ok detected =>
          obtain ⟨updated, newFields⟩ := detected
          have hcond := hcall updated newFields hdetect
          by_cases hnew : newFields = []
          · rw [if_pos hnew] at hcond
            simp only [hnew, if_true]
            refine Kept.of_added (h.added hshort hcond.1 hcond.2) (fun hres => ?_) fun e hres => ?_
            · rw [hres]
              rfl
            · rw [hres]
              rfl
          · rw [if_neg hnew] at hcond
            obtain ⟨howed, hopens, hpanic⟩ := hcond
            obtain ⟨hkept, hfits⟩ := h.rebuildSchema hdetect hnew howed hopens hpanic
            simp only [hnew, if_false]
            generalize t.manager.rebuildSchema call.collection call.mappingOrder updated = rebuilt
              at hkept hfits
            obtain ⟨_ | (_ | _), m'⟩ := rebuilt
            · exact hkept
            · exact hkept
            · obtain ⟨hid, hfits⟩ := hfits rfl
              refine Kept.of_added (hkept.added hshort hid hfits) (fun hres => ?_) fun e hres => ?_
              · simp only [hres]
                rfl
              · simp only [hres]
                rfl

omit [Tantivy] [FileSystem] in
theorem kept_start {m : CollectionIndexManager}
    (h : m = CollectionIndexManager.new ∨ m = CollectionIndexManager.newInRam) : Kept (start m) where
  wellBuilt := CollectionIndexManager.wellBuilt_start h
  poisoned _ := rfl
  disk dir stored hstored := by
    have hnone := CollectionIndexManager.disk_start h dir
    cases hnone.symm.trans hstored
  pending c col hcol := by
    have hempty := CollectionIndexManager.collections_start h
    rw [start, hempty] at hcol
    simp at hcol
  held c id hmem := by cases hmem

/-- **Schema evolution.** In every run whose calls meet the condition, and in each of
its states, every document that was indexed and not deleted since is found by its id
after the next commit. -/
theorem nothingLost_of_along {m : CollectionIndexManager}
    (hstart : m = CollectionIndexManager.new ∨ m = CollectionIndexManager.newInRam) {ops : List Op}
    (halong : Along step LosesNothing (start m) ops) :
    ∀ pre, pre <+: ops → NothingLost ((start m).run pre) := by
  intro pre hpre
  have hkept := (halong.of_prefix hpre).invariant (fun _ _ h hop => h.step hop) (kept_start hstart)
  exact hkept.nothingLost

end Tracked

/-- A document without fields. -/
def plainCall : IndexCall := { titleCall with doc := Document.new ⟨"d"⟩ }

/-- Another document with a title. -/
def otherTitleCall : IndexCall :=
  { titleCall with doc := (Document.new ⟨"e"⟩).withField "title" (.text "t") }

namespace Tracked

open CollectionIndexManager (Op)

/-- A collection in RAM with a document that no rebuild comes after. -/
theorem nothingLost_plain :
    ("c", ⟨"d"⟩) ∈ ((start CollectionIndexManager.newInRam).run
        [.createCollection "c", .indexDocument plainCall]).indexed ∧
      NothingLost ((start CollectionIndexManager.newInRam).run
        [.createCollection "c", .indexDocument plainCall]) := by
  have halong : Along step LosesNothing (start CollectionIndexManager.newInRam)
      [.createCollection "c", .indexDocument plainCall] := by
    refine ⟨trivial, ⟨?_, fun updated newFields hdetect => ?_⟩, trivial⟩
    · show (asBytes "d").length ≤ maxTokenLen
      decide
    have hlength : (CollectionIndexManager.detectFields plainCall).toOption.map (·.2.length) =
        some 0 := by
      decide
    rw [hdetect] at hlength
    rw [if_pos (List.length_eq_zero_iff.1 (Option.some.inj hlength))]
    refine ⟨by decide, fun col hcol => ?_⟩
    have hfits : (((start CollectionIndexManager.newInRam).step
        (.createCollection "c")).manager.collections[plainCall.collection]?.all fun col =>
          decide (col.index.Fits (buildTantivyDoc plainCall.doc col.fieldMap plainCall.fieldOrder
            plainCall.now))) = true := by
      decide
    rw [hcol] at hfits
    simpa using hfits
  exact ⟨by decide, nothingLost_of_along (.inr rfl) halong _ (List.prefix_refl _)⟩

/-- Two documents with a title, indexed as the state machine does it: the second call
rebuilds the index, and the first document is gone. -/
theorem not_nothingLost :
    ¬ NothingLost ((start CollectionIndexManager.newInRam).run
      [.createCollection "c", .indexDocument titleCall, .indexDocument otherTitleCall]) := by
  intro hlost
  obtain ⟨docs, hsearch, doc, hdoc, -⟩ := hlost "c" ⟨"d"⟩ (by decide)
  have hnone : ((((start CollectionIndexManager.newInRam).run
      [.createCollection "c", .indexDocument titleCall,
        .indexDocument otherTitleCall]).manager.commit "c").2.searchTerm "c" "_id" "d").toOption.map
          List.length = some 0 := by
    decide
  rw [hsearch] at hnone
  rw [List.length_eq_zero_iff.1 (Option.some.inj hnone)] at hdoc
  cases hdoc

end Tracked

end MSearchDB.Index
