import MSearchDB.Index.SchemaEvolution
import MSearchDB.Index.Search
import MSearchDB.Index.StoredFields

/-!
# What an index on disk can hold

The state machine passes an empty mapping with every document, so that each document with a
field makes `index_document` rebuild the schema of its collection. On disk a rebuild opens
the directory that is there, whose schema is the one of its creation, and `create_collection`
creates it with the meta-fields alone. A document written through the handles of the new
schema does not fit it, and a writer that has met such a document commits nothing any more.

`BareIndexes` is the invariant of such runs: whatever an index on disk has, open or in its
directory, fits the schema of the meta-fields. A hit has then no field at all, and it is a
document none of whose values an index would store (`bare_of_matching`).
-/

set_option autoImplicit false

namespace MSearchDB.Index

open MSearchDB.Lib
open MSearchDB.Core
open Std (ExtTreeMap)

/-! ## Bare documents -/

/-- No value of the document is stored in an index. -/
def Sourceless (doc : Document) : Prop :=
  ∀ (name : String) (value : FieldValue), doc.fields[name]? = some value → ownedValues value = []

/-- A document of an index that has values of the meta-fields only, and the id of one of some
documents. -/
structure Bare (ids : Set DocumentId) (doc : TantivyDocument) : Prop where
  fits : initialSchema.Fits doc
  id : ∃ id ∈ ids, doc.getFirst 0 = some (.str id.val)

/-- Values that fit belong to the four meta-fields. -/
theorem lt_of_fits {doc : TantivyDocument} (h : initialSchema.Fits doc) {v : Field × OwnedValue}
    (hv : v ∈ doc.values) : v.1 < 4 := by
  obtain ⟨entry, hentry, -⟩ := h v hv
  exact (List.getElem?_eq_some_iff.1 hentry).1

section FieldMaps

variable {order : HashOrder MappedFieldType} {mapping : FieldMapping} {schema : Schema}
  {fieldMap : FieldMap}

/-- The first four handles of a field map are those of the meta-fields. -/
theorem head_of_handle_lt (hbuild : buildSchemaFromMapping order mapping true = some (schema, fieldMap))
    {name : String} {field : Field} (hname : fieldMap[name]? = some field) (hlt : field < 4) :
    name.toList.head? = some '_' := by
  obtain ⟨hdescribes, hentries⟩ := buildSchemaFromMapping_spec hbuild
  obtain ⟨ty, hty⟩ := (hdescribes name field).1 hname
  have hmeta : (metaFields true)[field]? = some ⟨name, ty⟩ := by
    rwa [hentries, List.getElem?_append_left (by exact hlt)] at hty
  have hmem : (⟨name, ty⟩ : FieldEntry) ∈ metaFields true := List.mem_of_getElem? hmeta
  have hall : ∀ entry ∈ metaFields true, entry.name.toList.head? = some '_' := by decide
  exact hall _ hmem

/-- A field that the schema was built for has a handle behind those of the meta-fields. -/
theorem le_handle_of_mem (hbuild : buildSchemaFromMapping order mapping true = some (schema, fieldMap))
    {name : String} {ty : MappedFieldType} (hfield : mapping.fields[name]? = some ty) :
    ∃ field, fieldMap[name]? = some field ∧ 4 ≤ field := by
  obtain ⟨hdescribes, hentries⟩ := buildSchemaFromMapping_spec hbuild
  have hmem : (name, ty) ∈ order.iter mapping.fields :=
    (order.perm _).mem_iff.2 (ExtTreeMap.mem_toList_iff_getElem?_eq_some.2 hfield)
  obtain ⟨i, hget⟩ := List.mem_iff_getElem?.1 hmem
  have hentry : schema.entries[4 + i]? = some ⟨name, schemaType ty⟩ := by
    have hlength : (metaFields true).length = 4 := rfl
    rw [hentries, List.getElem?_append_right (by omega), hlength, Nat.add_sub_cancel_left]
    exact (List.getElem?_map ..).trans (congrArg _ hget)
  exact ⟨4 + i, (hdescribes name (4 + i)).2 ⟨_, hentry⟩, Nat.le_add_right 4 i⟩

/-- **A bare document comes back without fields**, whatever field map it is read through. -/
theorem reconstructDocument_bare (hbuild : buildSchemaFromMapping order mapping true = some (schema, fieldMap))
    (hid : fieldMap["_id"]? = some 0) {ids : Set DocumentId} {doc : TantivyDocument} (h : Bare ids doc) :
    (reconstructDocument doc fieldMap).fields = ∅ ∧ (reconstructDocument doc fieldMap).id ∈ ids := by
  obtain ⟨id, hmem, hget⟩ := h.id
  constructor
  · have hnone : (fieldMap.toList.filterMap fun nf =>
        if nf.1.toList.head? = some '_' then none
        else (doc.getFirst nf.2).map fun value => (nf.1, value.toFieldValue)) = [] := by
      rw [List.filterMap_eq_nil_iff]
      rintro ⟨name, field⟩ hnf
      have hname := ExtTreeMap.mem_toList_iff_getElem?_eq_some.1 hnf
      by_cases hhead : name.toList.head? = some '_'
      · rw [if_pos hhead]
      · -- the handle of a user field is not among those of the values
        have hle : ¬ field < 4 := fun hlt => hhead (head_of_handle_lt hbuild hname hlt)
        have hfirst : doc.getFirst field = none := by
          rw [TantivyDocument.getFirst, Option.map_eq_none_iff, List.find?_eq_none]
          intro v hv heq
          have hv' : v.1 = field := by simpa using heq
          exact hle (hv' ▸ lt_of_fits h.fits hv)
        rw [if_neg hhead, hfirst]
        rfl
    simp only [reconstructDocument, hnone]
    rfl
  · simp only [reconstructDocument, hid, Option.bind_some, hget]
    exact hmem

/-- **A document that fits the meta-fields stores none of its values**, if the field map was
built for its fields. -/
theorem sourceless_of_fits {call : IndexCall} {newFields : List (String × MappedFieldType)}
    (hdetect : CollectionIndexManager.detectFields call = .ok (mapping, newFields))
    (hbuild : buildSchemaFromMapping order mapping true = some (schema, fieldMap))
    (hfits : initialSchema.Fits (buildTantivyDoc call.doc fieldMap call.fieldOrder call.now)) :
    Sourceless call.doc := by
  intro name value hvalue
  obtain ⟨field, hfield, hle⟩ := le_handle_of_mem hbuild (detectFields_ok hdetect hvalue)
  apply List.eq_nil_iff_forall_not_mem.2
  intro v hv
  -- the value would be among those of the document, behind the meta-fields
  have hmem : (field, v) ∈ fieldValues field value := by
    cases value with
    | text text => exact List.mem_singleton.2 (congrArg _ (List.mem_singleton.1 hv))
    | number x => exact List.mem_singleton.2 (congrArg _ (List.mem_singleton.1 hv))
    | boolean b => exact List.mem_singleton.2 (congrArg _ (List.mem_singleton.1 hv))
    | array vs =>
        obtain ⟨text, htext, rfl⟩ := List.mem_map.1 hv
        exact List.mem_map.2 ⟨text, htext, rfl⟩
  have hin : (field, v) ∈ (buildTantivyDoc call.doc fieldMap call.fieldOrder call.now).values := by
    have hiter : (name, value) ∈ call.fieldOrder.iter call.doc.fields :=
      (call.fieldOrder.perm _).mem_iff.2 (ExtTreeMap.mem_toList_iff_getElem?_eq_some.2 hvalue)
    simp only [buildTantivyDoc, List.mem_append]
    refine .inl (.inr (List.mem_flatMap.2 ⟨(name, value), hiter, ?_⟩))
    simp only [hfield]
    exact hmem
  exact absurd (lt_of_fits hfits hin) (Nat.not_lt.2 hle)

theorem bare_buildTantivyDoc (hid : fieldMap["_id"]? = some 0) {ids : Set DocumentId} {doc : Document}
    (hdoc : doc.id ∈ ids) {fieldOrder : HashOrder FieldValue} {now : UInt64}
    (hfits : initialSchema.Fits (buildTantivyDoc doc fieldMap fieldOrder now)) :
    Bare ids (buildTantivyDoc doc fieldMap fieldOrder now) where
  fits := hfits
  id := ⟨doc.id, hdoc, by simp [TantivyDocument.getFirst, buildTantivyDoc, hid]⟩

end FieldMaps

/-! ## The indexes of the collections -/

namespace CollectionIndexManager

variable [FileSystem]

/-- The directory of the collection, if it can be created, has an index. -/
def Prepared (m : CollectionIndexManager) (c : String) : Prop :=
  ∀ dir, FileSystem.createDirAll c = .ok dir → (m.disk dir).isSome

/-- All that a manager has on disk or open are bare documents. -/
structure BareIndexes (ids : Set DocumentId) (m : CollectionIndexManager) : Prop where
  onDisk : m.onDisk = true
  wellBuilt : m.WellBuilt
  disk : ∀ dir stored, m.disk dir = some stored →
    stored.schema = initialSchema ∧ ∀ doc ∈ stored.docs, Bare ids doc
  index : ∀ (c : String) (col : CollectionIndex), m.collections[c]? = some col → col.index = initialSchema
  pending : ∀ (c : String) (col : CollectionIndex), m.collections[c]? = some col →
    ∀ doc ∈ col.writer.pending, Bare ids doc
  reader : ∀ (c : String) (col : CollectionIndex), m.collections[c]? = some col →
    ∀ doc ∈ col.reader, Bare ids doc
  prepared : ∀ (c : String) (col : CollectionIndex), m.collections[c]? = some col → m.Prepared c

theorem bareIndexes_new (ids : Set DocumentId) : BareIndexes ids .new where
  onDisk := rfl
  wellBuilt := by
    refine ⟨fun dir stored hdisk => ?_, fun c col hcol => ?_, fun c col hcol => ?_⟩
    · cases hdisk
    · simp [new] at hcol
    · simp [new] at hcol
  disk dir stored hdisk := by cases hdisk
  index c col hcol := by simp [new] at hcol
  pending c col hcol := by simp [new] at hcol
  reader c col hcol := by simp [new] at hcol
  prepared c col hcol := by simp [new] at hcol

/-- What a call leaves: bare indexes, the directories and a poisoned lock. -/
structure BareNext (ids : Set DocumentId) (m m' : CollectionIndexManager) : Prop where
  bare : BareIndexes ids m'
  disk : ∀ dir, (m.disk dir).isSome → (m'.disk dir).isSome
  poisoned : m.poisoned = true → m'.poisoned = true

section Calls

variable {ids : Set DocumentId} {m m' : CollectionIndexManager}

theorem BareIndexes.refl (h : BareIndexes ids m) : BareNext ids m m := ⟨h, fun _ => id, id⟩

theorem BareNext.trans {m'' : CollectionIndexManager} (h : BareNext ids m m') (h' : BareNext ids m' m'') :
    BareNext ids m m'' :=
  ⟨h'.bare, fun dir hdir => h'.disk dir (h.disk dir hdir), fun hp => h'.poisoned (h.poisoned hp)⟩

theorem BareNext.prepared (h : BareNext ids m m') {c : String} (hc : m.Prepared c) : m'.Prepared c :=
  fun dir hdir => h.disk dir (hc dir hdir)

/-- One collection may change, the others stay or go, and no directory is removed. -/
theorem BareIndexes.update (h : BareIndexes ids m) (hwell : m'.WellBuilt) (honDisk : m'.onDisk = m.onDisk)
    (hpoisoned : m.poisoned = true → m'.poisoned = true)
    (hdirs : ∀ dir, (m.disk dir).isSome → (m'.disk dir).isSome)
    (hdisk : ∀ dir stored, m'.disk dir = some stored → m.disk dir = some stored ∨
      (stored.schema = initialSchema ∧ ∀ doc ∈ stored.docs, Bare ids doc))
    (hcollections : ∀ (c : String) (col : CollectionIndex), m'.collections[c]? = some col →
      m.collections[c]? = some col ∨ (col.index = initialSchema ∧
        (∀ doc ∈ col.writer.pending, Bare ids doc) ∧ (∀ doc ∈ col.reader, Bare ids doc) ∧ m'.Prepared c)) :
    BareNext ids m m' := by
  refine ⟨⟨honDisk.trans h.onDisk, hwell, fun dir stored hstored => ?_, fun c col hcol => ?_,
    fun c col hcol => ?_, fun c col hcol => ?_, fun c col hcol => ?_⟩, hdirs, hpoisoned⟩
  · rcases hdisk dir stored hstored with hold | hnew
    · exact h.disk dir stored hold
    · exact hnew
  · rcases hcollections c col hcol with hold | hnew
    · exact h.index c col hold
    · exact hnew.1
  · rcases hcollections c col hcol with hold | hnew
    · exact h.pending c col hold
    · exact hnew.2.1
  · rcases hcollections c col hcol with hold | hnew
    · exact h.reader c col hold
    · exact hnew.2.2.1
  · rcases hcollections c col hcol with hold | hnew
    · exact fun dir hdir => hdirs dir (h.prepared c col hold dir hdir)
    · exact hnew.2.2.2

/-- A writer with other documents, and a reader and directories with documents of it. -/
theorem BareIndexes.rewrite (h : BareIndexes ids m) {c : String} {col : CollectionIndex}
    (hcol : m.collections[c]? = some col) {col' : CollectionIndex} {disk : String → Option StoredIndex}
    (hwell : WellBuilt { m with collections := m.collections.insert c col', disk := disk })
    (hindex : col'.index = col.index) (hpending : ∀ doc ∈ col'.writer.pending, Bare ids doc)
    (hreader : ∀ doc ∈ col'.reader, Bare ids doc)
    (hdirs : ∀ dir, (m.disk dir).isSome → (disk dir).isSome)
    (hdisk : ∀ dir stored, disk dir = some stored → m.disk dir = some stored ∨
      (stored.schema = initialSchema ∧ ∀ doc ∈ stored.docs, Bare ids doc)) :
    BareNext ids m { m with collections := m.collections.insert c col', disk := disk } := by
  refine h.update hwell rfl id hdirs hdisk fun d other hother => ?_
  rcases getElem?_insert_cases hother with ⟨rfl, rfl⟩ | ⟨-, hold⟩
  · refine .inr ⟨hindex.trans (h.index d col hcol), hpending, hreader, fun dir hdir => ?_⟩
    exact hdirs dir (h.prepared d col hcol dir hdir)
  · exact .inl hold

variable [Tantivy]

/-- **Opening a directory**: it has the schema of its creation, and only the creation of a
collection creates one. -/
theorem BareIndexes.openIndex (h : BareIndexes ids m) (c : String) (schema : Schema) (fieldMap : FieldMap)
    (hschema : schema = initialSchema ∨ m.Prepared c) :
    (∀ dir, (m.disk dir).isSome → ((m.openIndex c schema fieldMap).2 dir).isSome) ∧
      (∀ dir, FileSystem.createDirAll c = .ok dir → ((m.openIndex c schema fieldMap).2 dir).isSome) ∧
      (∀ dir stored, (m.openIndex c schema fieldMap).2 dir = some stored → m.disk dir = some stored ∨
        (stored.schema = initialSchema ∧ ∀ doc ∈ stored.docs, Bare ids doc)) ∧
      ∀ col, (m.openIndex c schema fieldMap).1 = .ok col → col.index = initialSchema ∧
        (∀ doc ∈ col.writer.pending, Bare ids doc) ∧ ∀ doc ∈ col.reader, Bare ids doc := by
  cases hdir : FileSystem.createDirAll c with
  | error e =>
      have hopen : m.openIndex c schema fieldMap =
          (.error (.indexError ("failed to create index dir: " ++ e)), m.disk) := by
        rw [CollectionIndexManager.openIndex, if_pos h.onDisk, hdir]
      rw [hopen]
      refine ⟨fun _ => id, fun _ hdir => ?_, fun _ _ => .inl, fun _ hcol => ?_⟩
      · cases hdir
      · cases hcol
  | ok dir =>
      -- what is in the directory from now on
      have hstored : ((m.disk dir).getD ⟨schema, []⟩).schema = initialSchema ∧
          ∀ doc ∈ ((m.disk dir).getD ⟨schema, []⟩).docs, Bare ids doc := by
        cases hold : m.disk dir with
        | some stored => exact h.disk dir stored hold
        | none =>
            refine ⟨hschema.resolve_right fun hprepared => ?_, fun _ hdoc => ?_⟩
            · have hsome := hprepared dir hdir
              rw [hold] at hsome
              cases hsome
            · cases hdoc
      have hdisk : (m.openIndex c schema fieldMap).2 =
          Function.update m.disk dir (some ((m.disk dir).getD ⟨schema, []⟩)) := by
        simp only [CollectionIndexManager.openIndex, if_pos h.onDisk, hdir]
        split <;> rfl
      rw [hdisk]
      refine ⟨fun dir' hsome => ?_, fun dir' hdir' => ?_, fun dir' stored hget => ?_, fun col hcol => ?_⟩
      · by_cases heq : dir' = dir
        · rw [heq, Function.update_self]
          rfl
        · rwa [Function.update_of_ne heq]
      · rw [← Except.ok.inj hdir', Function.update_self]
        rfl
      · by_cases heq : dir' = dir
        · rw [heq, Function.update_self, Option.some.injEq] at hget
          rw [← hget]
          exact .inr hstored
        · rw [Function.update_of_ne heq] at hget
          exact .inl hget
      · simp only [CollectionIndexManager.openIndex, if_pos h.onDisk, hdir] at hcol
        split at hcol
        · cases hcol
        · cases hcol
          exact ⟨hstored.1, hstored.2, hstored.2⟩

/-- `create_collection` also prepares the directory, where the lock can be taken. -/
theorem BareIndexes.createCollection (h : BareIndexes ids m) (c : String) :
    BareNext ids m (m.createCollection c).2 ∧
      (m.poisoned = true ∨ (m.createCollection c).2.Prepared c) := by
  have hwell := (createCollection_spec h.wellBuilt c).1
  rw [CollectionIndexManager.createCollection] at hwell ⊢
  by_cases hpoisoned : m.poisoned = true
  · rw [if_pos hpoisoned]
    exact ⟨h.refl, .inl hpoisoned⟩
  rw [if_neg hpoisoned] at hwell ⊢
  by_cases hopen : c ∈ m.collections
  · rw [if_pos hopen]
    obtain ⟨col, hcol⟩ := Option.isSome_iff_exists.1 (ExtTreeMap.mem_iff_isSome_getElem?.1 hopen)
    exact ⟨h.refl, .inr (h.prepared c col hcol)⟩
  rw [if_neg hopen] at hwell ⊢
  obtain ⟨hdirs, hprepared, hdisk, hcol⟩ := h.openIndex c initialSchema initialFieldMap (.inl rfl)
  cases hresult : m.openIndex c initialSchema initialFieldMap with
  | mk result disk =>
      rw [hresult] at hwell hdirs hprepared hdisk hcol
      cases result with
      | error e =>
          refine ⟨h.update hwell rfl id hdirs hdisk fun d col hold => .inl hold, .inr hprepared⟩
      | ok col =>
          refine ⟨h.update hwell rfl id hdirs hdisk fun d col' hcol' => ?_, .inr hprepared⟩
          rcases getElem?_insert_cases hcol' with ⟨rfl, rfl⟩ | ⟨-, hold⟩
          · obtain ⟨hindex, hpending, hreader⟩ := hcol col' rfl
            exact .inr ⟨hindex, hpending, hreader, hprepared⟩
          · exact .inl hold

/-- `drop_collection` leaves the directory. -/
theorem BareIndexes.dropCollection (h : BareIndexes ids m) (c : String) :
    BareNext ids m (m.dropCollection c).2 := by
  have hwell : (m.dropCollection c).2.WellBuilt := wellBuilt_step h.wellBuilt (.dropCollection c)
  rw [CollectionIndexManager.dropCollection] at hwell ⊢
  split
  · exact h.refl
  · next hpoisoned =>
      rw [if_neg hpoisoned] at hwell
      exact h.update hwell rfl id (fun _ => id) (fun _ _ => .inl) fun d col hcol => .inl (getElem?_of_erase hcol)

/-- `rebuild_schema` on a prepared directory: what it opens has the schema of the
meta-fields, and the field map of the new mapping. -/
theorem BareIndexes.rebuildSchema (h : BareIndexes ids m) {c : String} (hprepared : m.Prepared c)
    (order : HashOrder MappedFieldType) (mapping : FieldMapping) :
    BareNext ids m (m.rebuildSchema c order mapping).2 ∧
      ((m.rebuildSchema c order mapping).1 = some (.ok ()) → ∃ schema fieldMap col,
        buildSchemaFromMapping order mapping true = some (schema, fieldMap) ∧
          (m.rebuildSchema c order mapping).2.collections[c]? = some col ∧ col.fieldMap = fieldMap) := by
  have hwell := (rebuildSchema_spec h.wellBuilt c order mapping).1
  rw [CollectionIndexManager.rebuildSchema] at hwell ⊢
  by_cases hpoisoned : m.poisoned = true
  · rw [if_pos hpoisoned]
    exact ⟨h.refl, fun hok => by cases hok⟩
  rw [if_neg hpoisoned] at hwell ⊢
  cases hbuild : buildSchemaFromMapping order mapping true with
  | none =>
      rw [hbuild] at hwell
      refine ⟨h.update hwell rfl (fun _ => rfl) (fun _ => id) (fun _ _ => .inl) fun d col hcol => ?_,
        fun hok => by cases hok⟩
      exact .inl (getElem?_of_erase hcol)
  | some built =>
      obtain ⟨schema, fieldMap⟩ := built
      obtain ⟨hdirs, -, hdisk, hcol⟩ := h.openIndex c schema fieldMap (.inr hprepared)
      cases hresult : m.openIndex c schema fieldMap with
      | mk result disk =>
          rw [hresult] at hdirs hdisk hcol
          simp only [hbuild, hresult] at hwell ⊢
          cases result with
          | error e =>
              refine ⟨h.update hwell rfl id hdirs hdisk fun d col hold => ?_, fun hok => by cases hok⟩
              exact .inl (getElem?_of_erase hold)
          | ok col =>
              refine ⟨h.update hwell rfl id hdirs hdisk fun d col' hcol' => ?_, fun _ => ?_⟩
              · rcases getElem?_insert_cases hcol' with ⟨rfl, rfl⟩ | ⟨-, hold⟩
                · obtain ⟨hindex, hpending, hreader⟩ := hcol col' rfl
                  exact .inr ⟨hindex, hpending, hreader, fun dir hdir => hdirs dir (hprepared dir hdir)⟩
                · exact .inl (getElem?_of_erase hold)
              · refine ⟨schema, fieldMap, col, rfl, by simp, ?_⟩
                exact (openIndex_ok (by simpa using hpoisoned) hresult).2.1

/-- A document is added where it fits, and then it is bare. -/
theorem BareIndexes.addDocument (h : BareIndexes ids m) (call : IndexCall)
    (hbare : ∀ col, m.collections[call.collection]? = some col →
      initialSchema.Fits (buildTantivyDoc call.doc col.fieldMap call.fieldOrder call.now) →
        call.doc.id ∈ ids) : BareNext ids m (m.addDocument call).2 := by
  have hwell : (m.addDocument call).2.WellBuilt := by
    refine h.wellBuilt.congr (handles_addDocument call) ?_
    rw [disk_addDocument]
    exact h.wellBuilt.disk
  rw [CollectionIndexManager.addDocument] at hwell ⊢
  split
  · exact h.refl
  next hpoisoned =>
    rw [if_neg hpoisoned] at hwell
    cases hcol : m.collections[call.collection]? with
    | none => exact h.refl
    | some col =>
        rw [hcol] at hwell
        dsimp only at hwell ⊢
        have hid := (idFirst_of_wellBuilt h.wellBuilt hcol).map_id
        have hindex := h.index _ _ hcol
        have hreader := h.reader _ _ hcol
        have hpending := h.pending _ _ hcol
        cases hadd : col.writer.addDocument col.index
            (buildTantivyDoc call.doc col.fieldMap call.fieldOrder call.now) with
        | mk result writer =>
            rw [hadd] at hwell
            cases result with
            | error e => exact h.refl
            | ok =>
                refine h.rewrite hcol hwell rfl ?_ hreader (fun _ => id) fun _ _ => .inl
                rw [IndexWriter.addDocument] at hadd
                split at hadd
                · cases hadd
                · split at hadd
                  · next hfits =>
                      cases hadd
                      rw [hindex] at hfits
                      intro doc hdoc
                      rcases List.mem_append.1 hdoc with hdoc | hdoc
                      · exact hpending doc hdoc
                      · rw [List.mem_singleton.1 hdoc]
                        exact bare_buildTantivyDoc hid (hbare col hcol hfits) hfits
                  · -- the document does not fit, and the writer commits nothing any more
                    cases hadd
                    exact hpending

/-- `delete_document` takes documents away. -/
theorem BareIndexes.deleteDocument (h : BareIndexes ids m) (c : String) (id' : DocumentId) :
    BareNext ids m (m.deleteDocument c id').2 := by
  have hwell : (m.deleteDocument c id').2.WellBuilt := wellBuilt_step h.wellBuilt (.deleteDocument c id')
  rw [CollectionIndexManager.deleteDocument] at hwell ⊢
  split
  · exact h.refl
  next hpoisoned =>
    rw [if_neg hpoisoned] at hwell
    cases hcol : m.collections[c]? with
    | none => exact h.refl
    | some col =>
        rw [hcol] at hwell
        dsimp only at hwell ⊢
        have hreader := h.reader _ _ hcol
        cases hfield : col.fieldMap["_id"]? with
        | none => exact h.refl
        | some idField =>
            rw [hfield] at hwell
            refine h.rewrite hcol hwell rfl (fun doc hdoc => ?_) hreader (fun _ => id) fun _ _ => .inl
            exact h.pending _ _ hcol doc (List.mem_of_mem_filter hdoc)

/-- `commit` publishes what the writer has. -/
theorem BareIndexes.commit (h : BareIndexes ids m) (c : String) : BareNext ids m (m.commit c).2 := by
  have hwell : (m.commit c).2.WellBuilt := wellBuilt_step h.wellBuilt (.commit c)
  rw [CollectionIndexManager.commit] at hwell ⊢
  split
  · exact h.refl
  next hpoisoned =>
    rw [if_neg hpoisoned] at hwell
    cases hcol : m.collections[c]? with
    | none => exact h.refl
    | some col =>
        rw [hcol] at hwell
        dsimp only at hwell ⊢
        have hpending := h.pending _ _ hcol
        cases hcommit : col.writer.commit with
        | error e => exact h.refl
        | ok docs =>
            rw [hcommit] at hwell
            have hdocs : ∀ doc ∈ docs, Bare ids doc := by
              rw [IndexWriter.commit] at hcommit
              split at hcommit
              · cases hcommit
              · cases hcommit
                exact hpending
            dsimp only at hwell ⊢
            revert hwell
            -- the directory of the collection changes, if it can be created
            split
            · next dir _ _ =>
                intro hwell
                refine h.rewrite hcol hwell rfl hpending hdocs (fun dir' hdir' => ?_) fun dir' stored hstored => ?_
                · by_cases heq : dir' = dir
                  · simp [heq]
                  · simpa [heq] using hdir'
                · by_cases heq : dir' = dir
                  · rw [heq] at hstored
                    cases (Function.update_self ..).symm.trans hstored
                    exact .inr ⟨h.index _ _ hcol, hdocs⟩
                  · exact .inl ((Function.update_of_ne heq ..).symm.trans hstored)
            · intro hwell
              exact h.rewrite hcol hwell rfl hpending hdocs (fun _ => id) fun _ _ => .inl

omit [Tantivy] [FileSystem] in
/-- With an empty mapping every field is new. -/
theorem iter_eq_nil_of_detect {call : IndexCall} (hmapping : call.mapping = .new) {updated : FieldMapping}
    (hdetect : detectFields call = .ok (updated, [])) : call.fieldOrder.iter call.doc.fields = [] := by
  -- a field that was found new stays in the list
  have hkeep : ∀ (nvs : List (String × FieldValue)) {acc acc' : FieldMapping × List (String × MappedFieldType)},
      acc.2 ≠ [] → nvs.foldlM registerStep acc = .ok acc' → acc'.2 ≠ [] := by
    intro nvs
    induction nvs with
    | nil =>
        intro acc acc' hacc hfold
        cases hfold
        exact hacc
    | cons nv nvs ih =>
        intro acc acc' hacc hfold
        rw [List.foldlM_cons] at hfold
        cases hstep : registerStep acc nv with
        | error e =>
            rw [hstep] at hfold
            cases hfold
        | ok mid =>
            rw [hstep] at hfold
            refine ih ?_ hfold
            rw [registerStep] at hstep
            split at hstep
            · cases hstep
            · cases hstep
              exact List.append_ne_nil_of_left_ne_nil hacc _
            · cases hstep
              exact hacc
  rw [detectFields, hmapping] at hdetect
  cases hfields : call.fieldOrder.iter call.doc.fields with
  | nil => rfl
  | cons nv nvs =>
      rw [hfields, List.foldlM_cons] at hdetect
      have hregister : FieldMapping.new.registerField nv.1 (fieldValueToMappedType nv.2) =
          .ok (true, ⟨FieldMapping.new.fields.insert nv.1 (fieldValueToMappedType nv.2)⟩) :=
        FieldMapping.registerField_of_none (by simp [FieldMapping.new])
      have hfirst : registerStep (.new, []) nv =
          .ok (⟨FieldMapping.new.fields.insert nv.1 (fieldValueToMappedType nv.2)⟩, [(nv.1, fieldValueToMappedType nv.2)]) := by
        rw [registerStep, hregister]
        rfl
      rw [hfirst] at hdetect
      exact absurd rfl (hkeep nvs (by simp) hdetect)

/-- Under a poisoned lock a rebuild does nothing, so that the directory does not matter. -/
theorem BareIndexes.rebuiltFor (h : BareIndexes ids m) {call : IndexCall}
    (hprepared : m.poisoned = true ∨ m.Prepared call.collection) (mapping : FieldMapping) :
    BareNext ids m (m.rebuildSchema call.collection call.mappingOrder mapping).2 ∧
      ((m.rebuildSchema call.collection call.mappingOrder mapping).1 = some (.ok ()) →
        ∃ schema fieldMap col, buildSchemaFromMapping call.mappingOrder mapping true = some (schema, fieldMap) ∧
          (m.rebuildSchema call.collection call.mappingOrder mapping).2.collections[call.collection]? = some col ∧
            col.fieldMap = fieldMap) := by
  rcases hprepared with hpoisoned | hprepared
  · rw [CollectionIndexManager.rebuildSchema, if_pos hpoisoned]
    exact ⟨h.refl, fun hok => by cases hok⟩
  · exact h.rebuildSchema hprepared call.mappingOrder mapping

/-- **`index_document` with an empty mapping** adds a document whose values no index would store,
or none. -/
theorem BareIndexes.indexDocument (h : BareIndexes ids m) (call : IndexCall) (hmapping : call.mapping = .new)
    (hprepared : m.poisoned = true ∨ m.Prepared call.collection)
    (hid : Sourceless call.doc → call.doc.id ∈ ids) : BareNext ids m (m.indexDocument call).2 := by
  rw [CollectionIndexManager.indexDocument]
  cases hdetect : detectFields call with
  | error e => exact h.refl
  | ok detected =>
      obtain ⟨updated, newFields⟩ := detected
      by_cases hnew : newFields = []
      · -- nothing is new, so the document has no field
        subst hnew
        refine h.addDocument call fun col hcol hfits => hid fun name value hvalue => ?_
        have hiter : (name, value) ∈ call.fieldOrder.iter call.doc.fields :=
          (call.fieldOrder.perm _).mem_iff.2 (ExtTreeMap.mem_toList_iff_getElem?_eq_some.2 hvalue)
        rw [iter_eq_nil_of_detect hmapping hdetect] at hiter
        cases hiter
      · obtain ⟨hnext, hbuilt⟩ := h.rebuiltFor hprepared updated
        simp only [if_neg hnew]
        cases hrebuild : m.rebuildSchema call.collection call.mappingOrder updated with
        | mk result rebuilt =>
            rw [hrebuild] at hnext hbuilt
            cases result with
            | none => exact hnext
            | some result =>
                cases result with
                | error e => exact hnext
                | ok =>
                    obtain ⟨schema, fieldMap, col, hbuild, hcol, hfieldMap⟩ := hbuilt rfl
                    apply hnext.trans
                    apply hnext.bare.addDocument
                    intro col' hcol' hfits
                    cases hcol.symm.trans hcol'
                    rw [hfieldMap] at hfits
                    exact hid (sourceless_of_fits hdetect hbuild hfits)

end Calls

/-! ## Searches -/

section Searches

variable [Searcher] {ids : Set DocumentId} {m : CollectionIndexManager}

/-- A hit without a field, with the id of one of the documents. -/
def BareHit (ids : Set DocumentId) (hit : ScoredDocument) : Prop :=
  hit.document.fields = ∅ ∧ hit.document.id ∈ ids

/-- **Hits of bare indexes are bare**, when a searcher finds documents that it was given. -/
theorem bare_of_matching
    (hhits : ∀ schema docs query hits, Searcher.hits schema docs query = .ok hits → ∀ hit ∈ hits, hit.2 ∈ docs)
    (h : BareIndexes ids m) {c : String} {query : Query} {docs : List ScoredDocument}
    (hdocs : m.matchingDocuments c query = .ok docs) : ∀ hit ∈ docs, BareHit ids hit := by
  intro hit hhit
  unfold matchingDocuments queryHits at hdocs
  split at hdocs
  · cases hdocs
  · cases hcol : m.collections[c]? with
    | none =>
        rw [hcol] at hdocs
        cases hdocs
    | some col =>
        simp only [hcol] at hdocs
        cases hquery : translateQuery col.index col.fieldMap query with
        | error e =>
            rw [hquery] at hdocs
            cases hdocs
        | ok tq =>
            rw [hquery] at hdocs
            cases hfound : Searcher.hits col.index col.reader tq with
            | error e =>
                simp only [bind, Except.bind, hfound] at hdocs
                cases hdocs
            | ok hits =>
                simp only [bind, Except.bind, hfound, Except.ok.injEq] at hdocs
                rw [← hdocs] at hhit
                obtain ⟨found, hmem, rfl⟩ := List.mem_map.1 hhit
                obtain ⟨order, mapping, hbuild⟩ := h.wellBuilt.built c col hcol
                have hbare := h.reader c col hcol found.2 (hhits _ _ _ _ hfound found hmem)
                exact reconstructDocument_bare hbuild (idFirst_of_wellBuilt h.wellBuilt hcol).map_id hbare

end Searches

end CollectionIndexManager

end MSearchDB.Index
