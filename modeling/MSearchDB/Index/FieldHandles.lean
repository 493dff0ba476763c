import MSearchDB.Lib.Run
import MSearchDB.Index.CollectionIndex

/-!
# Field handles and the schema of the open index

A document is written through the handles of a field map, and the index reads them by
its own schema. The field map is built together with a schema, from the mapping of the
collection in the order in which the `HashMap` happens to be iterated. An index that is
created has that schema. An index that was in the directory before has the schema of
its creation, whatever the mapping says now.

`handlesAgree_iff` says when every open collection writes through handles that its
index understands: a collection that has been closed is opened again for new fields
only if the schema in its directory begins with the fields that the field map has been
built for.
-/

set_option autoImplicit false

namespace MSearchDB.Index

open MSearchDB.Lib
open MSearchDB.Core
open Std (ExtTreeMap)

/-! ## Schemas and their field maps -/

/-- The field map has the handle of every field of the schema. -/
def Describes (schema : Schema) (fieldMap : FieldMap) : Prop :=
  ∀ (name : String) (field : Field),
    fieldMap[name]? = some field ↔ ∃ ty, schema.entries[field]? = some ⟨name, ty⟩

theorem describes_empty : Describes ⟨[]⟩ ∅ := by
  intro name field
  simp

theorem describes_addEntry {acc acc' : Schema × FieldMap} {entry : FieldEntry}
    (h : Describes acc.1 acc.2) (hadd : addEntry acc entry = some acc') :
    Describes acc'.1 acc'.2 ∧ acc'.1.entries = acc.1.entries ++ [entry] := by
  obtain ⟨⟨field, schema⟩, hfield, rfl⟩ := Option.map_eq_some_iff.1 hadd
  rw [Schema.addField] at hfield
  split at hfield
  · next hnew =>
      obtain ⟨rfl, rfl⟩ := Prod.mk.inj (Option.some.inj hfield)
      refine ⟨fun name field => ?_, rfl⟩
      simp only [ExtTreeMap.getElem?_insert, Std.LawfulEqCmp.compare_eq_iff_eq]
      rw [List.getElem?_append]
      by_cases hname : entry.name = name
      · -- the new name had no handle before
        subst hname
        have hfree : ∀ (field : Field) (ty : FieldType), acc.1.entries[field]? ≠ some ⟨entry.name, ty⟩ := by
          intro field ty hentry
          exact hnew.2 (List.mem_map.2 ⟨_, List.mem_of_getElem? hentry, rfl⟩)
        simp only [if_true, Option.some.injEq]
        constructor
        · rintro rfl
          exact ⟨entry.fieldType, by simp⟩
        · rintro ⟨ty, hty⟩
          split at hty
          · exact absurd hty (hfree field ty)
          · next hlt =>
              have hbound : field - acc.1.entries.length < 1 := (List.getElem?_eq_some_iff.1 hty).1
              exact le_antisymm (not_lt.1 hlt) (Nat.sub_eq_zero_iff_le.1 (Nat.lt_one_iff.1 hbound))
      · rw [if_neg hname, h name field]
        constructor
        · rintro ⟨ty, hty⟩
          exact ⟨ty, by rwa [if_pos (List.getElem?_eq_some_iff.1 hty).1]⟩
        · rintro ⟨ty, hty⟩
          split at hty
          · exact ⟨ty, hty⟩
          · have hmem := List.mem_of_getElem? hty
            rw [List.mem_singleton] at hmem
            exact absurd (congrArg FieldEntry.name hmem).symm hname
  · cases hfield

/-- The builder adds the fields in order, and the field map keeps their handles. -/
theorem describes_foldlM (entries : List FieldEntry) :
    ∀ {acc acc' : Schema × FieldMap}, Describes acc.1 acc.2 →
      entries.foldlM addEntry acc = some acc' →
        Describes acc'.1 acc'.2 ∧ acc'.1.entries = acc.1.entries ++ entries := by
  induction entries with
  | nil =>
      intro acc acc' h hfold
      cases hfold
      exact ⟨h, (List.append_nil _).symm⟩
  | cons entry entries ih =>
      intro acc acc' h hfold
      rw [List.foldlM_cons] at hfold
      obtain ⟨mid, hadd, hrest⟩ := Option.bind_eq_some_iff.1 hfold
      obtain ⟨hmid, hentries⟩ := describes_addEntry h hadd
      obtain ⟨hlast, hall⟩ := ih hmid hrest
      exact ⟨hlast, by rw [hall, hentries, List.append_assoc, List.singleton_append]⟩

/-- **What the builder builds.** -/
theorem buildSchemaFromMapping_spec {order : HashOrder MappedFieldType} {mapping : FieldMapping}
    {includeBody : Bool} {schema : Schema} {fieldMap : FieldMap}
    (h : buildSchemaFromMapping order mapping includeBody = some (schema, fieldMap)) :
    Describes schema fieldMap ∧
      schema.entries = metaFields includeBody ++ userFields (order.iter mapping.fields) := by
  have hspec := describes_foldlM _ describes_empty h
  rwa [List.nil_append] at hspec

/-- Two entries of one name are one entry. -/
theorem Describes.handle_unique {schema : Schema} {fieldMap : FieldMap} (h : Describes schema fieldMap)
    {i j : Field} {e e' : FieldEntry} (hi : schema.entries[i]? = some e)
    (hj : schema.entries[j]? = some e') (hname : e.name = e'.name) : i = j := by
  have hi' := (h e.name i).2 ⟨e.fieldType, hi⟩
  have hj' := (h e.name j).2 ⟨e'.fieldType, by rw [hname]; exact hj⟩
  exact Option.some.inj (hi'.symm.trans hj')

/-- The type that a field of that name has by the mapping: its own if it is one of the
meta-fields, else that of the mapping. -/
def typeInMapping (mapping : FieldMapping) (name : String) : Option FieldType :=
  match (metaFields true).find? fun entry => entry.name = name with
  | some entry => some entry.fieldType
  | none => mapping.fields[name]?.map schemaType

/-- Every field of the schema has the type of the mapping. -/
theorem typeInMapping_of_build {order : HashOrder MappedFieldType} {mapping : FieldMapping}
    {schema : Schema} {fieldMap : FieldMap}
    (h : buildSchemaFromMapping order mapping true = some (schema, fieldMap)) {field : Field}
    {entry : FieldEntry} (hentry : schema.entries[field]? = some entry) :
    typeInMapping mapping entry.name = some entry.fieldType := by
  obtain ⟨hdescribes, hentries⟩ := buildSchemaFromMapping_spec h
  rw [typeInMapping]
  cases hmeta : (metaFields true).find? fun e => e.name = entry.name with
  | some e =>
      -- the meta-field of this name stands at the same place
      have hname : e.name = entry.name := by simpa using List.find?_some hmeta
      obtain ⟨i, hi, hget⟩ := List.mem_iff_getElem.1 (List.mem_of_find?_eq_some hmeta)
      have hget' : schema.entries[i]? = some e := by
        rw [hentries, List.getElem?_append_left hi, List.getElem?_eq_getElem hi, hget]
      have hsame := hdescribes.handle_unique hget' hentry hname
      subst hsame
      rw [Option.some.inj (hget'.symm.trans hentry)]
  | none =>
      have hmem := List.mem_of_getElem? hentry
      rw [hentries, List.mem_append] at hmem
      rcases hmem with hmem | hmem
      · exact absurd (List.find?_eq_none.1 hmeta entry hmem) (by simp)
      · obtain ⟨⟨name, ty⟩, hfield, rfl⟩ := List.mem_map.1 hmem
        have hmapping := ExtTreeMap.mem_toList_iff_getElem?_eq_some.1
          ((order.perm mapping.fields).mem_iff.1 hfield)
        simp [hmapping]

/-- The handles of the collection are those of its index: for the mapping that the
field map was built from, each is the handle of a field with that name and the type
that the name has in the mapping. -/
def HandlesAgree (col : CollectionIndex) : Prop :=
  ∃ order mapping, buildSchemaFromMapping order mapping true = some (col.schema, col.fieldMap) ∧
    ∀ (name : String) (field : Field), col.fieldMap[name]? = some field →
      ∃ ty, typeInMapping mapping name = some ty ∧ col.index.entries[field]? = some ⟨name, ty⟩

/-- The handles agree exactly when the schema of the index begins with the schema of
the field map. -/
theorem handlesAgree_iff_prefix {col : CollectionIndex} {order : HashOrder MappedFieldType}
    {mapping : FieldMapping}
    (h : buildSchemaFromMapping order mapping true = some (col.schema, col.fieldMap)) :
    HandlesAgree col ↔ col.schema.entries <+: col.index.entries := by
  constructor
  · rintro ⟨order', mapping', hbuild, hagree⟩
    refine List.prefix_iff_getElem?.2 fun field hfield => ?_
    have hentry := List.getElem?_eq_getElem hfield
    obtain ⟨ty, hty, hindex⟩ := hagree _ field
      (((buildSchemaFromMapping_spec hbuild).1 _ field).2 ⟨_, hentry⟩)
    rw [hindex, Option.some.inj (hty.symm.trans (typeInMapping_of_build hbuild hentry))]
    rfl
  · intro hpre
    refine ⟨order, mapping, h, fun name field hfield => ?_⟩
    obtain ⟨ty, hty⟩ := ((buildSchemaFromMapping_spec h).1 name field).1 hfield
    refine ⟨ty, typeInMapping_of_build h hty, ?_⟩
    obtain ⟨hbound, hget⟩ := List.getElem?_eq_some_iff.1 hty
    rw [List.prefix_iff_getElem?.1 hpre field hbound, hget]

namespace CollectionIndexManager

variable {m m' : CollectionIndexManager}

/-! ## Open collections -/

/-- The parts of an open collection that its handles depend on. -/
def handles (m : CollectionIndexManager) (c : String) : Option (Schema × Schema × FieldMap) :=
  m.collections[c]?.map fun col => (col.index, col.schema, col.fieldMap)

/-- Every open collection writes through the handles of its index. -/
def AllAgree (m : CollectionIndexManager) : Prop :=
  ∀ (c : String) (col : CollectionIndex), m.collections[c]? = some col → HandlesAgree col

theorem exists_of_handles_eq (h : ∀ c, m'.handles c = m.handles c) {c : String}
    {col' : CollectionIndex} (hcol' : m'.collections[c]? = some col') :
    ∃ col, m.collections[c]? = some col ∧ col'.index = col.index ∧ col'.schema = col.schema ∧
      col'.fieldMap = col.fieldMap := by
  have hc := h c
  rw [handles, hcol', Option.map_some] at hc
  obtain ⟨col, hcol, heq⟩ := Option.map_eq_some_iff.1 hc.symm
  simp only [Prod.mk.injEq] at heq
  exact ⟨col, hcol, heq.1.symm, heq.2.1.symm, heq.2.2.symm⟩

theorem AllAgree.congr (h : ∀ c, m'.handles c = m.handles c) (hagree : AllAgree m) : AllAgree m' := by
  intro c col' hcol'
  obtain ⟨col, hcol, hindex, hschema, hfieldMap⟩ := exists_of_handles_eq h hcol'
  obtain ⟨order, mapping, hbuild, hhandles⟩ := hagree c col hcol
  refine ⟨order, mapping, ?_, ?_⟩
  · rw [hschema, hfieldMap]
    exact hbuild
  · rw [hfieldMap, hindex]
    exact hhandles

/-- A collection whose writer and reader have changed. -/
theorem handles_insert {c : String} {col : CollectionIndex} (hcol : m.collections[c]? = some col)
    (writer : IndexWriter) (reader : List TantivyDocument) (disk : String → Option StoredIndex)
    (d : String) :
    handles { m with
      collections := m.collections.insert c { col with writer := writer, reader := reader }
      disk := disk } d = m.handles d := by
  simp only [handles, ExtTreeMap.getElem?_insert, Std.LawfulEqCmp.compare_eq_iff_eq]
  by_cases hd : c = d
  · subst hd
    rw [if_pos rfl, hcol]
    rfl
  · rw [if_neg hd]

/-! ## The invariant of all runs -/

/-- Every schema, in a directory or open, begins with the meta-fields, and every field
map comes from the builder. -/
structure WellBuilt (m : CollectionIndexManager) : Prop where
  disk : ∀ dir stored, m.disk dir = some stored → metaFields true <+: stored.schema.entries
  meta_prefix : ∀ (c : String) (col : CollectionIndex), m.collections[c]? = some col →
    metaFields true <+: col.index.entries
  built : ∀ (c : String) (col : CollectionIndex), m.collections[c]? = some col →
    ∃ order mapping, buildSchemaFromMapping order mapping true = some (col.schema, col.fieldMap)

theorem WellBuilt.congr (h : ∀ c, m'.handles c = m.handles c) (hm : WellBuilt m)
    (hdisk : ∀ dir stored, m'.disk dir = some stored →
      metaFields true <+: stored.schema.entries) : WellBuilt m' where
  disk := hdisk
  meta_prefix c col' hcol' := by
    obtain ⟨col, hcol, hindex, -, -⟩ := exists_of_handles_eq h hcol'
    rw [hindex]
    exact hm.meta_prefix c col hcol
  built c col' hcol' := by
    obtain ⟨col, hcol, -, hschema, hfieldMap⟩ := exists_of_handles_eq h hcol'
    rw [hschema, hfieldMap]
    exact hm.built c col hcol

theorem meta_prefix_build {order : HashOrder MappedFieldType} {mapping : FieldMapping}
    {schema : Schema} {fieldMap : FieldMap}
    (h : buildSchemaFromMapping order mapping true = some (schema, fieldMap)) :
    metaFields true <+: schema.entries := by
  rw [(buildSchemaFromMapping_spec h).2]
  exact List.prefix_append _ _

/-- A collection is added or replaced, or taken away. -/
theorem WellBuilt.update (hm : WellBuilt m) {disk : String → Option StoredIndex}
    {collections : ExtTreeMap String CollectionIndex} {poisoned : Bool}
    (hdisk : ∀ dir stored, disk dir = some stored → metaFields true <+: stored.schema.entries)
    (hcollections : ∀ (c : String) (col : CollectionIndex), collections[c]? = some col →
      m.collections[c]? = some col ∨ (metaFields true <+: col.index.entries ∧
        ∃ order mapping,
          buildSchemaFromMapping order mapping true = some (col.schema, col.fieldMap))) :
    WellBuilt ⟨collections, m.onDisk, disk, poisoned⟩ where
  disk := hdisk
  meta_prefix c col hcol := by
    rcases hcollections c col hcol with hold | hnew
    · exact hm.meta_prefix c col hold
    · exact hnew.1
  built c col hcol := by
    rcases hcollections c col hcol with hold | hnew
    · exact hm.built c col hold
    · exact hnew.2

/-! ## Steps that open nothing -/

variable [Tantivy]

theorem handles_addDocument (call : IndexCall) (c : String) :
    (m.addDocument call).2.handles c = m.handles c := by
  rw [addDocument]
  split
  · rfl
  · cases hcol : m.collections[call.collection]? with
    | none => rfl
    | some col =>
        dsimp only
        split
        · rfl
        · exact handles_insert hcol _ _ m.disk c

theorem handles_deleteDocument (collection : String) (id : DocumentId) (c : String) :
    (m.deleteDocument collection id).2.handles c = m.handles c := by
  rw [deleteDocument]
  split
  · rfl
  · cases hcol : m.collections[collection]? with
    | none => rfl
    | some col =>
        dsimp only
        split
        · rfl
        · exact handles_insert hcol _ _ m.disk c

variable [FileSystem]

theorem handles_commit (collection : String) (c : String) :
    (m.commit collection).2.handles c = m.handles c := by
  rw [commit]
  split
  · rfl
  · cases hcol : m.collections[collection]? with
    | none => rfl
    | some col =>
        dsimp only
        split
        · rfl
        · exact handles_insert hcol _ _ _ c

/-! ## Opening an index -/

/-- The index that is in the directory of a collection, where it can be opened. -/
def reopened (m : CollectionIndexManager) (collection : String) : Option StoredIndex :=
  if m.onDisk ∧ m.poisoned = false then
    match FileSystem.createDirAll collection with
    | .error _ => none
    | .ok dir => if m.locked dir then none else m.disk dir
  else none

/-- The index that is opened has the schema of the directory, or the new one. -/
theorem openIndex_ok (hpoisoned : m.poisoned = false) {c : String} {schema : Schema}
    {fieldMap : FieldMap} {col : CollectionIndex} {disk : String → Option StoredIndex}
    (h : m.openIndex c schema fieldMap = (.ok col, disk)) :
    col.schema = schema ∧ col.fieldMap = fieldMap ∧
      col.index = (m.reopened c).elim schema StoredIndex.schema := by
  rw [openIndex] at h
  rw [reopened]
  by_cases hdisk : m.onDisk
  · rw [if_pos hdisk] at h
    rw [if_pos ⟨hdisk, hpoisoned⟩]
    cases hdir : FileSystem.createDirAll c with
    | error e =>
        rw [hdir] at h
        cases h
    | ok dir =>
        simp only [hdir] at h
        split at h
        · cases h
        · next hlocked =>
            obtain ⟨rfl, -⟩ := Prod.mk.inj h |>.imp Except.ok.inj id
            refine ⟨rfl, rfl, ?_⟩
            simp only [if_neg hlocked]
            cases m.disk dir <;> rfl
  · rw [if_neg hdisk] at h
    rw [if_neg fun hand => hdisk hand.1]
    obtain ⟨rfl, -⟩ := Prod.mk.inj h |>.imp Except.ok.inj id
    exact ⟨rfl, rfl, rfl⟩

/-- Opening an index creates at most one directory, for the schema it was given. -/
theorem openIndex_disk (m : CollectionIndexManager) (c : String) (schema : Schema)
    (fieldMap : FieldMap) {dir : String} {stored : StoredIndex}
    (h : (m.openIndex c schema fieldMap).2 dir = some stored) :
    m.disk dir = some stored ∨ stored = ⟨schema, []⟩ := by
  rw [openIndex] at h
  split at h
  · cases hdir : FileSystem.createDirAll c with
    | error e =>
        rw [hdir] at h
        exact .inl h
    | ok dir' =>
        have hupdate : Function.update m.disk dir' (some ((m.disk dir').getD ⟨schema, []⟩)) dir =
            some stored := by
          simp only [hdir] at h
          split at h
          · exact h
          · exact h
        by_cases heq : dir = dir'
        · subst heq
          rw [Function.update_self, Option.some.injEq] at hupdate
          cases hold : m.disk dir with
          | none => exact .inr (by rw [← hupdate, hold, Option.getD_none])
          | some old => exact .inl (by rw [← hupdate, hold]; rfl)
        · rw [Function.update_of_ne heq] at hupdate
          exact .inl hupdate
  · exact .inl h

omit [Tantivy] in
/-- What is opened again has been in the directory. -/
theorem exists_disk_of_reopened {c : String} {stored : StoredIndex}
    (h : m.reopened c = some stored) : ∃ dir, m.disk dir = some stored := by
  rw [reopened] at h
  split at h
  · cases hdir : FileSystem.createDirAll c with
    | error e =>
        rw [hdir] at h
        cases h
    | ok dir =>
        simp only [hdir] at h
        split at h
        · cases h
        · exact ⟨dir, h⟩
  · cases h

/-- What an opened index is for the invariant and for the handles. -/
theorem WellBuilt.openIndex (hm : WellBuilt m) (hpoisoned : m.poisoned = false) {c : String}
    {order : HashOrder MappedFieldType} {mapping : FieldMapping} {schema : Schema}
    {fieldMap : FieldMap} (hbuild : buildSchemaFromMapping order mapping true = some (schema, fieldMap))
    {col : CollectionIndex} {disk : String → Option StoredIndex}
    (h : m.openIndex c schema fieldMap = (.ok col, disk)) :
    metaFields true <+: col.index.entries ∧
      buildSchemaFromMapping order mapping true = some (col.schema, col.fieldMap) ∧
      (HandlesAgree col ↔
        ∀ stored, m.reopened c = some stored → schema.entries <+: stored.schema.entries) := by
  obtain ⟨hschema, hfieldMap, hindex⟩ := openIndex_ok hpoisoned h
  have hbuild' : buildSchemaFromMapping order mapping true = some (col.schema, col.fieldMap) := by
    rw [hschema, hfieldMap]
    exact hbuild
  have hagree := handlesAgree_iff_prefix hbuild'
  rw [hschema, hindex] at hagree
  rw [hindex, hagree]
  cases hreopened : m.reopened c with
  | none => exact ⟨meta_prefix_build hbuild, hbuild', by simp⟩
  | some stored =>
      obtain ⟨dir, hstored⟩ := exists_disk_of_reopened hreopened
      exact ⟨hm.disk dir stored hstored, hbuild', by simp⟩

/-- What can be opened again is opened. -/
theorem reopened_eq_none_of_error {c : String} {schema : Schema} {fieldMap : FieldMap} {e : DbError}
    {disk : String → Option StoredIndex} (h : m.openIndex c schema fieldMap = (.error e, disk)) :
    m.reopened c = none := by
  rw [openIndex] at h
  rw [reopened]
  by_cases hdisk : m.onDisk
  · rw [if_pos hdisk] at h
    cases hdir : FileSystem.createDirAll c with
    | error e' => simp
    | ok dir =>
        simp only [hdir] at h
        split at h
        · next hlocked => simp [hlocked]
        · cases h
  · simp [hdisk]

omit [Tantivy] in
theorem reopened_eq_none_of_poisoned (h : m.poisoned = true) (c : String) : m.reopened c = none := by
  simp [reopened, h]

/-- The directories after an index has been opened. -/
theorem WellBuilt.openIndex_disk (hm : WellBuilt m) (c : String) {schema : Schema}
    (fieldMap : FieldMap) (hschema : metaFields true <+: schema.entries) (dir : String)
    (stored : StoredIndex) (h : (m.openIndex c schema fieldMap).2 dir = some stored) :
    metaFields true <+: stored.schema.entries := by
  rcases CollectionIndexManager.openIndex_disk m c schema fieldMap h with hold | hnew
  · exact hm.disk dir stored hold
  · rw [hnew]
    exact hschema

omit [Tantivy] [FileSystem] in
theorem getElem?_insert_cases {collections : ExtTreeMap String CollectionIndex} {c d : String}
    {col col' : CollectionIndex} (h : (collections.insert c col)[d]? = some col') :
    (d = c ∧ col' = col) ∨ (d ≠ c ∧ collections[d]? = some col') := by
  rw [ExtTreeMap.getElem?_insert] at h
  by_cases hd : c = d
  · rw [if_pos (Std.LawfulEqCmp.compare_eq_iff_eq.2 hd)] at h
    exact .inl ⟨hd.symm, (Option.some.inj h).symm⟩
  · rw [if_neg (mt Std.LawfulEqCmp.compare_eq_iff_eq.1 hd)] at h
    exact .inr ⟨Ne.symm hd, h⟩

omit [Tantivy] [FileSystem] in
theorem getElem?_of_erase {collections : ExtTreeMap String CollectionIndex} {c d : String}
    {col : CollectionIndex} (h : (collections.erase c)[d]? = some col) :
    collections[d]? = some col := by
  rw [ExtTreeMap.getElem?_erase] at h
  split at h
  · cases h
  · exact h

/-- **Schema rebuilds.** The handles agree after a rebuild exactly when an index that
it opens again begins with the fields of the new mapping. -/
theorem rebuildSchema_spec (hm : WellBuilt m) (c : String) (order : HashOrder MappedFieldType)
    (mapping : FieldMapping) :
    WellBuilt (m.rebuildSchema c order mapping).2 ∧
      (AllAgree m → (AllAgree (m.rebuildSchema c order mapping).2 ↔
        ∀ schema fieldMap stored, buildSchemaFromMapping order mapping true = some (schema, fieldMap) →
          m.reopened c = some stored → schema.entries <+: stored.schema.entries)) := by
  rw [rebuildSchema]
  by_cases hpoisoned : m.poisoned = true
  · rw [if_pos hpoisoned]
    refine ⟨hm, fun hagree => iff_of_true hagree ?_⟩
    intro schema fieldMap stored _ hreopened
    rw [reopened_eq_none_of_poisoned hpoisoned] at hreopened
    cases hreopened
  rw [if_neg hpoisoned]
  cases hbuild : buildSchemaFromMapping order mapping true with
  | none =>
      -- the panic leaves the manager without the collection, and the others as they were
      refine ⟨hm.update hm.disk fun d col hcol => .inl (getElem?_of_erase hcol), fun hagree => ?_⟩
      exact iff_of_true (fun d col hcol => hagree d col (getElem?_of_erase hcol)) (by simp)
  | some built =>
      obtain ⟨schema, fieldMap⟩ := built
      have hmeta := meta_prefix_build hbuild
      cases hopen : m.openIndex c schema fieldMap with
      | mk result disk =>
          have hdisk := hm.openIndex_disk c fieldMap hmeta
          rw [hopen] at hdisk
          cases result with
          | error e =>
              dsimp only
              rw [hopen]
              refine ⟨hm.update hdisk fun d col hcol => .inl (getElem?_of_erase hcol), fun hagree => ?_⟩
              refine iff_of_true (fun d col hcol => hagree d col (getElem?_of_erase hcol)) ?_
              simp [reopened_eq_none_of_error hopen]
          | ok col =>
              dsimp only
              rw [hopen]
              obtain ⟨hpre, hcol, hiff⟩ :=
                hm.openIndex (by simpa using hpoisoned) hbuild hopen
              constructor
              · refine hm.update hdisk fun d col' hcol' => ?_
                rcases getElem?_insert_cases hcol' with ⟨-, rfl⟩ | ⟨-, hold⟩
                · exact .inr ⟨hpre, order, mapping, hcol⟩
                · exact .inl (getElem?_of_erase hold)
              · -- the other collections agree as before, so it is about the one that was opened
                intro hagree
                constructor
                · intro hafter schema' fieldMap' stored hsome hreopened
                  cases hsome
                  exact hiff.1 (hafter c col (by simp)) stored hreopened
                · intro hfits d col' hcol'
                  rcases getElem?_insert_cases hcol' with ⟨-, rfl⟩ | ⟨-, hold⟩
                  · exact hiff.2 fun stored hreopened => hfits schema fieldMap stored rfl hreopened
                  · exact hagree d col' (getElem?_of_erase hold)

omit [Tantivy] [FileSystem] in
/-- `build_initial_schema` never panics and has no user fields to add. -/
theorem build_initialSchema (order : HashOrder MappedFieldType) :
    buildSchemaFromMapping order FieldMapping.new true = some (initialSchema, initialFieldMap) := by
  have hnil : order.iter FieldMapping.new.fields = [] := by
    have hempty : FieldMapping.new.fields.toList = [] := by decide
    exact List.perm_nil.1 (hempty ▸ order.perm FieldMapping.new.fields)
  rw [buildSchemaFromMapping, hnil]
  rfl

/-- A collection that is created anew can always be written to: what its directory
holds begins with the meta-fields. -/
theorem createCollection_spec (hm : WellBuilt m) (c : String) :
    WellBuilt (m.createCollection c).2 ∧ (AllAgree m → AllAgree (m.createCollection c).2) := by
  have hbuild := build_initialSchema ⟨fun m => m.toList, fun _ => .refl _⟩
  have hmeta : metaFields true <+: initialSchema.entries := List.prefix_refl _
  rw [createCollection]
  by_cases hpoisoned : m.poisoned = true
  · rw [if_pos hpoisoned]
    exact ⟨hm, id⟩
  rw [if_neg hpoisoned]
  split
  · exact ⟨hm, id⟩
  · have hdisk := hm.openIndex_disk c initialFieldMap hmeta
    cases hopen : m.openIndex c initialSchema initialFieldMap with
    | mk result disk =>
        rw [hopen] at hdisk
        cases result with
        | error e => exact ⟨hm.update hdisk fun d col hcol => .inl hcol, id⟩
        | ok col =>
            obtain ⟨hpre, hcol, hiff⟩ := hm.openIndex (by simpa using hpoisoned) hbuild hopen
            constructor
            · refine hm.update hdisk fun d col' hcol' => ?_
              rcases getElem?_insert_cases hcol' with ⟨-, rfl⟩ | ⟨-, hold⟩
              · exact .inr ⟨hpre, _, _, hcol⟩
              · exact .inl hold
            · intro hagree d col' hcol'
              rcases getElem?_insert_cases hcol' with ⟨-, rfl⟩ | ⟨-, hold⟩
              · refine hiff.2 fun stored hreopened => ?_
                obtain ⟨dir, hstored⟩ := exists_disk_of_reopened hreopened
                exact hm.disk dir stored hstored
              · exact hagree d col' hold

/-! ## Runs -/

/-- An index that is opened for new fields, and that was in the directory before,
begins with the fields of the new schema. -/
def OpensFitting (m : CollectionIndexManager) : Op → Prop
  | .indexDocument call =>
      ∀ updated newFields schema fieldMap stored,
        detectFields call = .ok (updated, newFields) → newFields ≠ [] →
        buildSchemaFromMapping call.mappingOrder updated true = some (schema, fieldMap) →
        m.reopened call.collection = some stored → schema.entries <+: stored.schema.entries
  | _ => True

omit [FileSystem] in
theorem disk_addDocument (m : CollectionIndexManager) (call : IndexCall) :
    (m.addDocument call).2.disk = m.disk := by
  rw [addDocument]
  split
  · rfl
  · split
    · rfl
    · dsimp only
      split <;> rfl

theorem indexDocument_spec (hm : WellBuilt m) (call : IndexCall) :
    WellBuilt (m.indexDocument call).2 ∧
      (AllAgree m → (AllAgree (m.indexDocument call).2 ↔ OpensFitting m (.indexDocument call))) := by
  have hadd : ∀ {m : CollectionIndexManager}, WellBuilt m → WellBuilt (m.addDocument call).2 := by
    intro m hm
    refine hm.congr (handles_addDocument call) ?_
    rw [disk_addDocument]
    exact hm.disk
  have hagree : ∀ m : CollectionIndexManager, AllAgree (m.addDocument call).2 ↔ AllAgree m :=
    fun m => ⟨.congr fun c => (handles_addDocument call c).symm, .congr (handles_addDocument call)⟩
  rw [indexDocument]
  simp only [OpensFitting]
  cases hdetect : detectFields call with
  | error e => exact ⟨hm, fun h => iff_of_true h fun _ _ _ _ _ hok => by cases hok⟩
  | ok detected =>
      obtain ⟨updated, newFields⟩ := detected
      by_cases hnew : newFields = []
      · simp only [hnew, if_true]
        refine ⟨hadd hm, fun h => iff_of_true ((hagree m).2 h) ?_⟩
        rintro _ _ _ _ _ hok hne
        cases hok
        exact absurd rfl hne
      · -- new fields: the schema is rebuilt, and the document is added if that went well
        obtain ⟨hwell, hiff⟩ := rebuildSchema_spec hm call.collection call.mappingOrder updated
        have hfits : (∀ schema fieldMap stored,
            buildSchemaFromMapping call.mappingOrder updated true = some (schema, fieldMap) →
              m.reopened call.collection = some stored → schema.entries <+: stored.schema.entries) ↔
            ∀ updated' newFields' schema fieldMap stored,
              Except.ok (updated, newFields) = Except.ok (ε := DbError) (updated', newFields') →
              newFields' ≠ [] →
              buildSchemaFromMapping call.mappingOrder updated' true = some (schema, fieldMap) →
              m.reopened call.collection = some stored →
              schema.entries <+: stored.schema.entries := by
          constructor
          · rintro h _ _ schema fieldMap stored hok -
            cases hok
            exact h schema fieldMap stored
          · exact fun h schema fieldMap stored => h updated newFields schema fieldMap stored rfl hnew
        rw [← hfits]
        simp only [hnew, if_false]
        generalize m.rebuildSchema call.collection call.mappingOrder updated = rebuilt at hwell hiff ⊢
        obtain ⟨_ | (_ | _), m'⟩ := rebuilt
        · exact ⟨hwell, hiff⟩
        · exact ⟨hwell, hiff⟩
        · exact ⟨hadd hwell, fun h => (hagree m').trans (hiff h)⟩

/-- **One call.** -/
theorem wellBuilt_step (hm : WellBuilt m) (op : Op) : WellBuilt (m.step op) := by
  cases op with
  | createCollection c => exact (createCollection_spec hm c).1
  | indexDocument call => exact (indexDocument_spec hm call).1
  | dropCollection c =>
      rw [step, dropCollection]
      split
      · exact hm
      · exact hm.update hm.disk fun d col hcol => .inl (getElem?_of_erase hcol)
  | deleteDocument c id =>
      refine hm.congr (handles_deleteDocument c id) ?_
      rw [step, deleteDocument]
      split
      · exact hm.disk
      · split
        · exact hm.disk
        · split
          · exact hm.disk
          · exact hm.disk
  | commit c =>
      refine hm.congr (handles_commit c) ?_
      rw [step, commit]
      split
      · exact hm.disk
      · split
        · exact hm.disk
        · next col hcol =>
            split
            · exact hm.disk
            · next docs hdocs =>
                intro dir stored hstored
                dsimp only at hstored
                split at hstored
                · next dir' _ _ =>
                    by_cases hdir : dir = dir'
                    · subst hdir
                      rw [Function.update_self, Option.some.injEq] at hstored
                      rw [← hstored]
                      exact hm.meta_prefix c col hcol
                    · rw [Function.update_of_ne hdir] at hstored
                      exact hm.disk dir stored hstored
                · exact hm.disk dir stored hstored

theorem allAgree_step_iff (hm : WellBuilt m) (h : AllAgree m) (op : Op) :
    AllAgree (m.step op) ↔ OpensFitting m op := by
  cases op with
  | createCollection c => exact iff_of_true ((createCollection_spec hm c).2 h) trivial
  | indexDocument call => exact (indexDocument_spec hm call).2 h
  | dropCollection c =>
      refine iff_of_true ?_ trivial
      rw [step, dropCollection]
      split
      · exact h
      · exact fun d col hcol => h d col (getElem?_of_erase hcol)
  | deleteDocument c id => exact iff_of_true (h.congr (handles_deleteDocument c id)) trivial
  | commit c => exact iff_of_true (h.congr (handles_commit c)) trivial

omit [Tantivy] [FileSystem] in
theorem collections_start {start : CollectionIndexManager} (h : start = new ∨ start = newInRam) :
    start.collections = ∅ := by
  rcases h with rfl | rfl
  · rfl
  · rfl

omit [Tantivy] [FileSystem] in
theorem disk_start {start : CollectionIndexManager} (h : start = new ∨ start = newInRam)
    (dir : String) : start.disk dir = none := by
  rcases h with rfl | rfl
  · rfl
  · rfl

omit [Tantivy] [FileSystem] in
theorem wellBuilt_start {start : CollectionIndexManager} (h : start = new ∨ start = newInRam) :
    WellBuilt start where
  disk dir stored hstored := by
    rw [disk_start h] at hstored
    cases hstored
  meta_prefix c col hcol := by
    rw [collections_start h] at hcol
    simp at hcol
  built c col hcol := by
    rw [collections_start h] at hcol
    simp at hcol

/-- **Field handles.** In RAM or on disk, whatever the orders of iteration: the handles
of every open collection agree with its index in every state of a run, exactly when the
run never opens an index again for new fields whose stored schema does not begin with
the fields of the new one. -/
theorem handlesAgree_iff (start : CollectionIndexManager) (hstart : start = new ∨ start = newInRam)
    (ops : List Op) :
    (∀ pre, pre <+: ops → AllAgree (start.run pre)) ↔ Along step OpensFitting start ops := by
  have hagree : AllAgree start := by
    intro c col hcol
    rw [collections_start hstart] at hcol
    simp at hcol
  exact forall_prefix_iff_along (I := WellBuilt) (P := AllAgree) (C := OpensFitting)
    (fun _ op hm => wellBuilt_step hm op) (fun _ op hm h => allAgree_step_iff hm h op)
    (wellBuilt_start hstart) hagree ops

end CollectionIndexManager

/-! ## A field that comes later -/

/-- A document with a title, indexed as the state machine does it: with an empty
mapping. -/
def titleCall : IndexCall where
  collection := "c"
  doc := (Document.new ⟨"d"⟩).withField "title" (.text "t")
  mapping := FieldMapping.new
  fieldOrder := keyOrder _
  mappingOrder := keyOrder _
  now := 0

/-- Directories named after the collections. -/
instance indexDirs : FileSystem where
  createDirAll c := .ok ("idx_" ++ c)

/-- Words in lower case, and the raw text. -/
def wordTerms (tokenizer text : String) : List String :=
  if tokenizer = "raw" then [text]
  else
    ((text.toList.splitBy fun a b => a.isAlphanum && b.isAlphanum).filter
      (·.all Char.isAlphanum)).map fun w => (String.ofList w).toLower

/-- Hits in the order of the index. -/
instance wordTantivy : Tantivy where
  terms := wordTerms
  terms_raw _ _ := if_pos rfl
  rank hits := hits
  rank_perm _ := .refl _
  lockBusy := "Failed to acquire Lockfile: LockBusy"
  errorInThread := "An error occurred in a thread"

namespace CollectionIndexManager

/-- A collection that is dropped and opened again for the fields it had. -/
theorem handlesAgree_dropped :
    Along step OpensFitting new
        [.indexDocument titleCall, .dropCollection "c", .indexDocument titleCall] ∧
      AllAgree (new.run [.indexDocument titleCall, .dropCollection "c", .indexDocument titleCall]) := by
  have halong : Along step OpensFitting new
      [.indexDocument titleCall, .dropCollection "c", .indexDocument titleCall] := by
    refine ⟨?_, trivial, ?_, trivial⟩
    · intro _ _ _ _ stored _ _ _ hstored
      cases hstored
    · intro updated newFields schema fieldMap stored hdetect _ hbuild hstored
      have hbuilt : (detectFields titleCall).toOption.bind (fun detected =>
          (buildSchemaFromMapping titleCall.mappingOrder detected.1 true).map
            fun built => built.1.entries) =
          (((new.step (.indexDocument titleCall)).step (.dropCollection "c")).reopened
            titleCall.collection).map fun stored => stored.schema.entries := by
        decide
      rw [hdetect, Except.toOption, Option.bind_some, hbuild, hstored] at hbuilt
      have hsame : schema.entries = stored.schema.entries := Option.some.inj hbuilt
      rw [hsame]
  exact ⟨halong, (handlesAgree_iff new (.inl rfl) _).2 halong _ (List.prefix_refl _)⟩

/-- A collection on disk that is created and then sent the same document twice: the
first call closes the collection, the second opens it with a handle that its index
does not have. -/
theorem not_handlesAgree :
    ¬ AllAgree (new.run [.createCollection "c", .indexDocument titleCall, .indexDocument titleCall]) := by
  intro hagree
  have hopen : (new.run [.createCollection "c", .indexDocument titleCall,
      .indexDocument titleCall]).collections["c"]?.map
        (fun col => (col.index.entries.length, col.fieldMap["title"]?)) = some (4, some 4) := by
    decide
  obtain ⟨col, hcol, hfields⟩ := Option.map_eq_some_iff.1 hopen
  obtain ⟨order, mapping, -, hhandles⟩ := hagree "c" col hcol
  obtain ⟨hlength, htitle⟩ := Prod.mk.inj hfields
  obtain ⟨ty, -, hentry⟩ := hhandles "title" 4 htitle
  have hbound := (List.getElem?_eq_some_iff.1 hentry).1
  rw [hlength] at hbound
  exact absurd hbound (lt_irrefl 4)

end CollectionIndexManager

end MSearchDB.Index
