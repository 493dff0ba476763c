import MSearchDB.Lib.Grouping
import MSearchDB.Lib.OrderedMap
import MSearchDB.Index.FieldHandles

/-!
# What a hit shows of the stored document

`build_tantivy_doc` writes a document through a field map and `reconstruct_document` reads it
back through the same map. Tantivy keeps the values of a field in the order in which they were
added.

`buildTantivyDoc_eq` takes the handles away: a document is the list of the values that it adds
under the name of a field. Every field but an array adds one value, and `get_first` finds it.
An array adds its texts, of which `get_first` finds the first, and a text that is read back is
a text; `reconstructDocument_eq_iff` is what follows for documents.
-/

set_option autoImplicit false

namespace MSearchDB.Index

open MSearchDB.Lib
open MSearchDB.Core
open Std (ExtTreeMap)

/-! ## Values by the names of their fields -/

/-- The values that a field of a document adds. -/
def ownedValues : FieldValue → List OwnedValue
  | .text s => [.str s]
  | .number x => [.f64 x]
  | .boolean b => [.u64 (if b then 1 else 0)]
  | .array vs => (arrayTexts vs).map .str

/-- The values that a document adds, by the names of their fields. `known` are the names in
the field map. -/
def namedValues (doc : Document) (known : String → Bool) (order : HashOrder FieldValue) (now : UInt64) :
    List (String × OwnedValue) :=
  let fields := order.iter doc.fields
  let parts := fields.flatMap fun nv => bodyParts (known nv.1) nv.2
  [("_id", .str doc.id.val), ("_timestamp", .u64 now)] ++
    fields.flatMap (fun nv => (ownedValues nv.2).map fun v => (nv.1, v)) ++
    if parts = [] then [] else [("_body", .str (" ".intercalate parts))]

/-- Put values under the handles of their names. -/
def withHandles (fieldMap : FieldMap) (values : List (String × OwnedValue)) : List (Field × OwnedValue) :=
  values.filterMap fun nv => fieldMap[nv.1]?.map fun f => (f, nv.2)

theorem withHandles_append (fieldMap : FieldMap) (values values' : List (String × OwnedValue)) :
    withHandles fieldMap (values ++ values') = withHandles fieldMap values ++ withHandles fieldMap values' :=
  List.filterMap_append ..

theorem withHandles_field (fieldMap : FieldMap) (nv : String × FieldValue) :
    withHandles fieldMap ((ownedValues nv.2).map fun v => (nv.1, v)) =
      match fieldMap[nv.1]? with
      | some field => fieldValues field nv.2
      | none => [] := by
  obtain ⟨name, value⟩ := nv
  rw [withHandles, List.filterMap_map]
  cases hf : fieldMap[name]? with
  | none => simp [hf]
  | some field =>
      cases value with
      | text s => simp [ownedValues, fieldValues, hf]
      | number x => simp [ownedValues, fieldValues, hf]
      | boolean b => simp [ownedValues, fieldValues, hf]
      | array vs => simp [ownedValues, fieldValues, hf, Function.comp_def]

theorem withHandles_flatMap (fieldMap : FieldMap) (fields : List (String × FieldValue)) :
    withHandles fieldMap (fields.flatMap fun nv => (ownedValues nv.2).map fun v => (nv.1, v)) =
      fields.flatMap fun nv =>
        match fieldMap[nv.1]? with
        | some field => fieldValues field nv.2
        | none => [] := by
  induction fields with
  | nil => rfl
  | cons nv fields ih =>
      rw [List.flatMap_cons, withHandles_append, ih, withHandles_field, List.flatMap_cons]

/-- **A document by names.** -/
theorem buildTantivyDoc_eq (doc : Document) (fieldMap : FieldMap) (order : HashOrder FieldValue)
    (now : UInt64) :
    buildTantivyDoc doc fieldMap order now =
      ⟨withHandles fieldMap (namedValues doc (fun name => (fieldMap[name]?).isSome) order now)⟩ := by
  simp only [buildTantivyDoc, namedValues]
  rw [withHandles_append, withHandles_append, withHandles_flatMap]
  congr 1
  congr 1
  · congr 1
    simp only [withHandles, List.filterMap_cons, List.filterMap_nil]
    cases fieldMap["_id"]? <;> cases fieldMap["_timestamp"]? <;> rfl
  · split
    · rfl
    · simp only [withHandles, List.filterMap_cons, List.filterMap_nil]
      cases fieldMap["_body"]? <;> rfl

/-! ## The values of a field -/

/-- The values that a document has for a handle. -/
def TantivyDocument.valuesOf (doc : TantivyDocument) (field : Field) : List OwnedValue :=
  (ofKey Prod.fst field doc.values).map Prod.snd

theorem getFirst_eq_head? (doc : TantivyDocument) (field : Field) :
    doc.getFirst field = (doc.valuesOf field).head? := by
  rw [TantivyDocument.getFirst, TantivyDocument.valuesOf, ofKey, List.head?_map, List.head?_filter]

/-- The values under a handle are those under its name. -/
theorem ofKey_withHandles {fieldMap : FieldMap}
    (hinj : ∀ {name name' : String} {f : Field}, fieldMap[name]? = some f → fieldMap[name']? = some f →
      name = name')
    {name : String} {f : Field} (hf : fieldMap[name]? = some f) (values : List (String × OwnedValue)) :
    (ofKey Prod.fst f (withHandles fieldMap values)).map Prod.snd =
      (ofKey Prod.fst name values).map Prod.snd := by
  induction values with
  | nil => rfl
  | cons nv values ih =>
      rw [ofKey_cons, withHandles, List.filterMap_cons, ← withHandles]
      by_cases hname : nv.1 = name
      · rw [if_pos hname, hname, hf]
        simp only [Option.map_some]
        rw [ofKey_cons, if_pos rfl, List.map_cons, List.map_cons, ih]
      · rw [if_neg hname]
        cases hother : fieldMap[nv.1]? with
        | none => exact ih
        | some f' =>
            simp only [Option.map_some]
            rw [ofKey_cons, if_neg, ih]
            rintro rfl
            exact hname (hinj hother hf)

/-- The entry of a name in a map, in whatever order the map is iterated. -/
theorem ofKey_iter {ν : Type} (order : HashOrder ν) (m : ExtTreeMap String ν) (name : String) :
    ofKey Prod.fst name (order.iter m) = (m[name]?.map fun v => (name, v)).toList := by
  have hperm := order.perm m
  have hnodup : ((order.iter m).map Prod.fst).Nodup := nodup_fst_of_perm hperm
  cases hv : m[name]? with
  | some v =>
      have hmem : (name, v) ∈ order.iter m :=
        hperm.mem_iff.2 (ExtTreeMap.mem_toList_iff_getElem?_eq_some.2 hv)
      exact ofKey_eq_singleton Prod.fst hnodup hmem
  | none =>
      refine ofKey_eq_nil _ fun nv hnv hname => ?_
      have hget := ExtTreeMap.mem_toList_iff_getElem?_eq_some.1 (hperm.mem_iff.1 hnv)
      rw [hname, hv] at hget
      exact nomatch hget

theorem ofKey_flatMap_owned (fields : List (String × FieldValue)) (name : String) :
    ofKey Prod.fst name (fields.flatMap fun nv => (ownedValues nv.2).map fun v => (nv.1, v)) =
      (ofKey Prod.fst name fields).flatMap fun nv => (ownedValues nv.2).map fun v => (nv.1, v) := by
  induction fields with
  | nil => rfl
  | cons nv fields ih =>
      rw [List.flatMap_cons, ofKey_append, ih, ofKey_cons]
      by_cases hname : nv.1 = name
      · rw [if_pos hname, List.flatMap_cons, ofKey_eq_self _ (by simp [hname])]
      · rw [if_neg hname, ofKey_eq_nil _ (by simp [hname]), List.nil_append]

/-- The name is not one of those that `build_tantivy_doc` writes by itself. -/
def UserName (name : String) : Prop := name.toList.head? ≠ some '_'

instance decidableUserName : DecidablePred UserName := fun name =>
  inferInstanceAs (Decidable (name.toList.head? ≠ some '_'))

/-- **What a document adds to a user field.** -/
theorem ofKey_namedValues (doc : Document) (known : String → Bool) (order : HashOrder FieldValue)
    (now : UInt64) {name : String} (hname : UserName name) :
    (ofKey Prod.fst name (namedValues doc known order now)).map Prod.snd =
      (doc.fields[name]?.map ownedValues).getD [] := by
  have hne : ∀ reserved : String, reserved.toList.head? = some '_' → reserved ≠ name := by
    rintro reserved hreserved rfl
    exact hname hreserved
  simp only [namedValues]
  rw [ofKey_append, ofKey_append, ofKey_flatMap_owned, ofKey_iter]
  have hmeta : ofKey Prod.fst name
      [("_id", OwnedValue.str doc.id.val), ("_timestamp", OwnedValue.u64 now)] = [] :=
    ofKey_eq_nil _ (by simp [hne "_id" rfl, hne "_timestamp" rfl])
  have hbody : ∀ text, ofKey Prod.fst name [("_body", OwnedValue.str text)] = [] := fun text =>
    ofKey_eq_nil _ (by simp [hne "_body" rfl])
  rw [hmeta, List.nil_append]
  have hrest : ∀ parts : List String, ofKey Prod.fst name
      (if parts = [] then [] else [("_body", OwnedValue.str (" ".intercalate parts))]) = [] := by
    intro parts
    split
    · rfl
    · exact hbody _
  rw [hrest, List.append_nil]
  cases doc.fields[name]? with
  | none => rfl
  | some v => simp [Function.comp_def]

/-! ## Reading back -/

/-- A map that is filled with entries of different names has these entries. -/
theorem getElem?_insertAll {ν : Type} (entries : List (String × ν)) (name : String) (v : ν) :
    ∀ m : ExtTreeMap String ν, (entries.map Prod.fst).Nodup →
      ((entries.foldl (fun m nv => m.insert nv.1 nv.2) m)[name]? = some v ↔
        (name, v) ∈ entries ∨ (name ∉ entries.map Prod.fst ∧ m[name]? = some v)) := by
  induction entries with
  | nil => simp
  | cons nv entries ih =>
      intro m hnodup
      rw [List.map_cons, List.nodup_cons] at hnodup
      rw [List.foldl_cons, ih _ hnodup.2, ExtTreeMap.getElem?_insert]
      obtain ⟨name', v'⟩ := nv
      by_cases hname : name' = name
      · subst hname
        have hfirst : ∀ v, (name', v) ∉ entries := fun v hmem =>
          hnodup.1 (List.mem_map.2 ⟨(name', v), hmem, rfl⟩)
        simp [hfirst, hnodup.1, eq_comm]
      · simp [hname, Ne.symm hname]

/-- Entries that keep their names and may be left out. -/
theorem map_fst_filterMap_sublist {α β : Type} {g : String × α → Option (String × β)}
    (hg : ∀ a b, g a = some b → b.1 = a.1) (l : List (String × α)) :
    ((l.filterMap g).map Prod.fst).Sublist (l.map Prod.fst) := by
  induction l with
  | nil => exact .slnil
  | cons a l ih =>
      cases ha : g a with
      | none =>
          rw [List.filterMap_cons_none ha]
          exact ih.cons _
      | some b =>
          rw [List.filterMap_cons_some ha, List.map_cons, List.map_cons, hg a b ha]
          exact ih.cons_cons _

/-- **What `reconstruct_document` makes of a field.** -/
theorem getElem?_reconstructDocument {doc : TantivyDocument} {fieldMap : FieldMap} {name : String}
    {v : FieldValue} :
    (reconstructDocument doc fieldMap).fields[name]? = some v ↔
      UserName name ∧ (fieldMap[name]?.bind doc.getFirst).map OwnedValue.toFieldValue = some v := by
  have hnodup : ((fieldMap.toList.filterMap fun nf =>
      if nf.1.toList.head? = some '_' then none
      else (doc.getFirst nf.2).map fun value => (nf.1, value.toFieldValue)).map Prod.fst).Nodup := by
    refine List.Nodup.sublist (map_fst_filterMap_sublist ?_ fieldMap.toList) ?_
    · intro a b hb
      split at hb
      · exact nomatch hb
      · obtain ⟨value, -, rfl⟩ := Option.map_eq_some_iff.1 hb
        rfl
    · exact nodup_fst_of_perm (List.Perm.refl _)
  rw [reconstructDocument, getElem?_insertAll _ _ _ _ hnodup]
  simp only [List.mem_filterMap, ExtTreeMap.getElem?_empty, reduceCtorEq, and_false, or_false]
  constructor
  · rintro ⟨⟨name', f⟩, hmem, hv⟩
    split at hv
    · exact nomatch hv
    · rename_i hname
      obtain ⟨value, hvalue, hpair⟩ := Option.map_eq_some_iff.1 hv
      obtain ⟨rfl, rfl⟩ := Prod.mk.inj hpair
      refine ⟨hname, ?_⟩
      rw [ExtTreeMap.mem_toList_iff_getElem?_eq_some.1 hmem, Option.bind_some, hvalue, Option.map_some]
  · rintro ⟨hname, hv⟩
    obtain ⟨value, hvalue, rfl⟩ := Option.map_eq_some_iff.1 hv
    obtain ⟨f, hf, hfirst⟩ := Option.bind_eq_some_iff.1 hvalue
    refine ⟨(name, f), ExtTreeMap.mem_toList_iff_getElem?_eq_some.2 hf, ?_⟩
    rw [if_neg hname, hfirst, Option.map_some]

/-! ## Documents -/

/-- The mapping has the type of every field of the document. -/
def Types (mapping : FieldMapping) (doc : Document) : Prop :=
  ∀ (name : String) (v : FieldValue), doc.fields[name]? = some v →
    mapping.fields[name]? = some (fieldValueToMappedType v)

/-- The field is not an array. -/
def IsScalar : FieldValue → Prop
  | .array _ => False
  | _ => True

/-- A value that is written and read back. -/
theorem read_ownedValues_iff (v : FieldValue) :
    ((ownedValues v).head?.map OwnedValue.toFieldValue) = some v ↔ IsScalar v := by
  cases v with
  | text s => simp [ownedValues, OwnedValue.toFieldValue, IsScalar]
  | number x => simp [ownedValues, OwnedValue.toFieldValue, IsScalar]
  | boolean b => cases b <;> simp [ownedValues, OwnedValue.toFieldValue, IsScalar]
  | array vs =>
      cases htexts : arrayTexts vs with
      | nil => simp [ownedValues, IsScalar, htexts]
      | cons s texts => simp [ownedValues, OwnedValue.toFieldValue, IsScalar, htexts]

section Hits

variable {doc : Document} {mapping : FieldMapping} {mappingOrder : HashOrder MappedFieldType}
  {schema : Schema} {fieldMap : FieldMap}

/-- A name of the mapping has a handle. -/
theorem exists_handle (hbuild : buildSchemaFromMapping mappingOrder mapping true = some (schema, fieldMap))
    {name : String} {ty : MappedFieldType} (hty : mapping.fields[name]? = some ty) :
    ∃ f, fieldMap[name]? = some f := by
  obtain ⟨hdescribes, hentries⟩ := buildSchemaFromMapping_spec hbuild
  have hmem : (⟨name, schemaType ty⟩ : FieldEntry) ∈ schema.entries := by
    rw [hentries]
    refine List.mem_append_right _ (List.mem_map.2 ⟨(name, ty), ?_, rfl⟩)
    exact (mappingOrder.perm mapping.fields).mem_iff.2
      (ExtTreeMap.mem_toList_iff_getElem?_eq_some.2 hty)
  obtain ⟨f, hf⟩ := List.getElem?_of_mem hmem
  exact ⟨f, (hdescribes name f).2 ⟨_, hf⟩⟩

/-- Two names do not share a handle. -/
theorem Describes.name_unique (h : Describes schema fieldMap) {name name' : String} {f : Field}
    (hf : fieldMap[name]? = some f) (hf' : fieldMap[name']? = some f) : name = name' := by
  obtain ⟨ty, hty⟩ := (h name f).1 hf
  obtain ⟨ty', hty'⟩ := (h name' f).1 hf'
  exact congrArg FieldEntry.name (Option.some.inj (hty.symm.trans hty'))

/-- A user field is read back as its first value. -/
theorem getFirst_buildTantivyDoc (hdescribes : Describes schema fieldMap) (order : HashOrder FieldValue)
    (now : UInt64) {name : String} (hname : UserName name) {f : Field} (hf : fieldMap[name]? = some f) :
    (buildTantivyDoc doc fieldMap order now).getFirst f =
      ((doc.fields[name]?.map ownedValues).getD []).head? := by
  rw [getFirst_eq_head?, TantivyDocument.valuesOf, buildTantivyDoc_eq,
    ofKey_withHandles hdescribes.name_unique hf, ofKey_namedValues doc _ order now hname]

/-- The id is the first value of its field. -/
theorem reconstructDocument_buildTantivyDoc_id
    (hid : fieldMap["_id"]? = some 0) (order : HashOrder FieldValue) (now : UInt64) :
    (reconstructDocument (buildTantivyDoc doc fieldMap order now) fieldMap).id = doc.id := by
  have hfirst : (buildTantivyDoc doc fieldMap order now).getFirst 0 = some (.str doc.id.val) := by
    simp [buildTantivyDoc, TantivyDocument.getFirst, hid]
  simp [reconstructDocument, hid, hfirst]

end Hits

/-- **What a hit shows.** For a document whose fields have user names and types in the
mapping, the document that is read back has its id and its fields exactly where none of them
is an array. -/
theorem reconstructDocument_eq_iff (doc : Document) (mapping : FieldMapping)
    (mappingOrder : HashOrder MappedFieldType) (order : HashOrder FieldValue) (now : UInt64)
    (schema : Schema) (fieldMap : FieldMap)
    (hbuild : buildSchemaFromMapping mappingOrder mapping true = some (schema, fieldMap))
    (hnames : ∀ name ∈ doc.fields, UserName name) (htypes : Types mapping doc) :
    ((reconstructDocument (buildTantivyDoc doc fieldMap order now) fieldMap).id = doc.id ∧
        (reconstructDocument (buildTantivyDoc doc fieldMap order now) fieldMap).fields = doc.fields) ↔
      ∀ (name : String) (v : FieldValue), doc.fields[name]? = some v → IsScalar v := by
  obtain ⟨hdescribes, hentries⟩ := buildSchemaFromMapping_spec hbuild
  have hid : fieldMap["_id"]? = some 0 := (hdescribes "_id" 0).2 ⟨_, by rw [hentries]; rfl⟩
  -- a field of the document is read back as what its values begin with
  have hfield : ∀ (name : String) (v : FieldValue), doc.fields[name]? = some v → ∀ w,
      ((reconstructDocument (buildTantivyDoc doc fieldMap order now) fieldMap).fields[name]? = some w ↔
        (ownedValues v).head?.map OwnedValue.toFieldValue = some w) := by
    intro name v hv w
    have hname : UserName name := hnames name (ExtTreeMap.mem_iff_isSome_getElem?.2 (by rw [hv]; rfl))
    obtain ⟨f, hf⟩ := exists_handle hbuild (htypes name v hv)
    rw [getElem?_reconstructDocument, hf, Option.bind_some,
      getFirst_buildTantivyDoc hdescribes order now hname hf, hv]
    exact and_iff_right hname
  constructor
  · rintro ⟨-, hfields⟩ name v hv
    refine (read_ownedValues_iff v).1 ((hfield name v hv v).1 ?_)
    rw [hfields, hv]
  · intro hscalar
    refine ⟨reconstructDocument_buildTantivyDoc_id hid order now, ExtTreeMap.ext_getElem? fun name => ?_⟩
    refine Option.ext fun w => ?_
    cases hv : doc.fields[name]? with
    | some v =>
        rw [hfield name v hv w, (read_ownedValues_iff v).2 (hscalar name v hv)]
    | none =>
        refine iff_of_false (fun hw => ?_) nofun
        obtain ⟨hname, hvalue⟩ := getElem?_reconstructDocument.1 hw
        obtain ⟨value, hfirst, -⟩ := Option.map_eq_some_iff.1 hvalue
        obtain ⟨f, hf, hfirst⟩ := Option.bind_eq_some_iff.1 hfirst
        rw [getFirst_buildTantivyDoc hdescribes order now hname hf, hv] at hfirst
        exact nomatch hfirst

/-- A mapping with one field. -/
def singleMapping (name : String) (ty : MappedFieldType) : FieldMapping :=
  ⟨(∅ : ExtTreeMap String MappedFieldType).insert name ty⟩

/-- A document with one field. -/
def singleDocument (name : String) (v : FieldValue) : Document := (Document.new ⟨"d"⟩).withField name v

theorem getElem?_singleDocument {name name' : String} {v v' : FieldValue} :
    (singleDocument name v).fields[name']? = some v' ↔ name = name' ∧ v = v' := by
  simp only [singleDocument, Document.withField, Document.new, ExtTreeMap.getElem?_insert,
    Std.LawfulEqCmp.compare_eq_iff_eq]
  by_cases hname : name = name'
  · simp [hname]
  · simp [hname]

theorem userName_singleDocument {name : String} {v : FieldValue} (hname : UserName name) :
    ∀ name' ∈ (singleDocument name v).fields, UserName name' := by
  intro name' hmem
  obtain ⟨v', hv'⟩ := Option.isSome_iff_exists.1 (ExtTreeMap.mem_iff_isSome_getElem?.1 hmem)
  rwa [← (getElem?_singleDocument.1 hv').1]

theorem types_singleDocument (name : String) (v : FieldValue) :
    Types (singleMapping name (fieldValueToMappedType v)) (singleDocument name v) := by
  intro name' v' hv'
  obtain ⟨rfl, rfl⟩ := getElem?_singleDocument.1 hv'
  simp [singleMapping]

/-- A document with a title. -/
theorem reconstructDocument_title :
    ∃ schema fieldMap,
      buildSchemaFromMapping (keyOrder _) (singleMapping "title" .text) true = some (schema, fieldMap) ∧
        (reconstructDocument (buildTantivyDoc (singleDocument "title" (.text "t")) fieldMap (keyOrder _) 0)
          fieldMap).fields = (singleDocument "title" (.text "t")).fields := by
  obtain ⟨⟨schema, fieldMap⟩, hbuild⟩ : ∃ built,
      buildSchemaFromMapping (keyOrder _) (singleMapping "title" .text) true = some built :=
    Option.isSome_iff_exists.1 (by decide)
  refine ⟨schema, fieldMap, hbuild, ?_⟩
  refine ((reconstructDocument_eq_iff (singleDocument "title" (.text "t")) (singleMapping "title" .text)
    (keyOrder _) (keyOrder _) 0 schema fieldMap hbuild (userName_singleDocument (by decide))
    (types_singleDocument "title" (.text "t"))).2 fun name v hv => ?_).2
  obtain ⟨-, rfl⟩ := getElem?_singleDocument.1 hv
  exact trivial

/-- Two tags. -/
def twoTags : FieldValue := .array [.text "a", .text "b"]

/-- A hit shows one of them, as a text. -/
theorem not_reconstructDocument_tags :
    UserName "tags" ∧ Types (singleMapping "tags" .array) (singleDocument "tags" twoTags) ∧
      ∃ schema fieldMap,
        buildSchemaFromMapping (keyOrder _) (singleMapping "tags" .array) true = some (schema, fieldMap) ∧
        (reconstructDocument (buildTantivyDoc (singleDocument "tags" twoTags) fieldMap (keyOrder _) 0)
          fieldMap).fields["tags"]? = some (.text "a") ∧
        (singleDocument "tags" twoTags).fields["tags"]? = some twoTags := by
  have hread : (buildSchemaFromMapping (keyOrder _) (singleMapping "tags" .array) true).map (fun built =>
      (reconstructDocument (buildTantivyDoc (singleDocument "tags" twoTags) built.2 (keyOrder _) 0)
        built.2).fields["tags"]?) = some (some (.text "a")) := by
    decide
  obtain ⟨⟨schema, fieldMap⟩, hbuild, htags⟩ := Option.map_eq_some_iff.1 hread
  exact ⟨by decide, types_singleDocument "tags" twoTags, schema, fieldMap, hbuild, htags,
    getElem?_singleDocument.2 ⟨rfl, rfl⟩⟩

end MSearchDB.Index
