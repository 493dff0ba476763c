import MSearchDB.Core.MappingMerge
import MSearchDB.Node.DocumentCache

/-!
# The types of fields over runs of a mapping

Whatever is called on a `FieldMapping`, and however it ends, a field that is registered keeps
its type (`le_run`). A failed merge may leave more fields than it found, but never fewer and
never with other types.

`validate_and_update_mapping` registers the fields of a document on a copy, in the order of a
`HashMap`. Its loop is the loop of a merge, so that its verdict and its mapping are those of
any other order (`validateFields_perm`).
-/

set_option autoImplicit false

namespace MSearchDB.Node

open MSearchDB.Lib
open MSearchDB.Core
open MSearchDB.Index

/-! ## Calls on a mapping -/

/-- A call that can change a mapping. The fields of the mapping to merge come in some order. -/
inductive MappingCall where
  | registerField (name : String) (fieldType : MappedFieldType)
  | merge (other : FieldMapping) (order : List (String × MappedFieldType)) (iterates : order.Perm other.fields.toList)

namespace MappingCall

/-- The mapping that a call leaves, whatever it returns. -/
def apply (m : FieldMapping) : MappingCall → FieldMapping
  | registerField name ft =>
      match m.registerField name ft with
      | .ok (_, m') => m'
      | .error _ => m
  | merge _ order _ => (m.merge order).2

/-- The mapping after a run of calls. -/
def run (m : FieldMapping) (calls : List MappingCall) : FieldMapping := calls.foldl apply m

theorem le_apply (m : FieldMapping) (call : MappingCall) : m.Le (call.apply m) := by
  cases call with
  | registerField name ft =>
      rw [apply]
      cases hone : m.registerField name ft with
      | error e => exact FieldMapping.Le.refl m
      | ok res =>
          obtain ⟨-, hle, -⟩ := FieldMapping.registerField_ok hone
          exact hle
  | merge other order iterates => exact FieldMapping.le_mergeLoop []

/-- A run keeps the fields that are registered. -/
theorem le_run (m : FieldMapping) (calls : List MappingCall) : m.Le (run m calls) := by
  induction calls generalizing m with
  | nil => exact FieldMapping.Le.refl m
  | cons call calls ih => exact (le_apply m call).trans (ih (call.apply m))

theorem run_append (m : FieldMapping) (calls later : List MappingCall) :
    run m (calls ++ later) = run (run m calls) later :=
  List.foldl_append

end MappingCall

/-- What `register_field` returns and leaves, for a field that is new, known with the same type,
or known with another one. -/
structure RegisterLaw (m : FieldMapping) (name : String) (fieldType : MappedFieldType) : Prop where
  isNew : ∀ m', m.registerField name fieldType = .ok (true, m') ↔
    m.fields[name]? = none ∧ m' = ⟨m.fields.insert name fieldType⟩
  isKnown : ∀ m', m.registerField name fieldType = .ok (false, m') ↔
    m.fields[name]? = some fieldType ∧ m' = m
  conflicts : ∀ e, m.registerField name fieldType = .error e ↔
    ∃ existing, m.fields[name]? = some existing ∧ existing ≠ fieldType ∧
      e = .schemaConflict name existing.toString fieldType.toString

theorem registerLaw (m : FieldMapping) (name : String) (fieldType : MappedFieldType) :
    RegisterLaw m name fieldType := by
  cases hfield : m.fields[name]? with
  | none =>
      have hone : m.registerField name fieldType = _ := FieldMapping.registerField_of_none hfield
      constructor <;> simp [hone, hfield, eq_comm]
  | some existing =>
      by_cases htype : existing = fieldType
      · subst htype
        have hone := FieldMapping.registerField_of_same hfield
        constructor <;> simp [hone, hfield, eq_comm]
      · have hone := FieldMapping.registerField_of_other hfield htype
        constructor <;> simp [hone, hfield, Ne.symm htype, eq_comm]

/-! ## The fields of a document -/

/-- The loop of `validate_and_update_mapping` over the fields of a document in some order. -/
def validateFields (order : List (String × FieldValue)) (mapping : FieldMapping) : DbResult FieldMapping :=
  order.foldlM (fun updated nv => (updated.registerField nv.1 (fieldValueToMappedType nv.2)).map Prod.snd) mapping

/-- A field with the type that the mapping keeps of it. -/
def typedField (nv : String × FieldValue) : String × MappedFieldType := (nv.1, fieldValueToMappedType nv.2)

section Validate

variable {m : FieldMapping} {order order' : List (String × FieldValue)}

/-- The loop is the loop of a merge: what is registered there is its result. -/
theorem validateFields_eq_mergeLoop (added : List String) (m : FieldMapping) (order : List (String × FieldValue)) :
    validateFields order m = ((m.mergeLoop added (order.map typedField)).1).map
      fun _ => (m.mergeLoop added (order.map typedField)).2 := by
  induction order generalizing m added with
  | nil => rfl
  | cons nv order ih =>
      rw [validateFields, List.foldlM_cons, List.map_cons, typedField]
      cases hone : m.registerField nv.1 (fieldValueToMappedType nv.2) with
      | error e =>
          rw [FieldMapping.mergeLoop_cons_error hone]
          rfl
      | ok res =>
          rw [FieldMapping.mergeLoop_cons_ok hone]
          exact ih _ res.2

theorem validateFields_of_fits (hnames : (order.map Prod.fst).Nodup)
    (hfits : ∀ nv ∈ order.map typedField, m.conflicts nv = false) :
    ∃ m', validateFields order m = .ok m' ∧ m.IsExtension (order.map typedField) m' := by
  have hnames' : ((order.map typedField).map Prod.fst).Nodup := by
    rw [List.map_map]
    exact hnames
  obtain ⟨m', hloop, hext⟩ := FieldMapping.mergeLoop_fits [] hnames' hfits
  refine ⟨m', ?_, hext⟩
  rw [validateFields_eq_mergeLoop [] m order, hloop]
  rfl

theorem validateFields_of_conflict (hnames : (order.map Prod.fst).Nodup) {nv : String × MappedFieldType}
    (hnv : nv ∈ order.map typedField) (hconflict : m.conflicts nv = true) :
    ∃ e, validateFields order m = .error e := by
  have hnames' : ((order.map typedField).map Prod.fst).Nodup := by
    rw [List.map_map]
    exact hnames
  rcases FieldMapping.fits_or_conflict m (order.map typedField) with
    hfits | ⟨before, first, after, heq, hfirst, hfits⟩
  · rw [hfits nv hnv] at hconflict
    cases hconflict
  · rw [heq] at hnames'
    obtain ⟨e, m', hloop, -⟩ := FieldMapping.mergeLoop_conflict [] hnames' hfits hfirst
    refine ⟨e, ?_⟩
    rw [validateFields_eq_mergeLoop [] m order, heq, hloop]
    rfl

/-- **The order of the fields.** Two orders of the same fields have one verdict, and one mapping
where it is `Ok`. -/
theorem validateFields_perm (h : order.Perm order') (hnames : (order.map Prod.fst).Nodup) :
    (validateFields order m).toOption = (validateFields order' m).toOption := by
  have hnames' : (order'.map Prod.fst).Nodup := (h.map Prod.fst).nodup_iff.1 hnames
  have htyped := h.map typedField
  -- a conflict is one of a field with the mapping, wherever the field comes
  by_cases hfits : ∀ nv ∈ order.map typedField, m.conflicts nv = false
  · obtain ⟨m₁, hone, hext⟩ := validateFields_of_fits hnames hfits
    obtain ⟨m₂, htwo, hext'⟩ := validateFields_of_fits hnames' fun nv hnv => hfits nv (htyped.mem_iff.2 hnv)
    have heq : m₁ = m₂ := FieldMapping.ext_fields fun name ty => by
      rw [hext name ty, hext' name ty, htyped.mem_iff]
    rw [hone, htwo, heq]
  · simp only [not_forall, Bool.not_eq_false] at hfits
    obtain ⟨nv, hnv, hconflict⟩ := hfits
    obtain ⟨e, hone⟩ := validateFields_of_conflict hnames hnv hconflict
    obtain ⟨e', htwo⟩ := validateFields_of_conflict hnames' (htyped.mem_iff.1 hnv) hconflict
    rw [hone, htwo]
    rfl

end Validate

/-- **Field types are immutable.** -/
theorem fieldTypes_immutable (m : FieldMapping) :
    (∀ calls later : List MappingCall, (MappingCall.run m calls).Le (MappingCall.run m (calls ++ later))) ∧
      (∀ (calls : List MappingCall) (name : String) (fieldType : MappedFieldType),
        RegisterLaw (MappingCall.run m calls) name fieldType) ∧
      ∀ (doc : Document) (order : List (String × FieldValue)), order.Perm doc.fields.toList →
        (validateFields order m).toOption = (validateAndUpdateMapping doc m).toOption := by
  refine ⟨fun calls later => ?_, fun calls => registerLaw _, fun doc order h => ?_⟩
  · rw [MappingCall.run_append]
    exact MappingCall.le_run _ later
  · exact validateFields_perm h (nodup_fst_of_perm h)

/-- A document of two fields, validated from the last to the first. -/
theorem fieldTypes_immutable_reversed :
    let doc := (Document.new ⟨"a"⟩).withField "open" (.boolean true) |>.withField "title" (.text "lake")
    (validateFields [("title", .text "lake"), ("open", .boolean true)] FieldMapping.new).toOption =
      (validateAndUpdateMapping doc FieldMapping.new).toOption :=
  (fieldTypes_immutable FieldMapping.new).2.2 _ _ (by decide)

end MSearchDB.Node
