import MSearchDB.Node.SearchRequest

/-!
# Field values and their JSON

A field value is sent as JSON by `field_value_to_json` and read back by
`json_to_field_value`. JSON has no infinities and no NaNs: such a number is sent as `null`,
and an array that is read loses its `null` elements. A value comes back exactly when all its
numbers are finite (`jsonToFieldValue_fieldValueToJson_iff`), and what is read from a JSON
value is such a value (`finiteNumbers_of_jsonToFieldValue`).
-/

set_option autoImplicit false

namespace MSearchDB.Node

open MSearchDB.Core

/-! ## Finite numbers -/

mutual
/-- Every number of the value is finite, at any depth. -/
def finiteNumbers : FieldValue → Bool
  | .text _ => true
  | .number x => x.isFinite
  | .boolean _ => true
  | .array vs => allFiniteNumbers vs
/-- The values of an array. -/
def allFiniteNumbers : List FieldValue → Bool
  | [] => true
  | v :: vs => finiteNumbers v && allFiniteNumbers vs
end

mutual
/-- Every number of the JSON value is finite as an `f64`. -/
def jsonFiniteNumbers : JsonValue → Bool
  | .null => true
  | .bool _ => true
  | .number asF64 => asF64.all fun x => x.isFinite
  | .string _ => true
  | .array vs => jsonAllFiniteNumbers vs
  | .object members => jsonMembersFiniteNumbers members
/-- The values of an array. -/
def jsonAllFiniteNumbers : List JsonValue → Bool
  | [] => true
  | v :: vs => jsonFiniteNumbers v && jsonAllFiniteNumbers vs
/-- The values of an object. -/
def jsonMembersFiniteNumbers : List (String × JsonValue) → Bool
  | [] => true
  | (_, v) :: members => jsonFiniteNumbers v && jsonMembersFiniteNumbers members
end

/-- A `serde_json::Value`: a `Number` there is a `u64`, an `i64` or a finite `f64`, and
`as_f64` of it is finite. -/
def SerdeValue : Type := { v : JsonValue // jsonFiniteNumbers v = true }

/-! ## There and back -/

theorem jsonToFieldValue_jsonNumber (x : F64) :
    jsonToFieldValue (jsonNumber x) = if x.isFinite then some (.number x) else none := by
  unfold jsonNumber
  split
  · rfl
  · rfl

/-- Values that are read from an array are at most as many as its elements. -/
theorem length_jsonToFieldValues_le (vs : List JsonValue) : (jsonToFieldValues vs).length ≤ vs.length := by
  induction vs with
  | nil => exact le_rfl
  | cons v vs ih =>
      rw [jsonToFieldValues]
      split
      · exact Nat.succ_le_succ ih
      · exact Nat.le_succ_of_le ih

theorem length_fieldValuesToJson (vs : List FieldValue) : (fieldValuesToJson vs).length = vs.length := by
  induction vs with
  | nil => rfl
  | cons v vs ih => rw [fieldValuesToJson, List.length_cons, List.length_cons, ih]

mutual
/-- **A value comes back exactly when its numbers are finite.** -/
theorem jsonToFieldValue_fieldValueToJson_iff (v : FieldValue) :
    jsonToFieldValue (fieldValueToJson v) = some v ↔ finiteNumbers v = true := by
  cases v with
  | text s => simp [fieldValueToJson, jsonToFieldValue, finiteNumbers]
  | number x =>
      rw [fieldValueToJson, jsonToFieldValue_jsonNumber, finiteNumbers]
      split
      next hx => simp [hx]
      next hx => simp [hx]
  | boolean b => simp [fieldValueToJson, jsonToFieldValue, finiteNumbers]
  | array vs =>
      rw [fieldValueToJson, jsonToFieldValue, finiteNumbers, Option.some.injEq, FieldValue.array.injEq]
      exact jsonToFieldValues_fieldValuesToJson_iff vs
/-- The values of an array come back, none of them left out. -/
theorem jsonToFieldValues_fieldValuesToJson_iff (vs : List FieldValue) :
    jsonToFieldValues (fieldValuesToJson vs) = vs ↔ allFiniteNumbers vs = true := by
  cases vs with
  | nil => simp [fieldValuesToJson, jsonToFieldValues, allFiniteNumbers]
  | cons v vs =>
      have hhead := jsonToFieldValue_fieldValueToJson_iff v
      have htail := jsonToFieldValues_fieldValuesToJson_iff vs
      rw [fieldValuesToJson, jsonToFieldValues, allFiniteNumbers, Bool.and_eq_true, ← hhead, ← htail]
      cases hread : jsonToFieldValue (fieldValueToJson v) with
      | some read => rw [List.cons.injEq, Option.some.injEq]
      | none =>
          -- An element that is left out leaves too few for all of them to come back.
          constructor
          · intro (hall : jsonToFieldValues (fieldValuesToJson vs) = v :: vs)
            have hle := length_jsonToFieldValues_le (fieldValuesToJson vs)
            rw [length_fieldValuesToJson, hall, List.length_cons] at hle
            omega
          · rintro ⟨hnone, -⟩
            cases hnone
end

mutual
/-- What is read from a JSON value has finite numbers. -/
theorem finiteNumbers_of_jsonToFieldValue (j : JsonValue) (hj : jsonFiniteNumbers j = true) {v : FieldValue}
    (hread : jsonToFieldValue j = some v) : finiteNumbers v = true := by
  cases j with
  | null => cases hread
  | bool b =>
      cases hread
      rfl
  | number asF64 =>
      rw [jsonToFieldValue, Option.map_eq_some_iff] at hread
      obtain ⟨x, rfl, rfl⟩ := hread
      rw [jsonFiniteNumbers, Option.all_some] at hj
      rwa [finiteNumbers]
  | string s =>
      cases hread
      rfl
  | array js =>
      rw [jsonToFieldValue, Option.some.injEq] at hread
      rw [jsonFiniteNumbers] at hj
      rw [← hread, finiteNumbers]
      exact allFiniteNumbers_jsonToFieldValues js hj
  | object members => cases hread
theorem allFiniteNumbers_jsonToFieldValues (js : List JsonValue) (hjs : jsonAllFiniteNumbers js = true) :
    allFiniteNumbers (jsonToFieldValues js) = true := by
  cases js with
  | nil => rfl
  | cons j js =>
      rw [jsonAllFiniteNumbers, Bool.and_eq_true] at hjs
      obtain ⟨hj, hjs⟩ := hjs
      have hrest := allFiniteNumbers_jsonToFieldValues js hjs
      rw [jsonToFieldValues]
      cases hread : jsonToFieldValue j with
      | none => exact hrest
      | some v =>
          rw [allFiniteNumbers, Bool.and_eq_true]
          exact ⟨finiteNumbers_of_jsonToFieldValue j hj hread, hrest⟩
end

/-- **Field values survive JSON.** -/
theorem fieldValue_survives_json :
    (∀ v : FieldValue, jsonToFieldValue (fieldValueToJson v) = some v ↔ finiteNumbers v = true) ∧
      ∀ (j : SerdeValue) (v : FieldValue), jsonToFieldValue j.val = some v →
        jsonToFieldValue (fieldValueToJson v) = some v := by
  refine ⟨jsonToFieldValue_fieldValueToJson_iff, fun j v hread => ?_⟩
  have hfinite := finiteNumbers_of_jsonToFieldValue j.val j.property hread
  exact (jsonToFieldValue_fieldValueToJson_iff v).2 hfinite

/-- A nested array without numbers, and a JSON array with a `null` that is left out. -/
theorem fieldValue_survives_json_nested :
    jsonToFieldValue (fieldValueToJson (.array [.text "lake", .array [.boolean true]])) =
        some (.array [.text "lake", .array [.boolean true]]) ∧
      jsonToFieldValue (fieldValueToJson (.array [.text "lake"])) = some (.array [.text "lake"]) :=
  ⟨(fieldValue_survives_json.1 _).2 (by decide),
    fieldValue_survives_json.2 ⟨.array [.null, .string "lake"], by decide⟩ (.array [.text "lake"]) (by decide)⟩

end MSearchDB.Node
