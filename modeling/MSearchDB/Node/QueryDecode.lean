import MSearchDB.Lib.Json
import MSearchDB.Node.SearchRequest

/-!
# Search requests as they are read

The deserialisation that serde derives for `QueryDsl` and the types in it, and for the `query`,
`size` and `from` of a `SearchRequest` (`crates/node/src/dto.rs`). An enum is an object with one
member, whose name is a variant; a struct is an object, in which unknown members are passed over
and no known one stands twice, or an array of its fields.

`serde_json` counts the objects and arrays that it is inside of and gives up at the 128th. What it
reads as an `f64` of the text of a number is a parameter.
-/

set_option autoImplicit false

namespace MSearchDB.Node

open MSearchDB.Lib
open MSearchDB.Core
open Std (ExtTreeMap)

/-- The kinds of errors of `serde_json`. -/
inductive DecodeError where
  | recursionLimitExceeded
  | invalidType
  | invalidLength
  | unknownVariant (name : String)
  | missingField (name : String)
  | duplicateField (name : String)
  | numberOutOfRange
  deriving DecidableEq, Repr

/-- The `f64` that is read of a number, if it is one that can be sent and read. -/
class NumberReader where
  ofInt : Int → Option F64
  ofFloat : F64 → Option F64

/-- The result of a decoder. -/
abbrev Decoded (α : Type) := Except DecodeError α

/-- `remaining_depth` of a new `serde_json::Deserializer`. -/
def recursionLimit : Nat := 128

/-- An object or an array is entered: the depth that remains. -/
def enter (remaining : Nat) : Decoded Nat :=
  if remaining ≤ 1 then .error .recursionLimitExceeded else .ok (remaining - 1)

/-- A decoder that goes on after another succeeds if both do. -/
theorem bind_eq_ok {α β : Type} {x : Decoded α} {f : α → Decoded β} {b : β} :
    (x >>= f) = .ok b ↔ ∃ a, x = .ok a ∧ f a = .ok b := by
  cases x with
  | error e => simp [bind, Except.bind]
  | ok a => simp [bind, Except.bind]

theorem map_eq_ok {α β : Type} {x : Decoded α} {f : α → β} {b : β} :
    x.map f = .ok b ↔ ∃ a, x = .ok a ∧ f a = b := by
  cases x with
  | error e => simp [Except.map]
  | ok a => simp [Except.map]

theorem enter_eq_ok {r s : Nat} : enter r = .ok s ↔ 1 < r ∧ s = r - 1 := by
  unfold enter
  split
  · simp only [reduceCtorEq, false_iff]
    omega
  · simp only [Except.ok.injEq]
    omega

/-- `String`. -/
def decodeString : Json F64 → Decoded String
  | .string s => .ok s
  | _ => .error .invalidType

/-- A required field of a struct. -/
def requiredField (name : String) (members : List (String × Json F64)) : Decoded (Json F64) :=
  match members.filter fun m => m.1 = name with
  | [] => .error (.missingField name)
  | [m] => .ok m.2
  | _ => .error (.duplicateField name)

/-- A field of a struct with a default. -/
def optionalField (name : String) (members : List (String × Json F64)) : Decoded (Option (Json F64)) :=
  match members.filter fun m => m.1 = name with
  | [] => .ok none
  | [m] => .ok (some m.2)
  | _ => .error (.duplicateField name)

/-- The values of a `HashMap`; of two with one key the later is kept. -/
def decodeMembers {α : Type} (decode : Json F64 → Decoded α) (members : List (String × Json F64)) :
    Decoded (ExtTreeMap String α) :=
  members.foldlM (fun m member => (decode member.2).map (m.insert member.1)) ∅

/-- `HashMap<String, _>`. -/
def decodeMap {α : Type} (remaining : Nat) (decode : Nat → Json F64 → Decoded α) :
    Json F64 → Decoded (ExtTreeMap String α)
  | .object members => do
      let remaining ← enter remaining
      decodeMembers (decode remaining) members
  | _ => .error .invalidType

/-- `MatchFieldQuery`. -/
def decodeMatchField (remaining : Nat) : Json F64 → Decoded MatchFieldQuery
  | .object members => do
      let _ ← enter remaining
      let query ← decodeString (← requiredField "query" members)
      match ← optionalField "operator" members with
      | none => .ok ⟨query, "or"⟩
      | some operator => .ok ⟨query, ← decodeString operator⟩
  | .array [query] => do
      let _ ← enter remaining
      .ok ⟨← decodeString query, "or"⟩
  | .array [query, operator] => do
      let _ ← enter remaining
      .ok ⟨← decodeString query, ← decodeString operator⟩
  | .array _ => .error .invalidLength
  | _ => .error .invalidType

section Numbers

variable [NumberReader]

/-- `Option<f64>`. -/
def decodeOptionF64 : Json F64 → Decoded (Option F64)
  | .null => .ok none
  | .int n => (NumberReader.ofInt n).elim (.error .numberOutOfRange) fun x => .ok (some x)
  | .float x => (NumberReader.ofFloat x).elim (.error .numberOutOfRange) fun x => .ok (some x)
  | _ => .error .invalidType

/-- An `Option<f64>` field with a default. -/
def optionalF64 (name : String) (members : List (String × Json F64)) : Decoded (Option F64) := do
  match ← optionalField name members with
  | none => .ok none
  | some value => decodeOptionF64 value

/-- `RangeFieldQuery`. -/
def decodeRangeField (remaining : Nat) : Json F64 → Decoded RangeFieldQuery
  | .object members => do
      let _ ← enter remaining
      .ok ⟨← optionalF64 "gte" members, ← optionalF64 "lte" members⟩
  | .array [] => do
      let _ ← enter remaining
      .ok ⟨none, none⟩
  | .array [gte] => do
      let _ ← enter remaining
      .ok ⟨← decodeOptionF64 gte, none⟩
  | .array [gte, lte] => do
      let _ ← enter remaining
      .ok ⟨← decodeOptionF64 gte, ← decodeOptionF64 lte⟩
  | .array _ => .error .invalidLength
  | _ => .error .invalidType

mutual

/-- `QueryDsl`. -/
def decodeQueryDsl (remaining : Nat) : Json F64 → Decoded QueryDsl
  | .object [(variant, content)] => do
      let remaining ← enter remaining
      if variant = "match" then .ok (.match (← decodeMap remaining decodeMatchField content))
      else if variant = "term" then .ok (.term (← decodeMap remaining (fun _ => decodeString) content))
      else if variant = "range" then .ok (.range (← decodeMap remaining decodeRangeField content))
      else if variant = "bool" then decodeBool remaining content
      else .error (.unknownVariant variant)
  | _ => .error .invalidType

/-- `BoolQueryDsl`. -/
def decodeBool (remaining : Nat) : Json F64 → Decoded QueryDsl
  | .object members => do
      let remaining ← enter remaining
      decodeBoolMembers remaining none none none members
  | .array [] => do
      let _ ← enter remaining
      .ok (.bool [] [] [])
  | .array [must] => do
      let remaining ← enter remaining
      .ok (.bool (← decodeQueries remaining must) [] [])
  | .array [must, should] => do
      let remaining ← enter remaining
      .ok (.bool (← decodeQueries remaining must) (← decodeQueries remaining should) [])
  | .array [must, should, mustNot] => do
      let remaining ← enter remaining
      .ok (.bool (← decodeQueries remaining must) (← decodeQueries remaining should)
        (← decodeQueries remaining mustNot))
  | .array _ => .error .invalidLength
  | _ => .error .invalidType

/-- The members of a `BoolQueryDsl`, with those read so far. -/
def decodeBoolMembers (remaining : Nat) (must should mustNot : Option (List QueryDsl)) :
    List (String × Json F64) → Decoded QueryDsl
  | [] => .ok (.bool (must.getD []) (should.getD []) (mustNot.getD []))
  | (key, value) :: rest =>
      if key = "must" then
        if must.isSome then .error (.duplicateField key)
        else do
          let queries ← decodeQueries remaining value
          decodeBoolMembers remaining (some queries) should mustNot rest
      else if key = "should" then
        if should.isSome then .error (.duplicateField key)
        else do
          let queries ← decodeQueries remaining value
          decodeBoolMembers remaining must (some queries) mustNot rest
      else if key = "must_not" then
        if mustNot.isSome then .error (.duplicateField key)
        else do
          let queries ← decodeQueries remaining value
          decodeBoolMembers remaining must should (some queries) rest
      else decodeBoolMembers remaining must should mustNot rest

/-- `Vec<QueryDsl>`. -/
def decodeQueries (remaining : Nat) : Json F64 → Decoded (List QueryDsl)
  | .array vs => do
      let remaining ← enter remaining
      decodeQueryList remaining vs
  | _ => .error .invalidType

/-- The queries of an array. -/
def decodeQueryList (remaining : Nat) : List (Json F64) → Decoded (List QueryDsl)
  | [] => .ok []
  | v :: vs => do
      let query ← decodeQueryDsl remaining v
      let queries ← decodeQueryList remaining vs
      .ok (query :: queries)

end

/-- `Option<usize>`. -/
def decodeOptionUsize : Json F64 → Decoded (Option UInt64)
  | .null => .ok none
  | .int n => if 0 ≤ n ∧ n < 2 ^ 64 then .ok (some (UInt64.ofNat n.toNat)) else .error .numberOutOfRange
  | _ => .error .invalidType

/-- `SearchRequest`, for a body without `highlight`, `sort`, `aggs`, `search_after` and
`collapse`. -/
def decodeSearchRequest (members : List (String × Json F64)) : Decoded SearchRequest := do
  let remaining ← enter recursionLimit
  let query ← decodeQueryDsl remaining (← requiredField "query" members)
  let size ← match ← optionalField "size" members with
    | none => .ok (some 10)
    | some value => decodeOptionUsize value
  let from' ← match ← optionalField "from" members with
    | none => .ok none
    | some value => decodeOptionUsize value
  .ok ⟨query, size, from', none, none, none, none⟩

end Numbers

end MSearchDB.Node
