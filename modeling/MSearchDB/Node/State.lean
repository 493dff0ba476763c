import MSearchDB.Core.Traits

/-!
# Registry entries and payloads of the handlers

`CollectionMeta` of `crates/node/src/state.rs`, and of `crates/node/src/dto.rs` the
error envelope, the actions and items of a bulk request, and the conversion of JSON
values to field values. A JSON value is `serde_json::Value`; of a number the
handlers read only the `f64` behind it.
-/

set_option autoImplicit false

namespace MSearchDB.Node

open MSearchDB.Core
open Std (ExtTreeMap)

/-- `CollectionMeta`, without the name and the settings. -/
structure CollectionMeta where
  docCount : UInt64
  mapping : FieldMapping
  deriving DecidableEq

/-- `serde_json::Value`. -/
inductive JsonValue where
  | null
  | bool (b : Bool)
  | number (asF64 : Option F64)
  | string (s : String)
  | array (vs : List JsonValue)
  | object (members : List (String × JsonValue))

mutual
/-- `json_to_field_value`. -/
def jsonToFieldValue : JsonValue → Option FieldValue
  | .string s => some (.text s)
  | .number asF64 => asF64.map .number
  | .bool b => some (.boolean b)
  | .array vs => some (.array (jsonToFieldValues vs))
  | .null => none
  | .object _ => none
/-- The values of an array that are kept. -/
def jsonToFieldValues : List JsonValue → List FieldValue
  | [] => []
  | v :: vs =>
      match jsonToFieldValue v with
      | some fv => fv :: jsonToFieldValues vs
      | none => jsonToFieldValues vs
end

/-- A document with the members of a JSON object that are field values. -/
def documentOf (id : DocumentId) (fields : ExtTreeMap String JsonValue) : Document :=
  { Document.new id with fields := fields.filterMap fun _ v => jsonToFieldValue v }

/-- `ErrorResponse`. -/
structure ErrorResponse where
  status : Nat
  errorType : String
  reason : String
  deriving DecidableEq, Repr

/-- `ErrorResponse::not_found`. -/
def ErrorResponse.notFound (reason : String) : ErrorResponse := ⟨404, "not_found", reason⟩

/-- The answer of a handler whose collection is not registered. -/
def collectionNotFound (collection : String) : ErrorResponse :=
  .notFound ("collection '" ++ collection ++ "' not found")

/-- `BulkAction`, with the id of its `BulkActionMeta`. -/
inductive BulkAction where
  | index (id : Option String)
  | delete (id : Option String)
  deriving DecidableEq, Repr

/-- `BulkItem`. -/
structure BulkItem where
  action : String
  id : String
  status : Nat
  error : Option String
  deriving DecidableEq, Repr

end MSearchDB.Node
