import MSearchDB.Lib.Bytes

/-!
# Errors

The unified error type of `crates/core/src/error.rs` and the result type built on
it. Messages are kept as the source formats them.
-/

set_option autoImplicit false

namespace MSearchDB.Core

/-- `DbError`: one constructor per variant of the source enumeration. -/
inductive DbError where
  | notFound (msg : String)
  | storageError (msg : String)
  | indexError (msg : String)
  | networkError (msg : String)
  | consensusError (msg : String)
  | serializationError (msg : String)
  | invalidInput (msg : String)
  | consistencyError (msg : String)
  | schemaConflict (field existing incoming : String)
  | collectionAlreadyExists (name : String)
  | aliasAlreadyExists (name : String)
  | aliasNotFound (name : String)
  | snapshotError (msg : String)
  deriving DecidableEq, Repr

/-- `DbError::to_string`. -/
def DbError.toString : DbError → String
  | .notFound msg => "not found: " ++ msg
  | .storageError msg => "storage error: " ++ msg
  | .indexError msg => "index error: " ++ msg
  | .networkError msg => "network error: " ++ msg
  | .consensusError msg => "consensus error: " ++ msg
  | .serializationError msg => "serialization error: " ++ msg
  | .invalidInput msg => "invalid input: " ++ msg
  | .consistencyError msg => "consistency error: " ++ msg
  | .schemaConflict field existing incoming =>
      "schema conflict on field '" ++ field ++ "': existing type '" ++ existing ++
        "', incoming type '" ++ incoming ++ "'"
  | .collectionAlreadyExists name => "collection already exists: " ++ name
  | .aliasAlreadyExists name => "alias already exists: " ++ name
  | .aliasNotFound name => "alias not found: " ++ name
  | .snapshotError msg => "snapshot error: " ++ msg

/-- `DbResult<T>`. -/
abbrev DbResult (α : Type) := Except DbError α

/-- The `std::io::Error` values met by the modelled code. -/
inductive IoError where
  | notFound
  | unexpectedEof
  | fileTooLarge
  deriving DecidableEq, Repr

/-- `std::io::Error::to_string` on these values. -/
def IoError.toString : IoError → String
  | .notFound => "No such file or directory (os error 2)"
  | .unexpectedEof => "failed to fill whole buffer"
  | .fileTooLarge => "File too large (os error 27)"

/-- `impl From<std::io::Error> for DbError`. -/
def DbError.ofIo (e : IoError) : DbError := .storageError e.toString

end MSearchDB.Core
