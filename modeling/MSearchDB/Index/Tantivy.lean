import MSearchDB.Core.Document

/-!
# Tantivy

The part of the search library that `crates/index/src/collection_index.rs` uses, as
its documentation describes it.

A schema is the list of its field entries and the handle of a field is its position
in it. Adding a field whose name is not valid, or is there already, panics. An index
has the schema it was created with; a directory keeps it together with the documents
of the last commit. A writer collects additions and deletions and publishes them in a
commit. Additions are indexed behind the back of the caller: one that does not fit the
schema is accepted, and from then on additions and commits of this writer fail.

How the tokenizers cut a text into terms and how the hits of a query are ranked are
parameters.
-/

set_option autoImplicit false

namespace MSearchDB.Index

open MSearchDB.Lib
open MSearchDB.Core

/-- `tantivy::schema::Field`. -/
abbrev Field := Nat

/-- `tantivy::schema::FieldType`, with the options that the code sets differently. -/
inductive FieldType where
  | text (tokenizer : String)
  | f64 (indexed : Bool)
  | u64 (indexed : Bool)
  deriving DecidableEq, Repr

/-- `tantivy::schema::FieldEntry`. -/
structure FieldEntry where
  name : String
  fieldType : FieldType
  deriving DecidableEq, Repr

/-- `tantivy::schema::Schema`. -/
structure Schema where
  entries : List FieldEntry
  deriving DecidableEq, Repr

/-- `tantivy::schema::is_valid_field_name`. -/
def isValidFieldName (name : String) : Bool := name.toList ≠ [] && name.toList.head? ≠ some '-'

/-- `SchemaBuilder::add_field`, or nothing when it panics. -/
def Schema.addField (schema : Schema) (entry : FieldEntry) : Option (Field × Schema) :=
  if isValidFieldName entry.name ∧ entry.name ∉ schema.entries.map FieldEntry.name then
    some (schema.entries.length, ⟨schema.entries ++ [entry]⟩)
  else none

/-- `tantivy::schema::OwnedValue`, the kinds that are used. -/
inductive OwnedValue where
  | str (s : String)
  | f64 (x : F64)
  | u64 (n : UInt64)
  deriving DecidableEq, Repr

/-- `TantivyDocument`: the values added, in order. -/
structure TantivyDocument where
  values : List (Field × OwnedValue)
  deriving DecidableEq

/-- `TantivyDocument::get_first`. -/
def TantivyDocument.getFirst (doc : TantivyDocument) (field : Field) : Option OwnedValue :=
  (doc.values.find? fun v => v.1 = field).map Prod.snd

/-- A value of the type of its field. -/
def FieldType.accepts : FieldType → OwnedValue → Bool
  | .text _, .str _ => true
  | .f64 _, .f64 _ => true
  | .u64 _, .u64 _ => true
  | _, _ => false

/-- Every value is for a field of the schema and has its type. -/
def Schema.Fits (schema : Schema) (doc : TantivyDocument) : Prop :=
  ∀ v ∈ doc.values, ∃ entry, schema.entries[v.1]? = some entry ∧ entry.fieldType.accepts v.2

instance (schema : Schema) (doc : TantivyDocument) : Decidable (schema.Fits doc) :=
  decidable_of_iff
    (∀ v ∈ doc.values, (schema.entries[v.1]?.any fun entry => entry.fieldType.accepts v.2) = true)
    (by simp [Schema.Fits, Option.any_eq_true])

/-- The length in bytes from which on a term is ignored. -/
def maxTokenLen : Nat := 65530

/-- What the code relies on and does not see. -/
class Tantivy where
  /-- The terms of a text, by the name of the tokenizer. -/
  terms : String → String → List String
  /-- The raw tokenizer takes the text as it is. -/
  terms_raw : ∀ s, (asBytes s).length ≤ maxTokenLen → terms "raw" s = [s]
  /-- The hits of a query, best first. -/
  rank : List TantivyDocument → List TantivyDocument
  rank_perm : ∀ hits, (rank hits).Perm hits
  /-- The error of a second writer on a directory. -/
  lockBusy : String
  /-- The error of a commit after a document that does not fit. -/
  errorInThread : String

variable [Tantivy]

/-- The terms of a value. -/
def FieldType.termsOf : FieldType → OwnedValue → List String
  | .text tokenizer, .str s => Tantivy.terms tokenizer s
  | _, _ => []

/-- The document has the term in the field. -/
def Schema.hasTerm (schema : Schema) (field : Field) (text : String) (doc : TantivyDocument) : Bool :=
  doc.values.any fun v =>
    v.1 = field && (schema.entries[field]?.any fun entry => text ∈ entry.fieldType.termsOf v.2)

/-- `IndexWriter`: the documents that a commit publishes, and whether a document did
not fit. A document that does not fit ends the thread that indexes it; that everything
the writer is asked afterwards fails is assumed. -/
structure IndexWriter where
  pending : List TantivyDocument
  killed : Bool

namespace IndexWriter

/-- `IndexWriter::add_document`. -/
def addDocument (schema : Schema) (w : IndexWriter) (doc : TantivyDocument) :
    Except String Unit × IndexWriter :=
  if w.killed then (.error Tantivy.errorInThread, w)
  else if schema.Fits doc then (.ok (), { w with pending := w.pending ++ [doc] })
  else (.ok (), { w with killed := true })

/-- `IndexWriter::delete_term`: the documents added so far lose those with the
term. -/
def deleteTerm (schema : Schema) (w : IndexWriter) (field : Field) (text : String) : IndexWriter :=
  { w with pending := w.pending.filter fun doc => !schema.hasTerm field text doc }

/-- `IndexWriter::commit`: the documents it publishes. -/
def commit (w : IndexWriter) : Except String (List TantivyDocument) :=
  if w.killed then .error Tantivy.errorInThread else .ok w.pending

end IndexWriter

/-- An index in a directory, as of the last commit. -/
structure StoredIndex where
  schema : Schema
  docs : List TantivyDocument

end MSearchDB.Index
