import MSearchDB.Core.Traits
import MSearchDB.Index.Tantivy

/-!
# Indexes of collections

`CollectionIndexManager` of `crates/index/src/collection_index.rs`: one Tantivy index
for each collection, in RAM or in a directory for each, with fields that are added as
documents bring them.

A method holds the lock of the registry while it changes it, so a call is one step.
A panic in a schema builder poisons that lock. The order in which a `HashMap` is
iterated is an argument of each call (`HashOrder`), and so is the time. Which
directory the name of a collection leads to, and which names cannot be directories,
is a parameter; two names may lead to the same one.

`rebuild_schema` takes the old state of the collection out of the registry into a
variable that lives to the end of the function, so the old writer still holds its
directory when the index is opened again.
-/

set_option autoImplicit false

namespace MSearchDB.Index

open MSearchDB.Lib
open MSearchDB.Core
open Std (ExtTreeMap)

/-- An order in which a `HashMap` can be iterated. -/
structure HashOrder (ν : Type) where
  iter : ExtTreeMap String ν → List (String × ν)
  perm : ∀ m, (iter m).Perm m.toList

/-- The order of the keys. -/
def keyOrder (ν : Type) : HashOrder ν := ⟨fun m => m.toList, fun _ => .refl _⟩

/-- `create_dir_all` on the directory of a collection. -/
class FileSystem where
  createDirAll : String → Except String String

/-- `FieldMap`. -/
abbrev FieldMap := ExtTreeMap String Field

/-- `CollectionIndex`. -/
structure CollectionIndex where
  index : Schema
  writer : IndexWriter
  reader : List TantivyDocument
  schema : Schema
  fieldMap : FieldMap

/-- `CollectionIndexManager`, with the directories under its base path. -/
structure CollectionIndexManager where
  collections : ExtTreeMap String CollectionIndex
  onDisk : Bool
  disk : String → Option StoredIndex
  poisoned : Bool

/-- The arguments of `index_document`, the orders of iteration and the clock. -/
structure IndexCall where
  collection : String
  doc : Document
  mapping : FieldMapping
  fieldOrder : HashOrder FieldValue
  mappingOrder : HashOrder MappedFieldType
  now : UInt64

/-! ## Schemas -/

/-- The type of a field in the schema. -/
def schemaType : MappedFieldType → FieldType
  | .text => .text "default"
  | .number => .f64 true
  | .boolean => .u64 true
  | .array => .text "default"

/-- `_id`, `_score` and `_timestamp`, and `_body` where it is wanted. -/
def metaFields (includeBody : Bool) : List FieldEntry :=
  [⟨"_id", .text "raw"⟩, ⟨"_score", .f64 false⟩, ⟨"_timestamp", .u64 true⟩] ++
    if includeBody then [⟨"_body", .text "default"⟩] else []

/-- The fields of a mapping in the order of iteration. -/
def userFields (fields : List (String × MappedFieldType)) : List FieldEntry :=
  fields.map fun f => ⟨f.1, schemaType f.2⟩

/-- Add a field to the schema and its handle to the field map. -/
def addEntry (acc : Schema × FieldMap) (entry : FieldEntry) : Option (Schema × FieldMap) :=
  (acc.1.addField entry).map fun added => (added.2, acc.2.insert entry.name added.1)

/-- `CollectionIndexManager::build_schema_from_mapping`, or nothing when it panics. -/
def buildSchemaFromMapping (order : HashOrder MappedFieldType) (mapping : FieldMapping)
    (includeBody : Bool) : Option (Schema × FieldMap) :=
  (metaFields includeBody ++ userFields (order.iter mapping.fields)).foldlM addEntry (⟨[]⟩, ∅)

/-- The schema of `build_initial_schema`. -/
def initialSchema : Schema := ⟨metaFields true⟩

/-- The field map of `build_initial_schema`. -/
def initialFieldMap : FieldMap :=
  ((((∅ : FieldMap).insert "_id" 0).insert "_score" 1).insert "_timestamp" 2).insert "_body" 3

/-- `CollectionIndexManager::field_value_to_mapped_type`. -/
def fieldValueToMappedType : FieldValue → MappedFieldType
  | .text _ => .text
  | .number _ => .number
  | .boolean _ => .boolean
  | .array _ => .array

/-! ## Documents -/

/-- The texts of an array. -/
def arrayTexts (vs : List FieldValue) : List String :=
  vs.filterMap fun v => match v with
    | .text s => some s
    | _ => none

/-- The values that a field of a document adds to its handle. -/
def fieldValues (field : Field) : FieldValue → List (Field × OwnedValue)
  | .text s => [(field, .str s)]
  | .number x => [(field, .f64 x)]
  | .boolean b => [(field, .u64 (if b then 1 else 0))]
  | .array vs => (arrayTexts vs).map fun s => (field, .str s)

/-- The texts that a field adds to the body; those of an array only when the field is
in the schema. -/
def bodyParts (known : Bool) : FieldValue → List String
  | .text s => [s]
  | .array vs => if known then arrayTexts vs else []
  | _ => []

/-- `CollectionIndexManager::build_tantivy_doc`. -/
def buildTantivyDoc (doc : Document) (fieldMap : FieldMap) (order : HashOrder FieldValue)
    (now : UInt64) : TantivyDocument :=
  let fields := order.iter doc.fields
  let ids := (fieldMap["_id"]?.map fun f => (f, OwnedValue.str doc.id.val)).toList
  let timestamps := (fieldMap["_timestamp"]?.map fun f => (f, OwnedValue.u64 now)).toList
  let users := fields.flatMap fun nv =>
    match fieldMap[nv.1]? with
    | some field => fieldValues field nv.2
    | none => []
  let parts := fields.flatMap fun nv => bodyParts (fieldMap[nv.1]?).isSome nv.2
  let bodies :=
    if parts = [] then []
    else (fieldMap["_body"]?.map fun f => (f, OwnedValue.str (" ".intercalate parts))).toList
  ⟨ids ++ timestamps ++ users ++ bodies⟩

/-- The field that `reconstruct_document` makes of a value. -/
def OwnedValue.toFieldValue : OwnedValue → FieldValue
  | .str s => .text s
  | .f64 x => .number x
  | .u64 n => .boolean (n ≠ 0)

/-- `CollectionIndexManager::reconstruct_document`. -/
def reconstructDocument (doc : TantivyDocument) (fieldMap : FieldMap) : Document :=
  let id := match fieldMap["_id"]?.bind doc.getFirst with
    | some (.str s) => s
    | _ => ""
  let fields := fieldMap.toList.filterMap fun nf =>
    if nf.1.toList.head? = some '_' then none
    else (doc.getFirst nf.2).map fun value => (nf.1, value.toFieldValue)
  ⟨⟨id⟩, fields.foldl (fun m nv => m.insert nv.1 nv.2) ∅, VectorClock.new⟩

/-! ## The manager -/

namespace CollectionIndexManager

/-- `CollectionIndexManager::new`, over an empty directory. -/
def new : CollectionIndexManager := ⟨∅, true, fun _ => none, false⟩

/-- `CollectionIndexManager::new_in_ram`. -/
def newInRam : CollectionIndexManager := ⟨∅, false, fun _ => none, false⟩

/-- The error of a lock that a panic has poisoned. -/
def lockPoisoned : DbError :=
  .indexError "lock poisoned: poisoned lock: another task failed inside"

/-- The error for a collection without an index. -/
def indexNotFound (collection : String) : DbError :=
  .notFound ("collection index '" ++ collection ++ "' not found")

variable [Tantivy] [FileSystem]

/-- Some writer holds the directory. -/
def locked (m : CollectionIndexManager) (dir : String) : Bool :=
  m.collections.keys.any fun c => FileSystem.createDirAll c = .ok dir

/-- `CollectionIndexManager::open_index`: the index, and the directories after it. -/
def openIndex (m : CollectionIndexManager) (collection : String) (schema : Schema)
    (fieldMap : FieldMap) : DbResult CollectionIndex × (String → Option StoredIndex) :=
  if m.onDisk then
    match FileSystem.createDirAll collection with
    | .error e => (.error (.indexError ("failed to create index dir: " ++ e)), m.disk)
    | .ok dir =>
        -- create_in_dir, and open_in_dir where the directory has an index
        let stored := (m.disk dir).getD ⟨schema, []⟩
        let disk := Function.update m.disk dir (some stored)
        if m.locked dir then
          (.error (.indexError ("failed to create writer: " ++ Tantivy.lockBusy)), disk)
        else
          (.ok ⟨stored.schema, ⟨stored.docs, false⟩, stored.docs, schema, fieldMap⟩, disk)
  else (.ok ⟨schema, ⟨[], false⟩, [], schema, fieldMap⟩, m.disk)

/-- `CollectionIndexManager::create_collection`. -/
def createCollection (m : CollectionIndexManager) (collection : String) :
    DbResult Unit × CollectionIndexManager :=
  if m.poisoned then (.error lockPoisoned, m)
  else if collection ∈ m.collections then (.ok (), m)
  else
    match m.openIndex collection initialSchema initialFieldMap with
    | (.error e, disk) => (.error e, { m with disk := disk })
    | (.ok colIndex, disk) =>
        (.ok (), { m with
          collections := m.collections.insert collection colIndex
          disk := disk })

/-- `CollectionIndexManager::drop_collection`. -/
def dropCollection (m : CollectionIndexManager) (collection : String) :
    DbResult Unit × CollectionIndexManager :=
  if m.poisoned then (.error lockPoisoned, m)
  else (.ok (), { m with collections := m.collections.erase collection })

/-- `CollectionIndexManager::rebuild_schema`; the result is missing when it panics. -/
def rebuildSchema (m : CollectionIndexManager) (collection : String)
    (order : HashOrder MappedFieldType) (mapping : FieldMapping) :
    Option (DbResult Unit) × CollectionIndexManager :=
  if m.poisoned then (some (.error lockPoisoned), m)
  else
    let removed := m.collections.erase collection
    match buildSchemaFromMapping order mapping true with
    | none => (none, { m with collections := removed, poisoned := true })
    | some (schema, fieldMap) =>
        -- the writer that was removed is still open
        match m.openIndex collection schema fieldMap with
        | (.error e, disk) => (some (.error e), { m with collections := removed, disk := disk })
        | (.ok colIndex, disk) =>
            (some (.ok ()), { m with
              collections := removed.insert collection colIndex
              disk := disk })

/-- One turn of the loop that registers the fields of a document: the mapping and the
new fields so far. -/
def registerStep (acc : FieldMapping × List (String × MappedFieldType)) (nv : String × FieldValue) :
    DbResult (FieldMapping × List (String × MappedFieldType)) :=
  let mappedType := fieldValueToMappedType nv.2
  match acc.1.registerField nv.1 mappedType with
  | .error e => .error e
  | .ok (true, mapping) => .ok (mapping, acc.2 ++ [(nv.1, mappedType)])
  | .ok (false, mapping) => .ok (mapping, acc.2)

/-- The updated mapping and the new fields. -/
def detectFields (call : IndexCall) : DbResult (FieldMapping × List (String × MappedFieldType)) :=
  (call.fieldOrder.iter call.doc.fields).foldlM registerStep (call.mapping, [])

/-- The second half of `index_document`, under the lock for reading. -/
def addDocument (m : CollectionIndexManager) (call : IndexCall) :
    DbResult Unit × CollectionIndexManager :=
  if m.poisoned then (.error lockPoisoned, m)
  else
    match m.collections[call.collection]? with
    | none => (.error (indexNotFound call.collection), m)
    | some col =>
        let doc := buildTantivyDoc call.doc col.fieldMap call.fieldOrder call.now
        match col.writer.addDocument col.index doc with
        | (.error e, _) => (.error (.indexError ("index document: " ++ e)), m)
        | (.ok (), writer) =>
            (.ok (), { m with
              collections := m.collections.insert call.collection { col with writer := writer } })

/-- `CollectionIndexManager::index_document`; the result is missing when it panics. -/
def indexDocument (m : CollectionIndexManager) (call : IndexCall) :
    Option (DbResult FieldMapping) × CollectionIndexManager :=
  match detectFields call with
  | .error e => (some (.error e), m)
  | .ok (updated, newFields) =>
      let rebuilt :=
        if newFields = [] then (some (.ok ()), m)
        else m.rebuildSchema call.collection call.mappingOrder updated
      match rebuilt with
      | (none, m) => (none, m)
      | (some (.error e), m) => (some (.error e), m)
      | (some (.ok ()), m) =>
          let added := m.addDocument call
          (some (added.1.map fun _ => updated), added.2)

/-- `CollectionIndexManager::delete_document`. -/
def deleteDocument (m : CollectionIndexManager) (collection : String) (id : DocumentId) :
    DbResult Unit × CollectionIndexManager :=
  if m.poisoned then (.error lockPoisoned, m)
  else
    match m.collections[collection]? with
    | none => (.error (indexNotFound collection), m)
    | some col =>
        match col.fieldMap["_id"]? with
        | none => (.error (.indexError "_id field not in schema"), m)
        | some idField =>
            let writer := col.writer.deleteTerm col.index idField id.val
            (.ok (), { m with
              collections := m.collections.insert collection { col with writer := writer } })

/-- `CollectionIndexManager::commit`. -/
def commit (m : CollectionIndexManager) (collection : String) :
    DbResult Unit × CollectionIndexManager :=
  if m.poisoned then (.error lockPoisoned, m)
  else
    match m.collections[collection]? with
    | none => (.error (indexNotFound collection), m)
    | some col =>
        match col.writer.commit with
        | .error e => (.error (.indexError ("commit failed: " ++ e)), m)
        | .ok docs =>
            -- the reader and the directory see the documents from now on
            let disk :=
              match m.onDisk, FileSystem.createDirAll collection with
              | true, .ok dir => Function.update m.disk dir (some ⟨col.index, docs⟩)
              | _, _ => m.disk
            (.ok (), { m with
              collections := m.collections.insert collection { col with reader := docs }
              disk := disk })

/-- `DEFAULT_SEARCH_LIMIT`. -/
def defaultSearchLimit : Nat := 10

/-- `CollectionIndexManager::search` for a term query: the documents found. -/
def searchTerm (m : CollectionIndexManager) (collection field value : String) :
    DbResult (List Document) :=
  if m.poisoned then .error lockPoisoned
  else
    match m.collections[collection]? with
    | none => .error (indexNotFound collection)
    | some col =>
        match col.fieldMap[field]? with
        | none => .error (.invalidInput ("field '" ++ field ++ "' not in schema"))
        | some f =>
            let hits := Tantivy.rank (col.reader.filter (col.index.hasTerm f value))
            .ok ((hits.take defaultSearchLimit).map fun doc => reconstructDocument doc col.fieldMap)

/-- A call of a method that changes the manager. -/
inductive Op where
  | createCollection (collection : String)
  | dropCollection (collection : String)
  | indexDocument (call : IndexCall)
  | deleteDocument (collection : String) (id : DocumentId)
  | commit (collection : String)

/-- The manager after a call, whatever the call returned. -/
def step (m : CollectionIndexManager) : Op → CollectionIndexManager
  | .createCollection c => (m.createCollection c).2
  | .dropCollection c => (m.dropCollection c).2
  | .indexDocument call => (m.indexDocument call).2
  | .deleteDocument c id => (m.deleteDocument c id).2
  | .commit c => (m.commit c).2

/-- The manager after a sequence of calls. -/
def run (m : CollectionIndexManager) (ops : List Op) : CollectionIndexManager := ops.foldl step m

end CollectionIndexManager

end MSearchDB.Index
