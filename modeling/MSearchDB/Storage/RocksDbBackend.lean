import MSearchDB.Core.Serde
import MSearchDB.Core.Traits
import MSearchDB.Storage.RocksDb

/-!
# The RocksDB storage engine

`RocksDbStorage` of `crates/storage/src/rocksdb_backend.rs`. Blocking calls that
the source moves to another thread are awaited at once, so that each method is
one step. Tuning options reach RocksDB unchanged and do not decide whether a
database opens; the write-buffer size is computed in 64-bit arithmetic that
wraps.
-/

set_option autoImplicit false

namespace MSearchDB.Storage.RocksDb

open MSearchDB.Lib
open MSearchDB.Core

/-- `CF_DOCUMENTS`. -/
def cfDocuments : String := "documents"

/-- `CF_METADATA`. -/
def cfMetadata : String := "metadata"

/-- `CF_SEQUENCE`. -/
def cfSequence : String := "sequence"

/-- `COLUMN_FAMILIES`. -/
def columnFamilies : List String := [cfDocuments, cfMetadata, cfSequence]

/-- The key of the sequence counter. -/
def currentSeqKey : Bytes := asBytes "current_seq"

/-- `StorageOptions`. -/
structure StorageOptions where
  writeBufferMb : UInt64 := 64
  maxOpenFiles : Int32 := 1000
  compression : Bool := true
  bloomFilterBits : Int32 := 10
  deriving DecidableEq

/-- `DBCompressionType`, as far as it is used. -/
inductive DBCompressionType where
  | snappy
  | none
  deriving DecidableEq, Repr

/-- The `rocksdb::Options` set up by `RocksDbStorage::new`. -/
structure DbOptions extends Options where
  writeBufferSize : UInt64
  maxOpenFiles : Int32
  compressionType : DBCompressionType
  deriving DecidableEq

/-- The options `RocksDbStorage::new` opens a database with. -/
def StorageOptions.dbOptions (options : StorageOptions) : DbOptions where
  createIfMissing := true
  createMissingColumnFamilies := true
  writeBufferSize := options.writeBufferMb * 1024 * 1024
  maxOpenFiles := options.maxOpenFiles
  compressionType := if options.compression then .snappy else .none

/-- `RocksDbStorage`. -/
structure RocksDbStorage where
  db : DB
  sequence : UInt64
  deriving DecidableEq

namespace RocksDbStorage

/-- The sequence counter that `RocksDbStorage::new` recovers. -/
def recoverSequence (db : DB) : DbResult UInt64 :=
  match db.cfHandle cfSequence with
  | none => .error (.storageError "missing sequence CF")
  | some cf =>
      match cf[currentSeqKey]? with
      | some bytes =>
          if bytes.length = 8 then .ok (fromLeBytes64 bytes)
          else .error (.storageError "corrupt sequence value")
      | none => .ok 0

/-- `RocksDbStorage::new` on the database at a path. -/
def new (disk : Option DB) (options : StorageOptions) : DbResult RocksDbStorage :=
  match DB.openCfDescriptors options.dbOptions.toOptions disk columnFamilies with
  | .error e => .error (.storageError e)
  | .ok db =>
      match recoverSequence db with
      | .error e => .error e
      | .ok seq => .ok ⟨db, seq⟩

/-! ## Column-family operations -/

/-- The error of a column family that does not exist. -/
def unknownCf (cfName : String) : DbError := .storageError ("unknown CF: " ++ cfName)

/-- Take the next sequence number. -/
def fetchAdd (s : RocksDbStorage) : UInt64 × RocksDbStorage :=
  (s.sequence + 1, { s with sequence := s.sequence + 1 })

/-- The blocking half of `put`: one batch with the value and the sequence number. -/
def writeBatch (s : RocksDbStorage) (seq : UInt64) (cfName : String) (key value : Bytes) :
    DbResult Unit × RocksDbStorage :=
  match s.db.cfHandle cfName with
  | none => (.error (unknownCf cfName), s)
  | some _ =>
      match s.db.cfHandle cfSequence with
      | none => (.error (.storageError "missing sequence CF"), s)
      | some _ =>
          -- both records are written at once, the sequence number last
          let batch := [.putCf cfName key value, .putCf cfSequence currentSeqKey (toLeBytes64 seq)]
          (.ok (), { s with db := s.db.write batch })

/-- `RocksDbStorage::put`. The sequence number is spent also when the column
family does not exist. -/
def put (s : RocksDbStorage) (cfName : String) (key value : Bytes) :
    DbResult Unit × RocksDbStorage :=
  let (seq, s) := s.fetchAdd
  s.writeBatch seq cfName key value

/-- `RocksDbStorage::get`. -/
def get (s : RocksDbStorage) (cfName : String) (key : Bytes) : DbResult (Option Bytes) :=
  match s.db.cfHandle cfName with
  | none => .error (unknownCf cfName)
  | some cf => .ok cf[key]?

/-- `RocksDbStorage::delete`. -/
def delete (s : RocksDbStorage) (cfName : String) (key : Bytes) : DbResult Unit × RocksDbStorage :=
  match s.db.cfHandle cfName with
  | none => (.error (unknownCf cfName), s)
  | some _ => (.ok (), { s with db := s.db.deleteCf cfName key })

/-- The loop of the raw `scan`. -/
def scanPrefixLoop (pre : Bytes) (limit : Nat) :
    List (Bytes × Bytes) → List (Bytes × Bytes) → List (Bytes × Bytes)
  | results, [] => results
  | results, (k, v) :: rest =>
      if ¬ pre.isPrefixOf k then results
      else
        let results := results ++ [(k, v)]
        if limit ≤ results.length then results else scanPrefixLoop pre limit results rest

/-- `RocksDbStorage::scan`: the entries of a column family with a given prefix. -/
def scan (s : RocksDbStorage) (cfName : String) (pre : Bytes) (limit : Nat) :
    DbResult (List (Bytes × Bytes)) :=
  match s.db.cfHandle cfName with
  | none => .error (unknownCf cfName)
  | some cf => .ok (scanPrefixLoop pre limit [] (DB.iteratorFrom cf pre))

/-- `RocksDbStorage::collection_cf_name`. -/
def collectionCfName (collection : String) : String := "col_" ++ collection

/-- `RocksDbStorage::create_collection_cf`. -/
def createCollectionCf (s : RocksDbStorage) (collection : String) :
    DbResult Unit × RocksDbStorage :=
  let cfName := collectionCfName collection
  match s.db.cfHandle cfName with
  | some _ => (.ok (), s)
  | none =>
      match s.db.createCf cfName with
      | .error e => (.error (.storageError ("failed to create CF '" ++ cfName ++ "': " ++ e)), s)
      | .ok db => (.ok (), { s with db := db })

/-- `RocksDbStorage::drop_collection_cf`. -/
def dropCollectionCf (s : RocksDbStorage) (collection : String) :
    DbResult Unit × RocksDbStorage :=
  let cfName := collectionCfName collection
  match s.db.dropCf cfName with
  | .error e => (.error (.storageError ("failed to drop CF '" ++ cfName ++ "': " ++ e)), s)
  | .ok db => (.ok (), { s with db := db })

/-- `RocksDbStorage::collection_cf_exists`. -/
def collectionCfExists (s : RocksDbStorage) (collection : String) : Bool :=
  (s.db.cfHandle (collectionCfName collection)).isSome

/-! ## Document operations -/

variable [RmpSerde Document]

/-- `put_document` and `put_document_in_collection`: serialise a document into a
column family. -/
def putDocumentIn (s : RocksDbStorage) (cfName : String) (doc : Document) :
    DbResult Unit × RocksDbStorage :=
  match RmpSerde.toVec doc with
  | .error e => (.error (.serializationError e), s)
  | .ok value => s.put cfName doc.id.key value

/-- `RocksDbStorage::put_document`. -/
def putDocument (s : RocksDbStorage) (doc : Document) : DbResult Unit × RocksDbStorage :=
  s.putDocumentIn cfDocuments doc

/-- `RocksDbStorage::put_document_in_collection`. -/
def putDocumentInCollection (s : RocksDbStorage) (collection : String) (doc : Document) :
    DbResult Unit × RocksDbStorage :=
  s.putDocumentIn (collectionCfName collection) doc

/-- `get_document` and `get_document_from_collection`: read a document from a
column family. -/
def getDocumentFrom (s : RocksDbStorage) (cfName : String) (id : DocumentId) :
    DbResult (Option Document) :=
  match s.get cfName id.key with
  | .error e => .error e
  | .ok (some bytes) =>
      match RmpSerde.fromSlice bytes with
      | .error e => .error (.serializationError e)
      | .ok doc => .ok (some doc)
  | .ok none => .ok none

/-- `RocksDbStorage::get_document`. -/
def getDocument (s : RocksDbStorage) (id : DocumentId) : DbResult (Option Document) :=
  s.getDocumentFrom cfDocuments id

/-- `RocksDbStorage::get_document_from_collection`. -/
def getDocumentFromCollection (s : RocksDbStorage) (collection : String) (id : DocumentId) :
    DbResult (Option Document) :=
  s.getDocumentFrom (collectionCfName collection) id

/-- `RocksDbStorage::delete_document`. -/
def deleteDocument (s : RocksDbStorage) (id : DocumentId) : DbResult Unit × RocksDbStorage :=
  s.delete cfDocuments id.key

/-- `RocksDbStorage::delete_document_from_collection`. -/
def deleteDocumentFromCollection (s : RocksDbStorage) (collection : String) (id : DocumentId) :
    DbResult Unit × RocksDbStorage :=
  s.delete (collectionCfName collection) id.key

/-- The loop of `scan` and `scan_collection`. The limit is looked at after a
document has been pushed. -/
def scanLoop (stop : String) (limit : Nat) :
    List Document → List (Bytes × Bytes) → DbResult (List Document)
  | docs, [] => .ok docs
  | docs, (k, v) :: rest =>
      -- the bound is compared with the key as a string, lossily decoded
      if compare (fromUtf8Lossy k) (asBytes stop) = .gt then .ok docs
      else
        match RmpSerde.fromSlice v with
        | .error e => .error (.serializationError e)
        | .ok doc =>
            let docs := docs ++ [doc]
            if limit ≤ docs.length then .ok docs else scanLoop stop limit docs rest

/-- The end of `get` and `get_from_collection`. -/
def okOr (missing : DbError) : DbResult (Option Document) → DbResult Document
  | .error e => .error e
  | .ok none => .error missing
  | .ok (some doc) => .ok doc

/-- The end of `delete` and `delete_from_collection`: the document that was looked
up decides whether the deletion is done. -/
def deleteIfFound (missing : DbError) (s : RocksDbStorage) (deletion : DbResult Unit × RocksDbStorage) :
    DbResult (Option Document) → DbResult Unit × RocksDbStorage
  | .error e => (.error e, s)
  | .ok none => (.error missing, s)
  | .ok (some _) => deletion

/-- The bodies of `scan` and `scan_collection`. -/
def scanOr (missing : DbError) (s : RocksDbStorage) (cfName : String)
    (range : RangeInclusive DocumentId) (limit : Nat) : DbResult (List Document) :=
  match s.db.cfHandle cfName with
  | none => .error missing
  | some cf => scanLoop range.stop.val limit [] (DB.iteratorFrom cf range.start.key)

/-- The error of a document that is not in the default map. -/
def documentNotFound (id : DocumentId) : DbError :=
  .notFound ("document '" ++ id.val ++ "' not found")

/-- The error of a document that is not in a collection. -/
def documentNotFoundIn (collection : String) (id : DocumentId) : DbError :=
  .notFound ("document '" ++ id.val ++ "' not found in collection '" ++ collection ++ "'")

/-- `impl StorageBackend for RocksDbStorage`. -/
instance : StorageBackend RocksDbStorage where
  get s id := okOr (documentNotFound id) (s.getDocument id)
  put s doc := s.putDocument doc
  delete s id := deleteIfFound (documentNotFound id) s (s.deleteDocument id) (s.getDocument id)
  scan s range limit := s.scanOr (.storageError "missing documents CF") cfDocuments range limit
  createCollection s collection := s.createCollectionCf collection
  dropCollection s collection := s.dropCollectionCf collection
  collectionExists s collection := .ok (s.collectionCfExists collection)
  getFromCollection s collection id :=
    okOr (documentNotFoundIn collection id) (s.getDocumentFromCollection collection id)
  putInCollection s collection doc := s.putDocumentInCollection collection doc
  deleteFromCollection s collection id :=
    deleteIfFound (documentNotFoundIn collection id) s
      (s.deleteDocumentFromCollection collection id) (s.getDocumentFromCollection collection id)
  scanCollection s collection range limit :=
    let cfName := collectionCfName collection
    s.scanOr (.storageError ("missing CF: " ++ cfName)) cfName range limit

end RocksDbStorage

end MSearchDB.Storage.RocksDb
