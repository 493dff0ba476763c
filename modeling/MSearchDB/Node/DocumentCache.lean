import MSearchDB.Lib.Text
import MSearchDB.Index.CollectionIndex
import MSearchDB.Node.Bulk
import MSearchDB.Node.Registries

/-!
# The document cache of a node

`DocumentCache` of `crates/node/src/cache.rs`, and the handlers of
`crates/node/src/handlers` that read or write documents, in the steps in which they run
beside each other on one node.

A read looks into the registry and into the cache; on a miss it reads the storage and
puts what it found into the cache. A write looks into the registry, proposes its
commands one by one, invalidates the entry of its document if it is one of the three
document endpoints, updates the registry and responds. No lock is held from one step
to the next. The state machine works off the calls of the committed commands in their
order; a call carries the number of the write that it comes from, or none if it came
from another node, or if its proposal failed and was committed all the same. A proposal
of a follower can be answered before the node itself has applied it.

The calls executed so far are kept, so that `valueAt t` is the document as it was after
the first `t` calls. `NeverBack` says that no read answers with what a document was
before a write that had responded when the read began.
-/

set_option autoImplicit false

namespace MSearchDB.Node

open MSearchDB.Lib
open MSearchDB.Core
open MSearchDB.Consensus
open MSearchDB.Index
open MSearchDB.Storage.RocksDb

/-! ## The cache -/

/-- `CacheKey::new`. -/
def cacheKey (collection : String) (id : DocumentId) : String := collection ++ "\x00" ++ id.val

theorem toList_cacheKey (collection : String) (id : DocumentId) :
    (cacheKey collection id).toList = collection.toList ++ '\x00' :: id.val.toList := by
  rw [cacheKey, String.toList_append, String.toList_append, List.append_assoc]
  rfl

/-- A cached document, with the number of calls that the storage had executed when the
document was read from it. -/
structure CacheEntry where
  doc : Document
  readAt : Nat
  deriving DecidableEq

/-- `DocumentCache`, without its counters of hits and misses. -/
structure DocumentCache where
  inner : String → Option CacheEntry

namespace DocumentCache

/-- `DocumentCache::new`. -/
def new : DocumentCache := ⟨fun _ => none⟩

/-- `DocumentCache::get`. -/
def get (cache : DocumentCache) (collection : String) (id : DocumentId) : Option CacheEntry :=
  cache.inner (cacheKey collection id)

/-- `DocumentCache::put`. -/
def put (cache : DocumentCache) (collection : String) (entry : CacheEntry) : DocumentCache :=
  ⟨Function.update cache.inner (cacheKey collection entry.doc.id) (some entry)⟩

/-- An entry leaves the cache. -/
def evict (cache : DocumentCache) (key : String) : DocumentCache :=
  ⟨Function.update cache.inner key none⟩

/-- `DocumentCache::invalidate`. -/
def invalidate (cache : DocumentCache) (collection : String) (id : DocumentId) : DocumentCache :=
  cache.evict (cacheKey collection id)

/-- `DocumentCache::invalidate_collection`. -/
def invalidateCollection (cache : DocumentCache) (collection : String) : DocumentCache :=
  ⟨fun key => if startsWith key (collection ++ "\x00") then none else cache.inner key⟩

end DocumentCache

/-! ## Writes -/

/-- A request to one of the handlers that change documents. -/
inductive WriteRequest where
  | index (collection : String) (id : DocumentId) (fields : Std.ExtTreeMap String JsonValue)
  | upsert (collection : String) (id : DocumentId) (fields : Std.ExtTreeMap String JsonValue)
  | delete (collection : String) (id : DocumentId)
  | bulk (collection : String) (body : String)
  | createCollection (name : String) (schema : SchemaConfig)
  | deleteCollection (name : String)

/-- How far the handler of a write has come. -/
inductive WritePhase where
  | received
  /-- `index_document` has found its collection; the fields are still to be checked. -/
  | found
  /-- Commands are left to propose. -/
  | running (todo : List RaftCommand)
  /-- A command has been proposed. -/
  | waiting (todo : List RaftCommand)
  | invalidated
  | responded
  | refused (e : ErrorResponse)
  | failed (e : DbError)
  deriving DecidableEq

/-- A write that the node has received. -/
structure HandledWrite where
  request : WriteRequest
  /-- The `updated_mapping` of `index_document`. -/
  mapping : FieldMapping
  phase : WritePhase

/-- `validate_and_update_mapping`. -/
def validateAndUpdateMapping (doc : Document) (mapping : FieldMapping) : DbResult FieldMapping :=
  doc.fields.toList.foldlM
    (fun updated nv => (updated.registerField nv.1 (fieldValueToMappedType nv.2)).map Prod.snd) mapping

namespace WriteRequest

/-- The collection that the request names. -/
def collection : WriteRequest → String
  | index collection _ _ => collection
  | upsert collection _ _ => collection
  | delete collection _ => collection
  | bulk collection _ => collection
  | createCollection name _ => name
  | deleteCollection name => name

/-- The commands that the handler proposes. -/
def commands [BulkInput] : WriteRequest → List RaftCommand
  | index collection id fields => [.insertDocument collection (documentOf id fields)]
  | upsert collection id fields => [.updateDocument collection (documentOf id fields)]
  | delete collection id => [.deleteDocument collection id]
  | bulk collection body => bulkCommands collection body
  | createCollection name schema => [.createCollection name schema]
  | deleteCollection name => [.deleteCollection name]

/-- The document whose cache entry the handler invalidates. -/
def invalidates : WriteRequest → Option DocumentId
  | index _ id _ => some id
  | upsert _ id _ => some id
  | delete _ id => some id
  | bulk _ _ => none
  | createCollection _ _ => none
  | deleteCollection _ => none

/-- The look at the registry with which every handler begins. -/
def check [BulkInput] (collections : String → Option FieldMapping) (request : WriteRequest) : WritePhase :=
  match request, collections request.collection with
  | createCollection name _, some _ => .refused (alreadyExists "collection" name)
  | createCollection _ _, none => .running request.commands
  | index _ _ _, some _ => .found
  | _, some _ => .running request.commands
  | _, none => .refused (collectionNotFound request.collection)

theorem check_cases [BulkInput] (request : WriteRequest) (collections : String → Option FieldMapping) :
    request.check collections = .found ∨ request.check collections = .running request.commands ∨
      ∃ e, request.check collections = .refused e := by
  unfold check
  split
  · exact Or.inr (Or.inr ⟨_, rfl⟩)
  · exact Or.inr (Or.inl rfl)
  · exact Or.inl rfl
  · exact Or.inr (Or.inl rfl)
  · exact Or.inr (Or.inr ⟨_, rfl⟩)

/-- Where the handler goes when a proposal fails: a bulk request notes the error of the
batch and goes on. -/
def afterFailure (todo : List RaftCommand) (e : DbError) : WriteRequest → WritePhase
  | bulk _ _ => .running todo
  | _ => .failed e

/-- The handler has nothing left to do but update the registry and respond. -/
def Finished (request : WriteRequest) : WritePhase → Bool
  | .invalidated => true
  | .running [] => request.invalidates.isNone
  | _ => false

end WriteRequest

/-- The registry after a handler has updated it; the counts of documents are left out. -/
def HandledWrite.updateRegistry (w : HandledWrite) (collections : String → Option FieldMapping) :
    String → Option FieldMapping :=
  match w.request with
  | .index collection _ _ =>
      Function.update collections collection ((collections collection).map fun _ => w.mapping)
  | .createCollection name _ => Function.update collections name (some FieldMapping.new)
  | .deleteCollection name => Function.update collections name none
  | _ => collections

/-! ## Reads -/

/-- What `get_document` answers. -/
inductive GetResponse where
  | found (doc : Document)
  | documentNotFound (e : ErrorResponse)
  | collectionNotFound (e : ErrorResponse)
  | failed (e : DbError)
  deriving DecidableEq

/-- What an answer says about the document; an error says nothing. -/
def GetResponse.value : GetResponse → Option (Option Document)
  | found doc => some (some doc)
  | documentNotFound _ => some none
  | collectionNotFound _ => some none
  | failed _ => none

/-- How far the handler of a read has come. -/
inductive GetPhase where
  | received
  | checked
  | missed
  /-- The document has been read from the storage, after so many calls. -/
  | read (entry : CacheEntry)
  | responded (response : GetResponse)
  deriving DecidableEq

/-- A read that the node has received, with the writes as they were at that time. -/
structure HandledGet where
  collection : String
  id : DocumentId
  before : List HandledWrite
  phase : GetPhase

/-! ## The node -/

/-- A call of the storage and the write that it comes from. -/
structure LoggedCall where
  origin : Option Nat
  call : StorageCall
  deriving DecidableEq

/-- The node: the storage as it was first opened, the calls executed on it, the calls of
committed commands that are still to be executed, the registry, the cache, and the
requests received so far. -/
structure CachedNode where
  opened : RocksDbStorage
  applied : List LoggedCall
  queue : List LoggedCall
  collections : String → Option FieldMapping
  cache : DocumentCache
  writes : List HandledWrite
  gets : List HandledGet

/-- A step on the node. Writes and reads are named by their numbers. -/
inductive CacheStep where
  | receiveWrite (request : WriteRequest)
  | check (write : Nat)
  | validate (write : Nat)
  | propose (write : Nat) (outcome : ProposalOutcome)
  /-- A command of another node is committed. -/
  | replicate (cmd : RaftCommand)
  /-- The state machine makes the next call. -/
  | apply
  | answer (write : Nat)
  | invalidate (write : Nat)
  | respond (write : Nat)
  | receiveGet (collection : String) (id : DocumentId)
  | checkCollection (get : Nat)
  /-- The wait for a session token ends with an error. -/
  | tokenFails (get : Nat) (e : DbError)
  | lookUp (get : Nat)
  | readStorage (get : Nat)
  | fill (get : Nat)
  | evict (key : String)

namespace CachedNode

/-- A node that has received nothing. -/
def start (opened : RocksDbStorage) : CachedNode :=
  ⟨opened, [], [], fun _ => none, .new, [], []⟩

/-- Change a write. -/
def setWrite (s : CachedNode) (i : Nat) (w : HandledWrite) : CachedNode :=
  { s with writes := s.writes.set i w }

/-- Change a read. -/
def setGet (s : CachedNode) (j : Nat) (g : HandledGet) : CachedNode :=
  { s with gets := s.gets.set j g }

/-- Calls are committed. -/
def enqueue (s : CachedNode) (origin : Option Nat) (cmd : RaftCommand) : CachedNode :=
  { s with queue := s.queue ++ cmd.storageCalls.map (LoggedCall.mk origin) }

variable [RmpSerde Document]

/-- The storage after the first `t` calls. -/
def storageAt (s : CachedNode) (t : Nat) : RocksDbStorage :=
  StorageCall.execAll s.opened ((s.applied.take t).map LoggedCall.call)

/-- The storage now. -/
def storage (s : CachedNode) : RocksDbStorage := s.storageAt s.applied.length

variable [BulkInput]

/-- The node after a step of the handler of a write. -/
def writeStep (s : CachedNode) (i : Nat) (w : HandledWrite) : CacheStep → CachedNode
  | .check _ =>
      match w.phase with
      | .received => s.setWrite i { w with phase := w.request.check s.collections }
      | _ => s
  | .validate _ =>
      match w.phase, w.request with
      | .found, .index collection id fields =>
          let current := (s.collections collection).getD FieldMapping.new
          match validateAndUpdateMapping (documentOf id fields) current with
          | .ok updated =>
              s.setWrite i { w with mapping := updated, phase := .running w.request.commands }
          | .error e => s.setWrite i { w with phase := .failed e }
      | _, _ => s
  | .propose _ outcome =>
      match w.phase, outcome with
      | .running (cmd :: todo), .ok =>
          (s.setWrite i { w with phase := .waiting todo }).enqueue (some i) cmd
      | .running (cmd :: todo), .failed e appended =>
          let s := s.setWrite i { w with phase := w.request.afterFailure todo e }
          -- a command that was appended is applied, and no handler waits for it any more
          if appended then s.enqueue none cmd else s
      | _, _ => s
  | .answer _ =>
      match w.phase with
      | .waiting todo => s.setWrite i { w with phase := .running todo }
      | _ => s
  | .invalidate _ =>
      match w.phase, w.request.invalidates with
      | .running [], some id =>
          { s.setWrite i { w with phase := .invalidated } with
            cache := s.cache.invalidate w.request.collection id }
      | _, _ => s
  | .respond _ =>
      if w.request.Finished w.phase then
        { s.setWrite i { w with phase := .responded } with
          collections := w.updateRegistry s.collections }
      else s
  | _ => s

/-- The node after a step of the handler of a read. -/
def getStep (s : CachedNode) (j : Nat) (g : HandledGet) : CacheStep → CachedNode
  | .checkCollection _ =>
      match g.phase, s.collections g.collection with
      | .received, some _ => s.setGet j { g with phase := .checked }
      | .received, none =>
          s.setGet j { g with
            phase := .responded (.collectionNotFound (collectionNotFound g.collection)) }
      | _, _ => s
  | .tokenFails _ e =>
      match g.phase with
      | .checked => s.setGet j { g with phase := .responded (.failed e) }
      | _ => s
  | .lookUp _ =>
      match g.phase, s.cache.get g.collection g.id with
      | .checked, some entry => s.setGet j { g with phase := .responded (.found entry.doc) }
      | .checked, none => s.setGet j { g with phase := .missed }
      | _, _ => s
  | .readStorage _ =>
      match g.phase, StorageBackend.getFromCollection s.storage g.collection g.id with
      | .missed, .ok doc => s.setGet j { g with phase := .read ⟨doc, s.applied.length⟩ }
      | .missed, .error (.notFound _) =>
          s.setGet j { g with
            phase := .responded (.documentNotFound
              (.notFound ("document '" ++ g.id.val ++ "' not found"))) }
      | .missed, .error e => s.setGet j { g with phase := .responded (.failed e) }
      | _, _ => s
  | .fill _ =>
      match g.phase with
      | .read entry =>
          -- one response is all that a read waits for, so the document read is the answer
          { s.setGet j { g with phase := .responded (.found entry.doc) } with
            cache := s.cache.put g.collection entry }
      | _ => s
  | _ => s

/-- The node after a step; a step that is not possible changes nothing. -/
def step (s : CachedNode) (a : CacheStep) : CachedNode :=
  match a with
  | .receiveWrite request =>
      { s with writes := s.writes ++ [⟨request, FieldMapping.new, .received⟩] }
  | .receiveGet collection id =>
      { s with gets := s.gets ++ [⟨collection, id, s.writes, .received⟩] }
  | .replicate cmd => s.enqueue none cmd
  | .apply =>
      match s.queue with
      | [] => s
      | x :: queue => { s with applied := s.applied ++ [x], queue := queue }
  | .evict key => { s with cache := s.cache.evict key }
  | .check i | .validate i | .propose i _ | .answer i | .invalidate i | .respond i =>
      match s.writes[i]? with
      | some w => s.writeStep i w a
      | none => s
  | .checkCollection j | .tokenFails j _ | .lookUp j | .readStorage j | .fill j =>
      match s.gets[j]? with
      | some g => s.getStep j g a
      | none => s

/-- The node after a sequence of steps. -/
def run (s : CachedNode) (steps : List CacheStep) : CachedNode := steps.foldl step s

end CachedNode

end MSearchDB.Node
