import MSearchDB.Core.Serde
import MSearchDB.Core.Traits
import MSearchDB.Consensus.Types

/-!
# The replicated state machine

`DbStateMachine` and `DbSnapshotBuilder` of
`crates/consensus/src/state_machine.rs`, over any storage backend and any index
backend. openraft serialises the calls of `&mut self` methods, so each is one
step. A builder shares the storage of the state machine it was obtained from; the
storage is an argument of `buildSnapshot`, and the builder itself keeps the copies
of the log position and the membership that it was given.

`applyCommand_effect` and `storage_apply` reduce what entries do to the storage to
a sequence of calls of the backend (`RaftCommand.storageCalls`): a failed call
ends its command or is skipped, and no later call depends on what the index
answers. `installSnapshot_ok` and `buildSnapshot_ok` say what the two halves of a
snapshot transfer return.
-/

set_option autoImplicit false

namespace MSearchDB.Consensus

open MSearchDB.Lib
open MSearchDB.Core

/-- `StoredSnapshot`. -/
structure StoredSnapshot where
  snapshotMeta : SnapshotMeta
  data : Bytes
  deriving DecidableEq

/-- `DbStateMachine`. -/
structure DbStateMachine (σ ι : Type) where
  storage : σ
  index : ι
  lastAppliedLog : Option LogId
  lastMembership : StoredMembership
  currentSnapshot : Option StoredSnapshot

/-- `DbSnapshotBuilder`, without the shared storage. -/
structure DbSnapshotBuilder where
  lastAppliedLog : Option LogId
  lastMembership : StoredMembership
  deriving DecidableEq

namespace DbStateMachine

variable {σ ι : Type}

/-- `DbStateMachine::new`. -/
def new (storage : σ) (index : ι) : DbStateMachine σ ι :=
  ⟨storage, index, none, StoredMembership.default, none⟩

/-- `DbStateMachine::get_snapshot_builder`. -/
def getSnapshotBuilder (sm : DbStateMachine σ ι) : DbSnapshotBuilder :=
  ⟨sm.lastAppliedLog, sm.lastMembership⟩

/-- `DbStateMachine::get_current_snapshot`. -/
def getCurrentSnapshot (sm : DbStateMachine σ ι) : Option Snapshot :=
  sm.currentSnapshot.map fun stored => ⟨stored.snapshotMeta, stored.data⟩

variable [StorageBackend σ] [IndexBackend ι]

/-- Store a document in a collection and index it there; what the index answers
is only logged. -/
def putAndIndex (sm : DbStateMachine σ ι) (collection : String) (doc : Document) :
    DbResult Unit × DbStateMachine σ ι :=
  match StorageBackend.putInCollection sm.storage collection doc with
  | (.error e, storage) => (.error e, { sm with storage := storage })
  | (.ok (), storage) =>
      let indexed := IndexBackend.indexDocumentInCollection sm.index collection doc FieldMapping.new
      (.ok (), { sm with storage := storage, index := indexed.2 })

/-- One turn of the loop of `BatchInsert`: the state machine and the number of
documents stored so far. -/
def batchStep (collection : String) (acc : DbStateMachine σ ι × Nat) (doc : Document) :
    DbStateMachine σ ι × Nat :=
  match acc.1.putAndIndex collection doc with
  | (.error _, sm) => (sm, acc.2)
  | (.ok (), sm) => (sm, acc.2 + 1)

/-- `DbStateMachine::apply_command`. -/
def applyCommand (sm : DbStateMachine σ ι) : RaftCommand → RaftResponse × DbStateMachine σ ι
  | .insertDocument collection document =>
      match sm.putAndIndex collection document with
      | (.error _, sm) => (.fail, sm)
      | (.ok (), sm) => (.ok document.id, sm)
  | .deleteDocument collection id =>
      match StorageBackend.deleteFromCollection sm.storage collection id with
      | (.error _, storage) => (.fail, { sm with storage := storage })
      | (.ok (), storage) =>
          let removed := IndexBackend.deleteDocumentFromCollection sm.index collection id
          (.ok id, { sm with storage := storage, index := removed.2 })
  | .updateDocument collection document =>
      match StorageBackend.putInCollection sm.storage collection document with
      | (.error _, storage) => (.fail, { sm with storage := storage })
      | (.ok (), storage) =>
          -- the old version leaves the index before the new one enters
          let removed := IndexBackend.deleteDocumentFromCollection sm.index collection document.id
          let indexed :=
            IndexBackend.indexDocumentInCollection removed.2 collection document FieldMapping.new
          (.ok document.id, { sm with storage := storage, index := indexed.2 })
  | .createCollection name _ =>
      match StorageBackend.createCollection sm.storage name with
      | (.error _, storage) => (.fail, { sm with storage := storage })
      | (.ok (), storage) =>
          let created := IndexBackend.createCollectionIndex sm.index name
          (.okNoId, { sm with storage := storage, index := created.2 })
  | .deleteCollection name =>
      -- both errors are only logged
      let dropped := StorageBackend.dropCollection sm.storage name
      let removed := IndexBackend.dropCollectionIndex sm.index name
      (.okNoId, { sm with storage := dropped.2, index := removed.2 })
  | .batchInsert collection documents =>
      let total := documents.length
      let (sm, successCount) := documents.foldl (batchStep collection) (sm, 0)
      if successCount = total then (.okBatch successCount, sm)
      else if successCount > 0 then (.okBatch successCount, sm)
      else (.fail, sm)
  -- aliases are kept by the nodes themselves, so the state machine only answers
  | .createAlias _ _ => (.okNoId, sm)
  | .deleteAlias _ => (.okNoId, sm)

/-- The accumulators of the loop of `apply`. -/
structure ApplyState (σ ι : Type) where
  sm : DbStateMachine σ ι
  responses : List RaftResponse
  collectionsToCommit : List String

/-- The collection whose index a command leaves to commit. -/
def commitTarget : RaftCommand → Option String
  | .insertDocument collection _ => some collection
  | .updateDocument collection _ => some collection
  | .deleteDocument collection _ => some collection
  | .batchInsert collection _ => some collection
  | _ => none

/-- One turn of the loop of `apply`. -/
def applyEntry (acc : ApplyState σ ι) (entry : Entry) : ApplyState σ ι :=
  let sm := { acc.sm with lastAppliedLog := some entry.logId }
  match entry.payload with
  | .blank => { acc with sm := sm, responses := acc.responses ++ [.okNoId] }
  | .normal cmd =>
      let collectionsToCommit :=
        match commitTarget cmd with
        | some collection =>
            if collection ∈ acc.collectionsToCommit then acc.collectionsToCommit
            else acc.collectionsToCommit ++ [collection]
        | none => acc.collectionsToCommit
      let (resp, sm) := sm.applyCommand cmd
      ⟨sm, acc.responses ++ [resp], collectionsToCommit⟩
  | .membership mem =>
      { acc with
        sm := { sm with lastMembership := ⟨some entry.logId, mem⟩ }
        responses := acc.responses ++ [.okNoId] }

/-- Commit the index of one collection; a failure is only logged. -/
def commitIndexOf (sm : DbStateMachine σ ι) (collection : String) : DbStateMachine σ ι :=
  { sm with index := (IndexBackend.commitCollectionIndex sm.index collection).2 }

/-- `DbStateMachine::apply`. -/
def apply (sm : DbStateMachine σ ι) (entries : List Entry) :
    List RaftResponse × DbStateMachine σ ι :=
  let acc := entries.foldl applyEntry ⟨sm, [], []⟩
  (acc.responses, acc.collectionsToCommit.foldl commitIndexOf acc.sm)

/-- One turn of the loop of `install_snapshot`. -/
def restoreDocument (sm : DbStateMachine σ ι) (doc : Document) : DbStateMachine σ ι :=
  { sm with
    storage := (StorageBackend.put sm.storage doc).2
    index := (IndexBackend.indexDocument sm.index doc).2 }

variable [SerdeJson (List Document)]

/-- `DbStateMachine::install_snapshot`. -/
def installSnapshot (sm : DbStateMachine σ ι) (m : SnapshotMeta) (data : Bytes) :
    Except StorageError Unit × DbStateMachine σ ι :=
  match SerdeJson.fromSlice (α := List Document) data with
  | .error e => (.error (.readSnapshot (some m.signature) (.json e)), sm)
  | .ok documents =>
      let sm := documents.foldl restoreDocument sm
      (.ok (), { sm with
        lastAppliedLog := m.lastLogId
        lastMembership := m.lastMembership
        currentSnapshot := some ⟨m, data⟩ })

end DbStateMachine

namespace DbSnapshotBuilder

/-- `usize::MAX`. -/
def usizeMax : Nat := 2 ^ 64 - 1

/-- The range of identifiers a snapshot scans. -/
def scanRange : RangeInclusive DocumentId :=
  ⟨⟨"\x00"⟩, ⟨String.singleton (Char.ofNat 0x10ffff)⟩⟩

/-- The name of a snapshot. -/
def snapshotId [LeaderIdDisplay] : Option LogId → String
  | some last => LeaderIdDisplay.fmt last.leaderId ++ "-" ++ toString last.index ++ "-snapshot"
  | none => "empty-snapshot"

variable {σ : Type} [StorageBackend σ] [SerdeJson (List Document)] [LeaderIdDisplay]

/-- `DbSnapshotBuilder::build_snapshot`, with the storage at the time of the scan. -/
def buildSnapshot (b : DbSnapshotBuilder) (storage : σ) : Except StorageError Snapshot :=
  match StorageBackend.scan storage scanRange usizeMax with
  | .error e => .error (.readStateMachine (.db e))
  | .ok allDocs =>
      match SerdeJson.toVec allDocs with
      | .error e => .error (.readStateMachine (.json e))
      | .ok data =>
          .ok ⟨⟨b.lastAppliedLog, b.lastMembership, snapshotId b.lastAppliedLog⟩, data⟩

end DbSnapshotBuilder

/-! ## Effects of commands -/

/-- The calls of the storage backend that a command makes. -/
def RaftCommand.storageCalls : RaftCommand → List StorageCall
  | .insertDocument collection document => [.putInCollection collection document]
  | .deleteDocument collection id => [.deleteFromCollection collection id]
  | .updateDocument collection document => [.putInCollection collection document]
  | .createCollection name _ => [.createCollection name]
  | .deleteCollection name => [.dropCollection name]
  | .batchInsert collection documents => documents.map (.putInCollection collection)
  | .createAlias _ _ => []
  | .deleteAlias _ => []

/-- The calls of the storage backend that an entry makes. -/
def Entry.storageCalls (entry : Entry) : List StorageCall :=
  match entry.payload with
  | .normal cmd => cmd.storageCalls
  | _ => []

namespace DbStateMachine

variable {σ ι : Type}

/-- The two state machines differ in their backends at most. -/
def SameLog (sm sm' : DbStateMachine σ ι) : Prop :=
  sm'.lastAppliedLog = sm.lastAppliedLog ∧ sm'.lastMembership = sm.lastMembership ∧
    sm'.currentSnapshot = sm.currentSnapshot

theorem SameLog.trans {a b c : DbStateMachine σ ι} (hab : SameLog a b) (hbc : SameLog b c) :
    SameLog a c :=
  ⟨hbc.1.trans hab.1, hbc.2.1.trans hab.2.1, hbc.2.2.trans hab.2.2⟩

variable [StorageBackend σ] [IndexBackend ι]

theorem putAndIndex_effect (sm : DbStateMachine σ ι) (collection : String) (doc : Document) :
    (sm.putAndIndex collection doc).2.storage =
        StorageCall.exec sm.storage (.putInCollection collection doc) ∧
      SameLog sm (sm.putAndIndex collection doc).2 := by
  simp only [putAndIndex, StorageCall.exec]
  -- the storage has changed also when the put fails
  split
  · next hput => exact ⟨by rw [hput], rfl, rfl, rfl⟩
  · next hput => exact ⟨by rw [hput], rfl, rfl, rfl⟩

/-- Success and failure of a turn differ in the counter only. -/
theorem batchStep_fst (collection : String) (acc : DbStateMachine σ ι × Nat) (doc : Document) :
    (batchStep collection acc doc).1 = (acc.1.putAndIndex collection doc).2 := by
  rw [batchStep]
  split
  · next hput => rw [hput]
  · next hput => rw [hput]

theorem applyCommand_insertDocument_snd (sm : DbStateMachine σ ι) (collection : String)
    (doc : Document) :
    (sm.applyCommand (.insertDocument collection doc)).2 = (sm.putAndIndex collection doc).2 := by
  simp only [applyCommand]
  split
  · next hput => rw [hput]
  · next hput => rw [hput]

/-- The three answers to a batch carry the same state machine. -/
theorem applyCommand_batchInsert_snd (sm : DbStateMachine σ ι) (collection : String)
    (docs : List Document) :
    (sm.applyCommand (.batchInsert collection docs)).2 =
      (docs.foldl (batchStep collection) (sm, 0)).1 := by
  simp only [applyCommand]
  split
  · rfl
  · split
    · rfl
    · rfl

/-- The loop of `BatchInsert` goes on after a document that could not be stored. -/
theorem foldl_batchStep_effect (collection : String) (docs : List Document) :
    ∀ acc : DbStateMachine σ ι × Nat,
      (docs.foldl (batchStep collection) acc).1.storage =
          StorageCall.execAll acc.1.storage (docs.map (.putInCollection collection)) ∧
        SameLog acc.1 (docs.foldl (batchStep collection) acc).1 := by
  induction docs with
  | nil => exact fun acc => ⟨rfl, rfl, rfl, rfl⟩
  | cons doc docs ih =>
      intro acc
      obtain ⟨hstorage, hlog⟩ := putAndIndex_effect acc.1 collection doc
      rw [← batchStep_fst] at hstorage hlog
      obtain ⟨hrest, hlog'⟩ := ih (batchStep collection acc doc)
      refine ⟨?_, hlog.trans hlog'⟩
      rw [List.foldl_cons, hrest, hstorage, List.map_cons, StorageCall.execAll_cons]

/-- **What a command can do.** It makes its storage calls, changes the index, and
leaves the log position, the membership and the stored snapshot alone. -/
theorem applyCommand_effect (sm : DbStateMachine σ ι) (cmd : RaftCommand) :
    (sm.applyCommand cmd).2.storage = StorageCall.execAll sm.storage cmd.storageCalls ∧
      SameLog sm (sm.applyCommand cmd).2 := by
  cases cmd with
  | insertDocument collection document =>
      rw [applyCommand_insertDocument_snd]
      exact putAndIndex_effect sm collection document
  | deleteDocument collection id =>
      simp only [applyCommand, RaftCommand.storageCalls, StorageCall.execAll_cons,
        StorageCall.execAll_nil, StorageCall.exec]
      split
      · next hdelete => exact ⟨by rw [hdelete], rfl, rfl, rfl⟩
      · next hdelete => exact ⟨by rw [hdelete], rfl, rfl, rfl⟩
  | updateDocument collection document =>
      simp only [applyCommand, RaftCommand.storageCalls, StorageCall.execAll_cons,
        StorageCall.execAll_nil, StorageCall.exec]
      split
      · next hput => exact ⟨by rw [hput], rfl, rfl, rfl⟩
      · next hput => exact ⟨by rw [hput], rfl, rfl, rfl⟩
  | createCollection name schema =>
      simp only [applyCommand, RaftCommand.storageCalls, StorageCall.execAll_cons,
        StorageCall.execAll_nil, StorageCall.exec]
      split
      · next hcreate => exact ⟨by rw [hcreate], rfl, rfl, rfl⟩
      · next hcreate => exact ⟨by rw [hcreate], rfl, rfl, rfl⟩
  | deleteCollection name => exact ⟨rfl, rfl, rfl, rfl⟩
  | batchInsert collection documents =>
      rw [applyCommand_batchInsert_snd]
      exact foldl_batchStep_effect collection documents (sm, 0)
  | createAlias aliasName collections => exact ⟨rfl, rfl, rfl, rfl⟩
  | deleteAlias aliasName => exact ⟨rfl, rfl, rfl, rfl⟩

theorem applyEntry_effect (acc : ApplyState σ ι) (entry : Entry) :
    (applyEntry acc entry).sm.storage = StorageCall.execAll acc.sm.storage entry.storageCalls ∧
      (applyEntry acc entry).sm.currentSnapshot = acc.sm.currentSnapshot := by
  simp only [applyEntry, Entry.storageCalls]
  cases entry.payload with
  | blank => exact ⟨rfl, rfl⟩
  | membership mem => exact ⟨rfl, rfl⟩
  | normal cmd =>
      -- the command runs on the state machine with the new log position
      obtain ⟨hstorage, -, -, hslot⟩ :=
        applyCommand_effect { acc.sm with lastAppliedLog := some entry.logId } cmd
      exact ⟨hstorage, hslot⟩

theorem foldl_applyEntry_effect (entries : List Entry) :
    ∀ acc : ApplyState σ ι,
      (entries.foldl applyEntry acc).sm.storage =
          StorageCall.execAll acc.sm.storage (entries.flatMap Entry.storageCalls) ∧
        (entries.foldl applyEntry acc).sm.currentSnapshot = acc.sm.currentSnapshot := by
  induction entries with
  | nil => exact fun acc => ⟨rfl, rfl⟩
  | cons entry entries ih =>
      intro acc
      obtain ⟨hstorage, hslot⟩ := applyEntry_effect acc entry
      obtain ⟨hrest, hslot'⟩ := ih (applyEntry acc entry)
      refine ⟨?_, hslot'.trans hslot⟩
      rw [List.foldl_cons, hrest, hstorage, List.flatMap_cons, StorageCall.execAll_append]

omit [StorageBackend σ] in
/-- The commits at the end of `apply` touch the index alone. -/
theorem foldl_commitIndexOf_effect (collections : List String) :
    ∀ sm : DbStateMachine σ ι, (collections.foldl commitIndexOf sm).storage = sm.storage ∧
      (collections.foldl commitIndexOf sm).currentSnapshot = sm.currentSnapshot := by
  induction collections with
  | nil => exact fun sm => ⟨rfl, rfl⟩
  | cons c collections ih => exact fun sm => ih (commitIndexOf sm c)

/-- **Entries as storage calls.** -/
theorem storage_apply (sm : DbStateMachine σ ι) (entries : List Entry) :
    (sm.apply entries).2.storage =
      StorageCall.execAll sm.storage (entries.flatMap Entry.storageCalls) := by
  rw [apply, (foldl_commitIndexOf_effect _ _).1, (foldl_applyEntry_effect entries _).1]

/-- Applying entries leaves the stored snapshot alone. -/
theorem currentSnapshot_apply (sm : DbStateMachine σ ι) (entries : List Entry) :
    (sm.apply entries).2.currentSnapshot = sm.currentSnapshot := by
  rw [apply, (foldl_commitIndexOf_effect _ _).2, (foldl_applyEntry_effect entries _).2]

/-- Apply batches of entries, one call of `apply` each. -/
def applyBatches (sm : DbStateMachine σ ι) (batches : List (List Entry)) : DbStateMachine σ ι :=
  batches.foldl (fun sm entries => (sm.apply entries).2) sm

/-- How a log is cut into batches does not matter to the storage. -/
theorem storage_applyBatches (batches : List (List Entry)) :
    ∀ sm : DbStateMachine σ ι, (sm.applyBatches batches).storage =
      StorageCall.execAll sm.storage (batches.flatten.flatMap Entry.storageCalls) := by
  induction batches with
  | nil => intro sm; rfl
  | cons entries batches ih =>
      intro sm
      have hcons : sm.applyBatches (entries :: batches) = (sm.apply entries).2.applyBatches batches :=
        rfl
      rw [hcons, ih, storage_apply, List.flatten_cons, List.flatMap_append,
        StorageCall.execAll_append]

/-! ## Effects of snapshots -/

theorem storage_foldl_restoreDocument (docs : List Document) :
    ∀ sm : DbStateMachine σ ι, (docs.foldl restoreDocument sm).storage =
      StorageCall.execAll sm.storage (docs.map .put) := by
  induction docs with
  | nil => intro sm; rfl
  | cons doc docs ih =>
      intro sm
      rw [List.foldl_cons, ih]
      rfl

/-- What `install_snapshot` leaves when it succeeds. -/
theorem installSnapshot_ok [SerdeJson (List Document)] {sm sm' : DbStateMachine σ ι}
    {m : SnapshotMeta} {data : Bytes} (h : sm.installSnapshot m data = (.ok (), sm')) :
    ∃ docs : List Document, SerdeJson.fromSlice data = .ok docs ∧
      sm'.storage = StorageCall.execAll sm.storage (docs.map .put) ∧
      sm'.lastAppliedLog = m.lastLogId ∧ sm'.lastMembership = m.lastMembership ∧
      sm'.currentSnapshot = some ⟨m, data⟩ := by
  simp only [installSnapshot] at h
  split at h
  · cases h
  · next docs hdocs =>
      cases h
      exact ⟨docs, hdocs, storage_foldl_restoreDocument docs sm, rfl, rfl, rfl⟩

/-- A snapshot that does not decode changes nothing. -/
theorem installSnapshot_error [SerdeJson (List Document)] {sm sm' : DbStateMachine σ ι}
    {m : SnapshotMeta} {data : Bytes} {e : StorageError}
    (h : sm.installSnapshot m data = (.error e, sm')) : sm' = sm := by
  simp only [installSnapshot] at h
  split at h
  · cases h
    rfl
  · cases h

end DbStateMachine

/-- What a build that succeeds returns: a scan of the storage, and the position
and the membership of the builder. -/
theorem DbSnapshotBuilder.buildSnapshot_ok {σ : Type} [StorageBackend σ] [SerdeJson (List Document)]
    [LeaderIdDisplay] {b : DbSnapshotBuilder} {s : σ} {snap : Snapshot}
    (h : b.buildSnapshot s = .ok snap) :
    ∃ docs, StorageBackend.scan s scanRange usizeMax = .ok docs ∧
      SerdeJson.toVec docs = .ok snap.snapshot ∧
      snap.snapshotMeta.lastLogId = b.lastAppliedLog ∧
      snap.snapshotMeta.lastMembership = b.lastMembership := by
  simp only [buildSnapshot] at h
  split at h
  · cases h
  · next docs hscan =>
      split at h
      · cases h
      · next data hdata =>
          cases h
          exact ⟨docs, hscan, hdata, rfl, rfl⟩

end MSearchDB.Consensus
