import MSearchDB.Lib.RemoteCall
import MSearchDB.Storage.DocumentMaps
import MSearchDB.Consensus.SnapshotContents
import MSearchDB.Network.ForwardWrite

/-!
# Reading a document of another node

The two ends of the `Get` call: `NodeClient::get` of `crates/network/src/client.rs` and
`QueryServiceImpl::get` of `crates/network/src/server.rs`, over the storage of a node that
applies entries and installs snapshots.

The service reads the default map, and no command writes there: documents come in through
snapshots alone. So a call finds the document that the last of the installed snapshots with
its id had, and never one that was written through the log (`remote_get_run`).
-/

set_option autoImplicit false

namespace MSearchDB.Network

open MSearchDB.Lib
open MSearchDB.Core
open MSearchDB.Consensus
open MSearchDB.Storage.RocksDb
open MSearchDB.Storage.RocksDb.RocksDbStorage

/-! ## The call -/

/-- `proto::GetRequest`. -/
structure GetRequest where
  documentId : String
  deriving DecidableEq

/-- `proto::GetResponse`. -/
structure GetResponse where
  document : Bytes
  found : Bool
  error : String
  deriving DecidableEq

section Call

variable {σ : Type} [StorageBackend σ] [SerdeJson Document]

/-- `QueryServiceImpl::get`. -/
def serveGet (storage : σ) (request : GetRequest) : Except Status GetResponse :=
  match StorageBackend.get storage ⟨request.documentId⟩ with
  | .ok doc =>
      match SerdeJson.toVec doc with
      | .error e => .error (.internal ("failed to serialize Document: " ++ e))
      | .ok payload => .ok ⟨payload, true, ""⟩
  | .error (.notFound _) => .ok ⟨[], false, ""⟩
  | .error e => .ok ⟨[], false, e.toString⟩

/-- `NodeClient::get` of a document of the node with the storage. -/
def remoteGet [StatusDisplay] (storage : σ) (transit : Transit Status) (id : DocumentId) :
    DbResult (Option Document) :=
  let serve (s : σ) (request : GetRequest) : Except Status GetResponse × σ := (serveGet s request, s)
  match (transit.carry serve storage ⟨id.val⟩).1 with
  | .error e => .error (.networkError ("get RPC failed: " ++ StatusDisplay.fmt e))
  | .ok inner =>
      if inner.error ≠ "" then .error (.networkError ("remote get error: " ++ inner.error))
      else if inner.found then
        match SerdeJson.fromSlice inner.document with
        | .error e => .error (.serializationError ("deserialize Document: " ++ e))
        | .ok doc => .ok (some doc)
      else .ok none

/-- What the call makes of a document that is there. -/
def sent [StatusDisplay] (doc : Document) : DbResult (Option Document) :=
  match SerdeJson.toVec doc with
  | .error e =>
      .error (.networkError ("get RPC failed: " ++
        StatusDisplay.fmt (.internal ("failed to serialize Document: " ++ e))))
  | .ok payload =>
      match SerdeJson.fromSlice payload with
      | .error e => .error (.serializationError ("deserialize Document: " ++ e))
      | .ok doc => .ok (some doc)

/-- A document that is read back comes back. -/
theorem sent_of_readsBack [StatusDisplay] {doc : Document} (h : SerdeJson.ReadsBack doc) :
    sent doc = .ok (some doc) := by
  obtain ⟨payload, hwrite, hread⟩ := h
  simp only [sent, hwrite, hread]

/-- What the call makes of a document that is there. -/
theorem remoteGet_of_ok [StatusDisplay] {storage : σ} {id : DocumentId} {doc : Document}
    (h : StorageBackend.get storage id = .ok doc) : remoteGet storage .delivered id = sent doc := by
  simp only [remoteGet, Transit.carry, serveGet, h, sent]
  cases hwrite : (SerdeJson.toVec doc : Except String Bytes) with
  | error e => rfl
  | ok payload => rfl

theorem remoteGet_of_notFound [StatusDisplay] {storage : σ} {id : DocumentId} {msg : String}
    (h : StorageBackend.get storage id = .error (.notFound msg)) :
    remoteGet storage .delivered id = .ok none := by
  simp only [remoteGet, Transit.carry, serveGet, h]
  rfl

end Call

/-! ## Documents that are put one after the other -/

theorem putAll_append (m : DocumentMap) (xs ys : List Document) :
    putAll Document.id m (xs ++ ys) = putAll Document.id (putAll Document.id m xs) ys := by
  rw [putAll, List.map_append, Write.execAll_append]
  rfl

/-- The last of the documents with an id stays. -/
theorem putAll_apply (docs : List Document) (id : DocumentId) :
    putAll Document.id (fun _ => none) docs id = (docs.filter fun doc => doc.id = id).getLast? := by
  induction docs using List.reverseRecOn with
  | nil => rfl
  | append_singleton docs doc ih =>
      have hlast : putAll Document.id (putAll Document.id (fun _ => none) docs) [doc] id =
          if doc.id = id then some doc else putAll Document.id (fun _ => none) docs id := by
        simp only [putAll, List.map_cons, List.map_nil, Write.execAll_cons, Write.execAll_nil, Write.exec,
          Write.key, Write.outcome, Function.update_apply]
        exact if_congr eq_comm rfl rfl
      rw [putAll_append, hlast, List.filter_append]
      by_cases hid : doc.id = id
      · simp [hid]
      · simp [hid, ih]

/-! ## Documents that snapshots bring -/

section Restored

variable [RmpSerde Document]

/-- The store can write the document. -/
def writable (doc : Document) : Bool := (RmpSerde.toVec doc : Except String Bytes).isOk

/-- A document that cannot be written is skipped. -/
theorem defaultDocs_put {s : RocksDbStorage} (h : WellFormed s) (doc : Document) :
    (StorageCall.exec s (.put doc)).defaultDocs =
      if writable doc then Write.exec s.defaultDocs (.put doc.id doc) else s.defaultDocs := by
  rw [writable]
  cases hwrite : (RmpSerde.toVec doc : Except String Bytes) with
  | error e =>
      have hput : StorageCall.exec s (.put doc) = s := by
        show (s.putDocumentIn cfDocuments doc).2 = s
        rw [putDocumentIn, hwrite]
      rw [hput]
      rfl
  | ok bytes =>
      have henc : EncodesCall (.put doc) := ⟨bytes, hwrite⟩
      rw [defaultDocs_exec h henc]
      rfl

theorem defaultDocs_execAll_put (docs : List Document) :
    ∀ {s : RocksDbStorage}, WellFormed s →
      (StorageCall.execAll s (docs.map .put)).defaultDocs =
        putAll Document.id s.defaultDocs (docs.filter writable) := by
  induction docs with
  | nil => exact fun _ => rfl
  | cons doc docs ih =>
      intro s h
      rw [List.map_cons, StorageCall.execAll_cons, ih (h.exec _), defaultDocs_put h]
      cases hok : writable doc with
      | false => rw [List.filter_cons_of_neg (by simp [hok]), if_neg Bool.false_ne_true]
      | true => rw [List.filter_cons_of_pos hok, putAll_cons, if_pos rfl]

/-- A lookup in the default map. -/
theorem get_eq_defaultDocs {s : RocksDbStorage} (h : WellFormed s) (id : DocumentId) :
    StorageBackend.get s id = match s.defaultDocs id with
      | none => .error (documentNotFound id)
      | some doc => .ok doc := by
  have hget : StorageBackend.get s id = _ :=
    okOr_getDocumentFrom h (by decide : cfSequence ≠ cfDocuments) (documentNotFound id) id
  rw [map_decoded_documents h.base] at hget
  exact hget

variable [SerdeJson (List Document)]

/-- The documents that an event puts into the default map: those of a snapshot that decodes,
as far as the store can write them. -/
def restoredBy : Event RocksDbStorage → List Document
  | .installSnapshot _ data =>
      match (SerdeJson.fromSlice data : Except String (List Document)) with
      | .ok documents => documents.filter writable
      | .error _ => []
  | _ => []

variable [LeaderIdDisplay] {ι : Type} [IndexBackend ι]

/-- **What one event does to the default map.** -/
theorem defaultDocs_step {n : Node RocksDbStorage ι} (h : WellFormed n.sm.storage) (e : Event RocksDbStorage) :
    (n.step e).sm.storage.defaultDocs = putAll Document.id n.sm.storage.defaultDocs (restoredBy e) := by
  cases e with
  | apply entries =>
      show (n.sm.apply entries).2.storage.defaultDocs = n.sm.storage.defaultDocs
      -- commands write to the families of the collections
      rw [DbStateMachine.storage_apply, defaultDocs, slot_documents h]
      rfl
  | getSnapshotBuilder => rfl
  | buildSnapshot i atScan =>
      rcases Node.step_buildSnapshot n i atScan with ⟨-, hstep⟩ | ⟨b, snap, -, -, hstep⟩
      · rw [hstep]
        rfl
      · rw [hstep]
        rfl
  | installSnapshot m data =>
      show (n.sm.installSnapshot m data).2.storage.defaultDocs = _
      simp only [DbStateMachine.installSnapshot, restoredBy]
      cases hread : (SerdeJson.fromSlice data : Except String (List Document)) with
      | error e => rfl
      | ok documents =>
          show (documents.foldl DbStateMachine.restoreDocument n.sm).storage.defaultDocs = _
          rw [DbStateMachine.storage_foldl_restoreDocument]
          exact defaultDocs_execAll_put documents h

theorem defaultDocs_run (events : List (Event RocksDbStorage)) :
    ∀ {n : Node RocksDbStorage ι}, WellFormed n.sm.storage →
      (n.run events).sm.storage.defaultDocs =
        putAll Document.id n.sm.storage.defaultDocs (events.flatMap restoredBy) := by
  induction events with
  | nil => exact fun _ => rfl
  | cons e events ih =>
      intro n h
      have hcons : n.run (e :: events) = (n.step e).run events := rfl
      rw [hcons, ih (wellFormed_step h e), defaultDocs_step h, List.flatMap_cons, putAll_append]

variable [SerdeJson Document] [StatusDisplay]

/-- **The `Get` call finds what snapshots brought.** Take any run of a node over a new store: batches of
entries, snapshots built and installed, in any order. A call that is carried through finds, of the
documents of the installed snapshots that the store could write, the last one with the id, and nothing
if there is none; what commands did does not matter. The document comes back as it is when its JSON is
read back, and otherwise as what the JSON is read as. A message that is lost is an error. -/
theorem remote_get_run {options : StorageOptions} {sm : DbStateMachine RocksDbStorage ι}
    (hnew : RocksDbStorage.new none options = .ok sm.storage) (events : List (Event RocksDbStorage))
    (transit : Transit Status) (id : DocumentId) :
    let restored := (events.flatMap restoredBy).filter fun doc => doc.id = id
    let found := restored.getLast?
    let storage := ((Node.start sm).run events).sm.storage
    (remoteGet storage transit id =
      match transit with
      | .delivered => found.elim (.ok none) sent
      | .requestLost e => .error (.networkError ("get RPC failed: " ++ StatusDisplay.fmt e))
      | .responseLost e => .error (.networkError ("get RPC failed: " ++ StatusDisplay.fmt e))) ∧
      ∀ doc, found = some doc → SerdeJson.ReadsBack doc → remoteGet storage .delivered id = .ok (some doc) := by
  intro restored found storage
  have hwf : WellFormed (Node.start sm).sm.storage := wellFormed_of_new hnew
  have hempty : sm.storage.defaultDocs = fun _ => none :=
    congrArg DocumentMaps.defaultMap (view_of_new hnew)
  have hdocs : storage.defaultDocs id = found := by
    rw [defaultDocs_run events hwf, show found = restored.getLast? from rfl, ← putAll_apply]
    show putAll Document.id sm.storage.defaultDocs _ id = _
    rw [hempty]
  have hget := get_eq_defaultDocs (show WellFormed storage from wellFormed_run hwf events) id
  rw [hdocs] at hget
  have hdelivered : remoteGet storage .delivered id = found.elim (.ok none) sent := by
    cases hlast : found with
    | none =>
        rw [hlast] at hget
        exact remoteGet_of_notFound hget
    | some doc =>
        rw [hlast] at hget
        exact remoteGet_of_ok hget
  constructor
  · cases transit with
    | requestLost e => rfl
    | responseLost e => rfl
    | delivered => exact hdelivered
  · intro doc hfound hback
    rw [hdelivered, hfound]
    exact sent_of_readsBack hback

end Restored

/-- A document is inserted through the log, and another comes in a snapshot. -/
def insertedAndRestored : List (Event RocksDbStorage) :=
  [.apply [⟨⟨⟨1, 1⟩, 1⟩, .normal (.createCollection "c" .new)⟩,
      ⟨⟨⟨1, 1⟩, 2⟩, .normal (.insertDocument "c" (.new ⟨"logged"⟩))⟩],
    .installSnapshot ⟨some ⟨⟨1, 1⟩, 2⟩, .default, "1-1-2-snapshot"⟩ [1]]

/-- Only the second is found. -/
theorem remote_get_run_insertedAndRestored :
    letI : SerdeJson (List Document) := oneValueJson [Document.new ⟨"restored"⟩] [1]
    letI : SerdeJson Document := oneValueJson (Document.new ⟨"restored"⟩) [2]
    letI : LeaderIdDisplay := ⟨fun _ => ""⟩
    letI : StatusDisplay := ⟨fun _ => ""⟩
    let n := (Node.start (DbStateMachine.new fresh ())).run insertedAndRestored
    remoteGet n.sm.storage .delivered ⟨"restored"⟩ = .ok (some (.new ⟨"restored"⟩)) ∧
      remoteGet n.sm.storage .delivered ⟨"logged"⟩ = .ok none := by
  let _ : SerdeJson (List Document) := oneValueJson [Document.new ⟨"restored"⟩] [1]
  let _ : SerdeJson Document := oneValueJson (Document.new ⟨"restored"⟩) [2]
  let _ : LeaderIdDisplay := ⟨fun _ => ""⟩
  let _ : StatusDisplay := ⟨fun _ => ""⟩
  have hnew : RocksDbStorage.new none {} = .ok (DbStateMachine.new fresh ()).storage := new_none {}
  have henc : Encodes (Document.new ⟨"restored"⟩) := encodes_bare (by decide)
  have hwritable : writable (Document.new ⟨"restored"⟩) = true := by
    obtain ⟨bytes, hbytes⟩ := henc
    rw [writable, hbytes]
    rfl
  have hrestored : insertedAndRestored.flatMap restoredBy = [Document.new ⟨"restored"⟩] := by
    show [Document.new ⟨"restored"⟩].filter writable ++ [] = _
    rw [List.filter_cons_of_pos hwritable]
    rfl
  have hget := remote_get_run hnew insertedAndRestored .delivered
  rw [hrestored] at hget
  exact ⟨(hget ⟨"restored"⟩).2 _ rfl (readsBack_oneValueJson _ _), (hget ⟨"logged"⟩).1⟩

end MSearchDB.Network
