import MSearchDB.Storage.RocksDbScan
import MSearchDB.Consensus.LogReplay
import MSearchDB.Consensus.SnapshotService

/-!
# What a snapshot holds

A snapshot is a scan of the default map of documents, while commands store
documents in collections. Entries never touch the default map
(`slot_documents_take`), so that a snapshot does not depend on how far later
entries have been applied when the scan runs; but what the collections hold is not
in it. `snapshot_point_in_time_iff` says when a snapshot is the contents of the
store at the position it names. `snapshot_transfer_iff` says what the installation
of a snapshot does to a replica: nothing, so that the replica holds what the
source holds only if it did before.
-/

set_option autoImplicit false

namespace MSearchDB.Consensus

open MSearchDB.Lib
open MSearchDB.Core
open MSearchDB.Storage.RocksDb
open MSearchDB.Storage.RocksDb.RocksDbStorage
open DbSnapshotBuilder (scanRange usizeMax)

section Scans

variable [RmpSerde Document]

theorem scan_congr {s s' : RocksDbStorage} (h : s.db.slot cfDocuments = s'.db.slot cfDocuments)
    (range : RangeInclusive DocumentId) (limit : Nat) :
    StorageBackend.scan s range limit = StorageBackend.scan s' range limit := by
  show scanOr _ s cfDocuments range limit = scanOr _ s' cfDocuments range limit
  rw [scanOr, scanOr, DB.cfHandle_eq_of_slot_eq h]

/-- The documents a builder finds in a well-formed store. -/
theorem scan_eq {s : RocksDbStorage} (h : WellFormed s) :
    StorageBackend.scan s scanRange usizeMax =
      .ok ((scanned scanRange s.defaultMap).take usizeMax) := by
  have hcf := cfHandle_defaultMap h.base
  exact scanOr_eq hcf (decodes_of_encoded hcf (h.encoded _ (by decide))) _ _ (by decide)

/-- A scan finds the whole store: no collection holds a document, and the documents
of the default map are in the range and the limit of the scan. -/
structure ScanComplete (s : RocksDbStorage) : Prop where
  noCollectionDocs : ∀ c id doc, StorageBackend.getFromCollection s c id ≠ .ok doc
  inRange : ∀ id doc, StorageBackend.get s id = .ok doc → InRange scanRange id
  count : (docsOf s.defaultMap).length ≤ usizeMax

/-- A scan finds the contents of the store exactly when it is complete. -/
theorem scanned_perm_contents_iff {s : RocksDbStorage} (h : WellFormed s) :
    ((scanned scanRange s.defaultMap).take usizeMax).Perm s.contents ↔ ScanComplete s := by
  have hdec := decodes_of_encoded (cfHandle_defaultMap h.base) (h.encoded _ (by decide))
  have hsub := scanned_sublist scanRange s.defaultMap usizeMax
  constructor
  · intro hperm
    have hlen := hperm.length_eq
    rw [contents, List.length_append] at hlen
    -- the scan is part of the default map, so nothing is left for the collections
    have hle := hsub.length_le
    have hcol : s.collectionDocs = [] := List.length_eq_zero_iff.1 (by omega)
    have heq := hsub.eq_of_length (by omega)
    obtain ⟨hrange, hcount⟩ := (scanned_eq_iff hdec scanRange usizeMax).1 heq
    exact ⟨(collectionDocs_eq_nil_iff h).1 hcol, (keys_inRange_iff h scanRange).1 hrange, hcount⟩
  · intro hc
    have heq := (scanned_eq_iff hdec scanRange usizeMax).2
      ⟨(keys_inRange_iff h scanRange).2 hc.inRange, hc.count⟩
    rw [contents, (collectionDocs_eq_nil_iff h).2 hc.noCollectionDocs, List.append_nil, heq]

/-- A store that commands have built has an empty default map. -/
theorem scan_of_applyBatches {ι : Type} [IndexBackend ι] {options : StorageOptions}
    {sm : DbStateMachine RocksDbStorage ι}
    (hnew : RocksDbStorage.new none options = .ok sm.storage) (batches : List (List Entry)) :
    StorageBackend.scan (sm.applyBatches batches).storage scanRange usizeMax = .ok [] := by
  have hwf := wellFormed_of_new hnew
  have hslot : (sm.applyBatches batches).storage.db.slot cfDocuments =
      sm.storage.db.slot cfDocuments := by
    rw [DbStateMachine.storage_applyBatches]
    exact slot_documents hwf _
  have hempty : sm.storage.defaultMap.toList = [] := by
    apply List.eq_nil_iff_forall_not_mem.2
    intro kv hkv
    have hv : sm.storage.defaultMap[kv.1]? = some kv.2 :=
      Std.ExtTreeMap.mem_toList_iff_getElem?_eq_some.1 hkv
    have hnone := slot_of_new hnew cfDocuments
    rw [if_pos (by decide), DB.slot, cfHandle_defaultMap hwf.base] at hnone
    cases hv.symm.trans (congrFun (Option.some.inj hnone) kv.1)
  rw [scan_congr hslot, scan_eq hwf]
  simp [scanned, DB.iteratorFrom, hempty]

end Scans

/-! ## Point in time -/

section PointInTime

variable [RmpSerde Document] [SerdeJson (List Document)] [LeaderIdDisplay]

variable {ι : Type} [IndexBackend ι]

/-- The storage of a node stays well formed. -/
theorem wellFormed_step {n : Node RocksDbStorage ι} (h : WellFormed n.sm.storage)
    (e : Event RocksDbStorage) : WellFormed (n.step e).sm.storage := by
  cases e with
  | apply entries =>
      show WellFormed (n.sm.apply entries).2.storage
      rw [DbStateMachine.storage_apply]
      exact h.execAll _
  | getSnapshotBuilder => exact h
  | buildSnapshot i atScan =>
      rcases Node.step_buildSnapshot n i atScan with ⟨-, hstep⟩ | ⟨b, snap, -, -, hstep⟩
      · rwa [hstep]
      · rwa [hstep]
  | installSnapshot m data =>
      show WellFormed (n.sm.installSnapshot m data).2.storage
      cases hinstall : n.sm.installSnapshot m data with
      | mk r sm' =>
          cases r with
          | error e =>
              rw [DbStateMachine.installSnapshot_error hinstall]
              exact h
          | ok u =>
              obtain ⟨docs, -, hstorage, -⟩ := DbStateMachine.installSnapshot_ok hinstall
              rw [hstorage]
              exact h.execAll _

theorem wellFormed_run {n : Node RocksDbStorage ι} (h : WellFormed n.sm.storage)
    (events : List (Event RocksDbStorage)) : WellFormed (n.run events).sm.storage := by
  induction events generalizing n with
  | nil => exact h
  | cons e events ih => exact ih (wellFormed_step h e)

/-- **Point in time.** A builder is obtained in any reachable state, batches of
further entries are applied, and the scan runs after any number of the storage
calls they make. The snapshot names the position of the builder, and the documents
that it serialises are the contents of the store at that position exactly when a scan
at that position is complete. -/
theorem snapshot_point_in_time_iff {options : StorageOptions}
    {sm₀ : DbStateMachine RocksDbStorage ι}
    (hnew : RocksDbStorage.new none options = .ok sm₀.storage)
    (events : List (Event RocksDbStorage)) {sm : DbStateMachine RocksDbStorage ι}
    (hsm : ((Node.start sm₀).run events).sm = sm) (later : List (List Entry)) (n : Nat)
    {snap : Snapshot}
    (hbuild : sm.getSnapshotBuilder.buildSnapshot (StorageCall.execAll sm.storage
      ((later.flatten.flatMap Entry.storageCalls).take n)) = .ok snap) :
    snap.snapshotMeta.lastLogId = sm.lastAppliedLog ∧
      ∃ docs : List Document,
        StorageBackend.scan (StorageCall.execAll sm.storage ((later.flatten.flatMap Entry.storageCalls).take n))
            scanRange usizeMax = .ok docs ∧
          SerdeJson.toVec docs = .ok snap.snapshot ∧
          (docs.Perm sm.storage.contents ↔ ScanComplete sm.storage) := by
  have hwf : WellFormed sm.storage := by
    rw [← hsm]
    exact wellFormed_run (n := Node.start sm₀) (wellFormed_of_new hnew) events
  obtain ⟨docs, hscan, hdata, hlast, -⟩ := DbSnapshotBuilder.buildSnapshot_ok hbuild
  refine ⟨hlast, docs, hscan, hdata, ?_⟩
  -- the scan is as good as one at the position of the builder
  rw [scan_congr (slot_documents_take hwf later.flatten n), scan_eq hwf] at hscan
  rw [← Except.ok.inj hscan]
  exact scanned_perm_contents_iff hwf

end PointInTime

/-- The node after it has created a collection and inserted a document. -/
def insertedMachine : DbStateMachine RocksDbStorage Unit := freshMachine.applyBatches [createAndInsert]

/-- The snapshot that the builder of that node builds: no documents. -/
def emptySnapshot : Snapshot :=
  ⟨⟨some ⟨⟨1, 1⟩, 2⟩, StoredMembership.default, "T1-N1-2-snapshot"⟩, [0x5b, 0x5d]⟩

theorem buildSnapshot_insertedMachine :
    insertedMachine.getSnapshotBuilder.buildSnapshot insertedMachine.storage = .ok emptySnapshot := by
  decide

/-- A builder of a new node, and a scan after a collection has been created and a
document inserted. -/
theorem snapshot_point_in_time_fresh :
    (none : Option LogId) = freshMachine.lastAppliedLog ∧
      ∃ docs : List Document,
        StorageBackend.scan (StorageCall.execAll freshMachine.storage
            (([createAndInsert].flatten.flatMap Entry.storageCalls).take 2)) scanRange usizeMax = .ok docs ∧
          SerdeJson.toVec docs = .ok [0x5b, 0x5d] ∧
          (docs.Perm freshMachine.storage.contents ↔ ScanComplete freshMachine.storage) :=
  have hbuild : freshMachine.getSnapshotBuilder.buildSnapshot (StorageCall.execAll
      freshMachine.storage (([createAndInsert].flatten.flatMap Entry.storageCalls).take 2)) =
        .ok ⟨⟨none, StoredMembership.default, "empty-snapshot"⟩, [0x5b, 0x5d]⟩ := by
    decide
  snapshot_point_in_time_iff new_freshMachine [] rfl [createAndInsert] 2 hbuild

/-- A document that was inserted before the builder was obtained is not in the
snapshot. -/
theorem not_snapshot_point_in_time :
    RocksDbStorage.new none {} = .ok freshMachine.storage ∧
      ((Node.start freshMachine).run [.apply createAndInsert]).sm = insertedMachine ∧
      insertedMachine.getSnapshotBuilder.buildSnapshot insertedMachine.storage = .ok emptySnapshot ∧
      StorageBackend.scan insertedMachine.storage scanRange usizeMax = .ok [] ∧
      SerdeJson.toVec ([] : List Document) = .ok emptySnapshot.snapshot ∧
      ¬ List.Perm [] insertedMachine.storage.contents := by
  have hscan : StorageBackend.scan insertedMachine.storage scanRange usizeMax = .ok [] := by
    decide
  refine ⟨new_freshMachine, rfl, buildSnapshot_insertedMachine, hscan, rfl, fun hperm => ?_⟩
  have hcontents : insertedMachine.storage.contents = [Document.new ⟨"d"⟩] := by
    decide
  rw [hcontents] at hperm
  simp at hperm

/-! ## Transfer -/

section Transfer

variable [RmpSerde Document] [SerdeJson (List Document)] [LeaderIdDisplay]
variable {ι : Type} [IndexBackend ι]

/-- **Transfer.** A snapshot of a store that any commands have built is installed
on any replica, and its documents are read as they were written. The replica takes
over the position and the membership of the snapshot; it holds the source's
collections and documents exactly when it did before. -/
theorem snapshot_transfer_iff {ι' : Type} [IndexBackend ι'] {options : StorageOptions}
    {sm : DbStateMachine RocksDbStorage ι}
    (hnew : RocksDbStorage.new none options = .ok sm.storage) (batches : List (List Entry))
    {source : DbStateMachine RocksDbStorage ι} (hsource : sm.applyBatches batches = source)
    {snap : Snapshot} (hbuild : source.getSnapshotBuilder.buildSnapshot source.storage = .ok snap)
    (hread : ∀ docs : List Document, SerdeJson.toVec docs = .ok snap.snapshot →
      SerdeJson.fromSlice snap.snapshot = .ok docs)
    {receiver receiver' : DbStateMachine RocksDbStorage ι'}
    (hinstall : receiver.installSnapshot snap.snapshotMeta snap.snapshot = (.ok (), receiver')) :
    (SameContents receiver'.storage source.storage ∧
        receiver'.lastAppliedLog = snap.snapshotMeta.lastLogId ∧
        receiver'.lastMembership = snap.snapshotMeta.lastMembership) ↔
      SameContents receiver.storage source.storage := by
  subst hsource
  obtain ⟨docs, hscan, hdata, -, -⟩ := DbSnapshotBuilder.buildSnapshot_ok hbuild
  -- commands have put nothing where the scan looks, so the snapshot is empty
  rw [scan_of_applyBatches hnew] at hscan
  obtain rfl := Except.ok.inj hscan
  obtain ⟨docs, hdocs, hstorage, hlast, hmembership, -⟩ :=
    DbStateMachine.installSnapshot_ok hinstall
  rw [hread _ hdata] at hdocs
  obtain rfl := Except.ok.inj hdocs
  -- and the loop of the installation makes no call
  rw [hstorage, List.map_nil, StorageCall.execAll_nil]
  exact and_iff_left ⟨hlast, hmembership⟩

end Transfer

/-- The empty list is the only one with this code. -/
theorem fromSlice_emptySnapshot (docs : List Document)
    (h : SerdeJson.toVec docs = .ok emptySnapshot.snapshot) :
    SerdeJson.fromSlice emptySnapshot.snapshot = .ok docs := by
  by_cases hdocs : docs = []
  · rw [hdocs]
    rfl
  · have hwrite : (SerdeJson.toVec docs : Except String Bytes) = .error "not the empty list" := if_neg hdocs
    cases hwrite.symm.trans h

/-- A replica that holds what the source holds goes on to do so. -/
theorem snapshot_transfer_self :
    SameContents (insertedMachine.installSnapshot emptySnapshot.snapshotMeta
          emptySnapshot.snapshot).2.storage insertedMachine.storage ∧
      (insertedMachine.installSnapshot emptySnapshot.snapshotMeta
          emptySnapshot.snapshot).2.lastAppliedLog = some ⟨⟨1, 1⟩, 2⟩ ∧
      (insertedMachine.installSnapshot emptySnapshot.snapshotMeta
          emptySnapshot.snapshot).2.lastMembership = StoredMembership.default :=
  have hinstall : insertedMachine.installSnapshot emptySnapshot.snapshotMeta
      emptySnapshot.snapshot = (.ok (), (insertedMachine.installSnapshot emptySnapshot.snapshotMeta
        emptySnapshot.snapshot).2) := rfl
  (snapshot_transfer_iff new_freshMachine [createAndInsert] rfl buildSnapshot_insertedMachine
    fromSlice_emptySnapshot hinstall).2 ⟨fun _ => rfl, fun _ _ => rfl, fun _ => rfl⟩

/-- A new replica does not receive the collection. -/
theorem not_snapshot_transfer :
    RocksDbStorage.new none {} = .ok freshMachine.storage ∧
      freshMachine.applyBatches [createAndInsert] = insertedMachine ∧
      insertedMachine.getSnapshotBuilder.buildSnapshot insertedMachine.storage = .ok emptySnapshot ∧
      (freshMachine.installSnapshot emptySnapshot.snapshotMeta emptySnapshot.snapshot).1 = .ok () ∧
      ¬ SameContents (freshMachine.installSnapshot emptySnapshot.snapshotMeta emptySnapshot.snapshot).2.storage
          insertedMachine.storage := by
  refine ⟨new_freshMachine, rfl, buildSnapshot_insertedMachine, rfl, fun hsame => ?_⟩
  have hexists := hsame.collectionExists "c"
  revert hexists
  decide

end MSearchDB.Consensus
