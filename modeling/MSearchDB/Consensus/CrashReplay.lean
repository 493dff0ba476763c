import MSearchDB.Lib.Run
import MSearchDB.Consensus.LogReplay

/-!
# Replicas that crash

Every node applies the committed log from its start, in batches of any sizes. A node may
die at any moment, also in the middle of a batch, and start again over the storage it has
left: its position in the log is gone, the index is whatever it is given, and the log is
applied from the first entry. Storage calls are the atoms, since each writes its document
in one batch of RocksDB.

The restart is over the store as it is open: what dies is the state machine, and the store
is handed to a new one. A process that dies has to open the store again, and
`RocksDbStorage::new` refuses a store that holds a collection (`reopen_iff`).

A slot of the storage is then not what a pass over the applied part of the log leaves. It
is what that pass leaves over an older slot, which the furthest pass of the node accounts
for (`Sound.slots`). Once a node is as far as it has ever been, the older slot no longer
matters, and its collections and documents are those of one pass without interruption
(`replicas_agree`).
-/

set_option autoImplicit false

namespace MSearchDB.Consensus

open MSearchDB.Lib
open MSearchDB.Core
open MSearchDB.Storage.RocksDb
open MSearchDB.Storage.RocksDb.RocksDbStorage

/-! ## The reported position -/

namespace DbStateMachine

variable {σ ι : Type} [StorageBackend σ] [IndexBackend ι]

theorem lastAppliedLog_applyEntry (acc : ApplyState σ ι) (entry : Entry) :
    (applyEntry acc entry).sm.lastAppliedLog = some entry.logId := by
  simp only [applyEntry]
  cases entry.payload with
  | blank => rfl
  | membership mem => rfl
  | normal cmd => exact (applyCommand_effect { acc.sm with lastAppliedLog := some entry.logId } cmd).2.1

theorem lastAppliedLog_foldl (entries : List Entry) (acc : ApplyState σ ι) :
    (entries.foldl applyEntry acc).sm.lastAppliedLog =
      (entries.getLast?.map Entry.logId).or acc.sm.lastAppliedLog := by
  -- the last entry alone decides
  induction entries using List.reverseRecOn with
  | nil => rfl
  | append_singleton entries entry ih =>
      rw [List.foldl_append, List.getLast?_append]
      exact lastAppliedLog_applyEntry _ entry

omit [StorageBackend σ] in
theorem lastAppliedLog_foldl_commitIndexOf (collections : List String) :
    ∀ sm : DbStateMachine σ ι,
      (collections.foldl commitIndexOf sm).lastAppliedLog = sm.lastAppliedLog := by
  induction collections with
  | nil => exact fun _ => rfl
  | cons c collections ih => exact fun sm => ih (commitIndexOf sm c)

theorem lastAppliedLog_apply (sm : DbStateMachine σ ι) (entries : List Entry) :
    (sm.apply entries).2.lastAppliedLog =
      (entries.getLast?.map Entry.logId).or sm.lastAppliedLog := by
  rw [apply, lastAppliedLog_foldl_commitIndexOf, lastAppliedLog_foldl]

end DbStateMachine

/-! ## Replicas of one log -/

/-- A node. `position` counts the entries it has applied since it started; `reached` is
the furthest entry any of its passes was given, which no node keeps. -/
structure Replica (ι : Type) where
  machine : DbStateMachine RocksDbStorage ι
  position : Nat
  reached : Nat

/-- The committed log and the nodes. -/
structure Cluster (ν ι : Type) where
  log : List Entry
  replicas : ν → Replica ι

/-- What happens in a cluster. -/
inductive ClusterEvent (ν ι : Type) where
  /-- An entry is committed. -/
  | commit (entry : Entry)
  /-- A node applies the next `count` entries in one batch. -/
  | apply (node : ν) (count : Nat)
  /-- A node dies in the batch of the next `count` entries, after some of its storage
  calls, and starts again with some index. -/
  | crash (node : ν) (count calls : Nat) (index : ι)

/-- The next entries of the log. -/
def Replica.batch {ι : Type} (log : List Entry) (r : Replica ι) (count : Nat) : List Entry :=
  (log.drop r.position).take count

theorem commandsOf_append (xs ys : List Entry) : commandsOf (xs ++ ys) = commandsOf xs ++ commandsOf ys :=
  List.filterMap_append

section Steps

variable {ν ι : Type} [DecidableEq ν] [RmpSerde Document] [IndexBackend ι]

/-- A node applies a batch. -/
def Replica.apply (log : List Entry) (r : Replica ι) (count : Nat) : Replica ι :=
  let entries := r.batch log count
  ⟨(r.machine.apply entries).2, r.position + entries.length, max r.reached (r.position + entries.length)⟩

omit [IndexBackend ι] in
/-- A node dies in a batch and starts again over its storage. -/
def Replica.crash (log : List Entry) (r : Replica ι) (count calls : Nat) (index : ι) : Replica ι :=
  let entries := r.batch log count
  let storage := StorageCall.execAll r.machine.storage ((entries.flatMap Entry.storageCalls).take calls)
  ⟨DbStateMachine.new storage index, 0, max r.reached (r.position + entries.length)⟩

/-- One event of a cluster. -/
def Cluster.step (c : Cluster ν ι) : ClusterEvent ν ι → Cluster ν ι
  | .commit entry => { c with log := c.log ++ [entry] }
  | .apply node count =>
      { c with replicas := Function.update c.replicas node ((c.replicas node).apply c.log count) }
  | .crash node count calls index =>
      { c with replicas := Function.update c.replicas node ((c.replicas node).crash c.log count calls index) }

omit [DecidableEq ν] [RmpSerde Document] [IndexBackend ι] in
/-- Every node over a new store, and no entry committed. -/
def Cluster.start (index : ν → ι) : Cluster ν ι :=
  ⟨[], fun node => ⟨DbStateMachine.new fresh (index node), 0, 0⟩⟩

/-! ## What a storage can be left with -/

/-- What entries do to the column family of the collection `c`. -/
def entryOps (c : String) (entries : List Entry) : List (SlotOp Bytes Bytes) :=
  (entries.flatMap Entry.storageCalls).flatMap (opsOn (collectionCfName c))

theorem entryOps_append (c : String) (xs ys : List Entry) :
    entryOps c (xs ++ ys) = entryOps c xs ++ entryOps c ys := by
  rw [entryOps, List.flatMap_append, List.flatMap_append]
  rfl

theorem entryOps_eq (c : String) (entries : List Entry) :
    entryOps c entries = (commandsOf entries).flatMap (opsOf c) := by
  rw [entryOps, flatMap_storageCalls, flatMap_opsOf]

/-- A pass over a longer part of the log contains the shorter one. -/
theorem entryOps_take_subset (c : String) (log : List Entry) {m n : Nat} (h : m ≤ n) :
    entryOps c (log.take m) ⊆ entryOps c (log.take n) := by
  obtain ⟨rest, hrest⟩ := List.take_prefix_take_left (l := log) h
  rw [← hrest, entryOps_append]
  exact List.subset_append_left _ _

/-- The storage of a replica, and the position it reports. -/
structure Sound (log : List Entry) (r : Replica ι) : Prop where
  position_le : r.position ≤ r.reached
  reached_le : r.reached ≤ log.length
  reported : r.machine.lastAppliedLog = (log.take r.position).getLast?.map Entry.logId
  wellFormed : WellFormed r.machine.storage
  documents : r.machine.storage.db.slot cfDocuments = fresh.db.slot cfDocuments
  slots : ∀ c, ∃ m, SlotOp.Absorbs (entryOps c (log.take r.reached)) m ∧
    r.machine.storage.db.slot (collectionCfName c) =
      SlotOp.runAll m (entryOps c (log.take r.position))

variable {log : List Entry} {r : Replica ι}

omit [RmpSerde Document] [IndexBackend ι] in
/-- The batch continues the applied part of the log. -/
theorem Replica.take_batch (r : Replica ι) (log : List Entry) (count : Nat) :
    log.take (r.position + (r.batch log count).length) = log.take r.position ++ r.batch log count := by
  rw [List.take_add]
  have hpre := List.prefix_iff_eq_take.1 (List.take_prefix count (log.drop r.position))
  rw [Replica.batch, ← hpre]

omit [RmpSerde Document] [IndexBackend ι] in
theorem Replica.position_add_batch_le (r : Replica ι) (log : List Entry) (count : Nat)
    (h : r.position ≤ log.length) : r.position + (r.batch log count).length ≤ log.length := by
  rw [Replica.batch, List.length_take, List.length_drop]
  omega

omit [IndexBackend ι] in
theorem Sound.start (index : ι) : Sound [] (⟨DbStateMachine.new fresh index, 0, 0⟩ : Replica ι) where
  position_le := Nat.le_refl 0
  reached_le := Nat.le_refl 0
  reported := rfl
  wellFormed := wellFormed_of_new (new_none {})
  documents := rfl
  slots c := ⟨none, SlotOp.absorbs_none _, slot_collection_of_new (new_none {}) c⟩

omit [IndexBackend ι] in
/-- The log only grows behind what a replica has reached. -/
theorem Sound.commit (h : Sound log r) (entry : Entry) : Sound (log ++ [entry]) r where
  position_le := h.position_le
  reached_le := by
    rw [List.length_append]
    exact Nat.le_add_right_of_le h.reached_le
  reported := by
    rw [List.take_append_of_le_length (h.position_le.trans h.reached_le)]
    exact h.reported
  wellFormed := h.wellFormed
  documents := h.documents
  slots c := by
    rw [List.take_append_of_le_length (h.position_le.trans h.reached_le),
      List.take_append_of_le_length h.reached_le]
    exact h.slots c

omit [IndexBackend ι] in
/-- One collection after some calls of the batch. -/
theorem Sound.slot_calls (h : Sound log r) (c : String) (calls : List StorageCall) :
    ∃ m, SlotOp.Absorbs (entryOps c (log.take r.reached)) m ∧
      (StorageCall.execAll r.machine.storage calls).db.slot (collectionCfName c) =
        SlotOp.runAll m (entryOps c (log.take r.position) ++ calls.flatMap (opsOn (collectionCfName c))) := by
  obtain ⟨m, hm, hslot⟩ := h.slots c
  refine ⟨m, hm, ?_⟩
  rw [slot_execAll (collectionCfName_ne_sequence c).symm calls h.wellFormed, hslot, SlotOp.runAll_append]

theorem Sound.apply (h : Sound log r) (count : Nat) : Sound log (r.apply log count) where
  position_le := Nat.le_max_right _ _
  reached_le := Nat.max_le.2 ⟨h.reached_le,
    r.position_add_batch_le log count (h.position_le.trans h.reached_le)⟩
  reported := by
    show (r.machine.apply (r.batch log count)).2.lastAppliedLog =
      (log.take (r.position + (r.batch log count).length)).getLast?.map Entry.logId
    rw [r.take_batch, DbStateMachine.lastAppliedLog_apply, h.reported, List.getLast?_append,
      Option.map_or]
  wellFormed := by
    show WellFormed (r.machine.apply (r.batch log count)).2.storage
    rw [DbStateMachine.storage_apply]
    exact h.wellFormed.execAll _
  documents := by
    show (r.machine.apply (r.batch log count)).2.storage.db.slot cfDocuments = _
    rw [DbStateMachine.storage_apply, slot_documents h.wellFormed, h.documents]
  slots c := by
    obtain ⟨m, hm, hslot⟩ := h.slot_calls c ((r.batch log count).flatMap Entry.storageCalls)
    refine ⟨m, hm.mono (entryOps_take_subset c log (Nat.le_max_left _ _)), ?_⟩
    show (r.machine.apply (r.batch log count)).2.storage.db.slot (collectionCfName c) =
      SlotOp.runAll m (entryOps c (log.take (r.position + (r.batch log count).length)))
    rw [r.take_batch, entryOps_append, DbStateMachine.storage_apply]
    exact hslot

omit [IndexBackend ι] in
/-- What the interrupted batch has left becomes the older slot of the next pass. -/
theorem Sound.crash (h : Sound log r) (count calls : Nat) (index : ι) :
    Sound log (r.crash log count calls index) where
  position_le := Nat.zero_le _
  reached_le := Nat.max_le.2 ⟨h.reached_le,
    r.position_add_batch_le log count (h.position_le.trans h.reached_le)⟩
  reported := rfl
  wellFormed := h.wellFormed.execAll _
  documents := by
    show (StorageCall.execAll r.machine.storage _).db.slot cfDocuments = _
    rw [slot_documents_take h.wellFormed, h.documents]
  slots c := by
    obtain ⟨m, hm, hslot⟩ := h.slot_calls c (((r.batch log count).flatMap Entry.storageCalls).take calls)
    refine ⟨_, ?_, rfl⟩
    show SlotOp.Absorbs _ ((StorageCall.execAll r.machine.storage _).db.slot (collectionCfName c))
    rw [hslot]
    apply (hm.mono (entryOps_take_subset c log (Nat.le_max_left _ _))).runAll
    -- the operations executed since the start are operations of the furthest pass
    apply List.append_subset.2
    constructor
    · exact entryOps_take_subset c log (h.position_le.trans (Nat.le_max_left _ _))
    · apply List.Subset.trans _ (entryOps_take_subset c log (Nat.le_max_right _ _))
      rw [r.take_batch, entryOps_append]
      apply List.Subset.trans _ (List.subset_append_right _ _)
      intro op hop
      obtain ⟨call, hcall, hop⟩ := List.mem_flatMap.1 hop
      exact List.mem_flatMap.2 ⟨call, List.mem_of_mem_take hcall, hop⟩

/-- **Step.** Every replica stays sound. -/
theorem Cluster.sound_step (c : Cluster ν ι) (event : ClusterEvent ν ι)
    (h : ∀ node, Sound c.log (c.replicas node)) :
    ∀ node, Sound (c.step event).log ((c.step event).replicas node) := by
  intro node
  cases event with
  | commit entry => exact (h node).commit entry
  | apply other count =>
      by_cases heq : node = other
      · subst heq
        have hself : (c.step (.apply node count)).replicas node = (c.replicas node).apply c.log count :=
          Function.update_self node _ c.replicas
        rw [hself]
        exact (h node).apply count
      · have hother : (c.step (.apply other count)).replicas node = c.replicas node :=
          Function.update_of_ne heq _ _
        rw [hother]
        exact h node
  | crash other count calls index =>
      by_cases heq : node = other
      · subst heq
        have hself : (c.step (.crash node count calls index)).replicas node =
            (c.replicas node).crash c.log count calls index :=
          Function.update_self node _ c.replicas
        rw [hself]
        exact (h node).crash count calls index
      · have hother : (c.step (.crash other count calls index)).replicas node = c.replicas node :=
          Function.update_of_ne heq _ _
        rw [hother]
        exact h node

/-- **Run.** -/
theorem Cluster.sound_run (index : ν → ι) (events : List (ClusterEvent ν ι)) :
    ∀ node, Sound (events.foldl Cluster.step (Cluster.start index)).log
      ((events.foldl Cluster.step (Cluster.start index)).replicas node) :=
  (along_true events (Cluster.start index)).invariant
    (I := fun c : Cluster ν ι => ∀ node, Sound c.log (c.replicas node))
    (fun c event h _ => c.sound_step event h) (fun node => Sound.start (index node))

/-! ## Agreement -/

omit [IndexBackend ι] in
/-- A caught up replica no longer shows what its earlier passes left. -/
theorem Sound.slot_eq (h : Sound log r) (hcreated : CreatedFirst (commandsOf log))
    (hcaught : r.reached ≤ r.position) (c : String) :
    r.machine.storage.db.slot (collectionCfName c) =
      SlotOp.runAll none (entryOps c (log.take r.position)) := by
  obtain ⟨m, hm, hslot⟩ := h.slots c
  rw [Nat.le_antisymm hcaught h.position_le] at hm
  rw [hslot]
  apply SlotOp.runAll_eq_of_absorbs hm
  rw [entryOps_eq]
  intro hmem
  apply covered_opsOf
  · -- a collection whose name RocksDB refuses is never created
    intro hc
    exact create_not_mem_opsOf hc _ hmem
  · have hlog : commandsOf log = commandsOf (log.take r.position) ++ commandsOf (log.drop r.position) := by
      rw [← commandsOf_append, List.take_append_drop]
    rw [hlog] at hcreated
    exact hcreated.of_append

/-- One pass without interruption. -/
theorem slot_pass (c : String) (entries : List Entry) :
    ((DbStateMachine.new fresh ()).apply entries).2.storage.db.slot (collectionCfName c) =
      SlotOp.runAll none (entryOps c entries) := by
  have hnew : fresh.db.slot (collectionCfName c) = none := slot_collection_of_new (new_none {}) c
  have hwf : WellFormed fresh := wellFormed_of_new (new_none {})
  rw [DbStateMachine.storage_apply]
  show (StorageCall.execAll fresh _).db.slot (collectionCfName c) = _
  rw [slot_execAll (collectionCfName_ne_sequence c).symm _ hwf, hnew]
  rfl

/-- **Crashes do not show.** In every run of a cluster whose log creates collections before
it writes to them, a replica that has caught up with its furthest pass holds the collections
and the documents of one uninterrupted pass over the entries it reports as applied, and so
do any two such replicas at the same position. -/
theorem replicas_agree (index : ν → ι) (events : List (ClusterEvent ν ι))
    (hcreated : CreatedFirst (commandsOf (events.foldl Cluster.step (Cluster.start index)).log))
    (node node' : ν) :
    let c := events.foldl Cluster.step (Cluster.start index)
    (c.replicas node).reached ≤ (c.replicas node).position →
    SameContents (c.replicas node).machine.storage
        ((DbStateMachine.new fresh ()).apply (c.log.take (c.replicas node).position)).2.storage ∧
      (c.replicas node).machine.lastAppliedLog =
        (c.log.take (c.replicas node).position).getLast?.map Entry.logId ∧
      ((c.replicas node').reached ≤ (c.replicas node').position →
        (c.replicas node').position = (c.replicas node).position →
        SameContents (c.replicas node').machine.storage (c.replicas node).machine.storage) := by
  intro c hcaught
  have hsound := Cluster.sound_run index events
  refine ⟨?_, (hsound node).reported, ?_⟩
  · apply sameContents_of_slot_eq
    · intro col
      rw [slot_pass]
      exact (hsound node).slot_eq hcreated hcaught col
    · rw [DbStateMachine.storage_apply]
      exact (hsound node).documents.trans (slot_documents (wellFormed_of_new (new_none {})) _).symm
  · intro hcaught' hposition
    apply sameContents_of_slot_eq
    · intro col
      rw [(hsound node').slot_eq hcreated hcaught' col, (hsound node).slot_eq hcreated hcaught col]
      exact congrArg (fun n => SlotOp.runAll none (entryOps col (c.log.take n))) hposition
    · exact (hsound node').documents.trans (hsound node).documents.symm

end Steps

/-- The log is committed; one node applies it in one batch, the other dies after the
creation and starts again, one entry at a time. -/
def crashAfterCreation : List (ClusterEvent Bool Unit) :=
  (createAndInsert.map .commit) ++
    [.apply true 2, .crash false 2 1 (), .apply false 1, .apply false 1]

/-- Agreement of these two nodes. -/
theorem replicas_agree_crashAfterCreation :
    let c := crashAfterCreation.foldl Cluster.step (Cluster.start fun _ => ())
    SameContents (c.replicas false).machine.storage
        ((DbStateMachine.new fresh ()).apply (c.log.take (c.replicas false).position)).2.storage ∧
      (c.replicas false).machine.lastAppliedLog =
        (c.log.take (c.replicas false).position).getLast?.map Entry.logId ∧
      SameContents (c.replicas true).machine.storage (c.replicas false).machine.storage := by
  obtain ⟨hpass, hreported, hagree⟩ :=
    replicas_agree (fun _ => ()) crashAfterCreation createdFirst_createAndInsert false true
      (Nat.le_refl 2)
  exact ⟨hpass, hreported, hagree (Nat.le_refl 2) rfl⟩

end MSearchDB.Consensus
