import MSearchDB.Lib.Extremum
import MSearchDB.Core.Traits
import MSearchDB.Node.Gossip

/-!
# Read repair by sequence numbers

`ReadRepairCoordinator::compare_replicas` and `ClusterManager::read_repair` of
`crates/node/src/cluster_manager.rs`. A read that found different versions of a document
returns the latest one and repairs the replicas that are behind; a replica is repaired
when it is the local one, by a write to the local storage.

The document that is returned is chosen in one of two ways, by the greatest version or,
where all versions agree, by its place. It is of the greatest version in both
(`readRepair_spec`). What can still go wrong is the write itself, and then its error is
what the read returns.
-/

set_option autoImplicit false

namespace MSearchDB.Node

open MSearchDB.Lib
open MSearchDB.Core

/-- `ReadRepairCoordinator`. -/
structure ReadRepairCoordinator where
  replicationFactor : UInt8

/-- `ReplicaComparison`. -/
structure ReplicaComparison where
  latest : Document
  latestVersion : UInt64
  staleNodes : List NodeId
  deriving DecidableEq

/-- A replica's answer: the node, its document and the version of the document. -/
abbrev Replica := NodeId × Document × UInt64

/-- The greatest version, as the iterator's `max().unwrap_or(0)` computes it. -/
def maxVersion (replicas : List Replica) : UInt64 := ((replicas.map fun r => r.2.2).max?).getD 0

/-- `compare_replicas`. The last branch is the `unwrap` of a search that succeeds. -/
def ReadRepairCoordinator.compareReplicas (_ : ReadRepairCoordinator) (replicas : List Replica) :
    Option ReplicaComparison :=
  if replicas.isEmpty then none
  else
    let max := maxVersion replicas
    let staleNodes := (replicas.filter fun r => r.2.2 < max).map Prod.fst
    if staleNodes.isEmpty then none
    else
      match replicas.find? fun r => r.2.2 = max with
      | some r => some ⟨r.2.1, max, staleNodes⟩
      | none => none

section Manager

variable {σ : Type} [StorageBackend σ]

/-- The loop over the stale nodes: only the local one is written. -/
def repairStale (localNode : NodeId) (latest : Document) : σ → List NodeId → DbResult Unit × σ
  | storage, [] => (.ok (), storage)
  | storage, staleNode :: rest =>
      if staleNode = localNode then
        match StorageBackend.put storage latest with
        | (.ok (), storage) => repairStale localNode latest storage rest
        | (.error e, storage) => (.error e, storage)
      else repairStale localNode latest storage rest

/-- `ClusterManager::read_repair` on the node `localNode`. -/
def readRepair (coordinator : ReadRepairCoordinator) (localNode : NodeId) (storage : σ)
    (docId : DocumentId) (replicas : List Replica) : DbResult Document × σ :=
  match coordinator.compareReplicas replicas with
  | some comparison =>
      match repairStale localNode comparison.latest storage comparison.staleNodes with
      | (.ok (), storage) => (.ok comparison.latest, storage)
      | (.error e, storage) => (.error e, storage)
  | none =>
      match replicas.head? with
      | some r => (.ok r.2.1, storage)
      | none => (.error (.notFound ("no replicas for document '" ++ docId.val ++ "'")), storage)

end Manager

/-! ## What a repair is to do -/

/-- A replica of the greatest version. -/
def IsLatest (replicas : List Replica) (r : Replica) : Prop := r ∈ replicas ∧ ∀ r' ∈ replicas, r'.2.2 ≤ r.2.2

/-- The node answered with a version below the greatest. -/
def Behind (replicas : List Replica) (id : NodeId) : Prop :=
  ∃ r ∈ replicas, r.1 = id ∧ ∃ r' ∈ replicas, r.2.2 < r'.2.2

/-- How many answers of the node are below the greatest version. -/
def timesBehind (replicas : List Replica) (id : NodeId) : Nat :=
  replicas.countP fun r => r.1 = id ∧ ∃ r' ∈ replicas, r.2.2 < r'.2.2

theorem timesBehind_pos_iff {replicas : List Replica} {id : NodeId} :
    0 < timesBehind replicas id ↔ Behind replicas id := by
  rw [timesBehind, List.countP_pos_iff]
  simp only [decide_eq_true_eq]
  exact Iff.rfl

section Writes

variable {σ : Type} [StorageBackend σ]

/-- The document is written so many times, or up to the first write that fails. -/
def putTimes (doc : Document) : Nat → σ → DbResult Unit × σ
  | 0, storage => (.ok (), storage)
  | n + 1, storage =>
      match StorageBackend.put storage doc with
      | (.ok (), storage) => putTimes doc n storage
      | (.error e, storage) => (.error e, storage)

/-- The loop writes once for each time it meets the local node. -/
theorem repairStale_eq (localNode : NodeId) (latest : Document) (staleNodes : List NodeId) :
    ∀ storage : σ, repairStale localNode latest storage staleNodes =
      putTimes latest (staleNodes.count localNode) storage := by
  induction staleNodes with
  | nil => exact fun _ => rfl
  | cons staleNode rest ih =>
      intro storage
      rw [repairStale]
      -- a stale replica on another node is passed over
      by_cases hlocal : staleNode = localNode
      · subst hlocal
        rw [if_pos rfl, List.count_cons_self, putTimes]
        rcases StorageBackend.put storage latest with ⟨e | u, storage'⟩
        · rfl
        · exact ih storage'
      · rw [if_neg hlocal, List.count_cons_of_ne hlocal]
        exact ih storage

end Writes

section Compare

variable {replicas : List Replica}

theorem maxVersion_spec (h : replicas ≠ []) :
    (∃ r ∈ replicas, r.2.2 = maxVersion replicas) ∧ ∀ r ∈ replicas, r.2.2 ≤ maxVersion replicas := by
  obtain ⟨r, rest, rfl⟩ := List.exists_cons_of_ne_nil h
  -- the maximum of the iterator is a loop that starts with the first version
  obtain ⟨hfirst, hrest, hone⟩ :=
    foldl_max (fun v : UInt64 => v) (g := fun v => v) (fun _ _ => rfl) (rest.map fun r => r.2.2) r.2.2
  refine ⟨?_, fun r' hr' => ?_⟩
  · rcases hone with hone | ⟨v, hv, hone⟩
    · exact ⟨r, List.mem_cons_self, hone.symm⟩
    · obtain ⟨r', hr', rfl⟩ := List.mem_map.1 hv
      exact ⟨r', List.mem_cons_of_mem _ hr', hone.symm⟩
  · rcases List.mem_cons.1 hr' with rfl | hr'
    · exact hfirst
    · exact hrest _ (List.mem_map_of_mem hr')

theorem lt_maxVersion_iff {r : Replica} (hr : r ∈ replicas) :
    r.2.2 < maxVersion replicas ↔ ∃ r' ∈ replicas, r.2.2 < r'.2.2 := by
  obtain ⟨⟨top, htop, hmax⟩, hle⟩ := maxVersion_spec (List.ne_nil_of_mem hr)
  constructor
  · intro hlt
    exact ⟨top, htop, hmax ▸ hlt⟩
  · rintro ⟨r', hr', hlt⟩
    exact lt_of_lt_of_le hlt (hle r' hr')

theorem mem_stale_iff (id : NodeId) :
    id ∈ (replicas.filter fun r => r.2.2 < maxVersion replicas).map Prod.fst ↔ Behind replicas id := by
  rw [List.mem_map]
  constructor
  · rintro ⟨r, hr, rfl⟩
    obtain ⟨hmem, hlt⟩ := List.mem_filter.1 hr
    exact ⟨r, hmem, rfl, (lt_maxVersion_iff hmem).1 (of_decide_eq_true hlt)⟩
  · rintro ⟨r, hmem, rfl, hbehind⟩
    exact ⟨r, List.mem_filter.2 ⟨hmem, decide_eq_true ((lt_maxVersion_iff hmem).2 hbehind)⟩, rfl⟩

/-- The stale nodes have a node as often as it is behind. -/
theorem count_stale (replicas : List Replica) (id : NodeId) :
    ((replicas.filter fun r => r.2.2 < maxVersion replicas).map Prod.fst).count id = timesBehind replicas id := by
  rw [List.count, List.countP_map, List.countP_filter, timesBehind]
  refine List.countP_congr fun r hr => ?_
  simp [lt_maxVersion_iff hr]

theorem compareReplicas_of_none_behind (c : ReadRepairCoordinator) (h : ∀ id, ¬ Behind replicas id) :
    c.compareReplicas replicas = none := by
  have hstale : (replicas.filter fun r => r.2.2 < maxVersion replicas).map Prod.fst = [] :=
    List.eq_nil_iff_forall_not_mem.2 fun id hid => h id ((mem_stale_iff id).1 hid)
  rw [ReadRepairCoordinator.compareReplicas]
  split
  · rfl
  · simp only [hstale]
    rfl

theorem compareReplicas_of_behind (c : ReadRepairCoordinator) {id : NodeId} (h : Behind replicas id) :
    ∃ r, IsLatest replicas r ∧ c.compareReplicas replicas = some ⟨r.2.1, maxVersion replicas,
      (replicas.filter fun r => r.2.2 < maxVersion replicas).map Prod.fst⟩ := by
  have hne : replicas ≠ [] := by
    obtain ⟨r, hr, -⟩ := h
    exact List.ne_nil_of_mem hr
  have hstale : (replicas.filter fun r => r.2.2 < maxVersion replicas).map Prod.fst ≠ [] :=
    List.ne_nil_of_mem ((mem_stale_iff id).2 h)
  obtain ⟨⟨top, htop, hmax⟩, hle⟩ := maxVersion_spec hne
  -- the search for the greatest version ends at a replica that has it
  obtain ⟨r, hfind⟩ : ∃ r, replicas.find? (fun r => r.2.2 = maxVersion replicas) = some r :=
    Option.isSome_iff_exists.1 (List.find?_isSome.2 ⟨top, htop, decide_eq_true hmax⟩)
  have hr : r.2.2 = maxVersion replicas := by simpa using List.find?_some hfind
  refine ⟨r, ⟨List.mem_of_find?_eq_some hfind, fun r' hr' => hr ▸ hle r' hr'⟩, ?_⟩
  rw [ReadRepairCoordinator.compareReplicas, if_neg (by simpa using hne)]
  simp only [hfind]
  rw [if_neg (by simpa using hstale)]

end Compare

/-- Where no replica is behind, all of them are the latest. -/
theorem isLatest_of_none_behind {replicas : List Replica} (h : ∀ id, ¬ Behind replicas id) {r : Replica}
    (hr : r ∈ replicas) : IsLatest replicas r :=
  ⟨hr, fun r' hr' => not_lt.1 fun hlt => h r.1 ⟨r, hr, rfl, r', hr', hlt⟩⟩

/-- **Read repair returns the latest document.** Without replicas it is `NotFound`;
otherwise it is a document of the greatest version, unless a write to the local storage
fails, whose error it is then. The document is written once for every answer of the local
node that is behind, and the comparison lists the nodes that are. -/
theorem readRepair_spec {σ : Type} [StorageBackend σ] (c : ReadRepairCoordinator) (localNode : NodeId)
    (storage : σ) (docId : DocumentId) (replicas : List Replica) :
    (replicas = [] → readRepair c localNode storage docId replicas =
        (.error (.notFound ("no replicas for document '" ++ docId.val ++ "'")), storage)) ∧
      (replicas ≠ [] → ∃ r, IsLatest replicas r ∧
        let repaired := putTimes r.2.1 (timesBehind replicas localNode) storage
        readRepair c localNode storage docId replicas = (repaired.1.map fun _ => r.2.1, repaired.2)) ∧
      (0 < timesBehind replicas localNode ↔ Behind replicas localNode) ∧
      (c.compareReplicas replicas = none ↔ ∀ id, ¬ Behind replicas id) ∧
      ∀ comparison, c.compareReplicas replicas = some comparison →
        ∀ id, id ∈ comparison.staleNodes ↔ Behind replicas id := by
  by_cases hbehind : ∃ id, Behind replicas id
  · obtain ⟨id, hid⟩ := hbehind
    obtain ⟨r, hlatest, hcompare⟩ := compareReplicas_of_behind c hid
    refine ⟨fun hnil => ?_, fun _ => ?_, timesBehind_pos_iff, ?_, fun comparison hsome id => ?_⟩
    · rw [hnil] at hlatest
      exact absurd hlatest.1 List.not_mem_nil
    · refine ⟨r, hlatest, ?_⟩
      rw [readRepair, hcompare]
      simp only [repairStale_eq, count_stale]
      rcases putTimes r.2.1 _ storage with ⟨e | u, storage'⟩
      · rfl
      · rfl
    · exact iff_of_false (by simp [hcompare]) fun hnone => hnone id hid
    · rw [hcompare] at hsome
      obtain rfl := Option.some.inj hsome
      exact mem_stale_iff id
  · -- all versions agree, and the first replica is as good as any
    have hnone : ∀ id, ¬ Behind replicas id := not_exists.1 hbehind
    have hcompare := compareReplicas_of_none_behind c hnone
    have hzero : timesBehind replicas localNode = 0 :=
      Nat.eq_zero_of_not_pos fun hpos => hnone localNode (timesBehind_pos_iff.1 hpos)
    refine ⟨fun hnil => ?_, fun hne => ?_, timesBehind_pos_iff, iff_of_true hcompare hnone,
      fun comparison hsome id => ?_⟩
    · rw [readRepair, hcompare, hnil]
      rfl
    · obtain ⟨r, rest, rfl⟩ := List.exists_cons_of_ne_nil hne
      refine ⟨r, isLatest_of_none_behind hnone List.mem_cons_self, ?_⟩
      rw [readRepair, hcompare, hzero]
      rfl
    · rw [hcompare] at hsome
      cases hsome

/-- A storage that cannot write. -/
structure FullDisk where

instance : StorageBackend FullDisk where
  get _ id := .error (.notFound ("document '" ++ id.val ++ "' not found"))
  put s _ := (.error (.storageError "IO error: No space left on device"), s)
  delete s id := (.error (.notFound ("document '" ++ id.val ++ "' not found")), s)
  scan _ _ _ := .ok []

/-- The local node is behind and cannot be repaired: the read fails although a replica
has the document. -/
theorem readRepair_full_disk :
    let replicas : List Replica := [(1, .new ⟨"doc-1"⟩, 10), (2, .new ⟨"doc-1"⟩, 5)]
    (readRepair ⟨3⟩ 2 FullDisk.mk ⟨"doc-1"⟩ replicas).1 =
        .error (.storageError "IO error: No space left on device") ∧
      ¬ ∃ r, IsLatest replicas r ∧ (readRepair ⟨3⟩ 2 FullDisk.mk ⟨"doc-1"⟩ replicas).1 = .ok r.2.1 := by
  intro replicas
  have herror : (readRepair ⟨3⟩ 2 FullDisk.mk ⟨"doc-1"⟩ replicas).1 =
      .error (.storageError "IO error: No space left on device") := rfl
  refine ⟨herror, ?_⟩
  rintro ⟨r, -, hok⟩
  rw [herror] at hok
  cases hok

end MSearchDB.Node
