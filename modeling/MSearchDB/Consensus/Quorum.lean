import Mathlib.Tactic
import Mathlib.Data.List.Dedup

/-!
# Quorums and the health of the cluster

`QuorumTracker` and `ClusterHealthChecker` of `crates/consensus/src/quorum.rs`. The checker
has one entry for each node that it has been told of, with what it was told last
(`tracks_run`), so that the entries that are online are the nodes last set online
(`length_online_run`).

Their number is narrowed to a `u8`. A write is allowed exactly when a quorum is online
as long as fewer than 256 nodes are; from there on the remainder has to be a quorum
(`canWrite_run_iff`).
-/

set_option autoImplicit false

namespace MSearchDB.Consensus

/-! ## The model -/

/-- `QuorumTracker::quorum_size`. -/
def quorumSize (replicationFactor : UInt8) : UInt8 := replicationFactor / 2 + 1

/-- `QuorumTracker::is_committed`. -/
def isCommitted (replicationFactor acks : UInt8) : Bool :=
  if replicationFactor = 0 then false else quorumSize replicationFactor ≤ acks

/-- `NodeLiveness`. -/
structure NodeLiveness where
  nodeId : UInt64
  online : Bool
  deriving DecidableEq, Repr

/-- `ClusterHealthChecker`. -/
structure ClusterHealthChecker where
  replicationFactor : UInt8
  nodes : List NodeLiveness
  deriving DecidableEq, Repr

namespace ClusterHealthChecker

/-- `ClusterHealthChecker::new`. -/
def new (replicationFactor : UInt8) : ClusterHealthChecker := ⟨replicationFactor, []⟩

/-- The first entry of the node is changed, or one is added at the end. -/
def setFirst (nodeId : UInt64) (online : Bool) : List NodeLiveness → List NodeLiveness
  | [] => [⟨nodeId, online⟩]
  | n :: nodes => if n.nodeId = nodeId then { n with online := online } :: nodes else n :: setFirst nodeId online nodes

/-- `ClusterHealthChecker::set_online`. -/
def setOnline (c : ClusterHealthChecker) (nodeId : UInt64) (online : Bool) : ClusterHealthChecker :=
  { c with nodes := setFirst nodeId online c.nodes }

/-- `ClusterHealthChecker::count_online_nodes`. -/
def countOnlineNodes (c : ClusterHealthChecker) : UInt8 :=
  (c.nodes.filter NodeLiveness.online).length.toUInt8

/-- `ClusterHealthChecker::can_write`. -/
def canWrite (c : ClusterHealthChecker) : Bool := isCommitted c.replicationFactor c.countOnlineNodes

/-- `ClusterHealthChecker::can_read`. -/
def canRead (c : ClusterHealthChecker) : Bool := 1 ≤ c.countOnlineNodes

/-- A new checker after a sequence of calls of `set_online`. -/
def run (replicationFactor : UInt8) (calls : List (UInt64 × Bool)) : ClusterHealthChecker :=
  calls.foldl (fun c call => c.setOnline call.1 call.2) (new replicationFactor)

end ClusterHealthChecker

/-- What a node was last set to. -/
def lastSet (calls : List (UInt64 × Bool)) (nodeId : UInt64) : Option Bool :=
  (calls.reverse.find? fun call => call.1 = nodeId).map Prod.snd

/-- The nodes that were last set online, each once. -/
def onlineIds (calls : List (UInt64 × Bool)) : List UInt64 :=
  (calls.map Prod.fst).dedup.filter fun nodeId => lastSet calls nodeId = some true

/-! ## The entries -/

namespace ClusterHealthChecker

section Entries

variable {nodes : List NodeLiveness} {nodeId : UInt64} {online : Bool}

theorem map_nodeId_setFirst :
    (setFirst nodeId online nodes).map NodeLiveness.nodeId =
      if nodeId ∈ nodes.map NodeLiveness.nodeId then nodes.map NodeLiveness.nodeId
      else nodes.map NodeLiveness.nodeId ++ [nodeId] := by
  induction nodes with
  | nil => rfl
  | cons n nodes ih =>
      rw [setFirst]
      by_cases hid : n.nodeId = nodeId
      · rw [if_pos hid, if_pos (by simp [hid])]
        rfl
      · rw [if_neg hid, List.map_cons, ih]
        have hmem : nodeId ∈ (n :: nodes).map NodeLiveness.nodeId ↔ nodeId ∈ nodes.map NodeLiveness.nodeId := by
          rw [List.map_cons, List.mem_cons]
          exact or_iff_right fun heq => hid heq.symm
        by_cases hrest : nodeId ∈ nodes.map NodeLiveness.nodeId
        · rw [if_pos hrest, if_pos (hmem.2 hrest), List.map_cons]
        · rw [if_neg hrest, if_neg (mt hmem.1 hrest), List.map_cons, List.cons_append]

theorem nodup_setFirst (h : (nodes.map NodeLiveness.nodeId).Nodup) :
    ((setFirst nodeId online nodes).map NodeLiveness.nodeId).Nodup := by
  rw [map_nodeId_setFirst]
  split
  · exact h
  next hnot =>
    rw [← List.concat_eq_append]
    exact h.concat hnot

/-- The node has what it was set to, and the others have what they had. -/
theorem mem_setFirst (h : (nodes.map NodeLiveness.nodeId).Nodup) (n : NodeLiveness) :
    n ∈ setFirst nodeId online nodes ↔
      n = ⟨nodeId, online⟩ ∨ n.nodeId ≠ nodeId ∧ n ∈ nodes := by
  induction nodes with
  | nil => simp [setFirst]
  | cons m nodes ih =>
      rw [List.map_cons, List.nodup_cons] at h
      obtain ⟨hm, hnodes⟩ := h
      rw [setFirst]
      by_cases hid : m.nodeId = nodeId
      · -- no entry behind the first one is of the node
        have hothers : n ∈ nodes → n.nodeId ≠ nodeId := by
          rintro hn rfl
          exact hm (hid ▸ List.mem_map_of_mem hn)
        rw [if_pos hid, List.mem_cons, List.mem_cons, hid]
        constructor
        · rintro (rfl | hn)
          · exact .inl rfl
          · exact .inr ⟨hothers hn, .inr hn⟩
        · rintro (rfl | ⟨hne, rfl | hn⟩)
          · exact .inl rfl
          · exact absurd hid hne
          · exact .inr hn
      · rw [if_neg hid, List.mem_cons, List.mem_cons, ih hnodes]
        constructor
        · rintro (rfl | hn | ⟨hne, hn⟩)
          · exact .inr ⟨hid, .inl rfl⟩
          · exact .inl hn
          · exact .inr ⟨hne, .inr hn⟩
        · rintro (hn | ⟨hne, rfl | hn⟩)
          · exact .inr (.inl hn)
          · exact .inl rfl
          · exact .inr (.inr ⟨hne, hn⟩)

end Entries

/-- One entry for each node of the calls, with what the node was last set to. -/
structure Tracks (calls : List (UInt64 × Bool)) (c : ClusterHealthChecker) : Prop where
  nodup : (c.nodes.map NodeLiveness.nodeId).Nodup
  mem_iff : ∀ nodeId online, ⟨nodeId, online⟩ ∈ c.nodes ↔ lastSet calls nodeId = some online

theorem lastSet_concat (calls : List (UInt64 × Bool)) (call : UInt64 × Bool) (nodeId : UInt64) :
    lastSet (calls ++ [call]) nodeId = if call.1 = nodeId then some call.2 else lastSet calls nodeId := by
  rw [lastSet, List.reverse_concat, List.find?_cons]
  split
  next h => rw [if_pos (of_decide_eq_true h)]; rfl
  next h => rw [if_neg (of_decide_eq_false h), lastSet]

/-- **One call.** -/
theorem Tracks.setOnline {calls : List (UInt64 × Bool)} {c : ClusterHealthChecker} (h : c.Tracks calls)
    (call : UInt64 × Bool) : (c.setOnline call.1 call.2).Tracks (calls ++ [call]) where
  nodup := nodup_setFirst h.nodup
  mem_iff nodeId online := by
    rw [ClusterHealthChecker.setOnline, mem_setFirst h.nodup, lastSet_concat, h.mem_iff]
    by_cases hid : call.1 = nodeId
    · simp [hid, eq_comm]
    · simp [hid, Ne.symm hid]

/-- **All calls.** -/
theorem tracks_run (replicationFactor : UInt8) (calls : List (UInt64 × Bool)) :
    (run replicationFactor calls).Tracks calls := by
  induction calls using List.reverseRecOn with
  | nil => exact ⟨List.nodup_nil, fun nodeId online => by simp [run, new, lastSet]⟩
  | append_singleton calls call ih =>
      rw [run, List.foldl_append]
      exact ih.setOnline call

theorem replicationFactor_run (replicationFactor : UInt8) (calls : List (UInt64 × Bool)) :
    (run replicationFactor calls).replicationFactor = replicationFactor := by
  induction calls using List.reverseRecOn with
  | nil => rfl
  | append_singleton calls call ih =>
      rw [run, List.foldl_append]
      exact ih

theorem mem_onlineIds {calls : List (UInt64 × Bool)} {nodeId : UInt64} :
    nodeId ∈ onlineIds calls ↔ lastSet calls nodeId = some true := by
  rw [onlineIds, List.mem_filter, List.mem_dedup, decide_eq_true_iff]
  refine and_iff_right_of_imp fun h => ?_
  obtain ⟨call, hfind, -⟩ := Option.map_eq_some_iff.1 h
  have hid : call.1 = nodeId := by simpa using List.find?_some hfind
  exact List.mem_map.2 ⟨call, List.mem_reverse.1 (List.mem_of_find?_eq_some hfind), hid⟩

/-- The entries that are online are the nodes that were last set online. -/
theorem length_online_run (replicationFactor : UInt8) (calls : List (UInt64 × Bool)) :
    ((run replicationFactor calls).nodes.filter NodeLiveness.online).length = (onlineIds calls).length := by
  have htracks := tracks_run replicationFactor calls
  rw [← List.length_map NodeLiveness.nodeId]
  have honline : (onlineIds calls).Nodup := (List.nodup_dedup _).filter _
  refine List.Perm.length_eq ((List.perm_ext_iff_of_nodup ?_ honline).2 fun nodeId => ?_)
  · exact htracks.nodup.sublist (List.filter_sublist.map _)
  · rw [mem_onlineIds, ← htracks.mem_iff, List.mem_map]
    constructor
    · rintro ⟨⟨id, online⟩, hmem, rfl⟩
      obtain ⟨hmem, rfl⟩ := List.mem_filter.1 hmem
      exact hmem
    · exact fun hmem => ⟨_, List.mem_filter.2 ⟨hmem, rfl⟩, rfl⟩

/-! ## Writing and reading -/

theorem toNat_countOnlineNodes_run (replicationFactor : UInt8) (calls : List (UInt64 × Bool)) :
    (run replicationFactor calls).countOnlineNodes.toNat = (onlineIds calls).length % 256 := by
  rw [countOnlineNodes, length_online_run]
  exact UInt8.toNat_ofNat'

theorem toNat_quorumSize (replicationFactor : UInt8) :
    (quorumSize replicationFactor).toNat = replicationFactor.toNat / 2 + 1 := by
  have hlt := replicationFactor.toNat_lt
  have htwo : (2 : UInt8).toNat = 2 := rfl
  have hone : (1 : UInt8).toNat = 1 := rfl
  rw [quorumSize, UInt8.toNat_add, UInt8.toNat_div, htwo, hone]
  omega

/-- **Write availability.** The checker allows writes exactly when a quorum of nodes is
online, and reads when one is, if and only if fewer than 256 nodes are online or the
number of online nodes leaves a quorum when it is divided by 256. -/
theorem canWrite_run_iff (replicationFactor : UInt8) (hrf : 1 ≤ replicationFactor) (calls : List (UInt64 × Bool)) :
    (((run replicationFactor calls).canWrite = true ↔ replicationFactor.toNat / 2 + 1 ≤ (onlineIds calls).length) ∧
        ((run replicationFactor calls).canRead = true ↔ 1 ≤ (onlineIds calls).length)) ↔
      (onlineIds calls).length < 256 ∨ replicationFactor.toNat / 2 + 1 ≤ (onlineIds calls).length % 256 := by
  have hlt := replicationFactor.toNat_lt
  have hne : replicationFactor ≠ 0 := by
    rintro rfl
    exact absurd hrf (by decide)
  have hwrite : (run replicationFactor calls).canWrite = true ↔
      replicationFactor.toNat / 2 + 1 ≤ (onlineIds calls).length % 256 := by
    rw [canWrite, replicationFactor_run, isCommitted, if_neg hne, decide_eq_true_iff, UInt8.le_iff_toNat_le,
      toNat_quorumSize, toNat_countOnlineNodes_run]
  have hread : (run replicationFactor calls).canRead = true ↔ 1 ≤ (onlineIds calls).length % 256 := by
    rw [canRead, decide_eq_true_iff, UInt8.le_iff_toNat_le, toNat_countOnlineNodes_run]
    rfl
  rw [hwrite, hread]
  omega

/-- Two nodes of three, one of them twice. -/
theorem canWrite_run_two :
    ((run 3 [(1, true), (2, false), (2, true)]).canWrite = true ↔
        (3 : UInt8).toNat / 2 + 1 ≤ (onlineIds [(1, true), (2, false), (2, true)]).length) ∧
      ((run 3 [(1, true), (2, false), (2, true)]).canRead = true ↔
        1 ≤ (onlineIds [(1, true), (2, false), (2, true)]).length) :=
  (canWrite_run_iff 3 (by decide) _).2 (.inl (by decide))

/-- As many nodes as a `u8` does not count, all set online. -/
def crowd : List (UInt64 × Bool) := ((List.range 256).map UInt64.ofNat).map fun nodeId => (nodeId, true)

theorem lastSet_allOnline {ids : List UInt64} {nodeId : UInt64} :
    lastSet (ids.map fun nodeId => (nodeId, true)) nodeId = some true ↔ nodeId ∈ ids := by
  induction ids using List.reverseRecOn with
  | nil => simp [lastSet]
  | append_singleton ids id ih =>
      rw [List.map_append, List.map_singleton, lastSet_concat, List.mem_append, List.mem_singleton]
      by_cases hid : id = nodeId
      · simp [hid]
      · simp [hid, Ne.symm hid, ih]

theorem length_onlineIds_crowd : (onlineIds crowd).length = 256 := by
  have hids : ((List.range 256).map UInt64.ofNat).Nodup := by
    refine List.nodup_range.map_on fun i hi j hj hij => ?_
    have hnat : i % 2 ^ 64 = j % 2 ^ 64 := congrArg UInt64.toNat hij
    rw [List.mem_range] at hi hj
    omega
  have honline : (onlineIds crowd).Nodup := (List.nodup_dedup _).filter _
  have hperm := (List.perm_ext_iff_of_nodup honline hids).2 fun nodeId => mem_onlineIds.trans lastSet_allOnline
  rw [hperm.length_eq, List.length_map, List.length_range]

/-- None of them is counted. -/
theorem not_canWrite_crowd :
    ¬ (((run 3 crowd).canWrite = true ↔ (3 : UInt8).toNat / 2 + 1 ≤ (onlineIds crowd).length) ∧
      ((run 3 crowd).canRead = true ↔ 1 ≤ (onlineIds crowd).length)) := by
  have hcount := length_onlineIds_crowd
  intro h
  have hread := h.2.2 (by omega)
  rw [canRead, decide_eq_true_iff, UInt8.le_iff_toNat_le, toNat_countOnlineNodes_run, hcount] at hread
  exact absurd hread (by decide)

end ClusterHealthChecker

end MSearchDB.Consensus
