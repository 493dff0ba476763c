import Mathlib.Data.Set.Card
import MSearchDB.Lib.Json
import MSearchDB.Lib.OrderedMap
import MSearchDB.Node.State
import MSearchDB.Node.FailureDetector

/-!
# What a node reports of its cluster

`GET /_cluster/health` and `GET /_nodes`, the handlers `cluster_health` and `list_nodes` of
`crates/node/src/handlers/cluster.rs`, over the health table of a `ClusterManager`.

Whether a node is tracked and whether it counts as active is read off the events about it
(`standing`): its trailing probes for a remote node, and the last of registration,
deregistration and departure for the local one. The two counts of a report are those of the
standings, except that none is below one, and the report follows the documented rule
(`documentedHealth`) except for one kind of table (`cluster_health_run`): where the only
tracked node is offline the handler counts it as active and reports green.
-/

set_option autoImplicit false

namespace MSearchDB.Node

open MSearchDB.Lib
open MSearchDB.Core
open Std (ExtTreeMap)

/-! ## The handler -/

/-- `CollectionHealthInfo`. -/
structure CollectionHealthInfo where
  docs : UInt64
  sizeBytes : UInt64
  deriving DecidableEq, Repr

/-- `ClusterHealthResponse`. -/
structure ClusterHealthResponse where
  status : String
  clusterName : String
  numberOfNodes : Nat
  activeNodes : Nat
  leaderNode : Option NodeId
  raftCommitIndex : Int
  replicationLag : List (String × Int)
  collections : ExtTreeMap String CollectionHealthInfo

/-- `health_snapshot`, in some order. -/
def ClusterManager.healthSnapshot (m : ClusterManager) : List NodeHealth := m.healthState.toList.map Prod.snd

/-- The health of a node that `cluster_health` counts as active. -/
def NodeHealth.isActive (h : NodeHealth) : Bool := h.status = .leader ∨ h.status = .follower

/-- `cluster_health`. -/
def clusterHealth (m : ClusterManager) (leaderId : Option NodeId) (commitIndex : Int)
    (registry : ExtTreeMap String CollectionMeta) : ClusterHealthResponse :=
  let numberOfNodes := max m.healthSnapshot.length 1
  let activeNodes := max (m.healthSnapshot.filter NodeHealth.isActive).length 1
  { status :=
      if leaderId.isNone then "red"
      else if activeNodes = numberOfNodes then "green"
      else if numberOfNodes / 2 < activeNodes then "yellow"
      else "red"
    clusterName := "msearchdb-cluster"
    numberOfNodes := numberOfNodes
    activeNodes := activeNodes
    leaderNode := leaderId
    raftCommitIndex := commitIndex
    replicationLag := []
    collections := registry.map fun _ info => ⟨info.docCount, 0⟩ }

/-- The `Display` of `NodeStatus`, which is also its name in JSON. -/
def statusName : NodeStatus → String
  | .leader => "Leader"
  | .follower => "Follower"
  | .candidate => "Candidate"
  | .offline => "Offline"

section Nodes

variable {φ : Type}

/-- The entry of a tracked node, seen `lastSeenMsAgo` milliseconds ago. -/
def nodeEntry (lastSeenMsAgo : Nat) (h : NodeHealth) : Json φ :=
  .object [("consecutive_failures", .int h.consecutiveFailures.toNat), ("id", .int h.nodeId.toNat),
    ("last_seen_ms_ago", .int lastSeenMsAgo),
    ("latency_ms", (h.latencyMs.map fun ms => Json.int ms.toNat).getD .null), ("status", .string (statusName h.status))]

/-- A `NodeInfo` at the address that is made up for the local node. -/
def localEntry (nodeId : NodeId) (status : NodeStatus) : Json φ :=
  .object [("address", .object [("host", .string "127.0.0.1"), ("port", .int 9200)]),
    ("id", .int nodeId.toNat), ("status", .string (statusName status))]

/-- `list_nodes`, for a health snapshot. -/
def listNodes (snapshot : List NodeHealth) (lastSeenMsAgo : NodeId → Nat) (nodeId : NodeId) (isLeader : Bool) :
    List (Json φ) :=
  if snapshot.isEmpty then [localEntry nodeId (if isLeader then .leader else .follower)]
  else snapshot.map fun h => nodeEntry (lastSeenMsAgo h.nodeId) h

end Nodes

/-! ## The documented rule -/

/-- Green, yellow and red as documented, from the nodes that are expected and those that are
active. -/
def documentedHealth (hasLeader : Bool) (nodes active : Nat) : String :=
  if !hasLeader then "red"
  else if nodes = active then "green"
  else if nodes / 2 < active then "yellow"
  else "red"

/-- The status that the handler computes from counts that are at least one. -/
theorem documentedHealth_max_iff {hasLeader : Bool} {nodes active : Nat} (hle : active ≤ nodes) :
    documentedHealth hasLeader (max nodes 1) (max active 1) = documentedHealth hasLeader nodes active ↔
      ¬ (hasLeader = true ∧ nodes = 1 ∧ active = 0) := by
  cases hasLeader with
  | false => simp [documentedHealth]
  | true =>
      rcases Nat.eq_zero_or_pos active with rfl | hactive
      · -- a cluster without active nodes
        rcases nodes with _ | _ | nodes
        · simp [documentedHealth]
        · simp [documentedHealth]
        · have hhalf : ¬ (nodes + 2) / 2 < 1 := by omega
          simp [documentedHealth, hhalf]
      · have hnodes : max nodes 1 = nodes := max_eq_left (hactive.trans_le hle)
        have hmax : max active 1 = active := max_eq_left hactive
        rw [hnodes, hmax]
        simp only [true_iff]
        rintro ⟨-, -, rfl⟩
        omega

/-! ## The standing of a node -/

/-- An event is added to what is known of the local node: whether it is tracked, and whether it
has not left. -/
def localStanding (id : NodeId) (s : Option Bool) : MonitorEvent → Option Bool
  | .probe _ _ _ => s
  | .registerNode node => if node.id = id then some true else s
  | .deregisterNode nodeId => if nodeId = id then none else s
  | .leaveCluster => s.map fun _ => false

/-- Nothing for a node that is not tracked, and otherwise whether it is active. -/
def standing (localNode : NodeInfo) (router : ClusterRouter) (events : List MonitorEvent) (id : NodeId) :
    Option Bool :=
  if id = localNode.id then events.foldl (localStanding id) (some true)
  else
    let r := events.foldl (NodeRecord.add id) (.start (router.nodes[id]?).isSome)
    r.probes.map fun probes => decide (trailing ProbeRecord.isFailure probes < 3)

/-- A probe is sent to a remote node. -/
def MonitorEvent.SentBy (localNode : NodeInfo) : MonitorEvent → Prop
  | .probe nodeId _ _ => nodeId ≠ localNode.id
  | _ => True

namespace ClusterMonitor

open ClusterManager

variable [Sha256]

/-- The local node in the health table. -/
structure LocalMatches (localNode : NodeInfo) (m : ClusterMonitor) (s : Option Bool) : Prop where
  isLocal : m.manager.localNode = localNode
  health : (m.manager.healthState[localNode.id]?).map NodeHealth.isActive = s

theorem LocalMatches.step {localNode : NodeInfo} {m : ClusterMonitor} {s : Option Bool}
    (h : LocalMatches localNode m s) {e : MonitorEvent} (he : e.SentBy localNode) :
    LocalMatches localNode (m.step e) (localStanding localNode.id s e) := by
  cases e with
  | probe nodeId reply now =>
      -- a probe writes the health of the node it is sent to
      have hne : nodeId ≠ localNode.id := he
      have hsame := sameAt_checkNode m.manager (fun _ => reply) hne
      refine ⟨(localNode_checkNode m.manager _ nodeId).trans h.isLocal, ?_⟩
      have hhealth : (m.step (.probe nodeId reply now)).manager.healthState[localNode.id]? =
        m.manager.healthState[localNode.id]? := hsame.health
      rw [hhealth]
      exact h.health
  | registerNode node =>
      refine ⟨(localNode_step m.manager (.registerNode node)).trans h.isLocal, ?_⟩
      show ((m.manager.healthState.insert node.id (NodeHealth.new node.id))[localNode.id]?).map _ = _
      simp only [ExtTreeMap.getElem?_insert, Std.compare_eq_iff_eq, localStanding]
      split
      · rfl
      · exact h.health
  | deregisterNode nodeId =>
      refine ⟨(localNode_step m.manager (.deregisterNode nodeId)).trans h.isLocal, ?_⟩
      show ((m.manager.healthState.erase nodeId)[localNode.id]?).map _ = _
      simp only [ExtTreeMap.getElem?_erase, Std.compare_eq_iff_eq, localStanding]
      split
      · rfl
      · exact h.health
  | leaveCluster =>
      have hstep : (m.step .leaveCluster).manager = leaveCluster m.manager := rfl
      obtain ⟨hlocal, hhealth⟩ := h
      constructor
      · rw [hstep, leaveCluster]
        split
        · exact hlocal
        · exact hlocal
      · rw [hstep, leaveCluster, hlocal, localStanding, ← hhealth]
        cases hold : m.manager.healthState[localNode.id]? with
        | none => simp [hold]
        | some health => simp [NodeHealth.isActive]

/-- **Every node stands as its events say.** -/
theorem standing_run (localNode : NodeInfo) (router : ClusterRouter) {events : List MonitorEvent}
    (hevents : ∀ e ∈ events, e.SentBy localNode) (id : NodeId) :
    ((events.foldl step (new localNode router)).manager.healthState[id]?).map NodeHealth.isActive =
      standing localNode router events id := by
  by_cases hid : id = localNode.id
  · subst hid
    rw [standing, if_pos rfl]
    have hstart : LocalMatches localNode (new localNode router) (some true) := by
      refine ⟨rfl, ?_⟩
      show (((∅ : ExtTreeMap NodeId NodeHealth).insert localNode.id (.new localNode.id))[localNode.id]?).map _ = _
      rw [ExtTreeMap.getElem?_insert_self]
      rfl
    exact (related_of_simulation (fun _ _ _ h he => h.step he) events hstart hevents).health
  · rw [standing, if_neg hid]
    have hmatch : Matches id (events.foldl step (new localNode router))
        (events.foldl (NodeRecord.add id) (.start (router.nodes[id]?).isSome)) :=
      related_of_simulation (V := fun _ => True) (fun _ _ e h _ => h.step e) events
        (matches_new router (Ne.symm hid)) fun _ _ => trivial
    rw [hmatch.health, Option.map_map]
    refine Option.map_congr fun probes _ => ?_
    -- a remote node is a follower until it is offline
    have hstatus : ((NodeHealth.new id).recordAll probes).status =
      if 3 ≤ trailing ProbeRecord.isFailure probes then .offline else .follower :=
        NodeHealth.status_recordAll id probes
    by_cases hthree : 3 ≤ trailing ProbeRecord.isFailure probes
    · rw [if_pos hthree] at hstatus
      simp [NodeHealth.isActive, hstatus, hthree]
    · rw [if_neg hthree] at hstatus
      simp [NodeHealth.isActive, hstatus, Nat.lt_of_not_le hthree]

end ClusterMonitor

/-! ## Counts -/

/-- The entries of a map with a property, by their keys. -/
theorem length_filter_snd {ν : Type} (m : ExtTreeMap NodeId ν) (p : ν → Bool) :
    ((m.toList.map Prod.snd).filter p).length = {id : NodeId | (m[id]?).map p = some true}.ncard := by
  have hkeys : (((m.toList.filter fun entry => p entry.2)).map Prod.fst).Nodup :=
    (List.Sublist.map _ List.filter_sublist).nodup (nodup_fst_of_perm (List.Perm.refl _))
  have hset : {id : NodeId | (m[id]?).map p = some true} =
      ((m.toList.filter fun entry => p entry.2).map Prod.fst).toFinset := by
    ext id
    simp only [Set.mem_ofPred_eq, List.coe_toFinset, List.mem_map, List.mem_filter, Prod.exists,
      exists_and_right, exists_eq_right, Option.map_eq_some_iff, ExtTreeMap.mem_toList_iff_getElem?_eq_some]
  rw [hset, Set.ncard_coe_finset, List.toFinset_card_of_nodup hkeys, List.length_map, List.filter_map,
    List.length_map]
  rfl

/-- The counts of a table, by the standings of its nodes. -/
theorem healthSnapshot_counts (m : ClusterManager) {st : NodeId → Option Bool}
    (h : ∀ id : NodeId, (m.healthState[id]?).map NodeHealth.isActive = st id) :
    m.healthSnapshot.length = {id | (st id).isSome = true}.ncard ∧
      (m.healthSnapshot.filter NodeHealth.isActive).length = {id | st id = some true}.ncard := by
  constructor
  · have hcount := length_filter_snd m.healthState fun _ => true
    rw [List.filter_true] at hcount
    rw [ClusterManager.healthSnapshot, hcount]
    congr 1
    ext id
    -- a node is tracked if it has a standing
    rw [Set.mem_ofPred_eq, Set.mem_ofPred_eq, ← h id]
    cases m.healthState[id]? with
    | none => simp
    | some health => simp
  · rw [ClusterManager.healthSnapshot, length_filter_snd]
    congr 1
    ext id
    rw [Set.mem_ofPred_eq, Set.mem_ofPred_eq, h id]

/-- The status is the rule on the counts of the report. -/
theorem clusterHealth_status (m : ClusterManager) (leaderId : Option NodeId) (commitIndex : Int)
    (registry : ExtTreeMap String CollectionMeta) :
    (clusterHealth m leaderId commitIndex registry).status =
      documentedHealth leaderId.isSome (clusterHealth m leaderId commitIndex registry).numberOfNodes
        (clusterHealth m leaderId commitIndex registry).activeNodes := by
  simp only [clusterHealth, documentedHealth]
  cases leaderId with
  | none => rfl
  | some id => simp [eq_comm]

/-- **The reported health over whole runs.** Take any sequence of probes of remote nodes,
registrations, deregistrations and departures. A report counts the nodes that are tracked and,
of these, the remote ones whose last three probes did not all fail and the local one unless it
left; either count is at least one. Its status is that of the documented rule, unless there is a
leader and the only tracked node is not active: then the report is green. -/
theorem cluster_health_run [Sha256] (localNode : NodeInfo) (router : ClusterRouter)
    {events : List MonitorEvent} (hevents : ∀ e ∈ events, e.SentBy localNode) (leaderId : Option NodeId)
    (commitIndex : Int) (registry : ExtTreeMap String CollectionMeta) :
    let m := (events.foldl ClusterMonitor.step (ClusterMonitor.new localNode router)).manager
    let report := clusterHealth m leaderId commitIndex registry
    let nodes := {id | (standing localNode router events id).isSome = true}.ncard
    let active := {id | standing localNode router events id = some true}.ncard
    report.numberOfNodes = max nodes 1 ∧ report.activeNodes = max active 1 ∧
      (report.status = documentedHealth leaderId.isSome nodes active ↔
        ¬ (leaderId.isSome = true ∧ nodes = 1 ∧ active = 0)) ∧
      (leaderId.isSome = true → nodes = 1 → active = 0 → report.status = "green") := by
  intro m report nodes active
  obtain ⟨hnodes, hactive⟩ := healthSnapshot_counts m (ClusterMonitor.standing_run localNode router hevents)
  have hle : active ≤ nodes := by
    have hlength : (m.healthSnapshot.filter NodeHealth.isActive).length ≤ m.healthSnapshot.length :=
      List.length_filter_le _ _
    rw [hnodes, hactive] at hlength
    exact hlength
  have hnumber : report.numberOfNodes = max nodes 1 := congrArg (max · 1) hnodes
  have hcounted : report.activeNodes = max active 1 := congrArg (max · 1) hactive
  have hstatus : report.status = documentedHealth leaderId.isSome (max nodes 1) (max active 1) := by
    rw [← hnumber, ← hcounted]
    exact clusterHealth_status m leaderId commitIndex registry
  refine ⟨hnumber, hcounted, ?_, ?_⟩
  · rw [hstatus]
    exact documentedHealth_max_iff hle
  · intro hleader hone hzero
    rw [hstatus, hone, hzero, hleader]
    rfl

/-- Node 2 joins, fails three probes and leaves the table; then the local node leaves the
cluster. -/
def lastNodeLeaves : List MonitorEvent :=
  [.registerNode ⟨2, .follower⟩, .probe 2 none 0, .probe 2 none 1, .probe 2 none 2, .deregisterNode 2,
    .leaveCluster]

/-- Only the local node is tracked, and it is offline. -/
theorem standing_lastNodeLeaves (id : NodeId) :
    standing ⟨1, .leader⟩ (ClusterRouter.new [] 3) lastNodeLeaves id = if id = 1 then some false else none := by
  by_cases hlocal : id = 1
  · subst hlocal
    rfl
  · rw [standing, if_neg hlocal, if_neg hlocal, Option.map_eq_none_iff]
    by_cases hremote : 2 = id
    · subst hremote
      rfl
    · simp [lastNodeLeaves, NodeRecord.add, NodeRecord.start, hremote]

theorem cluster_health_run_lastNodeLeaves :
    (clusterHealth (lastNodeLeaves.foldl ClusterMonitor.step
      (ClusterMonitor.new ⟨1, .leader⟩ (ClusterRouter.new [] 3))).manager (some 1) 0 ∅).status = "green" := by
  have hsent : ∀ e ∈ lastNodeLeaves, e.SentBy ⟨1, .leader⟩ := by
    simp [lastNodeLeaves, MonitorEvent.SentBy]
  obtain ⟨-, -, -, hgreen⟩ :=
    cluster_health_run ⟨1, .leader⟩ (ClusterRouter.new [] 3) hsent (some 1) 0 ∅
  simp only [standing_lastNodeLeaves] at hgreen
  apply hgreen rfl
  · have hone : {id : NodeId | (if id = 1 then some false else none).isSome = true} = {1} := by
      ext id
      simp
    rw [hone, Set.ncard_singleton]
  · have hzero : {id : NodeId | (if id = 1 then some false else none) = some true} = ∅ := by
      ext id
      simp
    rw [hzero, Set.ncard_empty]

end MSearchDB.Node
