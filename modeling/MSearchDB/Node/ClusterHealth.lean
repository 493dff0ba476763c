import MSearchDB.Lib.Run
import MSearchDB.Lib.Trailing
import MSearchDB.Core.ClusterRouter

/-!
# Health checks and routing

The part of `ClusterManager` of `crates/node/src/cluster_manager.rs` that tracks the
health of the nodes: rounds of probes, `register_node` and `deregister_node`. A node
is known in three places, the health table and the ring and the table of the router.

Each call touches one node at a time (`SameAt`), so that what it does to the agreement
of the three places is a statement about that node. A failed probe that takes a node
offline takes it off the ring as well (`agrees_checkNode_iff`); a successful probe
of an offline node changes the health table alone. Health and routing therefore agree
along a run exactly when no offline node answers and no offline node is registered
(`agree_run_iff`).
-/

set_option autoImplicit false

namespace MSearchDB.Node

open MSearchDB.Lib
open MSearchDB.Core
open Std (ExtTreeMap)

/-- `FAILURE_THRESHOLD`. -/
def failureThreshold : UInt8 := 3

/-- `NodeHealth`, without the wall-clock time of the last probe. -/
structure NodeHealth where
  nodeId : NodeId
  consecutiveFailures : UInt8
  status : NodeStatus
  latencyMs : Option UInt64
  deriving DecidableEq, Repr

/-- `u8::saturating_add`. -/
def saturatingAdd8 (a b : UInt8) : UInt8 := UInt8.ofNat (min (a.toNat + b.toNat) 255)

namespace NodeHealth

/-- `NodeHealth::new`. -/
def new (nodeId : NodeId) : NodeHealth := ⟨nodeId, 0, .follower, none⟩

/-- `record_success`, with whether the node came back. -/
def recordSuccess (h : NodeHealth) (latencyMs : UInt64) : NodeHealth × Bool :=
  let wasOffline : Bool := h.status = .offline
  let h := { h with consecutiveFailures := 0, latencyMs := some latencyMs }
  (if wasOffline then { h with status := .follower } else h, wasOffline)

/-- `record_failure`, with whether the node went offline. -/
def recordFailure (h : NodeHealth) : NodeHealth × Bool :=
  let h :=
    { h with consecutiveFailures := saturatingAdd8 h.consecutiveFailures 1, latencyMs := none }
  if failureThreshold ≤ h.consecutiveFailures ∧ h.status ≠ .offline then
    ({ h with status := .offline }, true)
  else (h, false)

/-- `is_online`. -/
def isOnline (h : NodeHealth) : Bool := h.status ≠ .offline

theorem isOnline_recordSuccess (h : NodeHealth) (latencyMs : UInt64) :
    (h.recordSuccess latencyMs).1.isOnline = true := by
  by_cases hs : h.status = .offline
  · simp [recordSuccess, isOnline, hs]
  · simp [recordSuccess, isOnline, hs]

/-- A node is offline after a failure when it just went offline or was so before. -/
theorem isOnline_recordFailure (h : NodeHealth) :
    h.recordFailure.1.isOnline = (!h.recordFailure.2 && h.isOnline) := by
  rw [recordFailure]
  split
  · simp [isOnline]
  · simp [isOnline]

end NodeHealth

/-- A probe that is recorded. -/
inductive ProbeRecord where
  | success (latencyMs : UInt64)
  | failure
  deriving DecidableEq, Repr

/-- The probe failed. -/
def ProbeRecord.isFailure : ProbeRecord → Bool
  | .success _ => false
  | .failure => true

namespace NodeHealth

/-- A node's health after a recorded probe, with whether its status changed. -/
def record (h : NodeHealth) : ProbeRecord → NodeHealth × Bool
  | .success latencyMs => h.recordSuccess latencyMs
  | .failure => h.recordFailure

/-- The health after a sequence of probes. -/
def recordAll (h : NodeHealth) (probes : List ProbeRecord) : NodeHealth :=
  probes.foldl (fun h probe => (h.record probe).1) h

/-- Counter and status after `n` failures since the last success. -/
structure Tracks (h : NodeHealth) (n : Nat) : Prop where
  counter : h.consecutiveFailures.toNat = min 255 n
  offline_iff : h.status = .offline ↔ failureThreshold.toNat ≤ n

theorem toNat_saturatingAdd8_one (a : UInt8) : (saturatingAdd8 a 1).toNat = min 255 (a.toNat + 1) := by
  have hle : min (a.toNat + 1) 255 < 256 := by omega
  rw [saturatingAdd8, UInt8.toNat_ofNat', show (1 : UInt8).toNat = 1 from rfl, Nat.mod_eq_of_lt hle, min_comm]

theorem tracks_new (nodeId : NodeId) : (new nodeId).Tracks 0 :=
  ⟨rfl, by simp [new, failureThreshold]⟩

theorem Tracks.recordSuccess {h : NodeHealth} (latencyMs : UInt64) : (h.recordSuccess latencyMs).1.Tracks 0 := by
  by_cases hs : h.status = .offline
  · exact ⟨by simp [NodeHealth.recordSuccess, hs], by simp [NodeHealth.recordSuccess, hs, failureThreshold]⟩
  · exact ⟨by simp [NodeHealth.recordSuccess, hs], by simp [NodeHealth.recordSuccess, hs, failureThreshold]⟩

/-- One more failure: below the threshold the counter is exact, from there on the
status stays. -/
theorem Tracks.recordFailure {h : NodeHealth} {n : Nat} (htracks : h.Tracks n) :
    h.recordFailure.1.Tracks (n + 1) := by
  have hcounter : (saturatingAdd8 h.consecutiveFailures 1).toNat = min 255 (n + 1) := by
    rw [toNat_saturatingAdd8_one, htracks.counter]
    omega
  have hreached : failureThreshold ≤ saturatingAdd8 h.consecutiveFailures 1 ↔ failureThreshold.toNat ≤ n + 1 := by
    rw [UInt8.le_iff_toNat_le, hcounter, show failureThreshold.toNat = 3 from rfl]
    omega
  rw [NodeHealth.recordFailure]
  simp only [hreached]
  split
  next hnow => exact ⟨hcounter, iff_of_true rfl hnow.1⟩
  next hnot =>
    refine ⟨hcounter, ?_⟩
    -- either the threshold is not reached or the node was offline before
    show h.status = .offline ↔ failureThreshold.toNat ≤ n + 1
    rw [not_and, not_not] at hnot
    refine ⟨fun hoffline => ?_, hnot⟩
    have hbefore := htracks.offline_iff.1 hoffline
    omega

theorem tracks_recordAll (nodeId : NodeId) (probes : List ProbeRecord) :
    ((new nodeId).recordAll probes).Tracks (trailing ProbeRecord.isFailure probes) := by
  induction probes using List.reverseRecOn with
  | nil => exact tracks_new nodeId
  | append_singleton probes probe ih =>
      rw [recordAll, List.foldl_append, ← recordAll]
      cases probe with
      | success latencyMs =>
          rw [trailing_concat_of_neg probes rfl]
          exact Tracks.recordSuccess latencyMs
      | failure =>
          rw [trailing_concat_of_pos probes rfl]
          exact ih.recordFailure

theorem recordFailure_eq_true_iff (h : NodeHealth) :
    h.recordFailure.2 = true ↔ h.isOnline = true ∧ h.recordFailure.1.status = .offline := by
  rw [recordFailure]
  split
  next hnow => simp [isOnline, hnow.2]
  next => simp [isOnline]

theorem recordSuccess_eq_true_iff (h : NodeHealth) (latencyMs : UInt64) :
    (h.recordSuccess latencyMs).2 = true ↔
      h.status = .offline ∧ (h.recordSuccess latencyMs).1.isOnline = true := by
  rw [isOnline_recordSuccess, recordSuccess]
  simp

/-- **The trailing failures decide.** After any sequence of probes of a new node: it is
offline exactly when the sequence ends with as many failures as the threshold says, the
counter saturates at 255, and the next call reports a change exactly when it makes one. -/
theorem health_of_trailing_failures (nodeId : NodeId) (probes : List ProbeRecord) :
    let h := (new nodeId).recordAll probes
    let failures := trailing ProbeRecord.isFailure probes
    (h.status = .offline ↔ failureThreshold.toNat ≤ failures) ∧
      h.consecutiveFailures.toNat = min 255 failures ∧
      (h.recordFailure.2 = true ↔ h.isOnline = true ∧ h.recordFailure.1.status = .offline) ∧
      ∀ latencyMs, (h.recordSuccess latencyMs).2 = true ↔
        h.status = .offline ∧ (h.recordSuccess latencyMs).1.isOnline = true := by
  intro h failures
  have htracks : h.Tracks failures := tracks_recordAll nodeId probes
  exact ⟨htracks.offline_iff, htracks.counter, recordFailure_eq_true_iff h, recordSuccess_eq_true_iff h⟩

end NodeHealth

/-- The health table, the router and the local node of a `ClusterManager`. -/
structure ClusterManager where
  router : ClusterRouter
  localNode : NodeInfo
  healthState : ExtTreeMap NodeId NodeHealth

/-- What changes the health of the nodes: a round of probes, in the order in which
the table lists the nodes and with the round trip of those that answer, and the calls
that change the membership. -/
inductive ManagerStep where
  | healthChecks (order : List NodeId) (reply : NodeId → Option UInt64)
  | registerNode (node : NodeInfo)
  | deregisterNode (nodeId : NodeId)

namespace ClusterManager

/-- `ClusterManager::new`. -/
def new (localNode : NodeInfo) (router : ClusterRouter) : ClusterManager :=
  ⟨router, localNode, (∅ : ExtTreeMap NodeId NodeHealth).insert localNode.id (.new localNode.id)⟩

/-- The nodes a round probes: those of the health table without the local one. -/
def remoteIds (m : ClusterManager) : List NodeId :=
  (m.healthState.toList.map Prod.fst).filter fun id => id ≠ m.localNode.id

variable [Sha256]

/-- `ping_node`: only a node whose address the router knows can answer. -/
def pingNode (m : ClusterManager) (nodeId : NodeId) (reply : Option UInt64) : Option UInt64 :=
  match m.router.nodes[nodeId]? with
  | some _ => reply
  | none => none

/-- One iteration of the loop of `run_health_checks`. -/
def checkNode (reply : NodeId → Option UInt64) (m : ClusterManager) (nodeId : NodeId) :
    ClusterManager :=
  match m.pingNode nodeId (reply nodeId), m.healthState[nodeId]? with
  | some latencyMs, some health =>
      { m with healthState := m.healthState.insert nodeId (health.recordSuccess latencyMs).1 }
  | none, some health =>
      let (health, wentOffline) := health.recordFailure
      { m with
        healthState := m.healthState.insert nodeId health
        router := if wentOffline then m.router.removeNode nodeId else m.router }
  | _, none => m

/-- `register_node`. -/
def registerNode (m : ClusterManager) (node : NodeInfo) : ClusterManager :=
  { m with
    healthState := m.healthState.insert node.id (.new node.id)
    router := m.router.addNode node }

/-- `deregister_node`. -/
def deregisterNode (m : ClusterManager) (nodeId : NodeId) : ClusterManager :=
  { m with
    healthState := m.healthState.erase nodeId
    router := m.router.removeNode nodeId }

/-- The manager after a step. -/
def step (m : ClusterManager) : ManagerStep → ClusterManager
  | .healthChecks order reply => order.foldl (checkNode reply) m
  | .registerNode node => m.registerNode node
  | .deregisterNode nodeId => m.deregisterNode nodeId

omit [Sha256] in
/-- A round probes every remote node of the table once. -/
def ValidStep (m : ClusterManager) : ManagerStep → Prop
  | .healthChecks order _ => order.Perm m.remoteIds
  | .registerNode _ => True
  | .deregisterNode _ => True

omit [Sha256] in
/-- No offline node answers, and no offline node is registered. -/
def OnlineStep (m : ClusterManager) : ManagerStep → Prop
  | .healthChecks _ reply => ∀ id ≠ m.localNode.id, ∀ health : NodeHealth,
      m.healthState[id]? = some health → health.status = .offline → reply id = none
  | .registerNode node => node.id ≠ m.localNode.id → node.status ≠ .offline
  | .deregisterNode _ => True

omit [Sha256] in
/-- A tracked node is online in the health table exactly when it is on the ring and
not offline in the router's table. -/
def Agrees (m : ClusterManager) (id : NodeId) : Prop :=
  ∀ health : NodeHealth, m.healthState[id]? = some health →
    (health.isOnline = true ↔
      m.router.OnRing id ∧ ∃ info, m.router.nodes[id]? = some info ∧ info.status ≠ .offline)

omit [Sha256] in
/-- Every remote node agrees. -/
def RemoteAgree (m : ClusterManager) : Prop := ∀ id ≠ m.localNode.id, m.Agrees id

omit [Sha256] in
/-- The router knows every remote node of the health table. -/
def RemoteKnown (m : ClusterManager) : Prop :=
  ∀ id ≠ m.localNode.id, id ∈ m.healthState → id ∈ m.router.nodes

/-! ## One node at a time -/

omit [Sha256] in
/-- The three places have the same about a node. -/
structure SameAt (id : NodeId) (m m' : ClusterManager) : Prop where
  health : m'.healthState[id]? = m.healthState[id]?
  onRing : m'.router.OnRing id ↔ m.router.OnRing id
  info : m'.router.nodes[id]? = m.router.nodes[id]?

section SameAt

variable {id : NodeId} {m m' m'' : ClusterManager}

omit [Sha256] in
theorem SameAt.refl (id : NodeId) (m : ClusterManager) : SameAt id m m := ⟨rfl, .rfl, rfl⟩

omit [Sha256] in
theorem SameAt.trans (h : SameAt id m m') (h' : SameAt id m' m'') : SameAt id m m'' :=
  ⟨h'.health.trans h.health, h'.onRing.trans h.onRing, h'.info.trans h.info⟩

omit [Sha256] in
theorem SameAt.agrees_iff (h : SameAt id m m') : m'.Agrees id ↔ m.Agrees id := by
  simp only [Agrees, h.health, h.onRing, h.info]

theorem sameAt_checkNode (m : ClusterManager) (reply : NodeId → Option UInt64) {id id' : NodeId}
    (hne : id' ≠ id) : SameAt id m (checkNode reply m id') := by
  rw [checkNode]
  split
  case h_1 => exact ⟨by simp [ExtTreeMap.getElem?_insert, hne], .rfl, rfl⟩
  case h_2 health _ _ =>
      refine ⟨by simp [ExtTreeMap.getElem?_insert, hne], ?_, ?_⟩
      · simp only
        split
        · simp [ClusterRouter.onRing_removeNode, hne]
        · rfl
      · simp only
        split
        · rw [ClusterRouter.nodes_removeNode, if_neg hne]
        · rfl
  case h_3 => exact SameAt.refl id m

theorem sameAt_foldl_checkNode (reply : NodeId → Option UInt64) {id : NodeId} (order : List NodeId) :
    ∀ m : ClusterManager, id ∉ order → SameAt id m (order.foldl (checkNode reply) m) := by
  induction order with
  | nil => exact fun m _ => SameAt.refl id m
  | cons id' order ih =>
      intro m hid
      rw [List.mem_cons, not_or] at hid
      obtain ⟨hne, hid⟩ := hid
      exact (sameAt_checkNode m reply (Ne.symm hne)).trans (ih _ hid)

theorem sameAt_registerNode (m : ClusterManager) {node : NodeInfo} (hne : node.id ≠ id) :
    SameAt id m (m.registerNode node) where
  health := by simp [registerNode, ExtTreeMap.getElem?_insert, hne]
  onRing := by simp [registerNode, ClusterRouter.onRing_addNode, hne]
  info := by rw [registerNode, ClusterRouter.nodes_addNode, if_neg hne]

theorem sameAt_deregisterNode (m : ClusterManager) {id' : NodeId} (hne : id' ≠ id) :
    SameAt id m (m.deregisterNode id') where
  health := by simp [deregisterNode, ExtTreeMap.getElem?_erase, hne]
  onRing := by simp [deregisterNode, ClusterRouter.onRing_removeNode, hne]
  info := by rw [deregisterNode, ClusterRouter.nodes_removeNode, if_neg hne]

end SameAt

/-! ## The node a step is about -/

section Steps

variable {m : ClusterManager} {id : NodeId}

/-- A probe keeps a node in agreement unless it answers while it is offline. -/
theorem agrees_checkNode_iff (reply : NodeId → Option UInt64) (h : m.Agrees id)
    (hknown : id ∈ m.healthState → id ∈ m.router.nodes) :
    (checkNode reply m id).Agrees id ↔
      ∀ health : NodeHealth, m.healthState[id]? = some health → health.status = .offline →
        reply id = none := by
  cases hhealth : m.healthState[id]? with
  | none =>
      have hsame : checkNode reply m id = m := by
        rw [checkNode, hhealth]
        cases m.pingNode id (reply id) with
        | none => rfl
        | some latencyMs => rfl
      rw [hsame]
      exact ⟨fun _ health hsome => absurd hsome (by simp), fun _ => h⟩
  | some health =>
      obtain ⟨info, hinfo⟩ : ∃ info, m.router.nodes[id]? = some info := by
        rw [← Option.isSome_iff_exists, ← ExtTreeMap.mem_iff_isSome_getElem?]
        exact hknown (ExtTreeMap.mem_iff_isSome_getElem?.2 (by simp [hhealth]))
      have hagree := h health hhealth
      cases hreply : reply id with
      | some latencyMs =>
          -- the answer makes the node online and leaves the router as it is
          have hcheck : checkNode reply m id =
              { m with healthState := m.healthState.insert id (health.recordSuccess latencyMs).1 } := by
            simp [checkNode, pingNode, hinfo, hreply, hhealth]
          rw [hcheck, Agrees]
          simp only [ExtTreeMap.getElem?_insert_self, Option.some.injEq, forall_eq']
          rw [NodeHealth.isOnline_recordSuccess, ← hagree]
          simp [NodeHealth.isOnline]
      | none =>
          have hcheck : checkNode reply m id =
              { m with
                healthState := m.healthState.insert id health.recordFailure.1
                router := if health.recordFailure.2 then m.router.removeNode id else m.router } := by
            simp [checkNode, pingNode, hinfo, hreply, hhealth]
          rw [hcheck, Agrees]
          simp only [ExtTreeMap.getElem?_insert_self, Option.some.injEq, forall_eq', imp_true_iff, iff_true]
          rw [NodeHealth.isOnline_recordFailure]
          cases health.recordFailure.2 with
          | true => simp [ClusterRouter.onRing_removeNode]
          | false => simpa using hagree

theorem agrees_registerNode_iff (m : ClusterManager) (node : NodeInfo) :
    (m.registerNode node).Agrees node.id ↔ node.status ≠ .offline := by
  rw [registerNode, Agrees]
  simp [ClusterRouter.onRing_addNode, ClusterRouter.nodes_addNode, NodeHealth.new, NodeHealth.isOnline]

theorem agrees_deregisterNode (m : ClusterManager) (id : NodeId) : (m.deregisterNode id).Agrees id := by
  intro health h
  simp [deregisterNode] at h

end Steps

/-! ## Runs -/

section Runs

variable {m : ClusterManager}

theorem localNode_checkNode (m : ClusterManager) (reply : NodeId → Option UInt64) (id : NodeId) :
    (checkNode reply m id).localNode = m.localNode := by
  rw [checkNode]
  split
  · rfl
  · rfl
  · rfl

theorem localNode_step (m : ClusterManager) (a : ManagerStep) : (m.step a).localNode = m.localNode := by
  cases a with
  | registerNode node => rw [step, registerNode]
  | deregisterNode id => rw [step, deregisterNode]
  | healthChecks order reply =>
      exact List.foldlRecOn (motive := fun m' => m'.localNode = m.localNode) order (checkNode reply) rfl
        fun m' hm id _ => (localNode_checkNode m' reply id).trans hm

omit [Sha256] in
theorem mem_remoteIds {id : NodeId} :
    id ∈ m.remoteIds ↔ id ∈ m.healthState ∧ id ≠ m.localNode.id := by
  rw [remoteIds, List.mem_filter, ExtTreeMap.map_fst_toList_eq_keys, ExtTreeMap.mem_keys]
  simp

omit [Sha256] in
theorem nodup_remoteIds (m : ClusterManager) : m.remoteIds.Nodup := by
  rw [remoteIds, ExtTreeMap.map_fst_toList_eq_keys]
  exact ExtTreeMap.nodup_keys.filter _

omit [Sha256] in
theorem SameAt.known {id : NodeId} {m' : ClusterManager} (h : SameAt id m m')
    (hm : id ∈ m.healthState → id ∈ m.router.nodes) :
    id ∈ m'.healthState → id ∈ m'.router.nodes := by
  rw [ExtTreeMap.mem_iff_isSome_getElem?, ExtTreeMap.mem_iff_isSome_getElem?, h.health, h.info,
    ← ExtTreeMap.mem_iff_isSome_getElem?, ← ExtTreeMap.mem_iff_isSome_getElem?]
  exact hm

theorem known_checkNode (reply : NodeId → Option UInt64) {id : NodeId}
    (hm : id ∈ m.healthState → id ∈ m.router.nodes) :
    id ∈ (checkNode reply m id).healthState → id ∈ (checkNode reply m id).router.nodes := by
  rw [checkNode]
  split
  case h_1 hhealth => exact fun _ => hm (ExtTreeMap.mem_iff_isSome_getElem?.2 (by simp [hhealth]))
  case h_2 hhealth =>
      intro _
      have hknown := hm (ExtTreeMap.mem_iff_isSome_getElem?.2 (by simp [hhealth]))
      simp only
      split
      · rw [ExtTreeMap.mem_iff_isSome_getElem?, ClusterRouter.nodes_removeNode, if_pos rfl,
          Option.isSome_map, ← ExtTreeMap.mem_iff_isSome_getElem?]
        exact hknown
      · exact hknown
  case h_3 => exact hm

theorem remoteKnown_checkNode (hm : m.RemoteKnown) (reply : NodeId → Option UInt64) (id' : NodeId) :
    (checkNode reply m id').RemoteKnown := by
  intro id hid
  rw [localNode_checkNode] at hid
  by_cases hne : id' = id
  · subst hne
    exact known_checkNode reply (hm id' hid)
  · exact (sameAt_checkNode m reply hne).known (hm id hid)

theorem remoteKnown_step (hm : m.RemoteKnown) (a : ManagerStep) : (m.step a).RemoteKnown := by
  cases a with
  | healthChecks order reply =>
      exact List.foldlRecOn order (checkNode reply) hm
        fun m' hm' id _ => remoteKnown_checkNode hm' reply id
  | registerNode node =>
      intro id hid
      by_cases hne : node.id = id
      · intro _
        rw [ExtTreeMap.mem_iff_isSome_getElem?, step, registerNode, ClusterRouter.nodes_addNode, if_pos hne]
        rfl
      · exact (sameAt_registerNode m hne).known (hm id hid)
  | deregisterNode id' =>
      intro id hid
      by_cases hne : id' = id
      · subst hne
        intro hmem
        simp [step, deregisterNode] at hmem
      · exact (sameAt_deregisterNode m hne).known (hm id hid)

/-- A round keeps the remote nodes in agreement unless an offline one answers. -/
theorem remoteAgree_healthChecks_iff {order : List NodeId} (reply : NodeId → Option UInt64)
    (hknown : m.RemoteKnown) (h : m.RemoteAgree) (horder : order.Perm m.remoteIds) :
    (order.foldl (checkNode reply) m).RemoteAgree ↔ m.OnlineStep (.healthChecks order reply) := by
  have hlocal : (order.foldl (checkNode reply) m).localNode = m.localNode :=
    localNode_step m (.healthChecks order reply)
  rw [RemoteAgree, OnlineStep, hlocal]
  refine forall₂_congr fun id hid => ?_
  by_cases hmem : id ∈ order
  · obtain ⟨before, after, rfl⟩ := List.append_of_mem hmem
    have hnodup := horder.nodup_iff.2 (nodup_remoteIds m)
    have hbefore : id ∉ before := fun hin => List.disjoint_of_nodup_append hnodup hin (by simp)
    have hafter : id ∉ after := (List.nodup_cons.1 hnodup.of_append_right).1
    -- the other probes of the round are not about this node
    have hsame := sameAt_foldl_checkNode reply before m hbefore
    rw [List.foldl_append, List.foldl_cons, (sameAt_foldl_checkNode reply after _ hafter).agrees_iff,
      agrees_checkNode_iff reply (hsame.agrees_iff.2 (h id hid)) (hsame.known (hknown id hid)),
      hsame.health]
  · rw [(sameAt_foldl_checkNode reply order m hmem).agrees_iff]
    refine iff_of_true (h id hid) fun health hhealth => ?_
    have htracked : id ∈ m.healthState := ExtTreeMap.mem_iff_isSome_getElem?.2 (by simp [hhealth])
    exact absurd (horder.mem_iff.2 (mem_remoteIds.2 ⟨htracked, hid⟩)) hmem

theorem remoteAgree_step_iff (a : ManagerStep) (hknown : m.RemoteKnown) (h : m.RemoteAgree)
    (ha : m.ValidStep a) : (m.step a).RemoteAgree ↔ m.OnlineStep a := by
  cases a with
  | healthChecks order reply => exact remoteAgree_healthChecks_iff reply hknown h ha
  | registerNode node =>
      constructor
      · exact fun hall hlocal => (agrees_registerNode_iff m node).1 (hall node.id hlocal)
      · intro hnode id hid
        by_cases hne : node.id = id
        · subst hne
          exact (agrees_registerNode_iff m node).2 (hnode hid)
        · exact (sameAt_registerNode m hne).agrees_iff.2 (h id hid)
  | deregisterNode id' =>
      refine iff_of_true (fun id hid => ?_) trivial
      by_cases hne : id' = id
      · subst hne
        exact agrees_deregisterNode m id'
      · exact (sameAt_deregisterNode m hne).agrees_iff.2 (h id hid)

omit [Sha256] in
/-- The local node is the only one a new manager tracks. -/
theorem healthState_new {localNode : NodeInfo} {router : ClusterRouter} {id : NodeId}
    (hid : id ≠ (new localNode router).localNode.id) :
    (new localNode router).healthState[id]? = none := by
  have hne : localNode.id ≠ id := Ne.symm hid
  simp [new, hne]

omit [Sha256] in
theorem remoteKnown_new (localNode : NodeInfo) (router : ClusterRouter) :
    (new localNode router).RemoteKnown := by
  intro id hid hmem
  rw [ExtTreeMap.mem_iff_isSome_getElem?, healthState_new hid] at hmem
  simp at hmem

/-- **When health and routing agree.** In every state of a run the remote nodes that
are tracked are online exactly when they are on the ring and not offline in the
router's table, if and only if no probe of the run is answered by a node that is
offline in the health table and no remote node is registered as offline. -/
theorem agree_run_iff (localNode : NodeInfo) (router : ClusterRouter) (steps : List ManagerStep)
    (hvalid : Along step ValidStep (new localNode router) steps) :
    (∀ pre, pre <+: steps → (pre.foldl step (new localNode router)).RemoteAgree) ↔
      Along step OnlineStep (new localNode router) steps := by
  refine hvalid.forall_prefix_iff (I := RemoteKnown) (P := RemoteAgree)
    (fun m a hm _ => remoteKnown_step hm a)
    (fun m a hm hP ha => remoteAgree_step_iff a hm hP ha) (remoteKnown_new localNode router) ?_
  intro id hid health hhealth
  rw [healthState_new hid] at hhealth
  simp at hhealth

end Runs

end ClusterManager

/-- A manager on node 1 with an empty router. -/
def firstManager : ClusterManager := .new ⟨1, .leader⟩ (ClusterRouter.new [] 3)

/-- Node 2 joins and then misses `n` rounds. -/
def missedRounds (n : Nat) : List ManagerStep :=
  .registerNode ⟨2, .follower⟩ :: List.replicate n (.healthChecks [2] fun _ => none)

theorem remoteIds_missedRounds :
    ∀ n ≤ 3, ((missedRounds n).foldl ClusterManager.step firstManager).remoteIds = [2] := by
  decide

theorem offline_missedRounds :
    (((missedRounds 3).foldl ClusterManager.step firstManager).healthState[(2 : NodeId)]?).map
      NodeHealth.status = some .offline := by
  decide

theorem valid_missedRounds (reply : NodeId → Option UInt64) :
    Along ClusterManager.step ClusterManager.ValidStep firstManager
      (missedRounds 3 ++ [.healthChecks [2] reply]) := by
  refine ⟨trivial, ?_, ?_, ?_, ?_, trivial⟩
  · exact List.Perm.of_eq (remoteIds_missedRounds 0 (by decide)).symm
  · exact List.Perm.of_eq (remoteIds_missedRounds 1 (by decide)).symm
  · exact List.Perm.of_eq (remoteIds_missedRounds 2 (by decide)).symm
  · exact List.Perm.of_eq (remoteIds_missedRounds 3 (by decide)).symm

/-- A node that goes offline and stays so. -/
theorem ClusterManager.agree_run_missed :
    ((missedRounds 3 ++ [ManagerStep.healthChecks [2] fun _ => none]).foldl
      ClusterManager.step firstManager).RemoteAgree := by
  refine (agree_run_iff ⟨1, .leader⟩ (ClusterRouter.new [] 3) _ (valid_missedRounds _)).2 ?_ _
    (List.prefix_refl _)
  refine ⟨fun _ => by decide, ?_, ?_, ?_, ?_, trivial⟩
  all_goals exact fun _ _ _ _ _ => rfl

/-- A node that answers after three missed rounds is online and not on the ring. -/
theorem ClusterManager.answered_not_routed :
    Along ClusterManager.step ClusterManager.ValidStep firstManager
        (missedRounds 3 ++ [.healthChecks [2] fun _ => some 5]) ∧
      ¬ ∀ pre, pre <+: missedRounds 3 ++ [.healthChecks [2] fun _ => some 5] →
        (pre.foldl ClusterManager.step firstManager).RemoteAgree := by
  have hvalid := valid_missedRounds fun _ => some 5
  refine ⟨hvalid, fun hagree => ?_⟩
  have hknown : ((missedRounds 3).foldl ClusterManager.step firstManager).RemoteKnown :=
    List.foldlRecOn _ _ (remoteKnown_new _ _) fun _ hm a _ => remoteKnown_step hm a
  have hlast := hagree _ (List.prefix_refl _)
  rw [List.foldl_append] at hlast
  have hstep := (remoteAgree_step_iff _ hknown (hagree _ (List.prefix_append _ _))
    ((along_append _ _ _).1 hvalid).2.1).1 hlast
  obtain ⟨health, hhealth, hoffline⟩ := Option.map_eq_some_iff.1 offline_missedRounds
  exact absurd (hstep 2 (by decide) health hhealth hoffline) (by simp)

end MSearchDB.Node
