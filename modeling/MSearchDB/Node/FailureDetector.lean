import MSearchDB.Core.Float
import MSearchDB.Node.ClusterHealth

/-!
# Failure detection

The loop of `run_health_checks` of `crates/node/src/cluster_manager.rs` with all it writes: the
health table, the router and the heartbeats of the Phi Accrual detector. A step is one probe, so
that members can join and leave between two probes of a round; the local node may leave at any
time.

What the manager has about a remote node is what the events about that node say, and nothing
else (`monitor_run`): the health starts anew when the node is registered, the heartbeats when it
is deregistered. The two therefore part ways. A node that is registered again has no failures and
keeps its heartbeats, and a node that answers a round from before it was deregistered is not
tracked and has heartbeats.
-/

set_option autoImplicit false

namespace MSearchDB.Node

open MSearchDB.Lib
open MSearchDB.Core
open Std (ExtTreeMap)

/-! ## The detector -/

/-- `MAX_HEARTBEAT_SAMPLES`. -/
def maxHeartbeatSamples : Nat := 100

/-- `HeartbeatHistory`: intervals in milliseconds, instants in nanoseconds. -/
structure HeartbeatHistory where
  intervals : List Nat
  lastHeartbeat : Nat
  deriving DecidableEq, Repr

/-- `PHI_SUSPECT_THRESHOLD`: 8.0. -/
def phiSuspectThreshold : F64 := ⟨0x4020000000000000⟩

/-- `PHI_DEAD_THRESHOLD`: 16.0. -/
def phiDeadThreshold : F64 := ⟨0x4030000000000000⟩

/-- The arithmetic of `phi`, down to `normal_cdf`: the suspicion of a silence, given the intervals
before it. -/
class PhiAccrual where
  score : List Nat → Nat → F64

/-- `FailureDetector`. -/
structure FailureDetector where
  samples : ExtTreeMap NodeId HeartbeatHistory

/-- `Instant::duration_since` in whole milliseconds; it is zero for a later instant. -/
def millisSince (earlier now : Nat) : Nat := (now - earlier) / 1000000

namespace FailureDetector

/-- `FailureDetector::new`. -/
def new : FailureDetector := ⟨∅⟩

/-- `report_heartbeat_at`; `report_heartbeat` is the same at the present instant. -/
def reportHeartbeat (d : FailureDetector) (nodeId : NodeId) (now : Nat) : FailureDetector :=
  let history := d.samples[nodeId]?.getD ⟨[], now⟩
  let interval := millisSince history.lastHeartbeat now
  let intervals :=
    if 0 < interval then
      if maxHeartbeatSamples ≤ history.intervals.length then history.intervals.tail ++ [interval]
      else history.intervals ++ [interval]
    else history.intervals
  ⟨d.samples.insert nodeId ⟨intervals, now⟩⟩

/-- `remove_node`. -/
def removeNode (d : FailureDetector) (nodeId : NodeId) : FailureDetector := ⟨d.samples.erase nodeId⟩

section Phi

variable [PhiAccrual]

/-- `phi_at`; `phi` is the same at the present instant. -/
def phi (d : FailureDetector) (nodeId : NodeId) (now : Nat) : Option F64 :=
  match d.samples[nodeId]? with
  | none => none
  | some history =>
      if history.intervals.length < 2 then none
      else some (PhiAccrual.score history.intervals (millisSince history.lastHeartbeat now))

/-- `is_suspect`. -/
def isSuspect (d : FailureDetector) (nodeId : NodeId) (now : Nat) : Bool :=
  ((d.phi nodeId now).map fun p => decide (p.partialCmp phiSuspectThreshold = some .gt)).getD false

/-- `is_dead`. -/
def isDead (d : FailureDetector) (nodeId : NodeId) (now : Nat) : Bool :=
  ((d.phi nodeId now).map fun p => decide (p.partialCmp phiDeadThreshold = some .gt)).getD false

end Phi

end FailureDetector

/-! ## The loop -/

/-- The part of a `ClusterManager` that its health checks write. -/
structure ClusterMonitor where
  manager : ClusterManager
  detector : FailureDetector

/-- What happens to a `ClusterManager`: one probe of a round, with its reply and the instant at which
it came, and the calls. -/
inductive MonitorEvent where
  | probe (nodeId : NodeId) (reply : Option UInt64) (now : Nat)
  | registerNode (node : NodeInfo)
  | deregisterNode (nodeId : NodeId)
  | leaveCluster

namespace ClusterMonitor

/-- `ClusterManager::new`. -/
def new (localNode : NodeInfo) (router : ClusterRouter) : ClusterMonitor :=
  ⟨ClusterManager.new localNode router, FailureDetector.new⟩

/-- `leave_cluster`. -/
def leaveCluster (m : ClusterManager) : ClusterManager :=
  match m.healthState[m.localNode.id]? with
  | some health =>
      { m with healthState := m.healthState.insert m.localNode.id { health with status := .offline } }
  | none => m

variable [Sha256]

/-- The monitor after an event. -/
def step (m : ClusterMonitor) : MonitorEvent → ClusterMonitor
  | .probe nodeId reply now =>
      { manager := m.manager.checkNode (fun _ => reply) nodeId
        detector :=
          match m.manager.pingNode nodeId reply with
          | some _ => m.detector.reportHeartbeat nodeId now
          | none => m.detector }
  | .registerNode node => { m with manager := m.manager.registerNode node }
  | .deregisterNode nodeId =>
      { manager := m.manager.deregisterNode nodeId, detector := m.detector.removeNode nodeId }
  | .leaveCluster => { m with manager := leaveCluster m.manager }

end ClusterMonitor

/-! ## What is known of a node -/

/-- The events about one node: whether it was ever a member, its probes since it was registered, and
the instants of its answers since it was deregistered. -/
structure NodeRecord where
  known : Bool
  probes : Option (List ProbeRecord)
  beats : List Nat
  deriving DecidableEq, Repr

namespace NodeRecord

/-- An event is added. -/
def add (id : NodeId) (r : NodeRecord) : MonitorEvent → NodeRecord
  | .probe nodeId reply now =>
      if nodeId = id then
        match (if r.known then reply else none) with
        | some latencyMs =>
            { r with probes := r.probes.map (· ++ [.success latencyMs]), beats := r.beats ++ [now] }
        | none => { r with probes := r.probes.map (· ++ [.failure]) }
      else r
  | .registerNode node => if node.id = id then { r with known := true, probes := some [] } else r
  | .deregisterNode nodeId => if nodeId = id then { r with probes := none, beats := [] } else r
  | .leaveCluster => r

/-- The record of a node that is not a member. -/
def start (known : Bool) : NodeRecord := ⟨known, none, []⟩

/-- The intervals that are worth a sample. -/
def intervals (r : NodeRecord) : List Nat := (gaps millisSince r.beats).filter (0 < ·)

/-- The round trip of the last probe, if it was answered. -/
def latency (probes : List ProbeRecord) : Option UInt64 :=
  match probes.getLast? with
  | some (.success latencyMs) => some latencyMs
  | _ => none

/-- The suspicion that the beats justify. -/
def phi [PhiAccrual] (r : NodeRecord) (now : Nat) : Option F64 :=
  r.beats.getLast?.bind fun last =>
    if r.intervals.length < 2 then none
    else some (PhiAccrual.score (r.intervals.rtake maxHeartbeatSamples) (millisSince last now))

/-- What the detector keeps of the beats. -/
def samples (r : NodeRecord) : Option HeartbeatHistory :=
  r.beats.getLast?.map fun last => ⟨r.intervals.rtake maxHeartbeatSamples, last⟩

end NodeRecord

/-! ## The probes of a node -/

theorem NodeHealth.latencyMs_recordAll (nodeId : NodeId) (probes : List ProbeRecord) :
    ((NodeHealth.new nodeId).recordAll probes).latencyMs = NodeRecord.latency probes := by
  induction probes using List.reverseRecOn with
  | nil => rfl
  | append_singleton probes probe ih =>
      rw [recordAll, List.foldl_append, ← recordAll, NodeRecord.latency, List.getLast?_concat]
      cases probe with
      | success latencyMs =>
          show (recordSuccess _ latencyMs).1.latencyMs = some latencyMs
          rw [recordSuccess]
          simp only
          split
          · rfl
          · rfl
      | failure =>
          show (recordFailure _).1.latencyMs = none
          rw [recordFailure]
          simp only
          split
          · rfl
          · rfl

/-- A node is a follower or offline. -/
theorem NodeHealth.status_recordAll (nodeId : NodeId) (probes : List ProbeRecord) :
    ((NodeHealth.new nodeId).recordAll probes).status =
      if failureThreshold.toNat ≤ trailing ProbeRecord.isFailure probes then .offline else .follower := by
  have htwo : ((NodeHealth.new nodeId).recordAll probes).status = .offline ∨
      ((NodeHealth.new nodeId).recordAll probes).status = .follower := by
    induction probes using List.reverseRecOn with
    | nil => exact .inr rfl
    | append_singleton probes probe ih =>
        rw [recordAll, List.foldl_append, ← recordAll]
        cases probe with
        | success latencyMs =>
            show (recordSuccess _ latencyMs).1.status = _ ∨ (recordSuccess _ latencyMs).1.status = _
            rw [recordSuccess]
            simp only
            split
            · exact .inr rfl
            · exact ih
        | failure =>
            show (recordFailure _).1.status = _ ∨ (recordFailure _).1.status = _
            rw [recordFailure]
            simp only
            split
            · exact .inl rfl
            · exact ih
  have hiff := (tracks_recordAll nodeId probes).offline_iff
  split
  next hreached => exact hiff.2 hreached
  next hnot =>
    rcases htwo with hoffline | hfollower
    · exact absurd (hiff.1 hoffline) hnot
    · exact hfollower

/-! ## The beats of a node -/

namespace NodeRecord

/-- One more beat, after which the history of the detector is again that of the beats. -/
theorem samples_beat (r : NodeRecord) (now : Nat) (probes : Option (List ProbeRecord)) :
    samples { r with probes := probes, beats := r.beats ++ [now] } =
      some
        (let history := r.samples.getD ⟨[], now⟩
         let interval := millisSince history.lastHeartbeat now
         ⟨if 0 < interval then pushWindow maxHeartbeatSamples history.intervals interval else history.intervals,
          now⟩) := by
  obtain ⟨known, probesBefore, beats⟩ := r
  rw [samples, List.getLast?_concat, Option.map_some, Option.some.injEq]
  rcases List.eq_nil_or_concat' beats with rfl | ⟨before, last, rfl⟩
  · -- the first beat has no interval
    have hzero : millisSince now now = 0 := by rw [millisSince, Nat.sub_self]
    simp only [samples, List.getLast?_nil, Option.map_none, Option.getD_none, hzero]
    rfl
  · simp only [samples, List.getLast?_concat, Option.map_some, Option.getD_some]
    have hintervals : intervals ⟨known, probes, before ++ [last] ++ [now]⟩ =
        intervals ⟨known, probesBefore, before ++ [last]⟩ ++ [millisSince last now].filter (0 < ·) := by
      rw [intervals, intervals, gaps_concat, List.filter_append]
    rw [hintervals]
    by_cases hpos : 0 < millisSince last now
    · rw [if_pos hpos, List.filter_cons_of_pos (by simpa using hpos), List.filter_nil]
      exact congrArg (HeartbeatHistory.mk · now) (pushWindow_rtake 99 _ _).symm
    · rw [if_neg hpos, List.filter_cons_of_neg (by simpa using hpos), List.filter_nil, List.append_nil]

/-- The suspicion of the detector is that of the beats. -/
theorem phi_eq [PhiAccrual] {d : FailureDetector} {id : NodeId} {r : NodeRecord} (h : d.samples[id]? = r.samples)
    (now : Nat) : d.phi id now = r.phi now := by
  rw [FailureDetector.phi, h, samples, phi]
  cases r.beats.getLast? with
  | none => rfl
  | some last =>
      simp only [Option.map_some, Option.bind_some, length_rtake]
      -- a window of a hundred has two intervals when the history has
      have htwo : min maxHeartbeatSamples r.intervals.length < 2 ↔ r.intervals.length < 2 := by
        rw [maxHeartbeatSamples]
        omega
      rw [if_congr htwo rfl rfl]

end NodeRecord

theorem FailureDetector.reportHeartbeat_samples (d : FailureDetector) (nodeId id : NodeId) (now : Nat) :
    (d.reportHeartbeat nodeId now).samples[id]? =
      if nodeId = id then
        some
          (let history := d.samples[nodeId]?.getD ⟨[], now⟩
           let interval := millisSince history.lastHeartbeat now
           ⟨if 0 < interval then pushWindow maxHeartbeatSamples history.intervals interval else history.intervals,
            now⟩)
      else d.samples[id]? := by
  rw [reportHeartbeat]
  simp only [ExtTreeMap.getElem?_insert, Std.compare_eq_iff_eq, pushWindow]

/-- A number above 16.0 is above 8.0. -/
theorem FailureDetector.isSuspect_of_isDead [PhiAccrual] {d : FailureDetector} {id : NodeId} {now : Nat}
    (h : d.isDead id now = true) : d.isSuspect id now = true := by
  rw [isDead] at h
  rw [isSuspect]
  cases hphi : d.phi id now with
  | none =>
      rw [hphi] at h
      exact absurd h Bool.false_ne_true
  | some p =>
      rw [hphi, Option.map_some, Option.getD_some, decide_eq_true_eq] at h
      have hp : p.isNan = false := by
        by_contra hnan
        rw [Bool.not_eq_false] at hnan
        rw [F64.partialCmp, hnan] at h
        exact absurd h (by simp)
      have hlt : phiDeadThreshold.rank < p.rank := by
        rw [F64.partialCmp_of_not_nan hp rfl, Option.some.injEq, compare_gt_iff_gt] at h
        exact h
      have hthresholds : phiSuspectThreshold.rank < phiDeadThreshold.rank := by decide
      rw [Option.map_some, Option.getD_some, decide_eq_true_eq, F64.partialCmp_of_not_nan hp rfl, Option.some.injEq,
        compare_gt_iff_gt]
      exact hthresholds.trans hlt

/-! ## Runs -/

namespace ClusterMonitor

open ClusterManager

/-- The monitor has of a remote node what its record says. -/
structure Matches (id : NodeId) (m : ClusterMonitor) (r : NodeRecord) : Prop where
  isRemote : m.manager.localNode.id ≠ id
  known : m.manager.router.nodes[id]?.isSome = r.known
  health : m.manager.healthState[id]? = r.probes.map (NodeHealth.new id).recordAll
  samples : m.detector.samples[id]? = r.samples

variable [Sha256]

section Steps

variable {id : NodeId} {m : ClusterMonitor} {r : NodeRecord}

omit [Sha256] in
/-- An event about another node. -/
theorem Matches.of_sameAt {m' : ClusterMonitor} (h : Matches id m r) (hlocal : m'.manager.localNode = m.manager.localNode)
    (hsame : SameAt id m.manager m'.manager) (hsamples : m'.detector.samples[id]? = m.detector.samples[id]?) :
    Matches id m' r where
  isRemote := by rw [hlocal]; exact h.isRemote
  known := by rw [hsame.info]; exact h.known
  health := hsame.health.trans h.health
  samples := hsamples.trans h.samples

/-- A probe of the node. -/
theorem Matches.probe (h : Matches id m r) (reply : Option UInt64) (now : Nat) :
    Matches id (m.step (.probe id reply now)) (r.add id (.probe id reply now)) := by
  have hping : m.manager.pingNode id reply = if r.known then reply else none := by
    rw [pingNode, ← h.known]
    cases m.manager.router.nodes[id]? with
    | none => rfl
    | some info => rfl
  have hknown : ((m.manager.checkNode (fun _ => reply) id).router.nodes[id]?).isSome = r.known := by
    rw [← h.known, checkNode]
    split
    · rfl
    · simp only
      split
      · rw [ClusterRouter.nodes_removeNode, if_pos rfl, Option.isSome_map]
      · rfl
    · rfl
  rw [step, NodeRecord.add, if_pos rfl, hping]
  cases hanswer : (if r.known then reply else none) with
  | some latencyMs =>
      refine ⟨?_, hknown, ?_, ?_⟩
      · rw [localNode_checkNode]
        exact h.isRemote
      · show (m.manager.checkNode (fun _ => reply) id).healthState[id]? = _
        rw [checkNode, hping, hanswer]
        cases hprobes : r.probes with
        | none =>
            have hnone : m.manager.healthState[id]? = none := by rw [h.health, hprobes]; rfl
            rw [hnone]
            exact hnone
        | some probes =>
            have hsome : m.manager.healthState[id]? = some ((NodeHealth.new id).recordAll probes) := by
              rw [h.health, hprobes]
              rfl
            rw [hsome]
            simp only [ExtTreeMap.getElem?_insert_self, Option.map_some, NodeHealth.recordAll, List.foldl_append]
            rfl
      · show (m.detector.reportHeartbeat id now).samples[id]? = _
        rw [FailureDetector.reportHeartbeat_samples, if_pos rfl, h.samples]
        exact (NodeRecord.samples_beat r now _).symm
  | none =>
      refine ⟨?_, hknown, ?_, h.samples⟩
      · rw [localNode_checkNode]
        exact h.isRemote
      · show (m.manager.checkNode (fun _ => reply) id).healthState[id]? = _
        rw [checkNode, hping, hanswer]
        cases hprobes : r.probes with
        | none =>
            have hnone : m.manager.healthState[id]? = none := by rw [h.health, hprobes]; rfl
            rw [hnone]
            exact hnone
        | some probes =>
            have hsome : m.manager.healthState[id]? = some ((NodeHealth.new id).recordAll probes) := by
              rw [h.health, hprobes]
              rfl
            rw [hsome]
            simp only [ExtTreeMap.getElem?_insert_self, Option.map_some, NodeHealth.recordAll, List.foldl_append]
            rfl

/-- The probe of another node. -/
theorem Matches.probe_ne (h : Matches id m r) {nodeId : NodeId} (hne : nodeId ≠ id) (reply : Option UInt64)
    (now : Nat) : Matches id (m.step (.probe nodeId reply now)) r := by
  apply h.of_sameAt
  · exact localNode_checkNode m.manager _ nodeId
  · exact sameAt_checkNode m.manager (fun _ => reply) hne
  · rw [step]
    cases m.manager.pingNode nodeId reply with
    | none => rfl
    | some latencyMs =>
        show (m.detector.reportHeartbeat nodeId now).samples[id]? = _
        rw [FailureDetector.reportHeartbeat_samples, if_neg hne]

/-- **One event.** -/
theorem Matches.step (h : Matches id m r) (e : MonitorEvent) : Matches id (m.step e) (r.add id e) := by
  cases e with
  | probe nodeId reply now =>
      by_cases hid : nodeId = id
      · subst hid
        exact h.probe reply now
      · rw [NodeRecord.add, if_neg hid]
        exact h.probe_ne hid reply now
  | registerNode node =>
      rw [NodeRecord.add]
      split
      next hid =>
        subst hid
        refine ⟨h.isRemote, ?_, ?_, h.samples⟩
        · show ((m.manager.router.addNode node).nodes[node.id]?).isSome = true
          rw [ClusterRouter.nodes_addNode, if_pos rfl]
          rfl
        · show (m.manager.healthState.insert node.id (NodeHealth.new node.id))[node.id]? = _
          rw [ExtTreeMap.getElem?_insert_self]
          rfl
      next hid =>
        apply h.of_sameAt
        · exact localNode_step m.manager (.registerNode node)
        · exact sameAt_registerNode m.manager hid
        · rfl
  | deregisterNode nodeId =>
      rw [NodeRecord.add]
      split
      next hid =>
        subst hid
        refine ⟨h.isRemote, ?_, ?_, ?_⟩
        · show ((m.manager.router.removeNode nodeId).nodes[nodeId]?).isSome = r.known
          rw [ClusterRouter.nodes_removeNode, if_pos rfl, Option.isSome_map]
          exact h.known
        · show (m.manager.healthState.erase nodeId)[nodeId]? = _
          rw [ExtTreeMap.getElem?_erase_self]
          rfl
        · show (m.detector.samples.erase nodeId)[nodeId]? = _
          rw [ExtTreeMap.getElem?_erase_self]
          rfl
      next hid =>
        apply h.of_sameAt
        · rfl
        · exact sameAt_deregisterNode m.manager hid
        · show (m.detector.samples.erase nodeId)[id]? = _
          simp only [ExtTreeMap.getElem?_erase, Std.compare_eq_iff_eq, if_neg hid]
  | leaveCluster =>
      -- only the local node is marked
      have hhealth : (leaveCluster m.manager).healthState[id]? = m.manager.healthState[id]? := by
        rw [leaveCluster]
        split
        · simp only [ExtTreeMap.getElem?_insert, Std.compare_eq_iff_eq, if_neg h.isRemote]
        · rfl
      have hlocal : (leaveCluster m.manager).localNode = m.manager.localNode := by
        rw [leaveCluster]
        split
        · rfl
        · rfl
      have hrouter : (leaveCluster m.manager).router = m.manager.router := by
        rw [leaveCluster]
        split
        · rfl
        · rfl
      apply h.of_sameAt hlocal
      · exact ⟨hhealth, by rw [ClusterMonitor.step, hrouter], by rw [ClusterMonitor.step, hrouter]⟩
      · rfl

end Steps

omit [Sha256] in
theorem matches_new {localNode : NodeInfo} (router : ClusterRouter) {id : NodeId} (hid : localNode.id ≠ id) :
    Matches id (new localNode router) (.start (router.nodes[id]?).isSome) where
  isRemote := hid
  known := rfl
  health := healthState_new (Ne.symm hid)
  samples := ExtTreeMap.getElem?_empty

/-- **Health checks over whole runs.** Take any sequence of probes, registrations, deregistrations and
departures, in any order. A remote node is tracked exactly when it was registered and not deregistered
since; it is then offline exactly when the last three of its probes since the registration failed, its
latency is that of its last probe, and its failures are counted up to 255. At every instant its
suspicion is that of the last hundred positive intervals between its answers since it was last
deregistered, there is none before the second such interval, and a node that is dead is suspect. A
probe counts as answered only if the node was in the router's table. -/
theorem monitor_run [PhiAccrual] (localNode : NodeInfo) (router : ClusterRouter) (events : List MonitorEvent)
    (id : NodeId) (hid : localNode.id ≠ id) :
    let m := events.foldl step (new localNode router)
    let r := events.foldl (NodeRecord.add id) (.start (router.nodes[id]?).isSome)
    (m.manager.healthState[id]? = none ↔ r.probes = none) ∧
      (∀ health, m.manager.healthState[id]? = some health → ∃ probes, r.probes = some probes ∧
        health.status = (if 3 ≤ trailing ProbeRecord.isFailure probes then .offline else .follower) ∧
        health.latencyMs = NodeRecord.latency probes ∧
        health.consecutiveFailures.toNat = min 255 (trailing ProbeRecord.isFailure probes)) ∧
      ∀ now, m.detector.phi id now = r.phi now ∧
        (m.detector.isDead id now = true → m.detector.isSuspect id now = true) := by
  intro m r
  have hmatch : Matches id m r :=
    related_of_simulation (V := fun _ => True) (fun _ _ e h _ => h.step e) events (matches_new router hid)
      fun _ _ => trivial
  refine ⟨?_, ?_, fun now => ⟨NodeRecord.phi_eq hmatch.samples now, FailureDetector.isSuspect_of_isDead⟩⟩
  · rw [hmatch.health, Option.map_eq_none_iff]
  · intro health hhealth
    rw [hmatch.health, Option.map_eq_some_iff] at hhealth
    obtain ⟨probes, hprobes, rfl⟩ := hhealth
    exact ⟨probes, hprobes, NodeHealth.status_recordAll id probes, NodeHealth.latencyMs_recordAll id probes,
      (NodeHealth.tracks_recordAll id probes).counter⟩

end ClusterMonitor

/-- Node 2 answers twice, a second apart, and misses three rounds. -/
def twoAnswers : List MonitorEvent :=
  [.registerNode ⟨2, .follower⟩, .probe 2 (some 4) 0, .probe 2 (some 5) 1000000000, .probe 2 none 2000000000,
    .leaveCluster, .probe 2 none 3000000000, .probe 2 none 4000000000]

/-- It is offline, and one interval is no reason for a suspicion. -/
theorem ClusterMonitor.monitor_run_twoAnswers :
    letI : PhiAccrual := ⟨fun _ _ => F64.zero⟩
    let m := twoAnswers.foldl ClusterMonitor.step (new ⟨1, .leader⟩ (ClusterRouter.new [] 3))
    (∀ health, m.manager.healthState[(2 : NodeId)]? = some health → health.status = .offline) ∧
      ∀ now, m.detector.phi 2 now = none := by
  let _ : PhiAccrual := ⟨fun _ _ => F64.zero⟩
  obtain ⟨-, hhealth, hphi⟩ := monitor_run ⟨1, .leader⟩ (ClusterRouter.new [] 3) twoAnswers 2 (by decide)
  constructor
  · intro health h
    obtain ⟨probes, hprobes, hstatus, -, -⟩ := hhealth health h
    cases hprobes
    exact hstatus
  · exact fun now => (hphi now).1

end MSearchDB.Node
