import MSearchDB.Core.ReplicaWalk

/-!
# Rebalance plans

`rebalance_plan` of `crates/core/src/cluster_router.rs` compares the primaries of ten thousand
probe keys on the present ring and on the ring with a new node, while `route_document`
places a key on as many nodes as the replication factor says.

A plan covers the data of a key exactly when the present ring has a node and the new node is
not among the further replicas of the key on the future ring (`planCovers_iff`). A key that
the new node gets as a further replica has no move.
-/

set_option autoImplicit false

namespace MSearchDB.Core

open MSearchDB.Lib
open Std

/-- `DataMove`. -/
structure DataMove where
  documentId : DocumentId
  fromNode : NodeId
  toNode : NodeId
  deriving DecidableEq

/-- `RebalancePlan`. -/
structure RebalancePlan where
  moves : List DataMove
  deriving DecidableEq

/-- `format!("__rebalance_probe_{i}")`. -/
def probeKey (i : Nat) : String := "__rebalance_probe_" ++ toString i

theorem probeKey_inj {i j : Nat} (h : probeKey i = probeKey j) : i = j := by
  have hrepr : Nat.repr i = Nat.repr j := (String.append_right_inj _).1 h
  exact Nat.repr_inj.1 hrepr

namespace ClusterRouter

variable [Sha256]

/-- The ring with a new node. -/
def futureRing (r : ClusterRouter) (newNode : NodeInfo) : ConsistentHashRing NodeId :=
  r.ring.addNode newNode.id.toStr newNode.id

/-- The move of a probe key, when its primary moves to the new node. -/
def probeMove (r : ClusterRouter) (newNode : NodeInfo) (sampleKey : String) : Option DataMove :=
  match r.ring.getPrimary sampleKey, (r.futureRing newNode).getPrimary sampleKey with
  | some oldId, some newId =>
      if oldId ≠ newId ∧ newId = newNode.id then some ⟨⟨sampleKey⟩, oldId, newId⟩ else none
  | _, _ => none

/-- `rebalance_plan`. -/
def rebalancePlan (r : ClusterRouter) (newNode : NodeInfo) : RebalancePlan :=
  ⟨(List.range 10000).filterMap fun i => r.probeMove newNode (probeKey i)⟩

/-- The plan covers the data of a key: it moves the key to the new node exactly when the
new node will be one of its replicas, and from a node that holds the key. -/
structure PlanCovers (r : ClusterRouter) (newNode : NodeInfo) (key : String) : Prop where
  moved_iff : (∃ move ∈ (r.rebalancePlan newNode).moves, move.documentId = ⟨key⟩ ∧ move.toNode = newNode.id) ↔
    newNode.id ∈ ((r.futureRing newNode).getNodes key r.replicationFactor.toNat).getD []
  source : ∀ move ∈ (r.rebalancePlan newNode).moves, move.documentId = ⟨key⟩ →
    move.fromNode ∈ r.routeDocument ⟨key⟩

/-! ## Moves -/

section Moves

variable {r : ClusterRouter} {newNode : NodeInfo} {i : Nat}

theorem probeMove_eq_some_iff {key : String} {move : DataMove} :
    r.probeMove newNode key = some move ↔
      move.documentId = ⟨key⟩ ∧ move.toNode = newNode.id ∧ move.fromNode ≠ newNode.id ∧
        r.ring.getPrimary key = some move.fromNode ∧
        (r.futureRing newNode).getPrimary key = some newNode.id := by
  obtain ⟨documentId, fromNode, toNode⟩ := move
  rw [probeMove]
  cases r.ring.getPrimary key with
  | none => simp
  | some oldId =>
      cases (r.futureRing newNode).getPrimary key with
      | none => simp
      | some newId =>
          dsimp only
          split
          next h => 
            obtain ⟨hne, rfl⟩ := h
            simp only [Option.some.injEq, DataMove.mk.injEq]
            constructor
            · rintro ⟨rfl, rfl, rfl⟩
              exact ⟨rfl, rfl, hne, rfl, trivial⟩
            · rintro ⟨rfl, rfl, -, rfl, -⟩
              exact ⟨rfl, rfl, rfl⟩
          next h =>
            refine iff_of_false (by rintro ⟨⟩) ?_
            rintro ⟨-, -, hne, hold, hnew⟩
            refine h ⟨?_, Option.some.inj hnew⟩
            rw [Option.some.inj hold, Option.some.inj hnew]
            exact hne

/-- The move of a probe key is the only one of its document. -/
theorem mem_moves_iff (hi : i < 10000) {move : DataMove} :
    move ∈ (r.rebalancePlan newNode).moves ∧ move.documentId = ⟨probeKey i⟩ ↔
      r.probeMove newNode (probeKey i) = some move := by
  rw [rebalancePlan, List.mem_filterMap]
  constructor
  · rintro ⟨⟨j, -, hmove⟩, hid⟩
    have hkey := (probeMove_eq_some_iff.1 hmove).1
    rw [hkey] at hid
    have hij : j = i := probeKey_inj (DocumentId.mk.inj hid)
    rwa [hij] at hmove
  · intro hmove
    exact ⟨⟨i, List.mem_range.2 hi, hmove⟩, (probeMove_eq_some_iff.1 hmove).1⟩

/-- The present primary of a key is asked for it. -/
theorem getPrimary_mem_routeDocument (hring : ConsistentHashRing.Owned r.ring) (hrf : r.replicationFactor ≠ 0)
    {key : String} {id : NodeId} (h : r.ring.getPrimary key = some id) : id ∈ r.routeDocument ⟨key⟩ := by
  obtain ⟨n, hn⟩ : ∃ n, r.replicationFactor.toNat = n + 1 :=
    Nat.exists_eq_succ_of_ne_zero fun hzero => hrf (UInt8.toNat_inj.1 hzero)
  rw [← hring.head?_collectNodes key n, ← hn] at h
  rw [routeDocument_eq]
  exact List.mem_of_head? h

/-- A plan moves a key to a new node exactly if that is its primary in the future. -/
theorem exists_move_iff (hi : i < 10000) (hring : ConsistentHashRing.Owned r.ring)
    (hnew : ∀ pos : UInt64, r.ring.ring[pos]? ≠ some newNode.id) (hrf : r.replicationFactor ≠ 0) :
    (∃ move ∈ (r.rebalancePlan newNode).moves,
        move.documentId = ⟨probeKey i⟩ ∧ move.toNode = newNode.id) ↔
      r.ring.ring ≠ ∅ ∧ (r.futureRing newNode).getPrimary (probeKey i) = some newNode.id := by
  constructor
  · rintro ⟨move, hmem, hid, -⟩
    obtain ⟨-, -, -, hold, hfuture⟩ := probeMove_eq_some_iff.1 ((mem_moves_iff hi).1 ⟨hmem, hid⟩)
    refine ⟨fun hempty => ?_, hfuture⟩
    rw [(hring.getPrimary_eq_none_iff _).2 hempty] at hold
    cases hold
  · rintro ⟨hnonempty, hfuture⟩
    obtain ⟨id, hid⟩ := Option.ne_none_iff_exists'.1 (mt (hring.getPrimary_eq_none_iff (probeKey i)).1 hnonempty)
    have hne : id ≠ newNode.id := by
      rintro rfl
      have hroute := getPrimary_mem_routeDocument hring hrf hid
      rw [routeDocument_eq] at hroute
      obtain ⟨pos, hpos⟩ := ConsistentHashRing.collectNodes_subset_ring hroute
      exact hnew pos hpos
    have hmove : r.probeMove newNode (probeKey i) = some ⟨⟨probeKey i⟩, id, newNode.id⟩ :=
      probeMove_eq_some_iff.2 ⟨rfl, rfl, hne, hid, hfuture⟩
    exact ⟨_, ((mem_moves_iff hi).2 hmove).1, rfl, rfl⟩

/-- What a plan has to do with a key, in terms of the two primaries. -/
theorem planCovers_iff_primaries (hi : i < 10000) (hring : ConsistentHashRing.Owned r.ring)
    (hnew : ∀ pos : UInt64, r.ring.ring[pos]? ≠ some newNode.id) (hrf : r.replicationFactor ≠ 0) :
    r.PlanCovers newNode (probeKey i) ↔
      ((r.ring.ring ≠ ∅ ∧ (r.futureRing newNode).getPrimary (probeKey i) = some newNode.id) ↔
        newNode.id ∈ (r.futureRing newNode).collectNodes (probeKey i) r.replicationFactor.toNat) := by
  have hnodes : ((r.futureRing newNode).getNodes (probeKey i) r.replicationFactor.toNat).getD [] =
      (r.futureRing newNode).collectNodes (probeKey i) r.replicationFactor.toNat := by
    rw [ConsistentHashRing.getNodes_toNat, Option.getD_some]
  rw [← exists_move_iff hi hring hnew hrf, ← hnodes]
  refine ⟨fun h => h.moved_iff, fun h => ⟨h, fun move hmem hid => ?_⟩⟩
  obtain ⟨-, -, -, hold, -⟩ := probeMove_eq_some_iff.1 ((mem_moves_iff hi).1 ⟨hmem, hid⟩)
  exact getPrimary_mem_routeDocument hring hrf hold

/-- A ring with a node has a primary for every key. -/
theorem futureRing_ne_empty (r : ClusterRouter) (newNode : NodeInfo) : (r.futureRing newNode).ring ≠ ∅ :=
  ConsistentHashRing.ring_addNode_ne_empty r.ring newNode.id.toStr newNode.id

/-- On a ring that was empty the new node is the only one. -/
theorem mem_futureRing_of_empty (hempty : r.ring.ring = ∅) {id : NodeId} {key : String} {count : Nat}
    (h : id ∈ (r.futureRing newNode).collectNodes key count) : id = newNode.id := by
  obtain ⟨pos, hpos⟩ := ConsistentHashRing.collectNodes_subset_ring h
  rcases ConsistentHashRing.ring_addNode hpos with ⟨heq, -⟩ | hold
  · exact heq
  · rw [hempty] at hold
    simp at hold

theorem planCovers_iff_replicas (hi : i < 10000) (hring : ConsistentHashRing.Owned r.ring)
    (hnew : ∀ pos : UInt64, r.ring.ring[pos]? ≠ some newNode.id) (hrf : r.replicationFactor ≠ 0) :
    r.PlanCovers newNode (probeKey i) ↔ r.ring.ring ≠ ∅ ∧
      newNode.id ∉ ((r.futureRing newNode).collectNodes (probeKey i) r.replicationFactor.toNat).tail := by
  have hfuture : ConsistentHashRing.Owned (r.futureRing newNode) := hring.addNode _ _
  rw [planCovers_iff_primaries hi hring hnew hrf]
  obtain ⟨n, hn⟩ : ∃ n, r.replicationFactor.toNat = n + 1 :=
    Nat.exists_eq_succ_of_ne_zero fun hzero => hrf (UInt8.toNat_inj.1 hzero)
  have hhead := hfuture.head?_collectNodes (probeKey i) n
  have hnodup := hfuture.nodup_collectNodes (probeKey i) (n + 1)
  rw [hn]
  cases hnodes : (r.futureRing newNode).collectNodes (probeKey i) (n + 1) with
  | nil =>
      rw [hnodes] at hhead
      exact absurd ((hfuture.getPrimary_eq_none_iff _).1 hhead.symm) (futureRing_ne_empty r newNode)
  | cons id rest =>
      rw [hnodes, List.nodup_cons] at hnodup
      rw [← hhead, hnodes, List.head?_cons, List.tail_cons, Option.some.injEq, List.mem_cons]
      by_cases hempty : r.ring.ring = ∅
      · have hid : id = newNode.id := mem_futureRing_of_empty hempty (hnodes ▸ List.mem_cons_self)
        simp [hempty, hid]
      · by_cases hid : id = newNode.id
        · subst hid
          simp [hempty, hnodup.1]
        · simp [hempty, hid, Ne.symm hid]

end Moves

/-! ## Routers -/

section Routers

variable {nodes : List NodeInfo} {rf : UInt8} {calls : List RouterCall} {newNode : NodeInfo}

theorem owned_ring_run (nodes : List NodeInfo) (rf : UInt8) (calls : List RouterCall) :
    ConsistentHashRing.Owned (run nodes rf calls).ring := by
  have hnew : ConsistentHashRing.Owned (new nodes rf).ring := by
    rw [ring_new]
    exact ConsistentHashRing.owned_run _
  refine List.foldlRecOn (motive := fun r => ConsistentHashRing.Owned r.ring) calls exec hnew fun r hr call _ => ?_
  cases call with
  | addNode node => exact hr.addNode _ _
  | removeNode id => exact hr.removeNode _

/-- **When a plan covers the data of the new node.** For every router and every new node
that is not on its ring, the plan does what it should for a probe key exactly when the
present ring has a node and the new node will not be a further replica of the key. -/
theorem planCovers_iff (nodes : List NodeInfo) (rf : UInt8) (calls : List RouterCall) (newNode : NodeInfo)
    (hrf : rf ≠ 0) (hnew : ¬ (run nodes rf calls).OnRing newNode.id) {i : Nat} (hi : i < 10000) :
    (run nodes rf calls).PlanCovers newNode (probeKey i) ↔ (run nodes rf calls).ring.ring ≠ ∅ ∧
      newNode.id ∉ ((((run nodes rf calls).futureRing newNode).getNodes (probeKey i) rf.toNat).getD []).tail := by
  have hfactor := replicationFactor_run nodes rf calls
  have habsent : ∀ pos : UInt64, (run nodes rf calls).ring.ring[pos]? ≠ some newNode.id :=
    fun pos hpos => hnew ((aligned_run nodes rf calls).entry pos newNode.id hpos).1
  rw [planCovers_iff_replicas hi (owned_ring_run nodes rf calls) habsent (hfactor.symm ▸ hrf), hfactor,
    ConsistentHashRing.getNodes_toNat, Option.getD_some]

end Routers

end ClusterRouter

/-! ## Two nodes -/

namespace ClusterRouter

/-- A cluster of the node `1`. -/
def oneNode (rf : UInt8) : ClusterRouter := run [⟨1, .leader⟩] rf []

theorem ring_oneNode (rf : UInt8) : (oneNode rf).ring = ConsistentHashRing.new.addNode "1" 1 := rfl

theorem not_onRing_oneNode (rf : UInt8) : ¬ (oneNode rf).OnRing 2 := by
  rw [OnRing, ring_oneNode, ConsistentHashRing.mem_nodes_addNode]
  rintro (h | h)
  · exact absurd h (by decide)
  · simp [ConsistentHashRing.new] at h

theorem ring_oneNode_ne_empty (rf : UInt8) : (oneNode rf).ring.ring ≠ ∅ :=
  ConsistentHashRing.ring_addNode_ne_empty ConsistentHashRing.new "1" 1

/-- Without further replicas the plan covers every probe key. -/
theorem planCovers_oneNode : (oneNode 1).PlanCovers ⟨2, .follower⟩ (probeKey 0) := by
  refine (planCovers_iff [⟨1, .leader⟩] 1 [] ⟨2, .follower⟩ (by decide) (not_onRing_oneNode 1) (by decide)).2
    ⟨ring_oneNode_ne_empty 1, fun hmem => ?_⟩
  have howned : ConsistentHashRing.Owned ((oneNode 1).futureRing ⟨2, .follower⟩) :=
    (owned_ring_run _ _ _).addNode _ _
  have hlength := List.length_pos_of_mem hmem
  rw [← oneNode, ConsistentHashRing.getNodes_toNat, Option.getD_some, List.length_tail, howned.collectNodes_eq_take,
    List.length_take] at hlength
  have hone : (1 : UInt8).toNat = 1 := rfl
  omega

/-- From the first probe key on, the node `1` comes before the node `2`. -/
theorem probe_before_two :
    ConsistentHashRing.hashToPosition (probeKey 0) = 17123182808046995094 ∧
      ConsistentHashRing.position "1" 31 = 17174417925646283739 ∧
      ((List.range virtualNodes).all fun j =>
        ConsistentHashRing.distance 17123182808046995094 17174417925646283739 <
          ConsistentHashRing.distance 17123182808046995094 (ConsistentHashRing.position "2" j)) = true := by
  decide +kernel

/-- The ring of the two nodes. -/
theorem ring_futureRing_oneNode {rf : UInt8} {pos : UInt64} {id : NodeId}
    (h : ((oneNode rf).futureRing ⟨2, .follower⟩).ring[pos]? = some id) :
    id = 1 ∨ ∃ j < virtualNodes, ConsistentHashRing.position "2" j = pos := by
  rcases ConsistentHashRing.ring_addNode h with ⟨-, hpos⟩ | hold
  · exact .inr hpos
  · rw [ring_oneNode] at hold
    rcases ConsistentHashRing.ring_addNode hold with ⟨hid, -⟩ | hnone
    · exact .inl hid
    · simp [ConsistentHashRing.new] at hnone

theorem size_futureRing_oneNode (rf : UInt8) : ((oneNode rf).futureRing ⟨2, .follower⟩).nodes.size ≤ 2 := by
  have habsent : ¬ "2" ∈ (oneNode rf).ring.nodes := not_onRing_oneNode rf
  have hone : (oneNode rf).ring.nodes.size ≤ 1 := ExtTreeMap.size_insert_le
  have htwo : ((oneNode rf).futureRing ⟨2, .follower⟩).nodes = (oneNode rf).ring.nodes.insert "2" 2 := by
    change ((oneNode rf).ring.removeNode "2").nodes.insert "2" 2 = _
    rw [ConsistentHashRing.removeNode, if_neg habsent]
  rw [htwo]
  exact ExtTreeMap.size_insert_le.trans (Nat.succ_le_succ hone)

/-- The primary of the first probe key stays the node `1`. -/
theorem getPrimary_futureRing_oneNode (rf : UInt8) :
    ((oneNode rf).futureRing ⟨2, .follower⟩).getPrimary (probeKey 0) = some 1 := by
  obtain ⟨hkey, hposition, hbefore⟩ := probe_before_two
  have hlt : ∀ j < virtualNodes,
      ConsistentHashRing.distance (ConsistentHashRing.hashToPosition (probeKey 0))
          (ConsistentHashRing.position "1" 31) <
        ConsistentHashRing.distance (ConsistentHashRing.hashToPosition (probeKey 0))
          (ConsistentHashRing.position "2" j) := by
    intro j hj
    rw [hkey, hposition]
    exact of_decide_eq_true (List.all_eq_true.1 hbefore j (List.mem_range.2 hj))
  have howned : ConsistentHashRing.Owned ((oneNode rf).futureRing ⟨2, .follower⟩) :=
    (owned_ring_run [⟨1, .leader⟩] rf []).addNode _ _
  have hfirst : ((oneNode rf).futureRing ⟨2, .follower⟩).ring[ConsistentHashRing.position "1" 31]? = some 1 := by
    refine ConsistentHashRing.ring_addNode_of_ne (fun j hj heq => ?_) ?_
    · have hself := hlt j hj
      change ConsistentHashRing.position "2" j = _ at heq
      rw [heq] at hself
      exact Nat.lt_irrefl _ hself
    · have habsent : ¬ "2" ∈ (oneNode rf).ring.nodes := not_onRing_oneNode rf
      change ((oneNode rf).ring.removeNode "2").ring[ConsistentHashRing.position "1" 31]? = some 1
      rw [ConsistentHashRing.removeNode, if_neg habsent, ring_oneNode]
      exact ConsistentHashRing.ring_addNode_position _ _ _ (by decide)
  refine howned.getPrimary_of_closest hfirst fun pos id hpos hne => ?_
  rcases ring_futureRing_oneNode hpos with rfl | ⟨j, hj, rfl⟩
  · exact absurd rfl hne
  · exact hlt j hj

/-- The node `2` gets the first probe key as a further replica, and the plan of the node has
no move of it. -/
theorem not_planCovers_oneNode : ¬ (oneNode 2).PlanCovers ⟨2, .follower⟩ (probeKey 0) := by
  have hone : ConsistentHashRing.Owned (oneNode 2).ring := owned_ring_run [⟨1, .leader⟩] 2 []
  have howned : ConsistentHashRing.Owned ((oneNode 2).futureRing ⟨2, .follower⟩) := hone.addNode _ _
  have habsent : ∀ pos : UInt64, (oneNode 2).ring.ring[pos]? ≠ some 2 :=
    fun pos hpos => not_onRing_oneNode 2 ((aligned_run [⟨1, .leader⟩] 2 []).entry pos 2 hpos).1
  rw [planCovers_iff_primaries (by decide) hone habsent (by decide), getPrimary_futureRing_oneNode]
  -- both nodes are replicas of every key
  have hmem : (2 : NodeId) ∈ ((oneNode 2).futureRing ⟨2, .follower⟩).collectNodes (probeKey 0) 2 := by
    have hlength := ConsistentHashRing.length_firsts_walk ((oneNode 2).futureRing ⟨2, .follower⟩)
      (ConsistentHashRing.hashToPosition (probeKey 0))
    have hbound := howned.length_nodesOnRing_le.trans (size_futureRing_oneNode 2)
    rw [howned.collectNodes_eq_take, List.take_of_length_le (hlength.trans_le hbound), mem_firsts,
      ConsistentHashRing.map_snd_walk, ConsistentHashRing.mem_clockwise]
    exact ⟨_, ConsistentHashRing.ring_addNode_position (oneNode 2).ring "2" 2 (i := 0) (by decide)⟩
  intro h
  exact absurd (h.2 hmem).2 (by decide)

end ClusterRouter

end MSearchDB.Core
