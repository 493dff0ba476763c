import MSearchDB.Core.Query
import MSearchDB.Core.RingDisruption

/-!
# Cluster routing

`ClusterRouter` of `crates/core/src/cluster_router.rs`, over the hash ring, with the
types of `crates/core/src/cluster.rs` it reads. The router keeps a node in two places:
on the ring, which places documents, and in the table of the nodes, which has their
status.

Whatever the calls, the ring holds a node at its own positions only and the table
knows every member (`aligned_run`). Routing is then a matter of the status of the
members: the router sends work to healthy nodes exactly when no member is offline
(`routesHealthy_of_membersOnline`, `mem_routeDocument_vnodeKey`). `remove_node` takes
an offline node off the ring; `new` and `add_node` put one on it.
-/

set_option autoImplicit false

namespace MSearchDB.Core

open MSearchDB.Lib
open Std

/-- `NodeId`: a newtype over `u64`. -/
abbrev NodeId := UInt64

/-- `NodeStatus`. -/
inductive NodeStatus where
  | leader
  | follower
  | candidate
  | offline
  deriving DecidableEq, Repr

/-- `NodeInfo`, without the address, which only the transport reads. -/
structure NodeInfo where
  id : NodeId
  status : NodeStatus
  deriving DecidableEq, Repr

/-- `id.as_u64().to_string()`: the name of a node on the ring. -/
def NodeId.toStr (id : NodeId) : String := toString id.toNat

theorem NodeId.toStr_inj {id id' : NodeId} : id.toStr = id'.toStr ↔ id = id' := by
  constructor
  · intro h
    have hrepr : Nat.repr id.toNat = Nat.repr id'.toNat := h
    exact UInt64.toNat_inj.1 (Nat.repr_inj.1 hrepr)
  · exact fun h => h ▸ rfl

/-! ## The ring under a node that joins or leaves -/

namespace ConsistentHashRing

variable {T : Type}

/-- The walk from an occupied position starts there. -/
theorem clockwise_of_getElem? {r : ConsistentHashRing T} {p : UInt64} {v : T}
    (h : r.ring[p]? = some v) : ∃ rest, r.clockwise p = v :: rest := by
  have hmem := ExtTreeMap.mem_toList_iff_getElem?_eq_some.2 h
  obtain ⟨before, after, hsplit⟩ := List.append_of_mem hmem
  have hsorted := ExtTreeMap.ordered_keys_toList (t := r.ring)
  rw [hsplit, List.pairwise_append] at hsorted
  -- the entries are in order, so those before are at smaller positions
  have hbefore : before.filter (fun entry => decide (p ≤ entry.1)) = [] := by
    refine List.filter_eq_nil_iff.2 fun entry hentry => ?_
    have hlt : compare entry.1 p = .lt := hsorted.2.2 entry hentry (p, v) (by simp)
    simpa using compare_eq_lt.1 hlt
  refine ⟨(after.filter (fun entry => decide (p ≤ entry.1))).map Prod.snd ++
    (r.ring.toList.filter fun entry => entry.1 < p).map Prod.snd, ?_⟩
  rw [clockwise, List.map_append]
  rw [hsplit, List.filter_append, hbefore, List.nil_append, List.filter_cons_of_pos (by simp)]
  simp

theorem mem_nodes_iff {r : ConsistentHashRing T} {id : String} :
    id ∈ r.nodes ↔ ∃ v, r.nodes[id]? = some v := by
  rw [ExtTreeMap.mem_iff_isSome_getElem?, Option.isSome_iff_exists]

variable [Sha256]

theorem collectNodes_subset_ring [DecidableEq T] {r : ConsistentHashRing T} {key : String} {count : Nat}
    {v : T} (h : v ∈ r.collectNodes key count) : ∃ pos : UInt64, r.ring[pos]? = some v := by
  rw [collectNodes_eq] at h
  have hfirst := List.mem_of_mem_take h
  rw [mem_firsts] at hfirst
  exact mem_clockwise.1 hfirst

/-- The node at the position of a key is the first of its nodes. -/
theorem mem_collectNodes_of_getElem? [DecidableEq T] {r : ConsistentHashRing T} {key id : String}
    {count : Nat} {v : T} (h : r.ring[hashToPosition key]? = some v) (hnode : id ∈ r.nodes)
    (hcount : 0 < count) : v ∈ r.collectNodes key count := by
  obtain ⟨rest, hrest⟩ := clockwise_of_getElem? h
  have hsize : 0 < r.nodes.size := by
    refine Nat.pos_of_ne_zero fun hzero => ?_
    rw [ExtTreeMap.eq_empty_iff_size_eq_zero.2 hzero] at hnode
    simp at hnode
  obtain ⟨n, hn⟩ : ∃ n, min r.nodes.size count = n + 1 := ⟨min r.nodes.size count - 1, by omega⟩
  rw [collectNodes_eq, hrest, hn, firsts, List.take_succ_cons]
  exact List.mem_cons_self

/-- A node that is added holds all its positions. -/
theorem ring_addNode_position (r : ConsistentHashRing T) (id : String) (v : T) {i : Nat}
    (hi : i < virtualNodes) : (r.addNode id v).ring[position id i]? = some v := by
  rw [addNode]
  exact (getElem?_foldl_insert (position id) v v _ _ _).2
    (.inl ⟨⟨i, List.mem_range.2 hi, rfl⟩, rfl⟩)

/-- What is on the ring after a node left was there before, at no position of the
node when it was a member. -/
theorem ring_removeNode {r : ConsistentHashRing T} {id : String} {pos : UInt64} {v : T}
    (h : (r.removeNode id).ring[pos]? = some v) :
    r.ring[pos]? = some v ∧ (id ∈ r.nodes → ∀ i < virtualNodes, position id i ≠ pos) := by
  rw [removeNode] at h
  split at h
  case isTrue hmem =>
      obtain ⟨hfree, hv⟩ := (getElem?_foldl_erase (position id) v pos _ _).1 h
      exact ⟨hv, fun _ i hi => hfree i (List.mem_range.2 hi)⟩
  case isFalse hmem => exact ⟨h, fun hmem' => absurd hmem' hmem⟩

/-- What is on the ring after a node joined is the node at one of its positions, or
was there before. -/
theorem ring_addNode {r : ConsistentHashRing T} {id : String} {value : T} {pos : UInt64} {v : T}
    (h : (r.addNode id value).ring[pos]? = some v) :
    (v = value ∧ ∃ i < virtualNodes, position id i = pos) ∨ r.ring[pos]? = some v := by
  rw [addNode] at h
  rcases (getElem?_foldl_insert (position id) value v pos _ _).1 h with ⟨⟨i, hi, hpos⟩, rfl⟩ | ⟨-, hv⟩
  · exact .inl ⟨rfl, i, List.mem_range.1 hi, hpos⟩
  · exact .inr (ring_removeNode hv).1

theorem mem_nodes_removeNode {r : ConsistentHashRing T} {id id' : String} :
    id' ∈ (r.removeNode id).nodes ↔ id ≠ id' ∧ id' ∈ r.nodes := by
  rw [mem_nodes_iff, mem_nodes_iff, nodes_removeNode]
  by_cases h : id = id'
  · simp [h]
  · simp [h]

theorem mem_nodes_addNode {r : ConsistentHashRing T} {id id' : String} {v : T} :
    id' ∈ (r.addNode id v).nodes ↔ id = id' ∨ id' ∈ r.nodes := by
  rw [mem_nodes_iff, mem_nodes_iff, nodes_addNode]
  by_cases h : id = id'
  · simp [h]
  · simp [h]

end ConsistentHashRing

/-! ## The router -/

/-- `ClusterRouter`. -/
structure ClusterRouter where
  ring : ConsistentHashRing NodeId
  nodes : ExtTreeMap NodeId NodeInfo
  replicationFactor : UInt8

/-- A call of a method that changes the router. -/
inductive RouterCall where
  | addNode (node : NodeInfo)
  | removeNode (nodeId : NodeId)
  deriving DecidableEq

/-- The call adds no node that is offline. -/
def RouterCall.Online : RouterCall → Prop
  | .addNode node => node.status ≠ .offline
  | .removeNode _ => True

namespace ClusterRouter

variable [Sha256]

/-- `ClusterRouter::new`: the loop over the nodes, with the ring and the table. -/
def new (nodes : List NodeInfo) (replicationFactor : UInt8) : ClusterRouter :=
  let (ring, nodeMap) := nodes.foldl
    (fun (ring, nodeMap) node =>
      (ConsistentHashRing.addNode ring node.id.toStr node.id, ExtTreeMap.insert nodeMap node.id node))
    (ConsistentHashRing.new, ∅)
  ⟨ring, nodeMap, replicationFactor⟩

/-- `route_document`: `get_nodes` does not panic for a factor (`routeDocument_eq`). -/
def routeDocument (r : ClusterRouter) (docId : DocumentId) : List NodeId :=
  (r.ring.getNodes docId.val r.replicationFactor.toNat).getD []

theorem routeDocument_eq (r : ClusterRouter) (docId : DocumentId) :
    r.routeDocument docId = r.ring.collectNodes docId.val r.replicationFactor.toNat := by
  rw [routeDocument, ConsistentHashRing.getNodes_toNat, Option.getD_some]

omit [Sha256] in
/-- `healthy_nodes`. The source lists them in the order of its hash table. -/
def healthyNodes (r : ClusterRouter) : List NodeInfo :=
  (r.nodes.toList.map Prod.snd).filter fun n => n.status ≠ .offline

/-- `route_query`: the replicas of a term on `_id`, else every healthy node. -/
def routeQuery (r : ClusterRouter) (query : Query) (_collection : String) : List NodeId :=
  match query with
  | .term term =>
      if term.field = "_id" then (r.ring.getNodes term.value r.replicationFactor.toNat).getD []
      else r.healthyNodes.map NodeInfo.id
  | _ => r.healthyNodes.map NodeInfo.id

/-- `add_node`. -/
def addNode (r : ClusterRouter) (node : NodeInfo) : ClusterRouter :=
  { r with
    ring := r.ring.addNode node.id.toStr node.id
    nodes := r.nodes.insert node.id node }

/-- `remove_node`. -/
def removeNode (r : ClusterRouter) (nodeId : NodeId) : ClusterRouter :=
  { r with
    ring := r.ring.removeNode nodeId.toStr
    nodes :=
      match r.nodes[nodeId]? with
      | some info => r.nodes.insert nodeId { info with status := .offline }
      | none => r.nodes }

/-- The router after a call. -/
def exec (r : ClusterRouter) : RouterCall → ClusterRouter
  | .addNode node => r.addNode node
  | .removeNode nodeId => r.removeNode nodeId

/-- The router after calls on a new one. -/
def run (nodes : List NodeInfo) (replicationFactor : UInt8) (calls : List RouterCall) : ClusterRouter :=
  calls.foldl exec (new nodes replicationFactor)

/-- Every node that work is routed to is among the healthy nodes. -/
def RoutesHealthy (r : ClusterRouter) : Prop :=
  (∀ docId, ∀ id ∈ r.routeDocument docId, id ∈ r.healthyNodes.map NodeInfo.id) ∧
    ∀ query collection, ∀ id ∈ r.routeQuery query collection, id ∈ r.healthyNodes.map NodeInfo.id

/-- A node is a member of the ring. -/
def OnRing (r : ClusterRouter) (id : NodeId) : Prop := id.toStr ∈ r.ring.nodes

instance (r : ClusterRouter) (id : NodeId) : Decidable (r.OnRing id) :=
  inferInstanceAs (Decidable (id.toStr ∈ r.ring.nodes))

/-- The ring holds nodes at their own positions, the table knows the members, and
its keys are the ids of its values. -/
structure Aligned (r : ClusterRouter) : Prop where
  entry : ∀ (pos : UInt64) (id : NodeId), r.ring.ring[pos]? = some id →
    r.OnRing id ∧ ∃ i < virtualNodes, ConsistentHashRing.position id.toStr i = pos
  member : ∀ id, r.OnRing id → ∃ info, r.nodes[id]? = some info
  keyed : ∀ (id : NodeId) (info : NodeInfo), r.nodes[id]? = some info → info.id = id

/-- No member of the ring is offline in the table. -/
def MembersOnline (r : ClusterRouter) : Prop :=
  ∀ (id : NodeId) (info : NodeInfo), r.OnRing id → r.nodes[id]? = some info → info.status ≠ .offline

/-! ## Every step keeps the two places aligned -/

section Steps

variable {r : ClusterRouter} {id id' : NodeId}

theorem onRing_addNode {node : NodeInfo} : (r.addNode node).OnRing id ↔ node.id = id ∨ r.OnRing id := by
  rw [OnRing, addNode, ConsistentHashRing.mem_nodes_addNode, NodeId.toStr_inj, OnRing]

theorem onRing_removeNode : (r.removeNode id').OnRing id ↔ id' ≠ id ∧ r.OnRing id := by
  rw [OnRing, removeNode, ConsistentHashRing.mem_nodes_removeNode, Ne, NodeId.toStr_inj, OnRing]

theorem nodes_addNode (r : ClusterRouter) (node : NodeInfo) (id : NodeId) :
    (r.addNode node).nodes[id]? = if node.id = id then some node else r.nodes[id]? := by
  rw [addNode, ExtTreeMap.getElem?_insert]
  simp

theorem nodes_removeNode (r : ClusterRouter) (id' id : NodeId) :
    (r.removeNode id').nodes[id]? =
      if id' = id then r.nodes[id]?.map fun info => { info with status := .offline }
      else r.nodes[id]? := by
  rw [removeNode]
  by_cases hid : id' = id
  · subst hid
    cases hinfo : r.nodes[id']? with
    | none => simp [hinfo]
    | some info => simp
  · cases hinfo : r.nodes[id']? with
    | none => simp [hid]
    | some info => simp [ExtTreeMap.getElem?_insert, hid]

theorem Aligned.addNode (hr : r.Aligned) (node : NodeInfo) : (r.addNode node).Aligned where
  entry := by
    intro pos v hv
    rcases ConsistentHashRing.ring_addNode hv with ⟨rfl, hpos⟩ | hv
    · exact ⟨onRing_addNode.2 (.inl rfl), hpos⟩
    · obtain ⟨hon, hpos⟩ := hr.entry pos v hv
      exact ⟨onRing_addNode.2 (.inr hon), hpos⟩
  member := by
    intro v hv
    rw [nodes_addNode]
    rcases onRing_addNode.1 hv with rfl | hv
    · exact ⟨node, by simp⟩
    · obtain ⟨info, hinfo⟩ := hr.member v hv
      by_cases hid : node.id = v
      · exact ⟨node, by simp [hid]⟩
      · exact ⟨info, by simpa [hid] using hinfo⟩
  keyed := by
    intro v info hinfo
    rw [nodes_addNode] at hinfo
    split at hinfo
    · cases hinfo
      assumption
    · exact hr.keyed v info hinfo

theorem Aligned.removeNode (hr : r.Aligned) (id : NodeId) : (r.removeNode id).Aligned where
  entry := by
    intro pos v hv
    obtain ⟨hold, hfree⟩ := ConsistentHashRing.ring_removeNode hv
    obtain ⟨hon, i, hi, hpos⟩ := hr.entry pos v hold
    -- the positions of the node that left are free
    have hne : id ≠ v := by
      rintro rfl
      exact hfree hon i hi hpos
    exact ⟨onRing_removeNode.2 ⟨hne, hon⟩, i, hi, hpos⟩
  member := by
    intro v hv
    obtain ⟨hne, hon⟩ := onRing_removeNode.1 hv
    rw [nodes_removeNode, if_neg hne]
    exact hr.member v hon
  keyed := by
    intro v info hinfo
    rw [nodes_removeNode] at hinfo
    split at hinfo
    · obtain ⟨old, hold, rfl⟩ := Option.map_eq_some_iff.1 hinfo
      exact hr.keyed v old hold
    · exact hr.keyed v info hinfo

theorem MembersOnline.addNode (hr : r.MembersOnline) {node : NodeInfo}
    (hnode : node.status ≠ .offline) : (r.addNode node).MembersOnline := by
  intro v info hv hinfo
  rw [nodes_addNode] at hinfo
  split at hinfo
  case isTrue =>
      cases hinfo
      exact hnode
  case isFalse hne => exact hr v info ((onRing_addNode.1 hv).resolve_left hne) hinfo

theorem MembersOnline.removeNode (hr : r.MembersOnline) (id : NodeId) :
    (r.removeNode id).MembersOnline := by
  intro v info hv hinfo
  obtain ⟨hne, hon⟩ := onRing_removeNode.1 hv
  rw [nodes_removeNode, if_neg hne] at hinfo
  exact hr v info hon hinfo

end Steps

/-! ## New routers -/

/-- The loop of `new` adds the nodes one after the other. -/
theorem new_eq_foldl (nodes : List NodeInfo) (rf : UInt8) :
    new nodes rf = nodes.foldl addNode ⟨ConsistentHashRing.new, ∅, rf⟩ := by
  -- for every ring and table the loop may have built so far
  have hloop : ∀ (ring : ConsistentHashRing NodeId) (nodeMap : ExtTreeMap NodeId NodeInfo),
      nodes.foldl addNode ⟨ring, nodeMap, rf⟩ =
        (let (ring, nodeMap) := nodes.foldl
            (fun (ring, nodeMap) node =>
              (ConsistentHashRing.addNode ring node.id.toStr node.id,
                ExtTreeMap.insert nodeMap node.id node))
            (ring, nodeMap)
        (⟨ring, nodeMap, rf⟩ : ClusterRouter)) := by
    induction nodes with
    | nil => exact fun ring nodeMap => rfl
    | cons node nodes ih =>
        intro ring nodeMap
        rw [List.foldl_cons, List.foldl_cons, addNode, ih]
  rw [new, hloop]

theorem aligned_new (nodes : List NodeInfo) (rf : UInt8) : (new nodes rf).Aligned := by
  rw [new_eq_foldl]
  refine List.foldlRecOn nodes addNode ?_ fun r hr node _ => hr.addNode node
  constructor
  · intro pos id h
    simp [ConsistentHashRing.new] at h
  · intro id h
    simp [OnRing, ConsistentHashRing.new] at h
  · intro id info h
    simp at h

theorem aligned_run (nodes : List NodeInfo) (rf : UInt8) (calls : List RouterCall) :
    (run nodes rf calls).Aligned := by
  refine List.foldlRecOn calls exec (aligned_new nodes rf) fun r hr call _ => ?_
  cases call with
  | addNode node => exact hr.addNode node
  | removeNode id => exact hr.removeNode id

theorem new_concat (nodes : List NodeInfo) (node : NodeInfo) (rf : UInt8) :
    new (nodes ++ [node]) rf = (new nodes rf).addNode node := by
  rw [new_eq_foldl, new_eq_foldl, List.foldl_append, List.foldl_cons, List.foldl_nil]

/-- The last entry of a list for a node. -/
def lastOf (nodes : List NodeInfo) (id : NodeId) : Option NodeInfo :=
  nodes.reverse.find? fun node => node.id = id

theorem nodes_new (nodes : List NodeInfo) (rf : UInt8) (id : NodeId) :
    (new nodes rf).nodes[id]? = lastOf nodes id := by
  induction nodes using List.reverseRecOn with
  | nil => simp [new, lastOf]
  | append_singleton nodes node ih =>
      rw [new_concat, nodes_addNode, ih]
      by_cases hid : node.id = id
      · simp [lastOf, hid]
      · simp [lastOf, hid]

/-- The ring of a new router is that of its nodes. -/
theorem ring_new (nodes : List NodeInfo) (rf : UInt8) :
    (new nodes rf).ring =
      ConsistentHashRing.run (nodes.map fun node => .addNode node.id.toStr node.id) := by
  induction nodes using List.reverseRecOn with
  | nil => rfl
  | append_singleton nodes node ih =>
      rw [new_concat, List.map_append, List.map_singleton, ConsistentHashRing.run_concat, ← ih]
      rfl

theorem onRing_new {nodes : List NodeInfo} {rf : UInt8} {id : NodeId} {info : NodeInfo}
    (h : lastOf nodes id = some info) : (new nodes rf).ring.nodes[id.toStr]? = some id := by
  induction nodes using List.reverseRecOn with
  | nil => simp [lastOf] at h
  | append_singleton nodes node ih =>
      rw [new_concat, addNode, ConsistentHashRing.nodes_addNode]
      simp only [NodeId.toStr_inj]
      by_cases hid : node.id = id
      · simp [hid]
      · rw [if_neg hid]
        exact ih (by simpa [lastOf, hid] using h)

theorem replicationFactor_run (nodes : List NodeInfo) (rf : UInt8) (calls : List RouterCall) :
    (run nodes rf calls).replicationFactor = rf := by
  refine List.foldlRecOn (motive := fun r => r.replicationFactor = rf) calls exec ?_ fun r hr call _ => ?_
  · rw [new]
  · cases call with
    | addNode node => rw [exec, addNode, hr]
    | removeNode id => rw [exec, removeNode, hr]

/-! ## Where work goes -/

section Routing

variable {r : ClusterRouter}

theorem Aligned.mem_healthyNodes (hr : r.Aligned) {id : NodeId} :
    id ∈ r.healthyNodes.map NodeInfo.id ↔ ∃ info, r.nodes[id]? = some info ∧ info.status ≠ .offline := by
  rw [List.mem_map]
  constructor
  · rintro ⟨info, hinfo, rfl⟩
    obtain ⟨hvalue, hstatus⟩ := List.mem_filter.1 hinfo
    obtain ⟨⟨k, _⟩, hentry, rfl⟩ := List.mem_map.1 hvalue
    have hk := ExtTreeMap.mem_toList_iff_getElem?_eq_some.1 hentry
    rw [hr.keyed k _ hk]
    exact ⟨_, hk, by simpa using hstatus⟩
  · rintro ⟨info, hinfo, hstatus⟩
    have hentry := ExtTreeMap.mem_toList_iff_getElem?_eq_some.2 hinfo
    have hvalue := List.mem_map_of_mem (f := Prod.snd) hentry
    exact ⟨info, List.mem_filter.2 ⟨hvalue, by simpa using hstatus⟩, hr.keyed id info hinfo⟩

/-- Every node the ring gives a key is healthy. -/
theorem Aligned.collectNodes_healthy (hr : r.Aligned) (hon : r.MembersOnline) {key : String}
    {count : Nat} {id : NodeId} (h : id ∈ r.ring.collectNodes key count) :
    id ∈ r.healthyNodes.map NodeInfo.id := by
  obtain ⟨pos, hpos⟩ := ConsistentHashRing.collectNodes_subset_ring h
  obtain ⟨hring, -⟩ := hr.entry pos id hpos
  obtain ⟨info, hinfo⟩ := hr.member id hring
  exact hr.mem_healthyNodes.2 ⟨info, hinfo, hon id info hring hinfo⟩

/-- Scattering goes to healthy nodes, so that only the keys matter. -/
theorem routesHealthy_of_collectNodes (h : ∀ key, ∀ id ∈ r.ring.collectNodes key r.replicationFactor.toNat,
    id ∈ r.healthyNodes.map NodeInfo.id) : r.RoutesHealthy := by
  refine ⟨fun docId id hid => h docId.val id (r.routeDocument_eq docId ▸ hid), fun query collection id hid => ?_⟩
  cases query with
  | term term =>
      rw [routeQuery] at hid
      split at hid
      · rw [ConsistentHashRing.getNodes_toNat] at hid
        exact h term.value id hid
      · exact hid
  | fullText q => exact hid
  | range q => exact hid
  | bool must should mustNot => exact hid

theorem routesHealthy_of_membersOnline (hr : r.Aligned) (hon : r.MembersOnline) : r.RoutesHealthy :=
  routesHealthy_of_collectNodes fun _ _ hid => hr.collectNodes_healthy hon hid

/-- The key of a virtual node is routed to the node at its position. -/
theorem mem_routeDocument_vnodeKey (hrf : r.replicationFactor ≠ 0) {id : NodeId} (hon : r.OnRing id)
    {i : Nat} (hpos : r.ring.ring[ConsistentHashRing.position id.toStr i]? = some id) :
    id ∈ r.routeDocument ⟨vnodeKey id.toStr i⟩ := by
  rw [routeDocument_eq]
  refine ConsistentHashRing.mem_collectNodes_of_getElem? hpos hon (Nat.pos_of_ne_zero fun hzero => hrf ?_)
  exact UInt8.toNat_inj.1 hzero

/-- A healthy routing has no offline node at a position of its own. -/
theorem RoutesHealthy.online (h : r.RoutesHealthy) (hr : r.Aligned) (hrf : r.replicationFactor ≠ 0)
    {id : NodeId} (hon : r.OnRing id) {i : Nat}
    (hpos : r.ring.ring[ConsistentHashRing.position id.toStr i]? = some id) {info : NodeInfo}
    (hinfo : r.nodes[id]? = some info) : info.status ≠ .offline := by
  have hroute := h.1 _ id (mem_routeDocument_vnodeKey hrf hon hpos)
  obtain ⟨info', hinfo', hstatus⟩ := hr.mem_healthyNodes.1 hroute
  rw [hinfo] at hinfo'
  cases hinfo'
  exact hstatus

end Routing

/-! ## Runs -/

section Runs

variable {nodes : List NodeInfo} {rf : UInt8} {calls : List RouterCall}

/-- The last entry of the list for a node is not offline. -/
def LastOnline (nodes : List NodeInfo) : Prop :=
  ∀ id info, lastOf nodes id = some info → info.status ≠ .offline

theorem membersOnline_run (hnodes : LastOnline nodes) (hcalls : ∀ call ∈ calls, call.Online) :
    (run nodes rf calls).MembersOnline := by
  refine List.foldlRecOn calls exec ?_ fun r hr call hcall => ?_
  · intro id info _ hinfo
    rw [nodes_new] at hinfo
    exact hnodes id info hinfo
  · cases call with
    | addNode node => exact hr.addNode (hcalls _ hcall)
    | removeNode id => exact hr.removeNode id

/-- Without replicas the keys have no nodes. -/
theorem routesHealthy_of_no_replicas {r : ClusterRouter} (hrf : r.replicationFactor = 0) :
    r.RoutesHealthy := by
  refine routesHealthy_of_collectNodes fun key id hid => ?_
  rw [hrf, ConsistentHashRing.collectNodes] at hid
  simp [collectDistinct_of_le] at hid

theorem routesHealthy_run_of_online
    (h : rf = 0 ∨ LastOnline nodes ∧ ∀ call ∈ calls, call.Online) : (run nodes rf calls).RoutesHealthy := by
  rcases h with hrf | ⟨hnodes, hcalls⟩
  · exact routesHealthy_of_no_replicas ((replicationFactor_run nodes rf calls).trans hrf)
  · exact routesHealthy_of_membersOnline (aligned_run nodes rf calls) (membersOnline_run hnodes hcalls)

theorem lastOnline_of_routesHealthy (hrf : rf ≠ 0)
    (hinj : Set.InjOn ConsistentHashRing.hashToPosition (vnodeKeys {s | ∃ node ∈ nodes, s = node.id.toStr}))
    (h : (new nodes rf).RoutesHealthy) : LastOnline nodes := by
  intro id info hlast
  have hmember : (new nodes rf).ring.nodes[id.toStr]? = some id := onRing_new hlast
  have hids : RingCall.ids (nodes.map fun node => RingCall.addNode node.id.toStr node.id) ⊆
      {s | ∃ node ∈ nodes, s = node.id.toStr} := by
    intro s hs
    obtain ⟨call, hcall, rfl⟩ := List.mem_map.1 hs
    obtain ⟨node, hnode, rfl⟩ := List.mem_map.1 hcall
    exact ⟨node, hnode, rfl⟩
  -- no other node took the positions of this one
  have hplaced := ConsistentHashRing.placed_run _ (hinj.mono (vnodeKeys_mono hids))
  rw [← ring_new nodes rf] at hplaced
  have hpos := (hplaced (ConsistentHashRing.position id.toStr 0) id).2
    ⟨id.toStr, 0, by decide, hmember, rfl⟩
  refine h.online (aligned_new nodes rf) (by rwa [new]) ?_ hpos (by rwa [nodes_new])
  exact ConsistentHashRing.mem_nodes_iff.2 ⟨id, hmember⟩

theorem online_of_routesHealthy {call : RouterCall} {r : ClusterRouter} (hr : r.Aligned)
    (hrf : r.replicationFactor ≠ 0) (h : (r.exec call).RoutesHealthy) : call.Online := by
  cases call with
  | removeNode id => trivial
  | addNode node =>
      refine h.online (hr.addNode node) (by rwa [exec, addNode]) (onRing_addNode.2 (.inl rfl)) (i := 0) ?_ ?_
      · exact ConsistentHashRing.ring_addNode_position _ _ _ (by decide)
      · rw [exec, nodes_addNode, if_pos rfl]

theorem run_concat (nodes : List NodeInfo) (rf : UInt8) (calls : List RouterCall) (call : RouterCall) :
    run nodes rf (calls ++ [call]) = (run nodes rf calls).exec call := by
  rw [run, List.foldl_append, List.foldl_cons, List.foldl_nil, ← run]

/-- **When the router sends work to healthy nodes only.** In every state of a run it
does, if there are no replicas at all, or if the last entry given to `new` for each node
and every node given to `add_node` is not offline. Where the hash keeps the virtual nodes of
the nodes given to `new` apart, it does in no other run. -/
theorem routesHealthy_run_iff (nodes : List NodeInfo) (rf : UInt8) (calls : List RouterCall) :
    ((rf = 0 ∨ LastOnline nodes ∧ ∀ call ∈ calls, call.Online) →
      ∀ pre, pre <+: calls → (run nodes rf pre).RoutesHealthy) ∧
    (Set.InjOn ConsistentHashRing.hashToPosition
        (vnodeKeys {s | ∃ node ∈ nodes, s = node.id.toStr}) →
      (∀ pre, pre <+: calls → (run nodes rf pre).RoutesHealthy) →
        rf = 0 ∨ LastOnline nodes ∧ ∀ call ∈ calls, call.Online) := by
  constructor
  · intro h pre hpre
    refine routesHealthy_run_of_online (h.imp_right fun ⟨hnodes, hcalls⟩ => ⟨hnodes, ?_⟩)
    exact fun call hcall => hcalls call (hpre.subset hcall)
  · intro hinj hall
    by_cases hrf : rf = 0
    · exact .inl hrf
    refine .inr ⟨lastOnline_of_routesHealthy hrf hinj (hall [] (List.nil_prefix)), fun call hcall => ?_⟩
    -- look at the state right after the call
    obtain ⟨before, after, rfl⟩ := List.append_of_mem hcall
    have hstep := hall (before ++ [call]) ⟨after, by simp⟩
    rw [run_concat] at hstep
    refine online_of_routesHealthy (aligned_run nodes rf before) ?_ hstep
    rwa [replicationFactor_run]

end Runs

end ClusterRouter

/-- A follower that joins, leaves and joins again, and an offline node that joins. -/
theorem ClusterRouter.routesHealthy_run_rejoined :
    (run [⟨1, .offline⟩, ⟨1, .leader⟩] 2
        [.addNode ⟨2, .follower⟩, .removeNode 2, .addNode ⟨2, .follower⟩]).RoutesHealthy ∧
      ¬ ∀ pre, pre <+: [.addNode ⟨2, .offline⟩] → (run [⟨1, .leader⟩] 2 pre).RoutesHealthy := by
  constructor
  · refine (routesHealthy_run_iff [⟨1, .offline⟩, ⟨1, .leader⟩] 2 _).1 (.inr ⟨?_, ?_⟩) _
      (List.prefix_refl _)
    · intro id info hlast
      by_cases hid : (1 : NodeId) = id
      · obtain rfl : (⟨1, .leader⟩ : NodeInfo) = info := by simpa [lastOf, hid] using hlast
        decide
      · simp [lastOf, hid] at hlast
    · simp [RouterCall.Online]
  · intro hall
    have hids : {s | ∃ node ∈ [(⟨1, .leader⟩ : NodeInfo)], s = node.id.toStr} ⊆ ({"1", "2"} : Set String) := by
      rintro s ⟨node, hnode, rfl⟩
      obtain rfl := List.mem_singleton.1 hnode
      exact .inl (by decide)
    have hcond := (routesHealthy_run_iff [⟨1, .leader⟩] 2 [.addNode ⟨2, .offline⟩]).2
      (ConsistentHashRing.injOn_of_subset hids) hall
    simp [RouterCall.Online] at hcond

/-- A cluster that starts with an offline node routes to it. -/
theorem ClusterRouter.offline_node_routed :
    ¬ (run [] 1 [.addNode ⟨1, .offline⟩]).RoutesHealthy := by
  intro h
  have hcall : (RouterCall.addNode ⟨1, .offline⟩).Online :=
    online_of_routesHealthy (aligned_new [] 1) (by decide) h
  exact hcall rfl

end MSearchDB.Core
