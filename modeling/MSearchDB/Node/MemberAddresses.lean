import MSearchDB.Lib.Run
import MSearchDB.Node.Propose

/-!
# The addresses of the members

`initialize`, `add_learner` and `change_membership` of `RaftNode`
(`crates/consensus/src/raft_node.rs`), and the two readers of the addresses that they
leave in the membership: `propose_or_forward` of `crates/node/src/handlers/mod.rs` and
`GrpcNetworkFactory` of `crates/network/src/raft_network.rs`.

openraft is a parameter with its documented behaviour: `add_learner` does not replace the
record of a node it knows, `SetNodes` does. `change_membership` gets ids alone and sets
the records of all of them to an empty address. So the members keep the addresses they
were registered with, and are reached there, exactly as long as it is given no node that
has one, and no node is registered again under another (`addressesKept_iff`). Calls that
return an error and yet take effect later are left out.
-/

set_option autoImplicit false

namespace MSearchDB.Node

open MSearchDB.Lib
open MSearchDB.Core
open MSearchDB.Consensus
open MSearchDB.Network
open Std (ExtTreeMap)

/-! ## openraft -/

/-- `openraft::ChangeMembers`, as far as it is used. -/
inductive ChangeMembers where
  | setNodes (nodes : ExtTreeMap UInt64 BasicNode)

/-- The calls of `openraft::Raft` that change the membership, on a node that knows the
membership. Only a call that returns `Ok` has an effect: openraft may also commit an entry after
the call has returned an error, when the leadership is lost in between. -/
structure Openraft where
  initialise : Membership → ExtTreeMap UInt64 BasicNode → Except String Membership
  addLearner : Membership → UInt64 → BasicNode → Bool → Except String Membership
  changeMembership : Membership → ChangeMembers → Bool → Except String Membership

/-- What the documentation says about the records of the nodes. -/
structure Openraft.Documented (raft : Openraft) : Prop where
  initialise_ok : ∀ m members m', raft.initialise m members = .ok m' → m'.nodes = members
  addLearner_ok : ∀ m id node blocking m', raft.addLearner m id node blocking = .ok m' →
    ∀ k : UInt64, m'.nodes[k]? = if id = k then m.nodes[k]?.or (some node) else m.nodes[k]?
  setNodes_ok : ∀ m nodes retain m', raft.changeMembership m (.setNodes nodes) retain = .ok m' →
    ∀ k : UInt64, m'.nodes[k]? = nodes[k]?.or m.nodes[k]?

/-! ## `RaftNode` -/

/-- A call of `RaftNode` that changes the membership. -/
inductive MembershipCall where
  | initialise (members : ExtTreeMap UInt64 BasicNode)
  | addLearner (nodeId : UInt64) (addr : NodeAddress)
  | changeMembership (members : List UInt64)

/-- `BasicNode::default`. -/
def defaultNode : BasicNode := ⟨""⟩

/-- The records that `change_membership` makes for the ids it is given. -/
def memberSet (members : List UInt64) : ExtTreeMap UInt64 BasicNode :=
  members.foldl (fun nodes id => nodes.insert id defaultNode) ∅

section RaftNode

variable (raft : Openraft) (m : Membership)

/-- `RaftNode::initialize`. -/
def raftInitialise (members : ExtTreeMap UInt64 BasicNode) : DbResult Membership :=
  (raft.initialise m members).mapError fun e => .consensusError ("initialize failed: " ++ e)

/-- `RaftNode::add_learner`. -/
def raftAddLearner (nodeId : UInt64) (addr : NodeAddress) : DbResult Membership :=
  (raft.addLearner m nodeId ⟨addr.toStr⟩ true).mapError fun e => .consensusError ("add_learner failed: " ++ e)

/-- `RaftNode::change_membership`. -/
def raftChangeMembership (members : List UInt64) : DbResult Membership :=
  (raft.changeMembership m (.setNodes (memberSet members)) true).mapError
    fun e => .consensusError ("change_membership failed: " ++ e)

/-- The membership a call returns with. -/
def membershipAfter : MembershipCall → DbResult Membership
  | .initialise members => raftInitialise raft m members
  | .addLearner nodeId addr => raftAddLearner raft m nodeId addr
  | .changeMembership members => raftChangeMembership raft m members

end RaftNode

/-! ## What was registered -/

/-- The membership, and the address each node was registered with last. -/
structure Registered where
  membership : Membership
  addresses : UInt64 → Option String

namespace Registered

/-- A fresh node: no members and nothing registered. -/
def fresh : Registered := ⟨⟨[], ∅⟩, fun _ => none⟩

/-- The addresses that a call registers. -/
def register (addresses : UInt64 → Option String) : MembershipCall → UInt64 → Option String
  | .initialise members, k => (members[k]?.map BasicNode.addr).or (addresses k)
  | .addLearner nodeId addr, k => if nodeId = k then some addr.toStr else addresses k
  | .changeMembership _, k => addresses k

/-- A call: what it registers counts when it returns `Ok`. -/
def step (raft : Openraft) (r : Registered) (call : MembershipCall) : Registered :=
  match membershipAfter raft r.membership call with
  | .ok m => ⟨m, register r.addresses call⟩
  | .error _ => r

/-- Every member has the address it was registered with last. -/
def AddressesKept (r : Registered) : Prop :=
  ∀ k node, r.membership.nodes[k]? = some node → r.addresses k = some node.addr

/-- A call that returns `Ok` registers no member under another address than before, and
changes the membership of no node that is registered with an address. -/
def KeepsAddresses (raft : Openraft) (r : Registered) (call : MembershipCall) : Prop :=
  ∀ m, membershipAfter raft r.membership call = .ok m →
    match call with
    | .initialise _ => True
    | .addLearner nodeId addr => ∀ node, r.membership.nodes[nodeId]? = some node → node.addr = addr.toStr
    | .changeMembership members => ∀ id ∈ members, r.addresses id = some ""

section Steps

variable {raft : Openraft} {m m' : Membership}

theorem mapError_eq_ok_iff {x : Except String Membership} {f : String → DbError} :
    x.mapError f = .ok m ↔ x = .ok m := by
  cases x with
  | error e => simp [Except.mapError]
  | ok m' => simp [Except.mapError]

theorem getElem?_memberSet (members : List UInt64) (k : UInt64) :
    (k ∈ members → (memberSet members)[k]? = some defaultNode) ∧ (k ∉ members → (memberSet members)[k]? = none) := by
  -- for every map, since the loop adds to one
  have hloop : ∀ nodes : ExtTreeMap UInt64 BasicNode,
      (members.foldl (fun nodes id => nodes.insert id defaultNode) nodes)[k]? =
        if k ∈ members then some defaultNode else nodes[k]? := by
    induction members with
    | nil => exact fun nodes => rfl
    | cons id members ih =>
        intro nodes
        rw [List.foldl_cons, ih, ExtTreeMap.getElem?_insert]
        by_cases hid : id = k
        · simp [hid]
        · simp [hid, Ne.symm hid]
  rw [memberSet, hloop]
  exact ⟨fun hk => if_pos hk, fun hk => (if_neg hk).trans (by simp)⟩

/-- `change_membership` takes their addresses from the nodes it is given. -/
theorem nodes_raftChangeMembership_of_mem (hraft : raft.Documented) {members : List UInt64}
    (h : raftChangeMembership raft m members = .ok m') {k : UInt64} (hk : k ∈ members) :
    m'.nodes[k]? = some defaultNode := by
  rw [hraft.setNodes_ok m _ _ m' (mapError_eq_ok_iff.1 h) k, (getElem?_memberSet members k).1 hk]
  rfl

/-- It leaves the records of the others. -/
theorem nodes_raftChangeMembership_of_not_mem (hraft : raft.Documented) {members : List UInt64}
    (h : raftChangeMembership raft m members = .ok m') {k : UInt64} (hk : k ∉ members) :
    m'.nodes[k]? = m.nodes[k]? := by
  rw [hraft.setNodes_ok m _ _ m' (mapError_eq_ok_iff.1 h) k, (getElem?_memberSet members k).2 hk]
  rfl

theorem addressesKept_fresh : fresh.AddressesKept := by
  intro k node hnode
  simp [fresh] at hnode

/-- A call that returns `Ok` keeps the addresses exactly under the condition on it. -/
theorem addressesKept_register_iff (hraft : raft.Documented) {r : Registered} (h : r.AddressesKept)
    {call : MembershipCall} (hok : membershipAfter raft r.membership call = .ok m) :
    AddressesKept ⟨m, register r.addresses call⟩ ↔ r.KeepsAddresses raft call := by
  cases call with
  | initialise members =>
      have hnodes : m.nodes = members := hraft.initialise_ok _ _ _ (mapError_eq_ok_iff.1 hok)
      refine iff_of_true (fun k node hnode => ?_) fun _ _ => trivial
      have hmember : members[k]? = some node := by rw [← hnodes]; exact hnode
      show register r.addresses (.initialise members) k = some node.addr
      rw [register, hmember]
      rfl
  | addLearner nodeId addr =>
      have hnodes := hraft.addLearner_ok _ _ _ _ _ (mapError_eq_ok_iff.1 hok)
      constructor
      · intro hkept m' hm' node hnode
        -- the record of a node that is known stays
        have hthere : m.nodes[nodeId]? = some node := by rw [hnodes, if_pos rfl, hnode]; rfl
        have haddr : register r.addresses (.addLearner nodeId addr) nodeId = some node.addr :=
          hkept nodeId node hthere
        rw [register, if_pos rfl] at haddr
        exact (Option.some.inj haddr).symm
      · intro hcond k node hnode
        show register r.addresses (.addLearner nodeId addr) k = some node.addr
        rw [hnodes] at hnode
        by_cases hk : nodeId = k
        · subst hk
          rw [if_pos rfl] at hnode
          rw [register, if_pos rfl]
          cases hold : r.membership.nodes[nodeId]? with
          | none =>
              rw [hold] at hnode
              cases hnode
              rfl
          | some old =>
              rw [hold] at hnode
              cases hnode
              rw [hcond m hok node hold]
        · rw [if_neg hk] at hnode
          rw [register, if_neg hk]
          exact h k node hnode
  | changeMembership members =>
      constructor
      · intro hkept m' hm' id hid
        exact hkept id defaultNode (nodes_raftChangeMembership_of_mem hraft hok hid)
      · intro hcond k node hnode
        by_cases hk : k ∈ members
        · have hdefault : m.nodes[k]? = some defaultNode := nodes_raftChangeMembership_of_mem hraft hok hk
          obtain rfl : defaultNode = node := Option.some.inj (hdefault.symm.trans hnode)
          exact hcond m hok k hk
        · have hsame : m.nodes[k]? = r.membership.nodes[k]? := nodes_raftChangeMembership_of_not_mem hraft hok hk
          exact h k node (hsame.symm.trans hnode)

theorem addressesKept_step_iff (hraft : raft.Documented) {r : Registered} (h : r.AddressesKept)
    (call : MembershipCall) : (r.step raft call).AddressesKept ↔ r.KeepsAddresses raft call := by
  cases hcall : membershipAfter raft r.membership call with
  | error e =>
      rw [step, hcall]
      refine iff_of_true h fun m hm => ?_
      rw [hcall] at hm
      cases hm
  | ok m =>
      rw [step, hcall]
      exact addressesKept_register_iff hraft h hcall

end Steps

end Registered

/-! ## Who reads the addresses -/

/-- The endpoint of a `GrpcNetwork` that `new_client` makes for a node. -/
def grpcEndpoint (node : BasicNode) : String :=
  if "http://".toList.isPrefixOf node.addr.toList || "https://".toList.isPrefixOf node.addr.toList then node.addr
  else "http://" ++ node.addr

theorem slash_not_mem_toStr {addr : NodeAddress} (h : '/' ∉ addr.host.toList) : '/' ∉ addr.toStr.toList := by
  rw [NodeAddress.toList_toStr, List.mem_append, List.mem_cons, not_or, not_or]
  refine ⟨h, by decide, fun hmem => ?_⟩
  have hdigit := Nat.isDigit_of_mem_toDigits (by decide) (by decide) hmem
  exact absurd hdigit (by decide)

/-- The transport of Raft connects to the address a node was registered with. -/
theorem grpcEndpoint_registered {r : Registered} (h : r.AddressesKept) {id : UInt64} {node : BasicNode}
    (hnode : r.membership.nodes[id]? = some node) {addr : NodeAddress}
    (haddr : r.addresses id = some addr.toStr) (hhost : '/' ∉ addr.host.toList) :
    grpcEndpoint node = "http://" ++ addr.toStr := by
  have hkept := h id node hnode
  rw [haddr] at hkept
  -- an address with a scheme has a slash
  have hscheme : ∀ scheme : String, '/' ∈ scheme.toList →
      scheme.toList.isPrefixOf addr.toStr.toList = false := by
    intro scheme hslash
    refine Bool.eq_false_iff.2 fun hprefix => slash_not_mem_toStr hhost ?_
    exact (List.isPrefixOf_iff_prefix.1 hprefix).subset hslash
  rw [grpcEndpoint, ← Option.some.inj hkept, hscheme "http://" (by decide), hscheme "https://" (by decide)]
  rfl

/-- After `change_membership` it connects to no host. -/
theorem grpcEndpoint_changed {raft : Openraft} (hraft : raft.Documented) {m m' : Membership}
    {members : List UInt64} (h : raftChangeMembership raft m members = .ok m') {id : UInt64} (hid : id ∈ members) :
    m'.nodes[id]?.map grpcEndpoint = some "http://" := by
  rw [Registered.nodes_raftChangeMembership_of_mem hraft h hid]
  decide

section Readers

variable [SerdeJson RaftCommand] [StatusDisplay]

/-- A follower forwards to the address its leader was registered with. -/
theorem proposeOrForward_registered {r : Registered} (h : r.AddressesKept) {id : UInt64} {addr : NodeAddress}
    (hid : id ∈ r.membership.nodes) (haddr : r.addresses id = some addr.toStr) (pool : ConnectionPool)
    (cmd : RaftCommand) :
    proposeOrForward (RaftNode.follower id r.membership.nodes) pool cmd =
      match pool.get id addr with
      | .error e => .error e
      | .ok client => client.forwardWrite cmd := by
  obtain ⟨node, hnode⟩ : ∃ node, r.membership.nodes[id]? = some node :=
    Option.isSome_iff_exists.1 (by simpa using hid)
  have hkept := h id node hnode
  rw [haddr] at hkept
  have hlookup : leaderAddress node.addr = addr := by
    rw [← Option.some.inj hkept, leaderAddress_toStr]
  simp only [proposeOrForward, RaftNode.propose, RaftNode.follower, contains_not_leader, hnode, hlookup]
  rfl

/-- After `change_membership` a leader among the nodes it was given is looked for at no
host, on the port that stands for a missing one. -/
theorem proposeOrForward_changed {raft : Openraft} (hraft : raft.Documented) {m m' : Membership}
    {members : List UInt64} (h : raftChangeMembership raft m members = .ok m') {id : UInt64} (hid : id ∈ members)
    (pool : ConnectionPool) (cmd : RaftCommand) :
    proposeOrForward (RaftNode.follower id m'.nodes) pool cmd =
      match pool.get id ⟨"", 9300⟩ with
      | .error e => .error e
      | .ok client => client.forwardWrite cmd := by
  have hnode : m'.nodes[id]? = some defaultNode := Registered.nodes_raftChangeMembership_of_mem hraft h hid
  have hlookup : leaderAddress defaultNode.addr = ⟨"", 9300⟩ := by decide
  simp only [proposeOrForward, RaftNode.propose, RaftNode.follower, contains_not_leader, hnode, hlookup]
  rfl

end Readers

/-! ## A cluster of two nodes -/

/-- openraft on the records of the nodes: the first call initialises, a learner is added
unless it is known, `SetNodes` sets. -/
def recordsOnly : Openraft where
  initialise m members :=
    if m.configs = [] then .ok ⟨[members.keys], members⟩
    else .error "not allowed to initialize due to current raft state"
  addLearner m id node _ :=
    .ok { m with nodes := if id ∈ m.nodes then m.nodes else m.nodes.insert id node }
  changeMembership m
    | .setNodes nodes, _ =>
        .ok { m with nodes := m.nodes ∪ nodes }

theorem recordsOnly_documented : recordsOnly.Documented where
  initialise_ok m members m' h := by
    rw [recordsOnly] at h
    simp only at h
    split at h
    · cases h
      rfl
    · cases h
  addLearner_ok m id node blocking m' h k := by
    cases h
    show (if id ∈ m.nodes then m.nodes else m.nodes.insert id node)[k]? = _
    by_cases hmem : id ∈ m.nodes
    · obtain ⟨old, hold⟩ := Option.isSome_iff_exists.1 (ExtTreeMap.isSome_getElem?_iff_mem.2 hmem)
      rw [if_pos hmem]
      split
      next hk => rw [← hk, hold]; rfl
      next => rfl
    · have hnone : m.nodes[id]? = none := ExtTreeMap.getElem?_eq_none hmem
      rw [if_neg hmem, ExtTreeMap.getElem?_insert]
      by_cases hk : id = k
      · subst hk
        simp [hnone]
      · simp [hk]
  setNodes_ok m nodes retain m' h k := by
    cases h
    exact ExtTreeMap.getElem?_union

/-! ## Members that are reached -/

namespace Registered

section Reached

variable [SerdeJson RaftCommand] [StatusDisplay]

/-- A member is reached at the address it was registered with: a follower forwards to it there, and the
transport of Raft connects to it there. -/
def Reached (r : Registered) : Prop :=
  ∀ (id : UInt64) (node : BasicNode), r.membership.nodes[id]? = some node →
    ∀ addr : NodeAddress, r.addresses id = some addr.toStr →
      (∀ pool cmd, proposeOrForward (RaftNode.follower id r.membership.nodes) pool cmd =
        match pool.get id addr with
        | .error e => .error e
        | .ok client => client.forwardWrite cmd) ∧
      ('/' ∉ addr.host.toList → grpcEndpoint node = "http://" ++ addr.toStr)

theorem reached {r : Registered} (h : r.AddressesKept) : r.Reached := by
  intro id node hnode addr haddr
  refine ⟨fun pool cmd => ?_, fun hhost => grpcEndpoint_registered h hnode haddr hhost⟩
  have hid : id ∈ r.membership.nodes := by
    rw [ExtTreeMap.mem_iff_isSome_getElem?, hnode]
    rfl
  exact proposeOrForward_registered h hid haddr pool cmd

/-- **The members keep their addresses exactly as long as `change_membership` is given no
node that has one.** Given what openraft documents: after every call of a sequence each
member has the address it was registered with last by `initialize` or `add_learner`, and is
reached there, if and only if every call that returns `Ok` registers no member under another
address and changes the membership of no node registered with an address. -/
theorem addressesKept_iff {raft : Openraft} (hraft : raft.Documented) (calls : List MembershipCall) :
    (∀ pre, pre <+: calls →
        (pre.foldl (step raft) fresh).AddressesKept ∧ (pre.foldl (step raft) fresh).Reached) ↔
      Along (step raft) (KeepsAddresses raft) fresh calls := by
  have hreached : ∀ r : Registered, r.AddressesKept ∧ r.Reached ↔ r.AddressesKept :=
    fun r => and_iff_left_of_imp reached
  simp only [hreached]
  exact forall_prefix_iff_along (I := fun _ => True) (P := AddressesKept) (fun _ _ _ => trivial)
    (fun r call _ h => addressesKept_step_iff hraft h call) trivial addressesKept_fresh calls

end Reached

end Registered

/-- A cluster of two nodes, the second a learner that was added. -/
def twoNodes : List MembershipCall :=
  [.initialise ((∅ : ExtTreeMap UInt64 BasicNode).insert 1 ⟨"10.0.0.1:9300"⟩), .addLearner 2 ⟨"10.0.0.2", 9300⟩]

/-- Then the membership is changed, to make the learner a voter. -/
def changedNodes : List MembershipCall := twoNodes ++ [.changeMembership [1, 2]]

namespace Registered

/-- Until its membership is changed both keep their addresses. -/
theorem addressesKept_twoNodes : (twoNodes.foldl (step recordsOnly) fresh).AddressesKept := by
  refine ((addressesKept_iff recordsOnly_documented twoNodes).2 ⟨fun _ _ => trivial, ?_, trivial⟩ _
    (List.prefix_refl _)).1
  intro m _ node hnode
  have hnone : (([.initialise ((∅ : ExtTreeMap UInt64 BasicNode).insert 1 ⟨"10.0.0.1:9300"⟩)] :
      List MembershipCall).foldl (step recordsOnly) fresh).membership.nodes[(2 : UInt64)]? = none := by
    decide
  cases hnone.symm.trans hnode

/-- The change takes the addresses of both nodes, and neither a writer nor the Raft network finds
the second any more. -/
theorem addresses_lost :
    let lost := (changedNodes.foldl (step recordsOnly) fresh).membership
    recordsOnly.Documented ∧
      (changedNodes.foldl (step recordsOnly) fresh).addresses 2 = some "10.0.0.2:9300" ∧
      lost.nodes[(2 : UInt64)]? = some defaultNode ∧
      ¬ (changedNodes.foldl (step recordsOnly) fresh).AddressesKept ∧
      lost.nodes[(2 : UInt64)]?.map grpcEndpoint = some "http://" ∧
      ∀ [SerdeJson RaftCommand] [StatusDisplay] (pool : ConnectionPool) (cmd : RaftCommand),
        proposeOrForward (RaftNode.follower 2 lost.nodes) pool cmd =
          match pool.get 2 ⟨"", 9300⟩ with
          | .error e => .error e
          | .ok client => client.forwardWrite cmd := by
  intro lost
  have hnode : lost.nodes[(2 : UInt64)]? = some defaultNode := by decide
  have hchange : raftChangeMembership recordsOnly (twoNodes.foldl (step recordsOnly) fresh).membership [1, 2] =
      .ok lost := rfl
  have hmember : (2 : UInt64) ∈ [(1 : UInt64), 2] := by decide
  refine ⟨recordsOnly_documented, by decide, hnode, fun hkept => ?_,
    grpcEndpoint_changed recordsOnly_documented hchange hmember,
    fun pool cmd => proposeOrForward_changed recordsOnly_documented hchange hmember pool cmd⟩
  exact absurd (hkept 2 defaultNode hnode) (by decide)

end Registered

end MSearchDB.Node
