import MSearchDB.Node.MemberAddresses

/-!
# The parsers of addresses

A `NodeAddress` is sent and configured as its text, `host:port`, and four places parse it:
`ConfigFile::into_node_config`, `propose_or_forward` (`leaderAddress`), `join_cluster` of
the gRPC service and the handler `join_node`. The first three split at the last colon and
give the address back for every host. `join_node` splits at every colon and takes a text
with more than one for a host without a port.

So all four invert the text exactly when the host has no colon in it
(`parsersInvert_iff`).
-/

set_option autoImplicit false

namespace MSearchDB.Node

open MSearchDB.Core
open MSearchDB.Consensus

/-! ## The parsers -/

/-- The address of a peer in `ConfigFile::into_node_config`. -/
def peerAddress (peer : String) : Option NodeAddress :=
  match rsplitColon peer with
  | some (host, port) => (parseU16 port).map fun port => ⟨host, port⟩
  | none => none

/-- The peers of `ConfigFile::into_node_config`. -/
def peerAddresses (peers : List String) : List NodeAddress := peers.filterMap peerAddress

/-- The address of the node in `NodeServiceImpl::join_cluster`. -/
def joinClusterAddress (address : String) : NodeAddress :=
  match rsplitColon address with
  | some (host, port) => ⟨host, (parseU16 port).getD 0⟩
  | none => ⟨address, 0⟩

/-- `address.split(':')`. -/
def splitColons (address : String) : List String := (address.toList.splitOn ':').map String.ofList

/-- The address of the node in `join_node`. -/
def joinNodeAddress (address : String) : NodeAddress :=
  match splitColons address with
  | [host, port] => ⟨host, (parseU16 port).getD 9300⟩
  | _ => ⟨address, 9300⟩

/-- A peer that is configured by its address joins under the text of what was configured: the
leader that parses it registers it as a member, and that is where the member is looked for. -/
def Travels (join : String → NodeAddress) (addr : NodeAddress) : Prop :=
  ∀ configured ∈ peerAddresses [addr.toStr], ∀ (raft : Openraft), raft.Documented →
    ∀ (m m' : Membership) (id : UInt64), m.nodes[id]? = none →
      raftAddLearner raft m id (join configured.toStr) = .ok m' →
        m'.nodes[id]?.map (fun node => leaderAddress node.addr) = some addr

/-- Each of the four parsers gives the address back, and so does the way through a join. -/
structure ParsersInvert (addr : NodeAddress) : Prop where
  peer : peerAddress addr.toStr = some addr
  leader : leaderAddress addr.toStr = addr
  joinCluster : joinClusterAddress addr.toStr = addr
  joinNode : joinNodeAddress addr.toStr = addr
  throughCluster : Travels joinClusterAddress addr
  throughHandler : Travels joinNodeAddress addr

/-! ## The last colon -/

theorem peerAddress_toStr (addr : NodeAddress) : peerAddress addr.toStr = some addr := by
  rw [peerAddress, rsplitColon_toStr]
  simp only [parseU16_toDigits]
  rfl

theorem joinClusterAddress_toStr (addr : NodeAddress) : joinClusterAddress addr.toStr = addr := by
  rw [joinClusterAddress, rsplitColon_toStr]
  simp only [parseU16_toDigits]
  rfl

/-- Peers that are configured by their texts are the peers. -/
theorem peerAddresses_map_toStr (addrs : List NodeAddress) : peerAddresses (addrs.map NodeAddress.toStr) = addrs := by
  rw [peerAddresses, List.filterMap_map]
  exact (List.filterMap_congr fun addr _ => peerAddress_toStr addr).trans List.filterMap_some

/-! ## Every colon -/

theorem splitOn_toStr (addr : NodeAddress) :
    addr.toStr.toList.splitOn ':' = addr.host.toList.splitOn ':' ++ [Nat.toDigits 10 addr.port.toNat] := by
  rw [NodeAddress.toList_toStr, List.splitOn_append_cons_self,
    List.splitOn_eq_singleton (colon_not_mem_toDigits addr.port.toNat)]

theorem splitColons_toStr (addr : NodeAddress) :
    splitColons addr.toStr =
      (addr.host.toList.splitOn ':').map String.ofList ++ [String.ofList (Nat.toDigits 10 addr.port.toNat)] := by
  rw [splitColons, splitOn_toStr, List.map_append]
  rfl

theorem one_lt_length_splitOn {cs : List Char} (h : ':' ∈ cs) : 1 < (cs.splitOn ':').length := by
  obtain ⟨before, after, rfl⟩ := List.append_of_mem h
  rw [List.splitOn_append_cons_self, List.length_append]
  have hbefore := List.length_pos_of_ne_nil (List.splitOn_ne_nil ':' before)
  have hafter := List.length_pos_of_ne_nil (List.splitOn_ne_nil ':' after)
  omega

/-- The text that is not split is longer than the host in it. -/
theorem toStr_ne_host (addr : NodeAddress) : addr.toStr ≠ addr.host := by
  intro h
  have hlength := congrArg (fun s => s.toList.length) h
  simp only [NodeAddress.toList_toStr, List.length_append, List.length_cons] at hlength
  omega

theorem joinNodeAddress_toStr_of_not_mem {addr : NodeAddress} (h : ':' ∉ addr.host.toList) :
    joinNodeAddress addr.toStr = addr := by
  have hparts : splitColons addr.toStr = [addr.host, String.ofList (Nat.toDigits 10 addr.port.toNat)] := by
    rw [splitColons_toStr, List.splitOn_eq_singleton h, List.map_singleton, String.ofList_toList]
    rfl
  rw [joinNodeAddress, hparts]
  simp only [parseU16_toDigits]
  rfl

/-- A host with a colon makes three parts or more, and then the whole text is the host. -/
theorem joinNodeAddress_toStr_of_mem {addr : NodeAddress} (h : ':' ∈ addr.host.toList) :
    joinNodeAddress addr.toStr = ⟨addr.toStr, 9300⟩ := by
  have hlength : 2 < (splitColons addr.toStr).length := by
    rw [splitColons_toStr, List.length_append, List.length_map]
    have := one_lt_length_splitOn h
    simp only [List.length_singleton]
    omega
  rw [joinNodeAddress]
  split
  · rename_i host port hparts
    rw [hparts] at hlength
    exact absurd hlength (by simp)
  · rfl

theorem joinNodeAddress_toStr_iff (addr : NodeAddress) :
    joinNodeAddress addr.toStr = addr ↔ ':' ∉ addr.host.toList := by
  constructor
  · intro h hcolon
    rw [joinNodeAddress_toStr_of_mem hcolon] at h
    exact toStr_ne_host addr (congrArg NodeAddress.host h)
  · exact joinNodeAddress_toStr_of_not_mem

/-! ## From the configuration to the membership -/

/-- An address goes through a join whose parser gives it back. -/
theorem travels_of_inverts {join : String → NodeAddress} {addr : NodeAddress} (h : join addr.toStr = addr) :
    Travels join addr := by
  intro configured hconfigured raft hraft m m' id hnew hadd
  obtain rfl : configured = addr := by
    rw [show [addr.toStr] = [addr].map NodeAddress.toStr from rfl, peerAddresses_map_toStr] at hconfigured
    exact List.mem_singleton.1 hconfigured
  have hnode := hraft.addLearner_ok _ _ _ _ _ (Registered.mapError_eq_ok_iff.1 hadd) id
  rw [if_pos rfl, hnew, h] at hnode
  rw [hnode]
  exact congrArg some (leaderAddress_toStr configured)

/-- **All four parsers give an address back exactly when its host has no colon.** Three of them
do for every host and every port, and so does the way through `join_cluster`; the
handler `join_node` does if and only if the host has no colon. -/
theorem parsersInvert_iff (addr : NodeAddress) :
    (peerAddress addr.toStr = some addr ∧ leaderAddress addr.toStr = addr ∧
      joinClusterAddress addr.toStr = addr ∧ Travels joinClusterAddress addr) ∧
    (ParsersInvert addr ↔ ':' ∉ addr.host.toList) := by
  have hcluster : Travels joinClusterAddress addr := travels_of_inverts (joinClusterAddress_toStr addr)
  refine ⟨⟨peerAddress_toStr addr, leaderAddress_toStr addr, joinClusterAddress_toStr addr, hcluster⟩, ?_⟩
  constructor
  · intro h
    exact (joinNodeAddress_toStr_iff addr).1 h.joinNode
  · intro h
    have hnode : joinNodeAddress addr.toStr = addr := (joinNodeAddress_toStr_iff addr).2 h
    exact { peer := peerAddress_toStr addr
            leader := leaderAddress_toStr addr
            joinCluster := joinClusterAddress_toStr addr
            joinNode := hnode
            throughCluster := hcluster
            throughHandler := travels_of_inverts hnode }

/-- The handler registers the loopback address under another host and another port. -/
theorem not_parsersInvert_loopback :
    joinNodeAddress "::1:9301" = ⟨"::1:9301", 9300⟩ ∧ ¬ ParsersInvert ⟨"::1", 9301⟩ := by
  have hmem : ':' ∈ (NodeAddress.mk "::1" 9301).host.toList := by decide
  have hjoin : joinNodeAddress (NodeAddress.mk "::1" 9301).toStr = ⟨(NodeAddress.mk "::1" 9301).toStr, 9300⟩ :=
    joinNodeAddress_toStr_of_mem hmem
  refine ⟨hjoin, fun h => ?_⟩
  exact (joinNodeAddress_toStr_iff _).1 h.joinNode hmem

end MSearchDB.Node
