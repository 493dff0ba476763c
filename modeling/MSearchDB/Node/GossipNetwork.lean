import MSearchDB.Lib.Run
import MSearchDB.Node.Gossip

/-!
# A network of gossip managers

Nodes observe each other (`update_local`, as the loop of `run_gossip` does), send their
whole view (`build_message`) and merge the views of others (`handle_gossip`). A message may
be delivered late, out of order, many times or never. The program as it stands has no such
node: the gossip service of `crates/network/src/server.rs` returns the message it is sent, and
nothing calls `handle_gossip`. A delivery here is a call of it.

Each node is given the list of the observations that have reached it, its own and those
behind the messages it merged. A view shows for every node a newest one of these
(`GossipParty.Sound`), so nothing is invented, no timestamp goes back, and two nodes that
the same observations have reached show the same view unless two observations of one node
tie (`gossip_network`).
-/

set_option autoImplicit false

namespace MSearchDB.Node

open MSearchDB.Lib
open MSearchDB.Core
open Std (ExtTreeMap)

/-! ## Parties, messages and events -/

/-- A node, and the observations that have reached it, which the manager does not keep. -/
structure GossipParty where
  manager : GossipManager
  heard : List GossipEntry

/-- A message, and the observations behind it. -/
structure GossipPacket where
  message : GossipMessage
  heard : List GossipEntry

/-- The nodes and every message that was sent. -/
structure GossipNet (ν : Type) where
  parties : ν → GossipParty
  packets : List GossipPacket

/-- What happens in the network. -/
inductive GossipEvent (ν : Type) where
  /-- A node observes a node. -/
  | observe (node : ν) (entry : GossipEntry)
  /-- A node sends its view, in the order in which its map yields it. -/
  | send (node : ν) (order : List (NodeId × NodeStatus × UInt64))
  /-- A message reaches a node. -/
  | deliver (node : ν) (packet : Nat)

/-- `GossipManager::update_local` on a node. -/
def GossipParty.observe (p : GossipParty) (e : GossipEntry) : GossipParty :=
  ⟨p.manager.updateLocal e.nodeId e.status e.timestamp, p.heard ++ [e]⟩

/-- `GossipManager::build_message` on a node. -/
def GossipParty.send (p : GossipParty) (order : List (NodeId × NodeStatus × UInt64)) : GossipPacket :=
  ⟨p.manager.buildMessage order, p.heard⟩

/-- `ClusterManager::handle_gossip` on a node. -/
def GossipParty.receive (p : GossipParty) (packet : GossipPacket) : GossipParty :=
  ⟨(p.manager.merge packet.message).1, p.heard ++ packet.heard⟩

namespace GossipNet

variable {ν : Type} [DecidableEq ν]

/-- One event. -/
def step (net : GossipNet ν) : GossipEvent ν → GossipNet ν
  | .observe node entry =>
      { net with parties := Function.update net.parties node ((net.parties node).observe entry) }
  | .send node order => { net with packets := net.packets ++ [(net.parties node).send order] }
  | .deliver node packet =>
      match net.packets[packet]? with
      | some sent => { net with parties := Function.update net.parties node ((net.parties node).receive sent) }
      | none => net

omit [DecidableEq ν] in
/-- The order of a message is an order of the map. -/
def Ordered (net : GossipNet ν) : GossipEvent ν → Prop
  | .send node order => order.Perm (net.parties node).manager.state.toList
  | _ => True

omit [DecidableEq ν] in
/-- No node has observed anything. -/
def start (ids : ν → NodeId) : GossipNet ν := ⟨fun node => ⟨GossipManager.new (ids node), []⟩, []⟩

omit [DecidableEq ν] in
/-- The view of a node. -/
def view (net : GossipNet ν) (node : ν) : ExtTreeMap NodeId (NodeStatus × UInt64) :=
  (net.parties node).manager.state

end GossipNet

/-- The observations of a run. -/
def observations {ν : Type} (events : List (GossipEvent ν)) : List GossipEntry :=
  events.filterMap fun event => match event with
    | .observe _ entry => some entry
    | _ => none

/-- No two observations of a node have one time and different statuses. -/
def Unambiguous (heard : List GossipEntry) : Prop :=
  ∀ e ∈ heard, ∀ e' ∈ heard, e.nodeId = e'.nodeId → e.timestamp = e'.timestamp → e.status = e'.status

/-! ## Soundness of a view -/

/-- The observations of the node `k`. -/
def offersTo (k : NodeId) (heard : List GossipEntry) : List (Offer NodeStatus UInt64) :=
  (heard.filter fun e => e.nodeId = k).map GossipEntry.offer

theorem offersTo_append (k : NodeId) (xs ys : List GossipEntry) :
    offersTo k (xs ++ ys) = offersTo k xs ++ offersTo k ys := by
  rw [offersTo, List.filter_append, List.map_append]
  rfl

theorem mem_offersTo {k : NodeId} {heard : List GossipEntry} {o : Offer NodeStatus UInt64} :
    o ∈ offersTo k heard ↔ ∃ e ∈ heard, e.nodeId = k ∧ e.offer = o := by
  simp [offersTo, and_assoc]

theorem offersTo_singleton (k : NodeId) (e : GossipEntry) :
    offersTo k [e] = if e.nodeId = k then [e.offer] else [] := by
  by_cases hk : e.nodeId = k
  · simp [offersTo, hk]
  · simp [offersTo, hk]

/-- An observation is a newest one among itself. -/
theorem shows_offer (e : GossipEntry) : Offer.Shows [e.offer] (some (e.status, e.timestamp)) := by
  refine ⟨⟨e.offer, List.mem_singleton_self _, rfl, rfl⟩, fun o ho => ?_⟩
  rw [List.mem_singleton.1 ho]
  exact le_refl e.timestamp

/-- The view shows what has reached the node. -/
def GossipParty.Sound (p : GossipParty) : Prop :=
  ∀ k, Offer.Shows (offersTo k p.heard) p.manager.state[k]?

/-- A message has one entry for each node that the observations behind it are about, and shows
them. -/
structure GossipPacket.Sound (p : GossipPacket) : Prop where
  onePerNode : p.message.OnePerNode
  shows : ∀ e ∈ p.message.clusterView, Offer.Shows (offersTo e.nodeId p.heard) (some (e.status, e.timestamp))
  silent : ∀ k, (∀ e ∈ p.message.clusterView, e.nodeId ≠ k) → offersTo k p.heard = []

variable {p : GossipParty}

theorem GossipParty.sound_new (id : NodeId) : GossipParty.Sound ⟨GossipManager.new id, []⟩ := by
  intro k
  have hnone : (GossipManager.new id).state[k]? = none := by simp [GossipManager.new]
  rw [hnone]
  rfl

theorem GossipParty.Sound.observe (h : p.Sound) (e : GossipEntry) : (p.observe e).Sound := by
  intro k
  show Offer.Shows (offersTo k (p.heard ++ [e])) (p.manager.updateLocal _ _ _).state[k]?
  rw [GossipManager.state_updateLocal, offersTo_append, offersTo_singleton]
  by_cases hk : e.nodeId = k
  · rw [if_pos hk, if_pos hk]
    exact (h k).merge (shows_offer e) true
  · rw [if_neg hk, if_neg hk, List.append_nil]
    exact h k

theorem GossipParty.Sound.send (h : p.Sound) {order : List (NodeId × NodeStatus × UInt64)}
    (horder : order.Perm p.manager.state.toList) : (p.send order).Sound where
  onePerNode := p.manager.onePerNode_buildMessage horder
  shows e he := by
    obtain ⟨entry, hentry, rfl⟩ := List.mem_map.1 he
    have hstate := ExtTreeMap.mem_toList_iff_getElem?_eq_some.1 (horder.mem_iff.1 hentry)
    have hshows := h entry.1
    rw [hstate] at hshows
    exact hshows
  silent k hk := by
    have hshows := h k
    cases hstate : p.manager.state[k]? with
    | none =>
        rw [hstate] at hshows
        exact hshows
    | some entry =>
        -- the node would be mentioned
        have hmem : (k, entry) ∈ order := by
          apply horder.mem_iff.2
          exact ExtTreeMap.mem_toList_iff_getElem?_eq_some.2 hstate
        exact absurd rfl (hk ⟨k, entry.1, entry.2⟩ (List.mem_map.2 ⟨(k, entry), hmem, rfl⟩))

theorem GossipParty.Sound.receive (h : p.Sound) {packet : GossipPacket} (hpacket : packet.Sound) :
    (p.receive packet).Sound := by
  intro k
  show Offer.Shows (offersTo k (p.heard ++ packet.heard)) (p.manager.merge packet.message).1.state[k]?
  rw [offersTo_append]
  by_cases hk : ∃ e ∈ packet.message.clusterView, e.nodeId = k
  · obtain ⟨e, he, rfl⟩ := hk
    rw [GossipManager.state_merge_of_mem hpacket.onePerNode he]
    exact (h e.nodeId).merge (hpacket.shows e he) false
  · have hno : ∀ e ∈ packet.message.clusterView, e.nodeId ≠ k := fun e he hid => hk ⟨e, he, hid⟩
    rw [GossipManager.state_merge_of_not_mem hno, hpacket.silent k hno, List.append_nil]
    exact h k

/-! ## Runs -/

namespace GossipNet

variable {ν : Type} [DecidableEq ν]

omit [DecidableEq ν] in
/-- Every node and every message shows the observations behind it, and they are of the list. -/
structure Sound (observed : List GossipEntry) (net : GossipNet ν) : Prop where
  parties : ∀ node, (net.parties node).Sound ∧ (net.parties node).heard ⊆ observed
  packets : ∀ packet ∈ net.packets, packet.Sound ∧ packet.heard ⊆ observed

/-- An event of a run with these observations. -/
def Event (observed : List GossipEntry) (net : GossipNet ν) (event : GossipEvent ν) : Prop :=
  net.Ordered event ∧ ∀ node entry, event = .observe node entry → entry ∈ observed

omit [DecidableEq ν] in
theorem sound_start (observed : List GossipEntry) (ids : ν → NodeId) : Sound observed (start ids) where
  parties node := ⟨GossipParty.sound_new (ids node), List.nil_subset _⟩
  packets _ hpacket := absurd hpacket List.not_mem_nil

/-- One node changes. -/
theorem Sound.update {observed : List GossipEntry} {net : GossipNet ν} (h : Sound observed net) (node : ν)
    {q : GossipParty} (hq : q.Sound ∧ q.heard ⊆ observed) :
    Sound observed { net with parties := Function.update net.parties node q } where
  parties other := by
    show (Function.update net.parties node q other).Sound ∧
      (Function.update net.parties node q other).heard ⊆ observed
    by_cases heq : other = node
    · subst heq
      rw [Function.update_self]
      exact hq
    · rw [Function.update_of_ne heq]
      exact h.parties other
  packets := h.packets

/-- **Step.** -/
theorem Sound.step {observed : List GossipEntry} {net : GossipNet ν} (h : Sound observed net)
    {event : GossipEvent ν} (hevent : net.Event observed event) : Sound observed (net.step event) := by
  obtain ⟨hordered, hobserved⟩ := hevent
  cases event with
  | observe node entry =>
      obtain ⟨hsound, hsub⟩ := h.parties node
      apply h.update
      refine ⟨hsound.observe entry, List.append_subset.2 ⟨hsub, ?_⟩⟩
      exact List.cons_subset.2 ⟨hobserved node entry rfl, List.nil_subset _⟩
  | send node order =>
      refine ⟨h.parties, forall_mem_concat h.packets ?_⟩
      exact ⟨(h.parties node).1.send hordered, (h.parties node).2⟩
  | deliver node packet =>
      rw [GossipNet.step]
      split
      · next sent hsent =>
          obtain ⟨hsound, hsub⟩ := h.packets sent (List.mem_of_getElem? hsent)
          apply h.update
          exact ⟨(h.parties node).1.receive hsound, List.append_subset.2 ⟨(h.parties node).2, hsub⟩⟩
      · exact h

/-- **Run.** -/
theorem sound_run (ids : ν → NodeId) {events : List (GossipEvent ν)}
    (h : Along step Ordered (start ids) events) :
    Sound (observations events) (events.foldl step (start ids)) := by
  -- every observation of a part of the run is one of the run
  have hevents : ∀ (rest : List (GossipEvent ν)) (net : GossipNet ν), rest ⊆ events →
      Along step Ordered net rest → Along step (Event (observations events)) net rest := by
    intro rest
    induction rest with
    | nil => exact fun _ _ _ => trivial
    | cons event rest ih =>
        intro net hsub halong
        obtain ⟨hevent, hrest⟩ := List.cons_subset.1 hsub
        refine ⟨⟨halong.1, fun node entry heq => ?_⟩, ih _ hrest halong.2⟩
        subst heq
        exact List.mem_filterMap.2 ⟨_, hevent, rfl⟩
  exact (hevents events _ (List.Subset.refl _) h).invariant
    (fun _ _ hsound hevent => hsound.step hevent) (sound_start _ ids)

/-- What has reached a node stays. -/
theorem heard_step (net : GossipNet ν) (event : GossipEvent ν) (node : ν) :
    (net.parties node).heard ⊆ ((net.step event).parties node).heard := by
  have hupdate : ∀ (other : ν) (q : GossipParty), (net.parties other).heard ⊆ q.heard →
      (net.parties node).heard ⊆ (Function.update net.parties other q node).heard := by
    intro other q hsub
    by_cases heq : node = other
    · subst heq
      rw [Function.update_self]
      exact hsub
    · rw [Function.update_of_ne heq]
      exact List.Subset.refl _
  cases event with
  | observe other entry => exact hupdate other _ (List.subset_append_left _ _)
  | send other order => exact List.Subset.refl _
  | deliver other packet =>
      rw [step]
      split
      · exact hupdate other _ (List.subset_append_left _ _)
      · exact List.Subset.refl _

theorem heard_run (node : ν) (events : List (GossipEvent ν)) :
    ∀ net : GossipNet ν, (net.parties node).heard ⊆ ((events.foldl step net).parties node).heard := by
  induction events with
  | nil => exact fun _ => List.Subset.refl _
  | cons event events ih => exact fun net => List.Subset.trans (heard_step net event node) (ih (net.step event))

/-- A view that shows an observation shows one of that node from then on, not an older one. -/
theorem view_moves_forward {p q : GossipParty} (hp : p.Sound) (hq : q.Sound) (hsub : p.heard ⊆ q.heard) {k : NodeId}
    {status : NodeStatus} {t : UInt64} (hview : p.manager.state[k]? = some (status, t)) :
    ∃ status' t', q.manager.state[k]? = some (status', t') ∧ t ≤ t' := by
  have hshows := hp k
  have hshows' := hq k
  rw [hview] at hshows
  have hoffers : ∀ o ∈ offersTo k p.heard, o ∈ offersTo k q.heard := by
    intro o ho
    obtain ⟨e, he, hid, rfl⟩ := mem_offersTo.1 ho
    exact mem_offersTo.2 ⟨e, hsub he, hid, rfl⟩
  cases hview' : q.manager.state[k]? with
  | none =>
      rw [hview'] at hshows'
      obtain ⟨⟨o, ho, -⟩, -⟩ := hshows
      have hmem := hoffers o ho
      rw [show offersTo k q.heard = [] from hshows'] at hmem
      exact absurd hmem List.not_mem_nil
  | some entry =>
      rw [hview'] at hshows'
      exact ⟨entry.1, entry.2, rfl, hshows.stamp_le hshows' hoffers⟩

/-- **Gossip.** In every run, whatever the network does to the messages:
a view shows only observations that were made and have reached the node, for each node a
newest one; every node that an observation has reached shows the observed node; views do not
go back; and nodes that the same observations have reached show the same, unless two
observations of one node tie. -/
theorem gossip_network (ids : ν → NodeId) (events : List (GossipEvent ν))
    (h : Along step Ordered (start ids) events) :
    let net := events.foldl step (start ids)
    (∀ node k status t, (net.view node)[k]? = some (status, t) →
        ⟨k, status, t⟩ ∈ (net.parties node).heard ∧ ⟨k, status, t⟩ ∈ observations events ∧
          ∀ e ∈ (net.parties node).heard, e.nodeId = k → e.timestamp ≤ t) ∧
      (∀ node, ∀ e ∈ (net.parties node).heard, ∃ status t, (net.view node)[e.nodeId]? = some (status, t)) ∧
      (∀ pre post, events = pre ++ post → ∀ (node : ν) (k : NodeId) (status : NodeStatus) (t : UInt64),
        ((pre.foldl step (start ids)).view node)[k]? = some (status, t) →
          ∃ (status' : NodeStatus) (t' : UInt64), (net.view node)[k]? = some (status', t') ∧ t ≤ t') ∧
      (Unambiguous (observations events) → ∀ node node',
        (∀ e, e ∈ (net.parties node).heard ↔ e ∈ (net.parties node').heard) → net.view node = net.view node') := by
  intro net
  have hsound := sound_run ids h
  refine ⟨fun node k status t hview => ?_, fun node e he => ?_, fun pre post hsplit node k status t hview => ?_,
    fun hties node node' hsame => ?_⟩
  · have hshows := (hsound.parties node).1 k
    rw [show (net.parties node).manager.state[k]? = some (status, t) from hview] at hshows
    obtain ⟨⟨o, ho, hvalue, hstamp⟩, hle⟩ := hshows
    obtain ⟨e, he, rfl, rfl⟩ := mem_offersTo.1 ho
    have hentry : (⟨e.nodeId, status, t⟩ : GossipEntry) = e := by
      rw [← hvalue, ← hstamp]
      rfl
    rw [hentry]
    refine ⟨he, (hsound.parties node).2 he, fun e' he' hid => ?_⟩
    exact hle e'.offer (mem_offersTo.2 ⟨e', he', hid, rfl⟩)
  · have hshows := (hsound.parties node).1 e.nodeId
    show ∃ status t, (net.parties node).manager.state[e.nodeId]? = some (status, t)
    cases hview : (net.parties node).manager.state[e.nodeId]? with
    | some entry => exact ⟨entry.1, entry.2, rfl⟩
    | none =>
        rw [hview] at hshows
        have hmem := mem_offersTo.2 ⟨e, he, rfl, rfl⟩
        rw [show offersTo e.nodeId (net.parties node).heard = [] from hshows] at hmem
        exact absurd hmem List.not_mem_nil
  · subst hsplit
    have hpre := (sound_run ids (h.of_prefix (List.prefix_append pre post))).parties node
    apply view_moves_forward hpre.1 (hsound.parties node).1 _ hview
    rw [List.foldl_append]
    exact heard_run node post _
  · apply ExtTreeMap.ext_getElem?
    intro k
    apply ((hsound.parties node).1 k).unique ((hsound.parties node').1 k)
    · intro o
      rw [mem_offersTo, mem_offersTo]
      simp only [net] at hsame
      simp only [hsame]
    · intro o ho o' ho' hstamp
      obtain ⟨e, he, hid, rfl⟩ := mem_offersTo.1 ho
      obtain ⟨e', he', hid', rfl⟩ := mem_offersTo.1 ho'
      have hsub := (hsound.parties node).2
      exact hties e (hsub he) e' (hsub he') (hid.trans hid'.symm) hstamp

/-- A node sees another one offline; its message arrives twice. -/
def offlineTwice : List (GossipEvent Bool) :=
  [.observe true ⟨2, .offline, 5⟩, .send true ((GossipManager.new 1).updateLocal 2 .offline 5).state.toList,
    .deliver false 0, .deliver false 0]

/-- Both nodes show it. -/
theorem gossip_network_offlineTwice :
    Along step Ordered (start fun node => if node then 1 else 3) offlineTwice ∧
      (offlineTwice.foldl step (start fun node => if node then 1 else 3)).view true =
        (offlineTwice.foldl step (start fun node => if node then 1 else 3)).view false := by
  have halong : Along step Ordered (start fun node => if node then 1 else 3) offlineTwice :=
    ⟨trivial, List.Perm.refl _, trivial, trivial, trivial⟩
  refine ⟨halong, (gossip_network _ offlineTwice halong).2.2.2 ?_ true false ?_⟩
  · intro e he e' he' _ _
    rw [List.mem_singleton.1 he, List.mem_singleton.1 he']
  · intro e
    show e ∈ [_] ↔ e ∈ [_, _]
    simp

end GossipNet

end MSearchDB.Node
