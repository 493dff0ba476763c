import MSearchDB.Lib.Latest
import MSearchDB.Lib.OrderedMap
import MSearchDB.Core.ClusterRouter

/-!
# Gossip

`GossipManager` of `crates/node/src/cluster_manager.rs`: a view of the cluster, fed by
the node's own observations (`update_local`) and by messages of its peers (`merge`).
Both keep the entry of the newer timestamp, but an observation also replaces an entry
of the same timestamp, and an entry of a message does not.

Node by node, a manager is a register of `Lib.Latest` to which observations make weak
offers and messages strict ones (`state_run`). Managers that received the same
observations and messages therefore converge exactly when these agree on the statuses
of the newest timestamp of each node (`converges_iff`).

A message with one entry for each node, as `build_message` makes them, moves the view
forward and reports the difference (`merge_moves_forward`).
-/

set_option autoImplicit false

namespace MSearchDB.Node

open MSearchDB.Lib
open MSearchDB.Core
open Std (ExtTreeMap)

/-- Timestamps are ordered as numbers. -/
instance timestampOrder : LinearOrder UInt64 where
  le_refl := UInt64.le_refl
  le_trans := @UInt64.le_trans
  lt_iff_le_not_ge a b := by
    rw [UInt64.not_le]
    exact ⟨fun h => ⟨UInt64.le_of_lt h, h⟩, fun h => h.2⟩
  le_antisymm := @UInt64.le_antisymm
  le_total := UInt64.le_total
  toDecidableLE := inferInstance
  toDecidableEq := inferInstance
  toDecidableLT := inferInstance

/-- `GossipEntry`. -/
structure GossipEntry where
  nodeId : NodeId
  status : NodeStatus
  timestamp : UInt64
  deriving DecidableEq, Repr

/-- `GossipMessage`. -/
structure GossipMessage where
  fromNode : NodeId
  clusterView : List GossipEntry
  deriving DecidableEq, Repr

/-- `GossipManager`. -/
structure GossipManager where
  state : ExtTreeMap NodeId (NodeStatus × UInt64)
  localNodeId : NodeId

/-- What a manager processes. -/
inductive GossipItem where
  | message (m : GossipMessage)
  | update (nodeId : NodeId) (status : NodeStatus) (timestamp : UInt64)
  deriving DecidableEq, Repr

namespace GossipManager

/-- `GossipManager::new`. -/
def new (localNodeId : NodeId) : GossipManager := ⟨∅, localNodeId⟩

/-- `update_local`: the entry is made with timestamp zero where there is none. -/
def updateLocal (g : GossipManager) (nodeId : NodeId) (status : NodeStatus) (timestamp : UInt64) :
    GossipManager :=
  let (state, entry) :=
    match g.state[nodeId]? with
    | some entry => (g.state, entry)
    | none => (g.state.insert nodeId (status, 0), (status, 0))
  { g with state := if entry.2 ≤ timestamp then state.insert nodeId (status, timestamp) else state }

/-- One iteration of the loop of `merge`, with the nodes that changed so far. -/
def mergeEntry (acc : GossipManager × List NodeId) (entry : GossipEntry) :
    GossipManager × List NodeId :=
  let (g, changed) := acc
  let current := g.state[entry.nodeId]?
  let shouldUpdate : Bool :=
    match current with
    | some (_, ts) => ts < entry.timestamp
    | none => true
  if shouldUpdate then
    ({ g with state := g.state.insert entry.nodeId (entry.status, entry.timestamp) },
      if current.map Prod.fst ≠ some entry.status then changed ++ [entry.nodeId] else changed)
  else (g, changed)

/-- `merge`: the new view, and the nodes whose status changed. -/
def merge (g : GossipManager) (message : GossipMessage) : GossipManager × List NodeId :=
  message.clusterView.foldl mergeEntry (g, [])

/-- The manager after it processed an item. -/
def process (g : GossipManager) : GossipItem → GossipManager
  | .message m => (g.merge m).1
  | .update nodeId status timestamp => g.updateLocal nodeId status timestamp

/-- The manager after it processed items from the empty view. -/
def run (localNodeId : NodeId) (items : List GossipItem) : GossipManager :=
  items.foldl process (new localNodeId)

end GossipManager

/-- The entry as an offer to the register of its node. -/
def GossipEntry.offer (e : GossipEntry) : Offer NodeStatus UInt64 := ⟨false, e.status, e.timestamp⟩

/-- The offers of an item to the register of a node. -/
def GossipItem.offers (k : NodeId) : GossipItem → List (Offer NodeStatus UInt64)
  | .message m => (m.clusterView.filter fun e => e.nodeId = k).map GossipEntry.offer
  | .update nodeId status timestamp => if nodeId = k then [⟨true, status, timestamp⟩] else []

/-- All items are processed, in any order and any number of times. -/
def Covers (items processed : List GossipItem) : Prop := ∀ item, item ∈ processed ↔ item ∈ items

/-- The newest timestamp that items give a node. -/
def NewestFor (items : List GossipItem) (k : NodeId) (t : UInt64) : Prop :=
  (∃ item ∈ items, ∃ o ∈ item.offers k, o.stamp = t) ∧ ∀ item ∈ items, ∀ o ∈ item.offers k, o.stamp ≤ t

/-- The status in the first entry of a message for a node with a timestamp. -/
def GossipMessage.firstStatus (m : GossipMessage) (k : NodeId) (t : UInt64) : Option NodeStatus :=
  (m.clusterView.find? fun e => e.nodeId = k ∧ e.timestamp = t).map GossipEntry.status

/-- At the newest timestamp of a node, the observations have one status; and if there
is no observation, the first entries of the messages that have one do. -/
def TiesAgree (items : List GossipItem) : Prop :=
  ∀ k t, NewestFor items k t →
    (∀ s s', .update k s t ∈ items → .update k s' t ∈ items → s = s') ∧
      ((∀ s, .update k s t ∉ items) → ∀ m m' s s', .message m ∈ items → .message m' ∈ items →
        m.firstStatus k t = some s → m'.firstStatus k t = some s' → s = s')

namespace GossipManager

/-! ## A manager as registers -/

theorem state_updateLocal (g : GossipManager) (nodeId : NodeId) (status : NodeStatus)
    (timestamp : UInt64) (k : NodeId) :
    (g.updateLocal nodeId status timestamp).state[k]? =
      if nodeId = k then Offer.take g.state[k]? ⟨true, status, timestamp⟩ else g.state[k]? := by
  by_cases hk : nodeId = k
  · subst hk
    rw [if_pos rfl, updateLocal]
    cases hentry : g.state[nodeId]? with
    | none => simp [Offer.take]
    | some entry =>
        -- a weak offer wins against the entry when the entry is not newer
        have hle : entry.2 ≤ timestamp ↔ entry.2 < timestamp ∨ entry.2 = timestamp := le_iff_lt_or_eq
        by_cases htime : entry.2 ≤ timestamp
        · simp [Offer.take, htime, hle.1 htime]
        · simp [Offer.take, htime, hentry, mt hle.2 htime]
  · rw [if_neg hk, updateLocal]
    cases hentry : g.state[nodeId]? with
    | none => simp [ExtTreeMap.getElem?_insert, hk]
    | some entry =>
        simp only
        split
        · simp [ExtTreeMap.getElem?_insert, hk]
        · rfl

theorem state_mergeEntry (acc : GossipManager × List NodeId) (e : GossipEntry) (k : NodeId) :
    (mergeEntry acc e).1.state[k]? =
      if e.nodeId = k then Offer.take acc.1.state[k]? e.offer else acc.1.state[k]? := by
  obtain ⟨g, changed⟩ := acc
  by_cases hk : e.nodeId = k
  · subst hk
    rw [if_pos rfl, mergeEntry]
    cases hentry : g.state[e.nodeId]? with
    | none => simp [Offer.take, GossipEntry.offer]
    | some entry =>
        by_cases htime : entry.2 < e.timestamp
        · simp [Offer.take, GossipEntry.offer, htime]
        · simp [Offer.take, GossipEntry.offer, hentry, htime]
  · rw [if_neg hk, mergeEntry]
    cases hentry : g.state[e.nodeId]? with
    | none => simp [ExtTreeMap.getElem?_insert, hk]
    | some entry =>
        by_cases htime : entry.2 < e.timestamp
        · simp [ExtTreeMap.getElem?_insert, hk, htime]
        · simp [htime]

theorem state_process (g : GossipManager) (item : GossipItem) (k : NodeId) :
    (g.process item).state[k]? = (item.offers k).foldl Offer.take g.state[k]? := by
  cases item with
  | update nodeId status timestamp =>
      rw [process, state_updateLocal, GossipItem.offers]
      split
      · rfl
      · rfl
  | message m =>
      -- for every accumulator, since the loop also carries the changed nodes
      have hloop : ∀ (es : List GossipEntry) (acc : GossipManager × List NodeId),
          (es.foldl mergeEntry acc).1.state[k]? =
            ((es.filter fun e => e.nodeId = k).map GossipEntry.offer).foldl Offer.take
              acc.1.state[k]? := by
        intro es
        induction es with
        | nil => exact fun acc => rfl
        | cons e es ih =>
            intro acc
            rw [List.foldl_cons, ih, state_mergeEntry]
            by_cases hk : e.nodeId = k
            · simp [hk]
            · simp [hk]
      exact hloop m.clusterView (g, [])

/-- Every node's entry is settled by the offers the items make to it. -/
theorem state_run (localNodeId : NodeId) (items : List GossipItem) (k : NodeId) :
    (run localNodeId items).state[k]? = Offer.settle (items.flatMap (GossipItem.offers k)) := by
  have hfold : ∀ g : GossipManager, (items.foldl process g).state[k]? =
      (items.flatMap (GossipItem.offers k)).foldl Offer.take g.state[k]? := by
    induction items with
    | nil => exact fun g => rfl
    | cons item items ih =>
        intro g
        rw [List.foldl_cons, ih, state_process, List.flatMap_cons, List.foldl_append]
  rw [run, hfold, Offer.settle]
  simp [new]

/-! ## Convergence -/

section Convergence

variable {items : List GossipItem} {k : NodeId} {t : UInt64}

/-- Weak offers come from observations. -/
theorem eq_update_of_weak {item : GossipItem} {o : Offer NodeStatus UInt64} (h : o ∈ item.offers k)
    (hweak : o.weak = true) : item = .update k o.value o.stamp := by
  cases item with
  | message m =>
      obtain ⟨e, -, rfl⟩ := List.mem_map.1 h
      simp [GossipEntry.offer] at hweak
  | update nodeId status timestamp =>
      rw [GossipItem.offers] at h
      split at h
      case isTrue hk =>
          obtain rfl := List.mem_singleton.1 h
          rw [hk]
      case isFalse => simp at h

/-- Without observations of a time, all offers of that time are strict. -/
theorem strict_of_noUpdate {processed : List GossipItem} {o : Offer NodeStatus UInt64}
    (h : Covers items processed) (hnone : ∀ s, .update k s t ∉ items)
    (ho : o ∈ processed.flatMap (GossipItem.offers k)) (hstamp : o.stamp = t) : o.weak = false := by
  refine Bool.eq_false_iff.2 fun hweak => ?_
  obtain ⟨item, hitem, hoffer⟩ := List.mem_flatMap.1 ho
  obtain rfl := eq_update_of_weak hoffer hweak
  rw [hstamp] at hitem
  exact hnone _ ((h _).1 hitem)

theorem mem_offers_update (k : NodeId) (s : NodeStatus) (t : UInt64) :
    ⟨true, s, t⟩ ∈ (GossipItem.update k s t).offers k := by
  simp [GossipItem.offers]

theorem firstAt_message (m : GossipMessage) :
    Offer.firstAt t ((GossipItem.message m).offers k) =
      (m.clusterView.find? fun e => e.nodeId = k ∧ e.timestamp = t).map GossipEntry.offer := by
  rw [Offer.firstAt, GossipItem.offers, List.find?_map, List.find?_filter]
  simp only [Bool.decide_and, Bool.decide_eq_true, Function.comp_apply]
  rfl

theorem firstStatus_eq (m : GossipMessage) :
    m.firstStatus k t = (Offer.firstAt t ((GossipItem.message m).offers k)).map Offer.value := by
  rw [firstAt_message, GossipMessage.firstStatus, Option.map_map]
  rfl

theorem newest_of_covers {processed : List GossipItem} (h : Covers items processed) :
    Offer.Newest (processed.flatMap (GossipItem.offers k)) t ↔ NewestFor items k t := by
  simp only [Offer.Newest, NewestFor, List.mem_flatMap, h _]
  constructor
  · rintro ⟨⟨o, ⟨item, hitem, ho⟩, hstamp⟩, hle⟩
    exact ⟨⟨item, hitem, o, ho, hstamp⟩, fun item hitem o ho => hle o ⟨item, hitem, ho⟩⟩
  · rintro ⟨⟨item, hitem, o, ho, hstamp⟩, hle⟩
    exact ⟨⟨o, ⟨item, hitem, ho⟩, hstamp⟩, fun o ⟨item, hitem, ho⟩ => hle item hitem o ho⟩

/-- A strict first offer is the first entry of a message. -/
theorem exists_message_of_firstAt {processed : List GossipItem} {o : Offer NodeStatus UInt64}
    (hfirst : Offer.firstAt t (processed.flatMap (GossipItem.offers k)) = some o)
    (hstrict : o.weak = false) : ∃ m, .message m ∈ processed ∧ m.firstStatus k t = some o.value := by
  rw [Offer.firstAt, List.find?_flatMap] at hfirst
  obtain ⟨item, hitem, hfind⟩ := List.exists_of_findSome?_eq_some hfirst
  cases item with
  | message m => exact ⟨m, hitem, by rw [firstStatus_eq, Offer.firstAt, hfind]; rfl⟩
  | update nodeId status timestamp =>
      have ho := List.mem_of_find?_eq_some hfind
      rw [GossipItem.offers] at ho
      split at ho
      · obtain rfl := List.mem_singleton.1 ho
        simp at hstrict
      · simp at ho

theorem converges_of_tiesAgree (h : TiesAgree items) {id id' : NodeId} {xs ys : List GossipItem}
    (hxs : Covers items xs) (hys : Covers items ys) : (run id xs).state = (run id' ys).state := by
  refine ExtTreeMap.ext_getElem? fun {k} => ?_
  rw [state_run, state_run]
  refine Offer.settle_eq_settle (fun o => ?_) (fun t hnewest o ho o' ho' hweak hweak' hs hs' => ?_)
    (fun t hnewest hstrict o o' ho ho' => ?_)
  · simp only [List.mem_flatMap, hxs _, hys _]
  · -- two observations of the newest time
    obtain ⟨item, hitem, hoffer⟩ := List.mem_flatMap.1 ho
    obtain ⟨item', hitem', hoffer'⟩ := List.mem_flatMap.1 ho'
    obtain rfl := eq_update_of_weak hoffer hweak
    obtain rfl := eq_update_of_weak hoffer' hweak'
    subst hs
    rw [hs'] at hitem'
    exact (h k o.stamp ((newest_of_covers hxs).1 hnewest)).1 _ _ ((hxs _).1 hitem) ((hxs _).1 hitem')
  · -- messages alone: in each order the first entry met comes from some message
    have hnone : ∀ s, .update k s t ∉ items := by
      intro s hs
      have hmem := List.mem_flatMap.2 ⟨_, (hxs _).2 hs, mem_offers_update k s t⟩
      exact absurd (hstrict _ hmem rfl) (by simp)
    have hweak : ∀ {zs : List GossipItem} {w : Offer NodeStatus UInt64}, Covers items zs →
        Offer.firstAt t (zs.flatMap (GossipItem.offers k)) = some w → w.weak = false := by
      intro zs w hzs hw
      have hstamp : w.stamp = t := by simpa using List.find?_some hw
      exact strict_of_noUpdate hzs hnone (List.mem_of_find?_eq_some hw) hstamp
    obtain ⟨m, hm, hms⟩ := exists_message_of_firstAt ho (hweak hxs ho)
    obtain ⟨m', hm', hms'⟩ := exists_message_of_firstAt ho' (hweak hys ho')
    exact (h k t ((newest_of_covers hxs).1 hnewest)).2 hnone m m' _ _ ((hxs _).1 hm) ((hys _).1 hm')
      hms hms'

theorem covers_concat {item : GossipItem} (h : item ∈ items) : Covers items (items ++ [item]) := by
  intro item'
  rw [List.mem_append, List.mem_singleton]
  exact ⟨fun hor => hor.elim id fun heq => heq ▸ h, .inl⟩

theorem covers_cons {item : GossipItem} (h : item ∈ items) : Covers items (item :: items) := by
  intro item'
  rw [List.mem_cons]
  exact ⟨fun hor => hor.elim (fun heq => heq ▸ h) id, .inr⟩

/-- An observation of the newest timestamp processed last decides. -/
theorem state_update_last {s : NodeStatus} (hnewest : NewestFor items k t) (id : NodeId) :
    (run id (items ++ [.update k s t])).state[k]? = some (s, t) := by
  rw [state_run, List.flatMap_append]
  have hoffer : [GossipItem.update k s t].flatMap (GossipItem.offers k) = [⟨true, s, t⟩] := by
    simp [GossipItem.offers]
  rw [hoffer]
  refine Offer.settle_concat_weak rfl fun o ho => ?_
  obtain ⟨item, hitem, hmem⟩ := List.mem_flatMap.1 ho
  exact hnewest.2 item hitem o hmem

/-- Without observations of the newest timestamp, a message that has it and is
processed first decides. -/
theorem state_message_first {m : GossipMessage} {s : NodeStatus} (hnewest : NewestFor items k t)
    (hm : .message m ∈ items) (hnone : ∀ s, .update k s t ∉ items) (hs : m.firstStatus k t = some s)
    (id : NodeId) : (run id (.message m :: items)).state[k]? = some (s, t) := by
  have hcovers := covers_cons hm
  rw [firstStatus_eq, Option.map_eq_some_iff] at hs
  obtain ⟨o, ho, rfl⟩ := hs
  rw [state_run]
  refine Offer.settle_of_firstAt ((newest_of_covers hcovers).2 hnewest)
    (fun w hw hstamp => strict_of_noUpdate hcovers hnone hw hstamp) ?_
  rw [List.flatMap_cons, Offer.firstAt, List.find?_append, ← Offer.firstAt, ho]
  rfl

/-- **When gossip converges.** All managers that process the same messages and
observations, in any order and with any repetitions, end with the same view if and
only if the ties at the newest timestamp of every node agree. -/
theorem converges_iff (items : List GossipItem) :
    (∀ id id' xs ys, Covers items xs → Covers items ys → (run id xs).state = (run id' ys).state) ↔
      TiesAgree items := by
  refine ⟨fun hall k t hnewest => ⟨fun s s' hs hs' => ?_, fun hnone m m' s s' hm hm' hs hs' => ?_⟩,
    fun h id id' xs ys hxs hys => converges_of_tiesAgree h hxs hys⟩
  · -- process either observation once more, at the end
    have hstate := hall 0 0 _ _ (covers_concat hs) (covers_concat hs')
    have hcell := state_update_last (s := s) hnewest 0
    rw [hstate, state_update_last hnewest] at hcell
    simpa using hcell.symm
  · -- process either message once more, at the start
    have hstate := hall 0 0 _ _ (covers_cons hm) (covers_cons hm')
    have hcell := state_message_first hnewest hm hnone hs 0
    rw [hstate, state_message_first hnewest hm' hnone hs'] at hcell
    simpa using hcell.symm

end Convergence

/-- Two observations of one node at one time end in the order of their arrival. -/
theorem ties_diverge :
    let items : List GossipItem := [.update 1 .follower 5, .update 1 .offline 5]
    Covers items [.update 1 .follower 5, .update 1 .offline 5] ∧
      Covers items [.update 1 .offline 5, .update 1 .follower 5] ∧
      (run 0 [.update 1 .follower 5, .update 1 .offline 5]).state ≠
        (run 0 [.update 1 .offline 5, .update 1 .follower 5]).state := by
  refine ⟨fun _ => Iff.rfl, fun item => ?_, fun heq => ?_⟩
  · simp only [List.mem_cons, List.not_mem_nil, or_false]
    exact or_comm
  · have hstate := congrArg (fun m => m[(1 : NodeId)]?) heq
    exact absurd hstate (by decide)

/-! ## One message -/

/-- `build_message`, with the entries of the view in the order in which the map yields
them. -/
def buildMessage (g : GossipManager) (entries : List (NodeId × NodeStatus × UInt64)) : GossipMessage :=
  ⟨g.localNodeId, entries.map fun entry => ⟨entry.1, entry.2.1, entry.2.2⟩⟩

end GossipManager

/-- No two entries are about the same node. -/
def GossipMessage.OnePerNode (m : GossipMessage) : Prop := (m.clusterView.map GossipEntry.nodeId).Nodup

namespace GossipManager

theorem onePerNode_buildMessage (g : GossipManager) {entries : List (NodeId × NodeStatus × UInt64)}
    (h : entries.Perm g.state.toList) : (g.buildMessage entries).OnePerNode := by
  have hids : (g.buildMessage entries).clusterView.map GossipEntry.nodeId = entries.map Prod.fst := by
    rw [buildMessage, List.map_map]
    rfl
  rw [GossipMessage.OnePerNode, hids]
  exact nodup_fst_of_perm h

/-- The entry makes its node new or gives it another status. -/
def changes (g : GossipManager) (e : GossipEntry) : Bool :=
  match g.state[e.nodeId]? with
  | some (status, t) => t < e.timestamp && status ≠ e.status
  | none => true

theorem mergeEntry_changed (acc : GossipManager × List NodeId) (e : GossipEntry) :
    (mergeEntry acc e).2 = acc.2 ++ if acc.1.changes e then [e.nodeId] else [] := by
  obtain ⟨g, changed⟩ := acc
  rw [mergeEntry, changes]
  cases hentry : g.state[e.nodeId]? with
  | none => simp
  | some entry =>
      by_cases htime : entry.2 < e.timestamp
      · by_cases hstatus : entry.1 = e.status
        · simp [htime, hstatus]
        · simp [htime, hstatus]
      · simp [htime]

section OneMessage

variable {g : GossipManager} {e : GossipEntry}

/-- The status that a single entry leaves is another one exactly when it changes it. -/
theorem changes_iff : g.changes e = true ↔
    (Offer.take g.state[e.nodeId]? e.offer).map Prod.fst ≠ g.state[e.nodeId]?.map Prod.fst := by
  rw [changes]
  cases hentry : g.state[e.nodeId]? with
  | none => simp [Offer.take]
  | some entry =>
      by_cases htime : entry.2 < e.timestamp
      · simpa [Offer.take, GossipEntry.offer, htime] using not_congr eq_comm
      · simp [Offer.take, GossipEntry.offer, htime]

theorem changes_congr {g' : GossipManager} (h : g'.state[e.nodeId]? = g.state[e.nodeId]?) :
    g'.changes e = g.changes e := by
  rw [changes, changes, h]

/-- The loop of `merge` over entries of different nodes: what it reports is decided by
the view before it. -/
theorem foldl_mergeEntry_changed (es : List GossipEntry) :
    ∀ acc : GossipManager × List NodeId, (es.map GossipEntry.nodeId).Nodup →
      (es.foldl mergeEntry acc).2 = acc.2 ++ (es.filter acc.1.changes).map GossipEntry.nodeId := by
  induction es with
  | nil => intro acc _; simp
  | cons e es ih =>
      intro acc hnodup
      obtain ⟨hnot, hrest⟩ := List.nodup_cons.1 hnodup
      -- the entry does not touch the nodes that follow
      have hsame : es.filter (mergeEntry acc e).1.changes = es.filter acc.1.changes := by
        apply List.filter_congr
        intro e' he'
        have hne : e.nodeId ≠ e'.nodeId := fun heq => hnot (heq ▸ List.mem_map_of_mem he')
        exact changes_congr (by rw [state_mergeEntry, if_neg hne])
      rw [List.foldl_cons, ih _ hrest, hsame, mergeEntry_changed, List.append_assoc]
      cases hchanges : acc.1.changes e with
      | false => simp [hchanges]
      | true => simp [hchanges]

variable {m : GossipMessage}

theorem mem_merge_changed_iff (h : m.OnePerNode) (k : NodeId) :
    k ∈ (g.merge m).2 ↔ ∃ e ∈ m.clusterView, g.changes e = true ∧ e.nodeId = k := by
  rw [merge, foldl_mergeEntry_changed _ _ h]
  simp [and_assoc]

theorem nodup_merge_changed (h : m.OnePerNode) : (g.merge m).2.Nodup := by
  rw [merge, foldl_mergeEntry_changed _ _ h]
  exact h.sublist (List.filter_sublist.map GossipEntry.nodeId)

/-- A node that is not mentioned is not touched. -/
theorem state_merge_of_not_mem {k : NodeId} (h : ∀ e ∈ m.clusterView, e.nodeId ≠ k) :
    (g.merge m).1.state[k]? = g.state[k]? := by
  have hstate := state_process g (.message m) k
  rw [process, GossipItem.offers, List.filter_eq_nil_iff.2 (by simpa using h)] at hstate
  exact hstate

/-- A node that is mentioned takes the offer of its entry. -/
theorem state_merge_of_mem (h : m.OnePerNode) (he : e ∈ m.clusterView) :
    (g.merge m).1.state[e.nodeId]? = Offer.take g.state[e.nodeId]? e.offer := by
  have hone : m.clusterView.filter (fun e' => e'.nodeId = e.nodeId) = [e] := by
    obtain ⟨xs, ys, hview⟩ := List.append_of_mem he
    rw [GossipMessage.OnePerNode, hview, List.map_append, List.map_cons, List.nodup_middle,
      List.nodup_cons, List.mem_append, not_or] at h
    obtain ⟨⟨hxs, hys⟩, -⟩ := h
    have hno : ∀ {zs : List GossipEntry}, e.nodeId ∉ zs.map GossipEntry.nodeId →
        zs.filter (fun e' => e'.nodeId = e.nodeId) = [] := by
      intro zs hzs
      refine List.filter_eq_nil_iff.2 fun e' he' hid => hzs ?_
      rw [← of_decide_eq_true hid]
      exact List.mem_map_of_mem he'
    rw [hview, List.filter_append, List.filter_cons_of_pos (by simp), hno hxs, hno hys]
    rfl
  have hstate := state_process g (.message m) e.nodeId
  rw [process, GossipItem.offers, hone] at hstate
  exact hstate

/-- The message again: every entry is old now. -/
theorem merge_again (h : m.OnePerNode) : (g.merge m).1.merge m = ((g.merge m).1, []) := by
  have hold : ∀ e ∈ m.clusterView, mergeEntry ((g.merge m).1, []) e = ((g.merge m).1, []) := by
    intro e he
    obtain ⟨status, t, hstate, hle⟩ : ∃ status t,
        (g.merge m).1.state[e.nodeId]? = some (status, t) ∧ ¬ t < e.timestamp := by
      rw [state_merge_of_mem h he]
      cases hentry : g.state[e.nodeId]? with
      | none => exact ⟨e.status, e.timestamp, rfl, lt_irrefl _⟩
      | some entry =>
          by_cases htime : entry.2 < e.timestamp
          · exact ⟨e.status, e.timestamp, by simp [Offer.take, GossipEntry.offer, htime], lt_irrefl _⟩
          · exact ⟨entry.1, entry.2, by simp [Offer.take, GossipEntry.offer, htime], htime⟩
    rw [mergeEntry, hstate]
    simp [hle]
  have hloop : ∀ es : List GossipEntry, (∀ e ∈ es, e ∈ m.clusterView) →
      es.foldl mergeEntry ((g.merge m).1, []) = ((g.merge m).1, []) := by
    intro es
    induction es with
    | nil => exact fun _ => rfl
    | cons e es ih =>
        intro hes
        rw [List.foldl_cons, hold e (hes e List.mem_cons_self)]
        exact ih fun e' he' => hes e' (List.mem_cons_of_mem _ he')
  exact hloop m.clusterView fun e he => he

/-- **A message moves the view forward.** It has at most one entry for each node. A node
it mentions gets the newer timestamp and keeps the status that belongs to it, the others
are not touched, the nodes reported are those that are new or have another status than
before, and the message again changes nothing. -/
theorem merge_moves_forward (g : GossipManager) {m : GossipMessage} (h : m.OnePerNode) :
    (∀ e ∈ m.clusterView, ∃ status t, (g.merge m).1.state[e.nodeId]? = some (status, t) ∧
        (g.state[e.nodeId]? = none → status = e.status ∧ t = e.timestamp) ∧
        ∀ old told, g.state[e.nodeId]? = some (old, told) →
          t.toNat = max told.toNat e.timestamp.toNat ∧
            status = if told < e.timestamp then e.status else old) ∧
      (∀ k, (∀ e ∈ m.clusterView, e.nodeId ≠ k) → (g.merge m).1.state[k]? = g.state[k]?) ∧
      (g.merge m).2.Nodup ∧
      (∀ k, k ∈ (g.merge m).2 ↔
        (g.merge m).1.state[k]?.map Prod.fst ≠ g.state[k]?.map Prod.fst) ∧
      (g.merge m).1.merge m = ((g.merge m).1, []) := by
  refine ⟨fun e he => ?_, fun k hk => state_merge_of_not_mem hk, nodup_merge_changed h, fun k => ?_,
    merge_again h⟩
  · rw [state_merge_of_mem h he]
    cases hentry : g.state[e.nodeId]? with
    | none => exact ⟨e.status, e.timestamp, rfl, fun _ => ⟨rfl, rfl⟩, by simp⟩
    | some entry =>
        obtain ⟨old, told⟩ := entry
        by_cases htime : told < e.timestamp
        · refine ⟨e.status, e.timestamp, by simp [Offer.take, GossipEntry.offer, htime], by simp, ?_⟩
          rintro _ _ ⟨rfl, rfl⟩
          exact ⟨(max_eq_right (UInt64.le_iff_toNat_le.1 htime.le)).symm, (if_pos htime).symm⟩
        · refine ⟨old, told, by simp [Offer.take, GossipEntry.offer, htime], by simp, ?_⟩
          rintro _ _ ⟨rfl, rfl⟩
          exact ⟨(max_eq_left (UInt64.le_iff_toNat_le.1 (not_lt.1 htime))).symm, (if_neg htime).symm⟩
  · rw [mem_merge_changed_iff h]
    constructor
    · rintro ⟨e, he, hchanges, rfl⟩
      rw [state_merge_of_mem h he]
      exact changes_iff.1 hchanges
    · intro hne
      -- a node whose status changed is mentioned
      by_cases hk : ∃ e ∈ m.clusterView, e.nodeId = k
      · obtain ⟨e, he, rfl⟩ := hk
        rw [state_merge_of_mem h he] at hne
        exact ⟨e, he, changes_iff.2 hne, rfl⟩
      · refine absurd (congrArg (Option.map Prod.fst) (state_merge_of_not_mem fun e he hid => ?_)) hne
        exact hk ⟨e, he, hid⟩

/-- A peer's message: a node goes offline, one is old news and one is new. -/
theorem merge_moves_forward_three_nodes :
    let peer := (((new 4).updateLocal 2 .offline 200).updateLocal 3 .offline 150).updateLocal 5 .follower 0
    let own := ((new 1).updateLocal 2 .follower 100).updateLocal 3 .leader 300
    let message := peer.buildMessage peer.state.toList
    (own.merge message).2 = [2, 5] ∧
      (own.merge message).1.merge message = ((own.merge message).1, []) := by
  intro peer own message
  exact ⟨by decide, (merge_moves_forward _ (onePerNode_buildMessage _ (.refl _))).2.2.2.2⟩

end OneMessage

end GossipManager

end MSearchDB.Node
