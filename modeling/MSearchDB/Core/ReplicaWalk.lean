import MSearchDB.Core.ClusterRouter

/-!
# The replicas of a key

`get_nodes` walks the ring from the position of a key to its end and then from its start to
that position. The walk meets the entries in the order of their distance from the key,
measured clockwise (`pairwise_walk`), and the nodes of a key are the first distinct nodes
that it meets (`getNodes_run_iff`).

The bound on their number is that of the members. A ring has no node of another id than
those (`owned_run`), whatever the hash does with the virtual nodes, so the walk never has
more distinct nodes than the bound.

The list is made for the count that is asked for, before that bound. From 2^60 on this is a
panic, unless the ring is empty.
-/

set_option autoImplicit false

namespace MSearchDB.Core.ConsistentHashRing

open MSearchDB.Lib
open Std

variable {T : Type}

/-- The entries of the ring in the order of the walk from a position. -/
def walk (r : ConsistentHashRing T) (p : UInt64) : List (UInt64 × T) :=
  (r.ring.toList.filter fun entry => p ≤ entry.1) ++ r.ring.toList.filter fun entry => entry.1 < p

/-- The way from one position to another, clockwise. -/
def distance (p pos : UInt64) : Nat := (pos - p).toNat

theorem map_snd_walk (r : ConsistentHashRing T) (p : UInt64) : (r.walk p).map Prod.snd = r.clockwise p := rfl

theorem mem_walk {r : ConsistentHashRing T} {p pos : UInt64} {v : T} :
    (pos, v) ∈ r.walk p ↔ r.ring[pos]? = some v := by
  rw [← ExtTreeMap.mem_toList_iff_getElem?_eq_some, walk, List.mem_append, List.mem_filter, List.mem_filter,
    ← and_or_left, and_iff_left_iff_imp]
  intro _
  rcases Nat.lt_or_ge pos.toNat p.toNat with hlt | hle
  · exact .inr (decide_eq_true hlt)
  · exact .inl (decide_eq_true hle)

theorem distance_eq (p pos : UInt64) :
    distance p pos = if p.toNat ≤ pos.toNat then pos.toNat - p.toNat else 2 ^ 64 - p.toNat + pos.toNat := by
  have hp := p.toNat_lt
  have hpos := pos.toNat_lt
  rw [distance, UInt64.toNat_sub]
  split
  · omega
  · omega

/-- **The walk goes clockwise.** -/
theorem pairwise_walk (r : ConsistentHashRing T) (p : UInt64) :
    (r.walk p).Pairwise fun a b => distance p a.1 < distance p b.1 := by
  have hsorted : r.ring.toList.Pairwise fun a b => a.1.toNat < b.1.toNat :=
    (ExtTreeMap.ordered_keys_toList (t := r.ring)).imp fun hlt => compare_eq_lt.1 hlt
  have hp := p.toNat_lt
  have hfrom : ∀ {entry : UInt64 × T}, entry ∈ r.ring.toList.filter (fun entry => p ≤ entry.1) →
      p.toNat ≤ entry.1.toNat := fun hentry => of_decide_eq_true (List.mem_filter.1 hentry).2
  have hbefore : ∀ {entry : UInt64 × T}, entry ∈ r.ring.toList.filter (fun entry => entry.1 < p) →
      entry.1.toNat < p.toNat := fun hentry => of_decide_eq_true (List.mem_filter.1 hentry).2
  -- both pieces are in the order of the positions, and the second one has gone past zero
  refine List.pairwise_append.2 ⟨?_, ?_, fun a ha b hb => ?_⟩
  · refine (hsorted.filter _).imp_of_mem fun {a b} ha hb hlt => ?_
    have hle := hfrom ha
    rw [distance_eq, distance_eq, if_pos hle, if_pos (hfrom hb)]
    omega
  · refine (hsorted.filter _).imp_of_mem fun {a b} ha hb hlt => ?_
    rw [distance_eq, distance_eq, if_neg (Nat.not_le.2 (hbefore ha)), if_neg (Nat.not_le.2 (hbefore hb))]
    omega
  · have hle := hfrom ha
    have hlt := a.1.toNat_lt
    rw [distance_eq, distance_eq, if_pos hle, if_neg (Nat.not_le.2 (hbefore hb))]
    omega

/-! ## The members of the ring -/

section Owned

variable [Sha256]

/-- Every entry of the ring is a member at one of its own positions. -/
def Owned (r : ConsistentHashRing T) : Prop :=
  ∀ (pos : UInt64) (v : T), r.ring[pos]? = some v →
    ∃ id : String, r.nodes[id]? = some v ∧ ∃ i < virtualNodes, position id i = pos

theorem owned_new : Owned (new : ConsistentHashRing T) := by
  intro pos v hv
  simp [new] at hv

theorem Owned.removeNode {r : ConsistentHashRing T} (hr : Owned r) (id : String) : Owned (r.removeNode id) := by
  intro pos v hv
  obtain ⟨hold, hfree⟩ := ring_removeNode hv
  obtain ⟨id', hid', i, hi, hpos⟩ := hr pos v hold
  have hne : id ≠ id' := by
    rintro rfl
    exact hfree (mem_nodes_iff.2 ⟨v, hid'⟩) i hi hpos
  exact ⟨id', by rw [nodes_removeNode, if_neg hne, hid'], i, hi, hpos⟩

theorem Owned.addNode {r : ConsistentHashRing T} (hr : Owned r) (id : String) (value : T) :
    Owned (r.addNode id value) := by
  intro pos v hv
  rw [ConsistentHashRing.addNode] at hv
  rcases (getElem?_foldl_insert (position id) value v pos _ _).1 hv with ⟨⟨i, hi, hpos⟩, rfl⟩ | ⟨-, hold⟩
  · exact ⟨id, by rw [nodes_addNode, if_pos rfl], i, List.mem_range.1 hi, hpos⟩
  · -- what is left from before belongs to another member
    obtain ⟨id', hid', hpos⟩ := hr.removeNode id pos v hold
    refine ⟨id', ?_, hpos⟩
    rw [nodes_removeNode] at hid'
    rw [nodes_addNode]
    split at hid'
    · cases hid'
    next hne => rw [if_neg hne, hid']

/-- A node that is added leaves the positions of the others alone. -/
theorem ring_addNode_of_ne {r : ConsistentHashRing T} {id : String} {value v : T} {pos : UInt64}
    (hfree : ∀ i < virtualNodes, position id i ≠ pos) (h : (r.removeNode id).ring[pos]? = some v) :
    (r.addNode id value).ring[pos]? = some v := by
  rw [ConsistentHashRing.addNode]
  exact (getElem?_foldl_insert (position id) value v pos _ _).2 (.inr ⟨fun i hi => hfree i (List.mem_range.1 hi), h⟩)

/-- **No history leaves a node on the ring that is not a member.** -/
theorem owned_run (calls : List (RingCall T)) : Owned (run calls) := by
  refine List.foldlRecOn calls exec owned_new fun r hr call _ => ?_
  cases call with
  | addNode id value => exact hr.addNode id value
  | removeNode id => exact hr.removeNode id

end Owned

/-! ## The first distinct nodes -/

section Replicas

variable [Sha256] [DecidableEq T] {r : ConsistentHashRing T}

/-- The different nodes on the ring. -/
def nodesOnRing (r : ConsistentHashRing T) : List T := (r.ring.toList.map Prod.snd).dedup

omit [Sha256] in
theorem length_firsts_walk (r : ConsistentHashRing T) (p : UInt64) :
    (firsts ((r.walk p).map Prod.snd)).length = r.nodesOnRing.length := by
  refine List.Perm.length_eq ((List.perm_ext_iff_of_nodup (nodup_firsts _) (List.nodup_dedup _)).2 fun v => ?_)
  rw [mem_firsts, map_snd_walk, mem_clockwise, List.mem_dedup, List.mem_map]
  constructor
  · rintro ⟨pos, hpos⟩
    exact ⟨(pos, v), ExtTreeMap.mem_toList_iff_getElem?_eq_some.2 hpos, rfl⟩
  · rintro ⟨⟨pos, w⟩, hmem, rfl⟩
    exact ⟨pos, ExtTreeMap.mem_toList_iff_getElem?_eq_some.1 hmem⟩

theorem Owned.length_nodesOnRing_le (hr : Owned r) : r.nodesOnRing.length ≤ r.nodes.size := by
  have hsub : r.nodesOnRing ⊆ r.nodes.toList.map Prod.snd := by
    intro v hv
    obtain ⟨⟨pos, w⟩, hmem, rfl⟩ := List.mem_map.1 (List.mem_dedup.1 hv)
    obtain ⟨id, hid, -⟩ := hr pos w (ExtTreeMap.mem_toList_iff_getElem?_eq_some.1 hmem)
    exact List.mem_map.2 ⟨(id, w), ExtTreeMap.mem_toList_iff_getElem?_eq_some.2 hid, rfl⟩
  have hle := ((List.nodup_dedup _).subperm hsub).length_le
  rwa [List.length_map, ExtTreeMap.length_toList] at hle

theorem Owned.collectNodes_eq (hr : Owned r) (key : String) (count : Nat) :
    r.collectNodes key count =
      (firsts ((r.walk (hashToPosition key)).map Prod.snd)).take (min count r.nodesOnRing.length) := by
  have hlen := length_firsts_walk r (hashToPosition key)
  have hle := hr.length_nodesOnRing_le
  rw [ConsistentHashRing.collectNodes_eq, ← map_snd_walk, List.take_eq_take_iff, hlen]
  omega

/-- The nodes of a key without a bound are all that the walk meets. -/
theorem Owned.collectNodes_eq_take (hr : Owned r) (key : String) (count : Nat) :
    r.collectNodes key count = (firsts ((r.walk (hashToPosition key)).map Prod.snd)).take count := by
  rw [hr.collectNodes_eq, List.take_eq_take_iff, length_firsts_walk]
  omega

theorem Owned.head?_collectNodes (hr : Owned r) (key : String) (count : Nat) :
    (r.collectNodes key (count + 1)).head? = r.getPrimary key := by
  rw [getPrimary_eq_head?, hr.collectNodes_eq_take, hr.collectNodes_eq_take, List.head?_take, List.head?_take]
  simp

omit [Sha256] in
theorem firsts_walk_eq_nil_iff (p : UInt64) : firsts ((r.walk p).map Prod.snd) = [] ↔ r.ring = ∅ := by
  rw [← List.length_eq_zero_iff, length_firsts_walk, List.length_eq_zero_iff, nodesOnRing, List.dedup_eq_nil,
    List.map_eq_nil_iff, ExtTreeMap.toList_eq_nil_iff]

theorem Owned.getPrimary_eq (hr : Owned r) (key : String) :
    r.getPrimary key = (firsts ((r.walk (hashToPosition key)).map Prod.snd)).head? := by
  rw [← hr.head?_collectNodes key 0, hr.collectNodes_eq_take, List.head?_take]
  simp

theorem Owned.getPrimary_eq_none_iff (hr : Owned r) (key : String) : r.getPrimary key = none ↔ r.ring = ∅ := by
  rw [hr.getPrimary_eq, List.head?_eq_none_iff, firsts_walk_eq_nil_iff]

theorem Owned.nodup_collectNodes (hr : Owned r) (key : String) (count : Nat) : (r.collectNodes key count).Nodup := by
  rw [hr.collectNodes_eq_take]
  exact (nodup_firsts _).sublist (List.take_sublist _ _)

/-- The primary is the node of the entry that is next clockwise. -/
theorem Owned.getPrimary_of_closest (hr : Owned r) {key : String} {pos : UInt64} {v : T} (hv : r.ring[pos]? = some v)
    (hclosest : ∀ (pos' : UInt64) (v' : T), r.ring[pos']? = some v' → v' ≠ v →
      distance (hashToPosition key) pos < distance (hashToPosition key) pos') : r.getPrimary key = some v := by
  have hsorted := pairwise_walk r (hashToPosition key)
  have hmem : (pos, v) ∈ r.walk (hashToPosition key) := mem_walk.2 hv
  rw [hr.getPrimary_eq]
  cases hwalk : r.walk (hashToPosition key) with
  | nil => simp [hwalk] at hmem
  | cons entry rest =>
      rw [hwalk] at hsorted hmem
      rw [List.map_cons, firsts, List.head?_cons]
      by_contra hne
      have hother : entry.2 ≠ v := fun h => hne (congrArg some h)
      have hentry : r.ring[entry.1]? = some entry.2 := mem_walk.1 (hwalk ▸ List.mem_cons_self)
      have hlt := hclosest entry.1 entry.2 hentry hother
      -- the entry of `v` is later on the walk, although nothing but `v` is as close
      rcases List.mem_cons.1 hmem with heq | hrest
      · exact hother (congrArg Prod.snd heq).symm
      · exact absurd ((List.pairwise_cons.1 hsorted).1 _ hrest) (Nat.lt_asymm hlt)

/-- What `get_nodes` and `get_primary` have to do for a key: the first distinct nodes on the walk, as
many as asked for or as there are on the ring, with those of every smaller count in front, and the
first of them as the primary. -/
structure FirstClockwise (r : ConsistentHashRing T) (key : String) (count : Nat) (nodes : List T) : Prop where
  returned : r.getNodes key count = some nodes
  firsts : nodes =
    (firsts ((r.walk (hashToPosition key)).map Prod.snd)).take (min count r.nodesOnRing.length)
  nodup : nodes.Nodup
  fewer : ∀ k ≤ count, ∃ nodes', r.getNodes key k = some nodes' ∧ nodes' <+: nodes
  primary : 0 < count → r.getPrimary key = nodes.head?
  primary_iff : r.getPrimary key ≠ none ↔ r.ring ≠ ∅

/-- What is collected is right. -/
theorem Owned.firstClockwise (hr : Owned r) {key : String} {count : Nat} {nodes : List T}
    (hnodes : r.getNodes key count = some nodes) (hcollect : nodes = r.collectNodes key count)
    (hfewer : ∀ k ≤ count, r.getNodes key k = some (r.collectNodes key k)) : r.FirstClockwise key count nodes where
  returned := hnodes
  firsts := hcollect.trans (hr.collectNodes_eq key count)
  nodup := hcollect ▸ hr.nodup_collectNodes key count
  fewer k hk := by
    refine ⟨_, hfewer k hk, ?_⟩
    rw [hcollect, hr.collectNodes_eq_take, hr.collectNodes_eq_take]
    exact List.take_prefix_take_left hk
  primary hcount := by
    obtain ⟨n, rfl⟩ := Nat.exists_eq_succ_of_ne_zero hcount.ne'
    rw [hcollect, hr.head?_collectNodes key n]
  primary_iff := not_congr (hr.getPrimary_eq_none_iff key)

/-- **The replicas of a key are the first distinct nodes clockwise.** After every history
of calls, the walk from the position of the key meets every entry of the ring, in the order
of the clockwise distance. The nodes of the key are the first distinct ones that it meets,
exactly where `get_nodes` has room for as many as it is asked for, or no node to look for. -/
theorem getNodes_run_iff (calls : List (RingCall T)) (key : String) (count : Nat) :
    (∀ pos v, (pos, v) ∈ (run calls).walk (hashToPosition key) ↔ (run calls).ring[pos]? = some v) ∧
      ((run calls).walk (hashToPosition key)).Pairwise
        (fun a b => distance (hashToPosition key) a.1 < distance (hashToPosition key) b.1) ∧
      ((∃ nodes, (run calls).FirstClockwise key count nodes) ↔ (run calls).ring = ∅ ∨ count < 2 ^ 60) := by
  have hr : Owned (run calls) := owned_run calls
  refine ⟨fun pos v => mem_walk, pairwise_walk _ _, ?_, ?_⟩
  · rintro ⟨nodes, h⟩
    by_contra hroom
    obtain ⟨hring, hle⟩ := not_or.1 hroom
    have hnone := getNodes_of_le hring key (Nat.not_lt.1 hle)
    rw [h.returned] at hnone
    cases hnone
  · rintro (hempty | hlt)
    · have hnil : ∀ k, (run calls).getNodes key k = some ((run calls).collectNodes key k) := by
        intro k
        rw [collectNodes_of_empty hempty, getNodes, if_pos (ExtTreeMap.isEmpty_iff.2 hempty)]
      exact ⟨_, hr.firstClockwise (hnil count) rfl fun k _ => hnil k⟩
    · have hroom : ∀ k ≤ count, (run calls).getNodes key k = some ((run calls).collectNodes key k) :=
        fun k hk => getNodes_of_lt _ key (hk.trans_lt hlt)
      exact ⟨_, hr.firstClockwise (hroom count le_rfl) rfl hroom⟩

end Replicas

/-- All nodes of a key, asked for without a bound, on the ring of one node. -/
theorem not_firstClockwise_max :
    (run [.addNode "1" 10]).getNodes "doc-1" (2 ^ 64 - 1) = none ∧
      ∀ nodes, ¬ (run [.addNode "1" 10]).FirstClockwise "doc-1" (2 ^ 64 - 1) nodes := by
  have hnone : (run [.addNode "1" 10]).getNodes "doc-1" (2 ^ 64 - 1) = none :=
    getNodes_of_le (ring_addNode_ne_empty _ _ _) _ (by decide)
  refine ⟨hnone, fun nodes h => ?_⟩
  rw [h.returned] at hnone
  cases hnone

end MSearchDB.Core.ConsistentHashRing
