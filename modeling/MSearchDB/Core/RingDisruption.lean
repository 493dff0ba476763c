import MSearchDB.Lib.OrderedMap
import MSearchDB.Core.ConsistentHash

/-!
# Minimal disruption of the hash ring

A node that joins or leaves changes the nodes of a key by its own presence only.
`collectNodes_eq` reads `get_nodes` as the first distinct values of the clockwise walk.
A ring with one member more has the same walk with the virtual nodes of that member
between the others (`clockwise_joined`), so the two lists of nodes are compared by
the rules for first occurrences (`collectNodes_joined`).

`get_nodes` makes room for as many nodes as it is asked for, however few there are. A
count from 2^60 on is a panic on every ring with a node, and there is nothing to compare
(`getNodes_minimal_disruption_iff`).
-/

set_option autoImplicit false

namespace MSearchDB.Core.ConsistentHashRing

open MSearchDB.Lib
open Std

section Disruption

variable {T : Type} [Sha256]

/-- Different members carry different values. -/
def DistinctValues (r : ConsistentHashRing T) : Prop :=
  ∀ (id id' : String) (v : T), r.nodes[id]? = some v → r.nodes[id']? = some v → id = id'

/-- `r'` is the ring `r` with the further member `id` of the fresh value `v`. -/
structure Joined (r r' : ConsistentHashRing T) (id : String) (v : T) : Prop where
  placed : Placed r
  placed' : Placed r'
  nodes_eq : r'.nodes = r.nodes.insert id v
  fresh_id : id ∉ r.nodes
  fresh_value : ∀ id' : String, r.nodes[id']? ≠ some v
  distinct : DistinctValues r

omit [Sha256] in
theorem mem_clockwise {r : ConsistentHashRing T} {p : UInt64} {v : T} :
    v ∈ r.clockwise p ↔ ∃ pos : UInt64, r.ring[pos]? = some v := by
  constructor
  · intro h
    obtain ⟨⟨pos, w⟩, hmem, rfl⟩ := List.mem_map.1 h
    rcases List.mem_append.1 hmem with hmem | hmem
    · exact ⟨pos, ExtTreeMap.mem_toList_iff_getElem?_eq_some.1 (List.mem_filter.1 hmem).1⟩
    · exact ⟨pos, ExtTreeMap.mem_toList_iff_getElem?_eq_some.1 (List.mem_filter.1 hmem).1⟩
  · rintro ⟨pos, hpos⟩
    have hmem := ExtTreeMap.mem_toList_iff_getElem?_eq_some.2 hpos
    refine List.mem_map.2 ⟨(pos, v), List.mem_append.2 ?_, rfl⟩
    -- the position is on one side of the start of the walk
    by_cases hle : p ≤ pos
    · exact .inl (List.mem_filter.2 ⟨hmem, by simpa using hle⟩)
    · exact .inr (List.mem_filter.2 ⟨hmem, by simpa using UInt64.not_le.1 hle⟩)

/-- The walk meets the values of the members. -/
theorem mem_clockwise_of_placed {r : ConsistentHashRing T} (hr : Placed r) {p : UInt64} {v : T} :
    v ∈ r.clockwise p ↔ ∃ id : String, r.nodes[id]? = some v := by
  rw [mem_clockwise]
  constructor
  · rintro ⟨pos, hpos⟩
    obtain ⟨id, i, -, hv, -⟩ := (hr pos v).1 hpos
    exact ⟨id, hv⟩
  · rintro ⟨id, hv⟩
    exact ⟨position id 0, (hr _ v).2 ⟨id, 0, by decide, hv, rfl⟩⟩

omit [Sha256] in
/-- The values of the members, each once. -/
theorem nodup_values {r : ConsistentHashRing T} (hdistinct : DistinctValues r) :
    (r.nodes.toList.map Prod.snd).Nodup := by
  have hkeys : (r.nodes.toList.map Prod.fst).Nodup := nodup_fst_of_perm (List.Perm.refl _)
  refine (List.nodup_map_iff_inj_on hkeys.of_map).2 ?_
  rintro ⟨id, v⟩ hmem ⟨id', v'⟩ hmem' hv
  obtain rfl : v = v' := hv
  have hid := hdistinct id id' v (ExtTreeMap.mem_toList_iff_getElem?_eq_some.1 hmem)
    (ExtTreeMap.mem_toList_iff_getElem?_eq_some.1 hmem')
  rw [hid]

namespace Joined

variable {r r' : ConsistentHashRing T} {id : String} {v : T} (hj : Joined r r' id v)

include hj

theorem getElem?_nodes (id' : String) :
    r'.nodes[id']? = if id = id' then some v else r.nodes[id']? := by
  rw [hj.nodes_eq, ExtTreeMap.getElem?_insert]
  simp

theorem distinct' : DistinctValues r' := by
  intro id₁ id₂ w h₁ h₂
  rw [hj.getElem?_nodes] at h₁ h₂
  split at h₁ <;> split at h₂
  · simp_all
  · exact absurd (h₂.trans h₁.symm) (hj.fresh_value id₂)
  · exact absurd (h₁.trans h₂.symm) (hj.fresh_value id₁)
  · exact hj.distinct id₁ id₂ w h₁ h₂

theorem mem_clockwise_value (p : UInt64) : v ∈ r'.clockwise p :=
  (mem_clockwise_of_placed hj.placed').2 ⟨id, by simp [hj.getElem?_nodes]⟩

theorem size_nodes : r'.nodes.size = r.nodes.size + 1 := by
  have habsent : r.nodes.contains id = false := Bool.eq_false_iff.2 hj.fresh_id
  rw [hj.nodes_eq, ExtTreeMap.size_insert, habsent]
  rfl

end Joined

section Membership

variable {calls : List (RingCall T)} {id : String} {v : T}
  (hinj : Set.InjOn hashToPosition (vnodeKeys (insert id (RingCall.ids calls))))

include hinj

theorem placed_insert_ids : Placed (run calls) :=
  placed_run calls (hinj.mono (vnodeKeys_mono (Set.subset_insert _ _)))

theorem joined_addNode (hdistinct : DistinctValues (run calls)) (hid : id ∉ (run calls).nodes)
    (hv : ∀ id' : String, (run calls).nodes[id']? ≠ some v) :
    Joined (run calls) ((run calls).addNode id v) id v where
  placed := placed_insert_ids hinj
  placed' := placed_addNode hinj (fun _ _ h => Set.mem_insert_of_mem _ (mem_ids_of_nodes h))
    (Set.mem_insert _ _) v (placed_insert_ids hinj)
  nodes_eq := by rw [addNode, removeNode, if_neg hid]
  fresh_id := hid
  fresh_value := hv
  distinct := hdistinct

theorem joined_removeNode (hdistinct : DistinctValues (run calls))
    (hid : (run calls).nodes[id]? = some v) :
    Joined ((run calls).removeNode id) (run calls) id v where
  placed := placed_removeNode hinj (fun _ _ h => Set.mem_insert_of_mem _ (mem_ids_of_nodes h))
    (Set.mem_insert _ _) (placed_insert_ids hinj)
  placed' := placed_insert_ids hinj
  nodes_eq := by
    refine ExtTreeMap.ext_getElem? fun {id'} => ?_
    rw [ExtTreeMap.getElem?_insert, nodes_removeNode]
    by_cases h : id = id'
    · simp [← h, hid]
    · simp [h]
  fresh_id := by
    rw [ExtTreeMap.mem_iff_isSome_getElem?, nodes_removeNode]
    simp
  fresh_value := by
    intro id' h
    rw [nodes_removeNode] at h
    split at h
    · simp at h
    · exact absurd (hdistinct id id' v hid h) ‹_›
  distinct := by
    intro id₁ id₂ w h₁ h₂
    rw [nodes_removeNode] at h₁ h₂
    split at h₁ <;> split at h₂
    · simp at h₁
    · simp at h₁
    · simp at h₂
    · exact hdistinct id₁ id₂ w h₁ h₂

end Membership

/-- A node that is added gives a ring with a node. -/
theorem ring_addNode_ne_empty (r : ConsistentHashRing T) (id : String) (v : T) : (r.addNode id v).ring ≠ ∅ := by
  intro hempty
  have hpos : (r.addNode id v).ring[position id 0]? = some v :=
    (getElem?_foldl_insert (position id) v v _ _ _).2 (.inl ⟨⟨0, List.mem_range.2 (by decide), rfl⟩, rfl⟩)
  rw [hempty] at hpos
  simp at hpos

variable [DecidableEq T]

theorem collectNodes_eq (r : ConsistentHashRing T) (key : String) (count : Nat) :
    r.collectNodes key count =
      (firsts (r.clockwise (hashToPosition key))).take (min r.nodes.size count) :=
  collectDistinct_eq _ _

/-- The walk meets as many values as there are members. -/
theorem length_firsts_clockwise {r : ConsistentHashRing T} (hr : Placed r)
    (hdistinct : DistinctValues r) (p : UInt64) :
    (firsts (r.clockwise p)).length = r.nodes.size := by
  have hperm : (firsts (r.clockwise p)).Perm (r.nodes.toList.map Prod.snd) := by
    refine (List.perm_ext_iff_of_nodup (nodup_firsts _) (nodup_values hdistinct)).2 fun v => ?_
    rw [mem_firsts, mem_clockwise_of_placed hr]
    simp [ExtTreeMap.mem_toList_iff_getElem?_eq_some]
  rw [hperm.length_eq, List.length_map, ExtTreeMap.length_toList]

namespace Joined

variable {r r' : ConsistentHashRing T} {id : String} {v : T} (hj : Joined r r' id v)

include hj

/-- The positions of the other members. -/
theorem ring_eq : r.ring = r'.ring.filter fun _ w => w ≠ v := by
  refine ExtTreeMap.ext_getElem? fun {pos} => Option.ext fun w => ?_
  rw [ExtTreeMap.getElem?_filter']
  simp only [hj.placed pos w, Option.filter_eq_some_iff, hj.placed' pos w, hj.getElem?_nodes]
  constructor
  · rintro ⟨id', i, hi, hw, hpos⟩
    have hne : id ≠ id' := by
      rintro rfl
      exact hj.fresh_id (ExtTreeMap.mem_iff_isSome_getElem?.2 (by simp [hw]))
    refine ⟨⟨id', i, hi, by rwa [if_neg hne], hpos⟩, ?_⟩
    have hwv : w ≠ v := fun h => hj.fresh_value id' (h ▸ hw)
    simp [hwv]
  · rintro ⟨⟨id', i, hi, hw, hpos⟩, hwv⟩
    refine ⟨id', i, hi, ?_, hpos⟩
    split at hw
    · simp_all
    · exact hw

theorem clockwise_joined (p : UInt64) :
    r.clockwise p = (r'.clockwise p).filter (· ≠ v) := by
  rw [clockwise, clockwise, hj.ring_eq, ExtTreeMap.toList_filter]
  simp only [List.filter_map, List.filter_append, List.filter_filter, Function.comp_def, Bool.and_comm]

/-- **One member more.** The nodes of a key less the further member are the first
of the nodes without it, and all of them when it is not among them. -/
theorem collectNodes_joined (key : String) (count : Nat) :
    (r'.collectNodes key count).filter (· ≠ v) <+: r.collectNodes key count ∧
      (v ∉ r'.collectNodes key count → r'.collectNodes key count = r.collectNodes key count) := by
  have hnodup := nodup_firsts (r'.clockwise (hashToPosition key))
  have hmem : v ∈ firsts (r'.clockwise (hashToPosition key)) :=
    mem_firsts.2 (hj.mem_clockwise_value _)
  have hlen := length_firsts_clockwise hj.placed' hj.distinct' (hashToPosition key)
  rw [hj.size_nodes] at hlen
  rw [collectNodes_eq, collectNodes_eq, hj.clockwise_joined, firsts_filter, hj.size_nodes]
  exact ⟨prefix_filter_take hnodup hmem hlen count, take_eq_of_notMem hnodup hmem hlen⟩

theorem getPrimary_joined (key : String) :
    r'.getPrimary key = r.getPrimary key ∨ r'.getPrimary key = some v := by
  by_cases hmem : v ∈ r'.collectNodes key 1
  · -- the list has one place, and the further member has it
    have hlen : (r'.collectNodes key 1).length ≤ 1 := by
      rw [collectNodes_eq, List.length_take]
      omega
    obtain ⟨w, hw⟩ := List.length_eq_one_iff.1 (Nat.le_antisymm hlen (List.length_pos_of_mem hmem))
    rw [hw, List.mem_singleton] at hmem
    right
    rw [getPrimary_eq_head?, hw, hmem, List.head?_cons]
  · left
    rw [getPrimary_eq_head?, getPrimary_eq_head?, (hj.collectNodes_joined key 1).2 hmem]

end Joined

/-- The nodes of a key on a ring, and on the same ring with a further node of the value `v`: without
that node the second list is a prefix of the first, and all of it when the node is not in it. -/
def DisruptsLess (r r' : ConsistentHashRing T) (v : T) (key : String) (count : Nat) : Prop :=
  ∃ old new, r.getNodes key count = some old ∧ r'.getNodes key count = some new ∧
    new.filter (· ≠ v) <+: old ∧ (v ∉ new → new = old) ∧
    (r'.getPrimary key = r.getPrimary key ∨ r'.getPrimary key = some v)

/-- The two lists can be compared when there is room for them. -/
theorem Joined.disruptsLess_iff {r r' : ConsistentHashRing T} {id : String} {v : T} (hj : Joined r r' id v)
    (key : String) (count : Nat) : DisruptsLess r r' v key count ↔ count < 2 ^ 60 := by
  have hring : r'.ring ≠ ∅ := by
    intro hempty
    obtain ⟨pos, hpos⟩ := mem_clockwise.1 (hj.mem_clockwise_value 0)
    rw [hempty] at hpos
    simp at hpos
  constructor
  · rintro ⟨old, new, -, hnew, -⟩
    by_contra hle
    rw [getNodes_of_le hring key (Nat.not_lt.1 hle)] at hnew
    cases hnew
  · intro hlt
    obtain ⟨hpre, heq⟩ := hj.collectNodes_joined key count
    exact ⟨_, _, r.getNodes_of_lt key hlt, r'.getNodes_of_lt key hlt, hpre, heq, hj.getPrimary_joined key⟩

/-- **Minimal disruption.** On a ring with distinct values, a new node changes the
nodes of a key by entering their list, so that the primary stays or becomes the new
node; a node that leaves gives its places up and changes nothing else. This is so exactly
for the counts that `get_nodes` has room for. -/
theorem getNodes_minimal_disruption_iff (calls : List (RingCall T)) (id : String) (v : T)
    (hinj : Set.InjOn hashToPosition (vnodeKeys (insert id (RingCall.ids calls))))
    (hdistinct : DistinctValues (run calls)) (key : String) (count : Nat) :
    (id ∉ (run calls).nodes → (∀ id' : String, (run calls).nodes[id']? ≠ some v) →
      (DisruptsLess (run calls) ((run calls).addNode id v) v key count ↔ count < 2 ^ 60)) ∧
      ((run calls).nodes[id]? = some v →
        (DisruptsLess ((run calls).removeNode id) (run calls) v key count ↔ count < 2 ^ 60)) := by
  constructor
  · intro hid hv
    exact (joined_addNode hinj hdistinct hid hv).disruptsLess_iff key count
  · intro hid
    exact (joined_removeNode hinj hdistinct hid).disruptsLess_iff key count

end Disruption

/-- The node `2` joins the node `1`, and leaves again. -/
theorem getNodes_minimal_disruption_two :
    DisruptsLess (run [.addNode "1" 10]) ((run [.addNode "1" 10]).addNode "2" 20) 20 "doc-1" 2 ∧
      DisruptsLess ((run [.addNode "1" 10, .addNode "2" 20]).removeNode "2")
        (run [.addNode "1" 10, .addNode "2" 20]) 20 "doc-1" 2 := by
  have hone : ∀ id : String,
      (run [.addNode "1" 10]).nodes[id]? = if "1" = id then some 10 else none := by
    intro id
    rw [run, List.foldl_cons, List.foldl_nil, exec, nodes_addNode]
    simp [new]
  have htwo : ∀ id : String, (run [.addNode "1" 10, .addNode "2" 20]).nodes[id]? =
      if "2" = id then some 20 else if "1" = id then some 10 else none := by
    intro id
    rw [← List.singleton_append, run_concat, exec, nodes_addNode, hone]
  constructor
  · refine ((getNodes_minimal_disruption_iff [.addNode "1" 10] "2" 20 (injOn_of_subset ?_) ?_
      "doc-1" 2).1 ?_ ?_).2 (by decide)
    · intro id hid
      rcases hid with rfl | hid
      · exact .inr rfl
      · exact .inl (by simpa [RingCall.ids, RingCall.write, Write.key] using hid)
    · intro id id' v h h'
      rw [hone] at h h'
      grind
    · rw [ExtTreeMap.mem_iff_isSome_getElem?, hone]
      decide
    · intro id h
      rw [hone] at h
      split at h <;> simp at h
  · refine ((getNodes_minimal_disruption_iff [.addNode "1" 10, .addNode "2" 20] "2" 20
      (injOn_of_subset ?_) ?_ "doc-1" 2).2 ?_).2 (by decide)
    · intro id hid
      rcases hid with rfl | hid
      · exact .inr rfl
      · simpa [RingCall.ids, RingCall.write, Write.key] using hid
    · intro id id' v h h'
      rw [htwo] at h h'
      grind
    · rw [htwo]
      rfl

/-- All nodes of a key, asked for without a bound: `get_nodes` panics on a ring with a node. -/
theorem not_disruptsLess_max :
    ((run [.addNode "1" 10]).addNode "2" 20).getNodes "doc-1" (2 ^ 64 - 1) = none ∧
      ¬ DisruptsLess (run [.addNode "1" 10]) ((run [.addNode "1" 10]).addNode "2" 20) 20 "doc-1" (2 ^ 64 - 1) := by
  have hnone : ((run [.addNode "1" 10]).addNode "2" 20).getNodes "doc-1" (2 ^ 64 - 1) = none :=
    getNodes_of_le (ring_addNode_ne_empty _ _ _) _ (by decide)
  refine ⟨hnone, ?_⟩
  rintro ⟨old, new, -, hnew, -⟩
  rw [hnone] at hnew
  cases hnew

end MSearchDB.Core.ConsistentHashRing
