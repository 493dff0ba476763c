import MSearchDB.Lib.Distinct
import MSearchDB.Lib.WriteLog
import MSearchDB.Lib.Sha256
import MSearchDB.Core.Document
import Mathlib.Data.Set.Function
import Std.Data.String.ToNat

/-!
# The consistent hash ring

`ConsistentHashRing` of `crates/core/src/consistent_hash.rs`: a map from positions
to values beside the map of the physical nodes. The digest of the crate `sha2` is a
parameter (`Sha256`); what the ring relies on is that it keeps the virtual-node
keys in use apart.

Under that assumption the positions are those of the current members and no others,
whatever was added, added again or removed before (`ring_run`). Rings of the same
members are therefore equal, and so are the nodes they give a key (`run_eq_run`).
-/

set_option autoImplicit false

namespace MSearchDB.Core

open MSearchDB.Lib
open Std

/-- `Sha256` of the crate `sha2`: the digest of a message. -/
class Sha256 where
  digest : Bytes → Vector UInt8 32

/-- `u64::from_be_bytes`. -/
def fromBeBytes64 (bs : Bytes) : UInt64 := UInt64.ofNat (ofBe bs)

/-- `VIRTUAL_NODES`. -/
def virtualNodes : Nat := 150

/-- The key of virtual node `i` of the node `id`: `format!("{id}#vnode{i}")`. -/
def vnodeKey (id : String) (i : Nat) : String := id ++ "#vnode" ++ toString i

/-- `ConsistentHashRing<T>`. -/
structure ConsistentHashRing (T : Type) where
  ring : ExtTreeMap UInt64 T
  nodes : ExtTreeMap String T

/-- `Vec::with_capacity` of references, which have eight bytes: more than `isize::MAX` bytes are a
panic. That the system has the bytes is assumed. -/
def capacityFits (count : Nat) : Bool := 8 * count ≤ 2 ^ 63 - 1

theorem capacityFits_iff {count : Nat} : capacityFits count = true ↔ count < 2 ^ 60 := by
  rw [capacityFits, decide_eq_true_iff]
  omega

/-- A call of a method that changes the ring. -/
inductive RingCall (T : Type) where
  | addNode (id : String) (value : T)
  | removeNode (id : String)

namespace RingCall

variable {T : Type}

/-- The call as a write to the map of the nodes. -/
def write : RingCall T → Write String T
  | addNode id value => .put id value
  | removeNode id => .delete id

/-- The value an id was last added with, unless it was removed since. -/
def lastAdded (calls : List (RingCall T)) (id : String) : Option T :=
  (Write.lastTo id (calls.map write)).bind Write.outcome

/-- The node ids that calls name. -/
def ids (calls : List (RingCall T)) : Set String := {id | id ∈ calls.map fun call => call.write.key}

theorem ids_subset_concat (calls : List (RingCall T)) (call : RingCall T) :
    ids calls ⊆ ids (calls ++ [call]) := by
  intro id hid
  obtain ⟨c, hc, hkey⟩ := List.mem_map.1 hid
  exact List.mem_map.2 ⟨c, List.mem_append_left _ hc, hkey⟩

theorem key_mem_ids_concat (calls : List (RingCall T)) (call : RingCall T) :
    call.write.key ∈ ids (calls ++ [call]) :=
  List.mem_map.2 ⟨call, by simp, rfl⟩

end RingCall

/-- The virtual-node keys of some node ids. -/
def vnodeKeys (ids : Set String) : Set String :=
  {key | ∃ id ∈ ids, ∃ i < virtualNodes, key = vnodeKey id i}

theorem vnodeKeys_mono {ids ids' : Set String} (h : ids ⊆ ids') : vnodeKeys ids ⊆ vnodeKeys ids' := by
  rintro key ⟨id, hid, i, hi, rfl⟩
  exact ⟨id, h hid, i, hi, rfl⟩

/-! ## The formatted keys -/

/-- Texts that end at their last `#` agree when they agree as a whole. -/
theorem append_cons_inj_of_last {l l' z z' : List Char} (hz : '#' ∉ z) (hz' : '#' ∉ z')
    (h : l ++ '#' :: z = l' ++ '#' :: z') : l = l' ∧ z = z' := by
  rcases List.append_eq_append_iff.1 h with ⟨c, hl, hc⟩ | ⟨c, hl, hc⟩
  · cases c with
    | nil => simpa [hl] using hc
    | cons d c =>
        obtain ⟨-, rfl⟩ := List.cons_eq_cons.1 hc
        exact absurd (by simp) hz
  · cases c with
    | nil => simpa [hl, eq_comm] using hc
    | cons d c =>
        obtain ⟨-, rfl⟩ := List.cons_eq_cons.1 hc
        exact absurd (by simp) hz'

/-- The part of a key from its last `#` on has no further `#`. -/
theorem hash_notMem_suffix (i : Nat) : '#' ∉ "vnode".toList ++ (toString i).toList := by
  intro hmem
  rcases List.mem_append.1 hmem with hmem | hmem
  · exact absurd hmem (by decide)
  · have hdigits : '#' ∈ Nat.toDigits 10 i := by simpa using hmem
    have hdigit := Nat.isDigit_of_mem_toDigits (by decide) (by decide) hdigits
    exact absurd hdigit (by decide)

theorem vnodeKey_inj {id id' : String} {i j : Nat} (h : vnodeKey id i = vnodeKey id' j) :
    id = id' ∧ i = j := by
  have hchars : id.toList ++ '#' :: ("vnode".toList ++ (toString i).toList) =
      id'.toList ++ '#' :: ("vnode".toList ++ (toString j).toList) := by
    simpa [vnodeKey] using congrArg String.toList h
  obtain ⟨hid, hsuffix⟩ :=
    append_cons_inj_of_last (hash_notMem_suffix i) (hash_notMem_suffix j) hchars
  have hrepr : Nat.repr i = Nat.repr j := String.toList_inj.1 (List.append_cancel_left hsuffix)
  exact ⟨String.toList_inj.1 hid, Nat.repr_inj.1 hrepr⟩

/-! ## The loops over the virtual nodes -/

section Loops

variable {κ T : Type} [Ord κ] [TransOrd κ] [LawfulEqOrd κ]

theorem getElem?_foldl_insert (f : Nat → κ) (v w : T) (k : κ) (is : List Nat) :
    ∀ m : ExtTreeMap κ T, (is.foldl (fun m i => m.insert (f i) v) m)[k]? = some w ↔
      ((∃ i ∈ is, f i = k) ∧ v = w) ∨ ((∀ i ∈ is, f i ≠ k) ∧ m[k]? = some w) := by
  induction is with
  | nil => simp
  | cons i is ih =>
      intro m
      rw [List.foldl_cons, ih, ExtTreeMap.getElem?_insert]
      by_cases hi : f i = k
      · simp only [hi, compare_self, if_true, List.mem_cons, Option.some.injEq]
        grind
      · simp [hi]

theorem getElem?_foldl_erase (f : Nat → κ) (w : T) (k : κ) (is : List Nat) :
    ∀ m : ExtTreeMap κ T, (is.foldl (fun m i => m.erase (f i)) m)[k]? = some w ↔
      (∀ i ∈ is, f i ≠ k) ∧ m[k]? = some w := by
  induction is with
  | nil => simp
  | cons i is ih =>
      intro m
      rw [List.foldl_cons, ih, ExtTreeMap.getElem?_erase]
      by_cases hi : f i = k
      · simp [hi]
      · simp [hi]

end Loops

namespace ConsistentHashRing

variable {T : Type} [Sha256]

/-- `hash_to_position`: the first eight bytes of the digest. -/
def hashToPosition (key : String) : UInt64 :=
  fromBeBytes64 ((Sha256.digest (asBytes key)).toList.take 8)

/-- `ConsistentHashRing::new`. -/
def new : ConsistentHashRing T := ⟨∅, ∅⟩

/-- The position of virtual node `i` of the node `id`. -/
def position (id : String) (i : Nat) : UInt64 := hashToPosition (vnodeKey id i)

/-- `remove_node`. -/
def removeNode (r : ConsistentHashRing T) (id : String) : ConsistentHashRing T :=
  if id ∈ r.nodes then
    { ring := (List.range virtualNodes).foldl (fun ring i => ring.erase (position id i)) r.ring
      nodes := r.nodes.erase id }
  else r

/-- `add_node`. -/
def addNode (r : ConsistentHashRing T) (id : String) (value : T) : ConsistentHashRing T :=
  let r := r.removeNode id
  { ring := (List.range virtualNodes).foldl (fun ring i => ring.insert (position id i) value) r.ring
    nodes := r.nodes.insert id value }

/-- The ring from `position` on, then the part before it. -/
def clockwise (r : ConsistentHashRing T) (position : UInt64) : List T :=
  ((r.ring.toList.filter fun entry => position ≤ entry.1) ++
    r.ring.toList.filter fun entry => entry.1 < position).map Prod.snd

/-- The loop of `get_nodes`. -/
def collectNodes [DecidableEq T] (r : ConsistentHashRing T) (key : String) (count : Nat) : List T :=
  collectDistinct (min r.nodes.size count) [] (r.clockwise (hashToPosition key))

/-- `get_nodes`, or `none` where it panics. -/
def getNodes [DecidableEq T] (r : ConsistentHashRing T) (key : String) (count : Nat) : Option (List T) :=
  if r.ring.isEmpty then some []
  else if capacityFits count then some (r.collectNodes key count)
  else none

/-- `get_primary`, whose call of `get_nodes` never panics. -/
def getPrimary [DecidableEq T] (r : ConsistentHashRing T) (key : String) : Option T :=
  (r.getNodes key 1).bind List.head?

theorem collectNodes_of_empty [DecidableEq T] {r : ConsistentHashRing T} (h : r.ring = ∅) (key : String)
    (count : Nat) : r.collectNodes key count = [] := by
  have hwalk : r.clockwise (hashToPosition key) = [] := by
    rw [clockwise, h]
    rfl
  rw [collectNodes, hwalk]
  rfl

theorem getNodes_of_lt [DecidableEq T] (r : ConsistentHashRing T) (key : String) {count : Nat}
    (h : count < 2 ^ 60) : r.getNodes key count = some (r.collectNodes key count) := by
  rw [getNodes]
  split
  next hempty => rw [collectNodes_of_empty (ExtTreeMap.isEmpty_iff.1 hempty)]
  next => rw [if_pos (capacityFits_iff.2 h)]

theorem getNodes_of_le [DecidableEq T] {r : ConsistentHashRing T} (hring : r.ring ≠ ∅) (key : String) {count : Nat}
    (h : 2 ^ 60 ≤ count) : r.getNodes key count = none := by
  rw [getNodes, if_neg (mt ExtTreeMap.isEmpty_iff.1 hring), if_neg (mt capacityFits_iff.1 (Nat.not_lt.2 h))]

/-- The counts of the router are bytes. -/
theorem getNodes_toNat [DecidableEq T] (r : ConsistentHashRing T) (key : String) (count : UInt8) :
    r.getNodes key count.toNat = some (r.collectNodes key count.toNat) :=
  r.getNodes_of_lt key (count.toNat_lt.trans (by decide))

theorem getPrimary_eq_head? [DecidableEq T] (r : ConsistentHashRing T) (key : String) :
    r.getPrimary key = (r.collectNodes key 1).head? := by
  rw [getPrimary, r.getNodes_of_lt key (by decide)]
  rfl

/-- The ring after a call. -/
def exec (r : ConsistentHashRing T) : RingCall T → ConsistentHashRing T
  | .addNode id value => r.addNode id value
  | .removeNode id => r.removeNode id

/-- The ring after a history of calls, from the empty ring. -/
def run (calls : List (RingCall T)) : ConsistentHashRing T := calls.foldl exec new

/-! ## The positions of the members -/

/-- The positions on the ring are those of the members' virtual nodes. -/
def Placed (r : ConsistentHashRing T) : Prop :=
  ∀ pos v, r.ring[pos]? = some v ↔
    ∃ id, ∃ i < virtualNodes, r.nodes[id]? = some v ∧ position id i = pos

/-- Virtual nodes of different ids or numbers have different positions. -/
theorem position_inj {ids : Set String} (hinj : Set.InjOn hashToPosition (vnodeKeys ids))
    {id id' : String} (hid : id ∈ ids) (hid' : id' ∈ ids) {i j : Nat} (hi : i < virtualNodes)
    (hj : j < virtualNodes) (h : position id i = position id' j) : id = id' ∧ i = j :=
  vnodeKey_inj (hinj ⟨id, hid, i, hi, rfl⟩ ⟨id', hid', j, hj, rfl⟩ h)

theorem placed_new : Placed (new : ConsistentHashRing T) := by
  intro pos v
  simp [new]

theorem nodes_removeNode (r : ConsistentHashRing T) (id id' : String) :
    (r.removeNode id).nodes[id']? = if id = id' then none else r.nodes[id']? := by
  unfold removeNode
  split
  case isTrue h => simp [ExtTreeMap.getElem?_erase]
  case isFalse h =>
      by_cases hid : id = id'
      · subst hid
        simpa using ExtTreeMap.getElem?_eq_none h
      · simp [hid]

theorem nodes_addNode (r : ConsistentHashRing T) (id id' : String) (value : T) :
    (r.addNode id value).nodes[id']? = if id = id' then some value else r.nodes[id']? := by
  by_cases hid : id = id'
  · simp [addNode, hid]
  · simp [addNode, ExtTreeMap.getElem?_insert, nodes_removeNode, hid]

section Steps

variable {r : ConsistentHashRing T} {ids : Set String}
  (hinj : Set.InjOn hashToPosition (vnodeKeys ids)) (hids : ∀ id v, r.nodes[id]? = some v → id ∈ ids)
  {id : String} (hid : id ∈ ids)

include hinj hids hid

theorem placed_removeNode (hr : Placed r) : Placed (r.removeNode id) := by
  intro pos v
  simp only [nodes_removeNode]
  by_cases hmem : id ∈ r.nodes
  · simp only [removeNode, if_pos hmem, getElem?_foldl_erase, List.mem_range, hr pos v]
    constructor
    · rintro ⟨hfree, id', i, hi, hv, hpos⟩
      have hne : id ≠ id' := fun h => hfree i hi (h ▸ hpos)
      exact ⟨id', i, hi, by rwa [if_neg hne], hpos⟩
    · rintro ⟨id', i, hi, hv, hpos⟩
      have hne : id ≠ id' := fun h => by simp [h] at hv
      rw [if_neg hne] at hv
      refine ⟨fun j hj hpos' => hne ?_, id', i, hi, hv, hpos⟩
      exact (position_inj hinj hid (hids id' v hv) hj hi (hpos'.trans hpos.symm)).1
  · rw [removeNode, if_neg hmem, hr pos v]
    have hnone := ExtTreeMap.getElem?_eq_none hmem
    refine exists_congr fun id' => ?_
    by_cases hne : id = id'
    · simp [← hne, hnone]
    · simp [hne]

theorem placed_addNode (value : T) (hr : Placed r) : Placed (r.addNode id value) := by
  have hplaced := placed_removeNode hinj hids hid hr
  intro pos v
  simp only [nodes_addNode]
  simp only [addNode, getElem?_foldl_insert, List.mem_range, hplaced pos v, nodes_removeNode]
  constructor
  · rintro (⟨⟨i, hi, hpos⟩, rfl⟩ | ⟨-, id', i, hi, hv, hpos⟩)
    · exact ⟨id, i, hi, by simp, hpos⟩
    · have hne : id ≠ id' := fun h => by simp [h] at hv
      exact ⟨id', i, hi, by simpa [hne] using hv, hpos⟩
  · rintro ⟨id', i, hi, hv, hpos⟩
    by_cases hne : id = id'
    · subst hne
      exact .inl ⟨⟨i, hi, hpos⟩, by simpa using hv⟩
    · rw [if_neg hne] at hv
      refine .inr ⟨fun j hj hpos' => hne ?_, id', i, hi, by rwa [if_neg hne], hpos⟩
      exact (position_inj hinj hid (hids id' v hv) hj hi (hpos'.trans hpos.symm)).1

end Steps

/-! ## Histories -/

theorem nodes_exec (r : ConsistentHashRing T) (call : RingCall T) :
    (fun id => (r.exec call).nodes[id]?) = Write.exec (fun id => r.nodes[id]?) call.write := by
  funext id
  cases call with
  | addNode id' value =>
      simp [exec, nodes_addNode, Write.exec, RingCall.write, Write.key, Write.outcome,
        Function.update_apply, eq_comm]
  | removeNode id' =>
      simp [exec, nodes_removeNode, Write.exec, RingCall.write, Write.key, Write.outcome,
        Function.update_apply, eq_comm]

/-- The nodes after a history are the values added last. -/
theorem nodes_run (calls : List (RingCall T)) (id : String) :
    (run calls).nodes[id]? = RingCall.lastAdded calls id := by
  have hfold : ∀ (calls : List (RingCall T)) (r : ConsistentHashRing T),
      (fun id => (calls.foldl exec r).nodes[id]?) =
        Write.execAll (fun id => r.nodes[id]?) (calls.map RingCall.write) := by
    intro calls
    induction calls with
    | nil => exact fun r => rfl
    | cons call calls ih =>
        intro r
        rw [List.foldl_cons, ih, nodes_exec, List.map_cons, Write.execAll_cons]
  have hnodes := congrFun (hfold calls new) id
  rw [Write.execAll_apply] at hnodes
  rw [RingCall.lastAdded, run]
  cases hlast : Write.lastTo id (calls.map RingCall.write) with
  | none => simpa [hlast, new] using hnodes
  | some w => simpa [hlast] using hnodes

theorem run_concat (calls : List (RingCall T)) (call : RingCall T) :
    run (calls ++ [call]) = (run calls).exec call := by
  rw [run, List.foldl_append, List.foldl_cons, List.foldl_nil, ← run]

/-- A member was named by the history. -/
theorem mem_ids_of_nodes {calls : List (RingCall T)} {id : String} {v : T}
    (h : (run calls).nodes[id]? = some v) : id ∈ RingCall.ids calls := by
  rw [nodes_run, RingCall.lastAdded, Option.bind_eq_some_iff] at h
  obtain ⟨w, hlast, -⟩ := h
  obtain ⟨hmem, hkey⟩ := Write.mem_of_lastTo hlast
  obtain ⟨call, hcall, rfl⟩ := List.mem_map.1 hmem
  exact List.mem_map.2 ⟨call, hcall, hkey⟩

/-- Every history leaves the members' virtual nodes on the ring and no others. -/
theorem placed_run (calls : List (RingCall T))
    (hinj : Set.InjOn hashToPosition (vnodeKeys (RingCall.ids calls))) : Placed (run calls) := by
  induction calls using List.reverseRecOn with
  | nil => exact placed_new
  | append_singleton calls call ih =>
      have hsub := RingCall.ids_subset_concat calls call
      have hids : ∀ id v, (run calls).nodes[id]? = some v → id ∈ RingCall.ids (calls ++ [call]) :=
        fun id v h => hsub (mem_ids_of_nodes h)
      have hid := RingCall.key_mem_ids_concat calls call
      have hr := ih (hinj.mono (vnodeKeys_mono hsub))
      rw [run_concat]
      cases call with
      | addNode id value => exact placed_addNode hinj hids hid value hr
      | removeNode id => exact placed_removeNode hinj hids hid hr

/-- Placed rings of the same members are equal. -/
theorem eq_of_placed {r r' : ConsistentHashRing T} (hr : Placed r) (hr' : Placed r')
    (hnodes : ∀ id : String, r.nodes[id]? = r'.nodes[id]?) : r = r' := by
  have hring : r.ring = r'.ring := by
    refine ExtTreeMap.ext_getElem? fun {pos} => Option.ext fun v => ?_
    rw [hr pos v, hr' pos v]
    simp only [hnodes]
  have hmap : r.nodes = r'.nodes := ExtTreeMap.ext_getElem? fun {id} => hnodes id
  cases r
  cases r'
  cases hring
  cases hmap
  rfl

/-- **The ring is a function of its members.** After every history the nodes are
the values added last, the ring has their virtual nodes and nothing else, and a
history with the same members gives every key the same nodes. -/
theorem ring_run [DecidableEq T] (calls : List (RingCall T))
    (hinj : Set.InjOn hashToPosition (vnodeKeys (RingCall.ids calls))) :
    (∀ id, (run calls).nodes[id]? = RingCall.lastAdded calls id) ∧
      (∀ pos v, (run calls).ring[pos]? = some v ↔
        ∃ id, ∃ i < virtualNodes, (run calls).nodes[id]? = some v ∧
          hashToPosition (vnodeKey id i) = pos) ∧
      ∀ calls', Set.InjOn hashToPosition (vnodeKeys (RingCall.ids calls')) →
        (∀ id, RingCall.lastAdded calls' id = RingCall.lastAdded calls id) →
          ∀ key count, (run calls').getNodes key count = (run calls).getNodes key count := by
  refine ⟨nodes_run calls, placed_run calls hinj, ?_⟩
  intro calls' hinj' hsame key count
  have hnodes : ∀ id : String, (run calls').nodes[id]? = (run calls).nodes[id]? := by
    intro id
    rw [nodes_run, nodes_run, hsame id]
  rw [eq_of_placed (placed_run calls' hinj') (placed_run calls hinj) hnodes]

end ConsistentHashRing

/-- The digest of the standard. -/
instance : Sha256 := ⟨Lib.Sha256.digest⟩

namespace ConsistentHashRing

/-- The 300 virtual nodes of the nodes `1` and `2` have different positions. -/
theorem positions_nodup :
    ((["1", "2"].flatMap fun id => (List.range virtualNodes).map (vnodeKey id)).map
      fun key => (hashToPosition key).toNat).Nodup :=
  nodup_of_separates 64 _ (by decide +kernel)

/-- The hash keeps the virtual nodes of `1` and `2` apart. -/
theorem injOn_of_subset {ids : Set String} (hids : ids ⊆ {"1", "2"}) :
    Set.InjOn hashToPosition (vnodeKeys ids) := by
  have hmem : ∀ key ∈ vnodeKeys ids,
      key ∈ ["1", "2"].flatMap fun id => (List.range virtualNodes).map (vnodeKey id) := by
    rintro key ⟨id, hid, i, hi, rfl⟩
    have hid' : id ∈ ["1", "2"] := by simpa using hids hid
    exact List.mem_flatMap.2 ⟨id, hid', List.mem_map.2 ⟨i, List.mem_range.2 hi, rfl⟩⟩
  intro key hkey key' hkey' heq
  exact List.inj_on_of_nodup_map positions_nodup (hmem key hkey) (hmem key' hkey')
    (congrArg UInt64.toNat heq)

/-- A node that was added again and one that came and went leave the ring of the
one node. -/
theorem ring_run_rejoined :
    (run [.addNode "1" 11]).getNodes "doc-1" 3 =
      (run [.addNode "1" 10, .addNode "2" 20, .removeNode "2", .addNode "1" 11]).getNodes "doc-1" 3 := by
  refine (ring_run [.addNode "1" 10, .addNode "2" 20, .removeNode "2", .addNode "1" 11]
    (injOn_of_subset ?_)).2.2 _ (injOn_of_subset ?_) ?_ "doc-1" 3
  · intro id hid
    simp only [RingCall.ids, RingCall.write, Write.key, List.map_cons, List.map_nil,
      List.mem_cons, List.not_mem_nil, or_false, Set.mem_ofPred_eq] at hid
    simp only [Set.mem_insert_iff, Set.mem_singleton_iff]
    tauto
  · intro id hid
    exact .inl (by simpa [RingCall.ids, RingCall.write, Write.key] using hid)
  · intro id
    by_cases hone : "1" = id
    · subst hone
      decide
    · by_cases htwo : "2" = id
      · subst htwo
        decide
      · simp [RingCall.lastAdded, Write.lastTo, RingCall.write, Write.key, hone, htwo]

end ConsistentHashRing

end MSearchDB.Core
