import MSearchDB.Core.ClusterRouter

/-!
# Vector clocks

The operations of `VectorClock` (`crates/core/src/vector_clock.rs`). The loop of
`dominates` is read as the causal order on the counters: `dominates_iff` says that no
counter is smaller and one is greater, a node without an entry counting as zero. It is
transitive and irreflexive, and `CoversClock` is its reflexive closure.
-/

set_option autoImplicit false

namespace MSearchDB.Core

open Std (ExtTreeMap)

namespace VectorClock

/-- `get`. -/
def get (c : VectorClock) (nodeId : NodeId) : UInt64 := c.clocks[nodeId]?.getD 0

/-- One iteration of the loop of `merge_in_place`. -/
def mergeEntry (clocks : ExtTreeMap UInt64 UInt64) (entry : UInt64 × UInt64) : ExtTreeMap UInt64 UInt64 :=
  let current := clocks[entry.1]?.getD 0
  clocks.insert entry.1 (if current < entry.2 then entry.2 else current)

/-- `merge_in_place`. -/
def mergeInPlace (c other : VectorClock) : VectorClock := ⟨other.clocks.toList.foldl mergeEntry c.clocks⟩

/-- `merge`: the same loop, over a copy of the counters. -/
def merge (c other : VectorClock) : VectorClock :=
  let merged := c.clocks
  ⟨other.clocks.toList.foldl mergeEntry merged⟩

/-- `increment`: the clock after it, and the new counter. It wraps, as in a release build. -/
def increment (c : VectorClock) (nodeId : NodeId) : VectorClock × UInt64 :=
  let counter := c.clocks[nodeId]?.getD 0 + 1
  (⟨c.clocks.insert nodeId counter⟩, counter)

/-- The first loop of `dominates`, over the entries of the other clock: whether a
greater counter was met, and whether the loop reached the end without a smaller one. -/
def checkOther (c : VectorClock) : List (UInt64 × UInt64) → Bool → Bool × Bool
  | [], dominated => (dominated, true)
  | (node, count) :: rest, dominated =>
      let selfCount := c.get node
      if selfCount < count then (dominated, false)
      else checkOther c rest (if count < selfCount then true else dominated)

/-- `dominates`. -/
def dominates (c other : VectorClock) : Bool :=
  let (dominated, atLeastAsLarge) := checkOther c other.clocks.toList false
  if !atLeastAsLarge then false
  else c.clocks.toList.foldl
    (fun dominated (node, count) => if 0 < count ∧ node ∉ other.clocks then true else dominated) dominated

/-- `is_concurrent_with`. -/
def isConcurrentWith (c other : VectorClock) : Bool :=
  !c.dominates other && !other.dominates c && c != other

/-- `total`. The sum wraps, as in a release build. -/
def total (c : VectorClock) : UInt64 := (c.clocks.toList.map Prod.snd).foldl (· + ·) 0

/-! ## The causal order -/

theorem checkOther_iff (c : VectorClock) (entries : List (UInt64 × UInt64)) :
    ∀ dominated, (checkOther c entries dominated).2 = true ↔ ∀ e ∈ entries, e.2 ≤ c.get e.1 := by
  induction entries with
  | nil => simp [checkOther]
  | cons e entries ih =>
      intro dominated
      obtain ⟨node, count⟩ := e
      rw [checkOther]
      by_cases hlt : c.get node < count
      · simp [hlt, UInt64.not_le]
      · simp [hlt, ih, UInt64.not_lt.1 hlt]

theorem dominated_checkOther (c : VectorClock) (entries : List (UInt64 × UInt64)) :
    ∀ dominated, (checkOther c entries dominated).2 = true →
      ((checkOther c entries dominated).1 = true ↔ dominated = true ∨ ∃ e ∈ entries, e.2 < c.get e.1) := by
  induction entries with
  | nil => simp [checkOther]
  | cons e entries ih =>
      intro dominated hall
      obtain ⟨node, count⟩ := e
      rw [checkOther] at hall ⊢
      by_cases hlt : c.get node < count
      · simp [hlt] at hall
      · simp only [if_neg hlt] at hall ⊢
        rw [ih _ hall]
        by_cases hgt : count < c.get node
        · simp [hgt]
        · simp [hgt]

theorem foldl_newEntry_iff (other : VectorClock) (entries : List (UInt64 × UInt64)) :
    ∀ dominated : Bool, (entries.foldl
        (fun dominated (node, count) => if 0 < count ∧ node ∉ other.clocks then true else dominated)
        dominated) = true ↔
      dominated = true ∨ ∃ e ∈ entries, 0 < e.2 ∧ e.1 ∉ other.clocks := by
  induction entries with
  | nil => simp
  | cons e entries ih =>
      intro dominated
      rw [List.foldl_cons, ih]
      by_cases hnew : 0 < e.2 ∧ e.1 ∉ other.clocks
      · simp [hnew]
      · simp [hnew]

theorem get_of_mem {c : VectorClock} {e : UInt64 × UInt64} (h : e ∈ c.clocks.toList) :
    c.get e.1 = e.2 := by
  rw [get, ExtTreeMap.mem_toList_iff_getElem?_eq_some.1 h]
  rfl

theorem mem_toList_of_mem {c : VectorClock} {n : NodeId} (h : n ∈ c.clocks) :
    (n, c.get n) ∈ c.clocks.toList := by
  obtain ⟨count, hcount⟩ := Option.isSome_iff_exists.1 (ExtTreeMap.mem_iff_isSome_getElem?.1 h)
  rw [get, hcount]
  exact ExtTreeMap.mem_toList_iff_getElem?_eq_some.2 hcount

theorem get_of_notMem {c : VectorClock} {n : NodeId} (h : n ∉ c.clocks) : c.get n = 0 := by
  rw [get, ExtTreeMap.getElem?_eq_none h]
  rfl

theorem mem_of_get_pos {c : VectorClock} {n : NodeId} (h : 0 < c.get n) : n ∈ c.clocks := by
  by_contra hn
  rw [get_of_notMem hn] at h
  exact absurd h (by decide)

/-- A clock has no smaller counter than another where it has none at its entries. -/
theorem forall_toList_le {a b : VectorClock} :
    (∀ e ∈ b.clocks.toList, e.2 ≤ a.get e.1) ↔ ∀ n, b.get n ≤ a.get n := by
  constructor
  · intro h n
    by_cases hn : n ∈ b.clocks
    · exact h _ (mem_toList_of_mem hn)
    · rw [get_of_notMem hn]
      exact UInt64.zero_le
  · intro h e he
    rw [← get_of_mem he]
    exact h e.1

/-- **The causal order.** -/
theorem dominates_iff {a b : VectorClock} :
    a.dominates b = true ↔ (∀ n, b.get n ≤ a.get n) ∧ ∃ n, b.get n < a.get n := by
  rw [dominates]
  have hall := checkOther_iff a b.clocks.toList false
  have hsome := dominated_checkOther a b.clocks.toList false
  rw [forall_toList_le] at hall
  cases hcheck : checkOther a b.clocks.toList false with
  | mk dominated atLeast =>
      rw [hcheck] at hall hsome
      cases atLeast with
      | false =>
          simp only [Bool.not_false, if_true, Bool.false_eq_true, false_iff, not_and]
          intro hle
          exact absurd (hall.2 hle) (by simp)
      | true =>
          simp only [Bool.not_true, Bool.false_eq_true, if_false]
          rw [foldl_newEntry_iff, hsome rfl]
          refine ⟨fun h => ⟨hall.1 rfl, ?_⟩, fun ⟨_, n, hn⟩ => ?_⟩
          · -- the flag was set at an entry of one of the two loops
            rcases h with (h | ⟨e, he, hlt⟩) | ⟨e, he, hpos, hnew⟩
            · simp at h
            · exact ⟨e.1, by rwa [get_of_mem he]⟩
            · exact ⟨e.1, by rwa [get_of_notMem hnew, get_of_mem he]⟩
          · -- a greater counter is at an entry of the other clock, or at a new one
            have hmem : n ∈ a.clocks := mem_of_get_pos (UInt64.lt_of_le_of_lt UInt64.zero_le hn)
            by_cases hother : n ∈ b.clocks
            · exact .inl (.inr ⟨_, mem_toList_of_mem hother, hn⟩)
            · rw [get_of_notMem hother] at hn
              exact .inr ⟨_, mem_toList_of_mem hmem, hn, hother⟩

theorem dominates_trans {a b c : VectorClock} (hab : a.dominates b = true) (hbc : b.dominates c = true) :
    a.dominates c = true := by
  rw [dominates_iff] at *
  obtain ⟨n, hn⟩ := hbc.2
  exact ⟨fun n => UInt64.le_trans (hbc.1 n) (hab.1 n), n, UInt64.lt_of_lt_of_le hn (hab.1 n)⟩

theorem dominates_irrefl (c : VectorClock) : c.dominates c = false := by
  refine Bool.eq_false_iff.2 fun h => ?_
  obtain ⟨n, hn⟩ := (dominates_iff.1 h).2
  exact UInt64.lt_irrefl _ hn

/-- A clock is another one or dominates it. -/
def CoversClock (a b : VectorClock) : Prop := a = b ∨ a.dominates b = true

instance (a b : VectorClock) : Decidable (CoversClock a b) :=
  inferInstanceAs (Decidable (a = b ∨ a.dominates b = true))

theorem CoversClock.trans {a b c : VectorClock} (hab : CoversClock a b) (hbc : CoversClock b c) :
    CoversClock a c := by
  rcases hab with rfl | hab
  · exact hbc
  · rcases hbc with rfl | hbc
    · exact .inr hab
    · exact .inr (dominates_trans hab hbc)

end VectorClock

end MSearchDB.Core
