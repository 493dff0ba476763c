import MSearchDB.Core.VectorClock
import MSearchDB.Lib.Extremum
import Mathlib.Order.Lattice
import Mathlib.Algebra.Order.BigOperators.Group.Finset

/-!
# The lattice of vector clocks

A clock is read as its counters, a function of the node that is zero where the clock has
no entry. `dominates` is then the strict order on these functions (`dominates_iff_lt`)
and `merge` their supremum (`counters_mergeInPlace`), for whatever entries the maps hold.

Equality of clocks is equality of the maps, and an entry of zero is not an absent entry.
No clock made by `new`, `increment` and `merge` stores a zero, so these clocks are a
join-semilattice (`SparseClock`): `dominates` and equality leave concurrency for exactly
the incomparable pairs, and `merge` is the least upper bound.

The total of a clock is the sum of its counters modulo `2 ^ 64` (`toNat_total`), so it
grows with the clock as long as the sum fits in 64 bits.
-/

set_option autoImplicit false

namespace MSearchDB.Core

open Std (ExtTreeMap)

namespace VectorClock

/-- The counters of a clock: zero for a node without an entry. -/
def counters (c : VectorClock) (n : NodeId) : ℕ := (c.get n).toNat

theorem counters_le_iff {a b : VectorClock} : b.counters ≤ a.counters ↔ ∀ n, b.get n ≤ a.get n :=
  forall_congr' fun _ => UInt64.le_iff_toNat_le.symm

/-- `dominates` is the strict order on the counters. -/
theorem dominates_iff_lt {a b : VectorClock} : a.dominates b = true ↔ b.counters < a.counters := by
  rw [dominates_iff, Pi.lt_def, counters_le_iff]
  exact and_congr_right fun _ => exists_congr fun n => UInt64.lt_iff_toNat_lt

theorem dominates_eq_false_iff {a b : VectorClock} : a.dominates b = false ↔ ¬ b.counters < a.counters := by
  rw [← dominates_iff_lt, Bool.not_eq_true]

theorem counters_of_notMem {c : VectorClock} {n : NodeId} (h : n ∉ c.clocks) : c.counters n = 0 := by
  rw [counters, get_of_notMem h]
  rfl

/-- A clock is its entries' nodes and its counters. -/
theorem ext_counters {a b : VectorClock} (hmem : ∀ n, n ∈ a.clocks ↔ n ∈ b.clocks)
    (hcounters : a.counters = b.counters) : a = b := by
  obtain ⟨a⟩ := a
  obtain ⟨b⟩ := b
  congr 1
  apply ExtTreeMap.ext_getElem?
  intro n
  have hn := hmem n
  have hc := congrFun hcounters n
  simp only [counters, get, UInt64.toNat_inj] at hc
  simp only [ExtTreeMap.mem_iff_isSome_getElem?] at hn
  cases ha : a[n]? with
  | none =>
      cases hb : b[n]? with
      | none => rfl
      | some y => simp [ha, hb] at hn
  | some x =>
      cases hb : b[n]? with
      | none => simp [ha, hb] at hn
      | some y => simpa [ha, hb] using hc

/-! ## Merging -/

theorem mem_mergeEntry {clocks : ExtTreeMap UInt64 UInt64} {e : UInt64 × UInt64} {n : NodeId} :
    n ∈ mergeEntry clocks e ↔ n ∈ clocks ∨ e.1 = n := by
  rw [mergeEntry, ExtTreeMap.mem_insert, Std.compare_eq_iff_eq, or_comm]

/-- One iteration takes the greater of a counter and of what the entry has for its node. -/
theorem counters_mergeEntry (n : NodeId) (clocks : ExtTreeMap UInt64 UInt64) (e : UInt64 × UInt64) :
    (VectorClock.mk (mergeEntry clocks e)).counters n =
      max ((VectorClock.mk clocks).counters n) (if e.1 = n then e.2.toNat else 0) := by
  rw [counters, get, mergeEntry, ExtTreeMap.getElem?_insert]
  by_cases hn : e.1 = n
  · subst hn
    rw [if_pos Std.ReflCmp.compare_self, if_pos rfl, Option.getD_some]
    change _ = max (clocks[e.1]?.getD 0).toNat e.2.toNat
    split
    case isTrue h => exact (max_eq_right (UInt64.lt_iff_toNat_lt.1 h).le).symm
    case isFalse h => exact (max_eq_left (UInt64.le_iff_toNat_le.1 (UInt64.not_lt.1 h))).symm
  · have hcmp : compare e.1 n ≠ .eq := by simpa using hn
    rw [if_neg hcmp, if_neg hn, Nat.max_zero]
    rfl

theorem mem_foldl_mergeEntry (entries : List (UInt64 × UInt64)) (n : NodeId) :
    ∀ clocks : ExtTreeMap UInt64 UInt64,
      n ∈ entries.foldl mergeEntry clocks ↔ n ∈ clocks ∨ ∃ e ∈ entries, e.1 = n := by
  induction entries with
  | nil => simp
  | cons e entries ih =>
      intro clocks
      rw [List.foldl_cons, ih, mem_mergeEntry, List.exists_mem_cons_iff, or_assoc]

theorem mem_mergeInPlace {a b : VectorClock} {n : NodeId} :
    n ∈ (a.mergeInPlace b).clocks ↔ n ∈ a.clocks ∨ n ∈ b.clocks := by
  rw [mergeInPlace, mem_foldl_mergeEntry]
  apply or_congr_right
  constructor
  · rintro ⟨e, he, rfl⟩
    exact ExtTreeMap.mem_iff_isSome_getElem?.2 (by rw [ExtTreeMap.mem_toList_iff_getElem?_eq_some.1 he]; rfl)
  · intro hn
    exact ⟨_, mem_toList_of_mem hn, rfl⟩

/-- `merge` takes the greater counter of every node. -/
theorem counters_mergeInPlace (a b : VectorClock) :
    (a.mergeInPlace b).counters = a.counters ⊔ b.counters := by
  funext n
  obtain ⟨hle, hall, hsome⟩ := Lib.foldl_max (fun clocks => (VectorClock.mk clocks).counters n)
    (counters_mergeEntry n) b.clocks.toList a.clocks
  change a.counters n ≤ (a.mergeInPlace b).counters n at hle
  change (a.mergeInPlace b).counters n = max (a.counters n) (b.counters n)
  apply le_antisymm
  · -- the counter comes from the first clock or from an entry of the second
    rcases hsome with hsome | ⟨e, he, hsome⟩
    · exact hsome.trans_le (le_max_left _ _)
    · apply hsome.trans_le
      split
      case isTrue hn =>
          rw [← get_of_mem he, hn]
          exact le_max_right _ _
      case isFalse => exact Nat.zero_le _
  · apply max_le hle
    -- a node without an entry counts as zero
    by_cases hn : n ∈ b.clocks
    · have hentry := hall _ (mem_toList_of_mem hn)
      rwa [if_pos rfl] at hentry
    · rw [counters_of_notMem hn]
      exact Nat.zero_le _

/-! ## Clocks without a stored zero -/

/-- No entry of the clock is zero. -/
def NoStoredZero (c : VectorClock) : Prop := ∀ n ∈ c.clocks, 0 < c.counters n

theorem NoStoredZero.mem_iff {c : VectorClock} (h : c.NoStoredZero) (n : NodeId) :
    n ∈ c.clocks ↔ 0 < c.counters n := by
  refine ⟨h n, fun hpos => ?_⟩
  by_contra hn
  rw [counters_of_notMem hn] at hpos
  exact absurd hpos (by simp)

/-- Such clocks are equal where their counters are. -/
theorem NoStoredZero.ext {a b : VectorClock} (ha : a.NoStoredZero) (hb : b.NoStoredZero)
    (h : a.counters = b.counters) : a = b := by
  apply ext_counters _ h
  intro n
  rw [ha.mem_iff, hb.mem_iff, h]

theorem noStoredZero_new : VectorClock.new.NoStoredZero := by
  intro n hn
  simp [VectorClock.new] at hn

/-- `increment` adds one to the counter of the node, below `u64::MAX`. -/
theorem counters_increment {c : VectorClock} {n : NodeId} (h : (c.get n).toNat < 2 ^ 64 - 1) :
    (c.increment n).1.counters = Function.update c.counters n (c.counters n + 1) := by
  funext m
  rw [counters, get, increment, ExtTreeMap.getElem?_insert]
  by_cases hm : m = n
  · subst hm
    rw [Function.update_self]
    simp only [Std.ReflCmp.compare_self, if_true, Option.getD_some]
    change (c.get m + 1).toNat = (c.get m).toNat + 1
    -- below `u64::MAX` the addition does not wrap
    rw [UInt64.toNat_add]
    exact Nat.mod_eq_of_lt (by simp; omega)
  · have hcmp : compare n m ≠ .eq := by simpa using Ne.symm hm
    rw [Function.update_of_ne hm, if_neg hcmp]
    rfl

theorem NoStoredZero.increment {c : VectorClock} {n : NodeId} (hc : c.NoStoredZero)
    (h : (c.get n).toNat < 2 ^ 64 - 1) : (c.increment n).1.NoStoredZero := by
  intro m hm
  rw [counters_increment h]
  by_cases hmn : m = n
  · subst hmn
    rw [Function.update_self]
    exact Nat.succ_pos _
  · rw [Function.update_of_ne hmn]
    apply hc m
    rw [VectorClock.increment, ExtTreeMap.mem_insert, Std.compare_eq_iff_eq] at hm
    exact hm.resolve_left (Ne.symm hmn)

theorem NoStoredZero.mergeInPlace {a b : VectorClock} (ha : a.NoStoredZero) (hb : b.NoStoredZero) :
    (a.mergeInPlace b).NoStoredZero := by
  intro n hn
  rw [counters_mergeInPlace]
  rcases mem_mergeInPlace.1 hn with hn | hn
  · exact lt_of_lt_of_le (ha n hn) le_sup_left
  · exact lt_of_lt_of_le (hb n hn) le_sup_right

/-- The clocks that the operations build, no counter being incremented past `u64::MAX`. -/
inductive Built : VectorClock → Prop
  | new : Built VectorClock.new
  | increment {c : VectorClock} (n : NodeId) :
      Built c → (c.get n).toNat < 2 ^ 64 - 1 → Built (c.increment n).1
  | merge {a b : VectorClock} : Built a → Built b → Built (a.merge b)
  | mergeInPlace {a b : VectorClock} : Built a → Built b → Built (a.mergeInPlace b)

theorem Built.noStoredZero {c : VectorClock} (h : Built c) : c.NoStoredZero := by
  induction h with
  | new => exact noStoredZero_new
  | increment n _ hmax ih => exact ih.increment hmax
  | merge _ _ iha ihb => exact iha.mergeInPlace ihb
  | mergeInPlace _ _ iha ihb => exact iha.mergeInPlace ihb

end VectorClock

/-- A vector clock without a stored zero. -/
structure SparseClock where
  clock : VectorClock
  noStoredZero : clock.NoStoredZero

namespace SparseClock

open VectorClock

def counters (c : SparseClock) : NodeId → ℕ := c.clock.counters

theorem counters_injective : Function.Injective counters := by
  rintro ⟨a, ha⟩ ⟨b, hb⟩ h
  congr 1
  exact ha.ext hb h

/-- The causal order. -/
instance : LE SparseClock := ⟨fun a b => CoversClock b.clock a.clock⟩

instance : LT SparseClock := ⟨fun a b => b.clock.dominates a.clock = true⟩

instance : Max SparseClock :=
  ⟨fun a b => ⟨a.clock.merge b.clock, a.noStoredZero.mergeInPlace b.noStoredZero⟩⟩

theorem counters_lt_iff {a b : SparseClock} : a.counters < b.counters ↔ a < b := dominates_iff_lt.symm

theorem counters_le_iff {a b : SparseClock} : a.counters ≤ b.counters ↔ a ≤ b := by
  constructor
  · intro h
    rcases h.eq_or_lt with heq | hlt
    · exact .inl (congrArg SparseClock.clock (counters_injective heq).symm)
    · exact .inr (dominates_iff_lt.2 hlt)
  · rintro (heq | hlt)
    · exact (congrArg VectorClock.counters heq).ge
    · exact (dominates_iff_lt.1 hlt).le

/-- Clocks without a stored zero are a join-semilattice: `dominates` is its strict order
and `merge` its supremum. -/
instance : SemilatticeSup SparseClock :=
  counters_injective.semilatticeSup counters counters_le_iff counters_lt_iff
    fun a b => counters_mergeInPlace a.clock b.clock

end SparseClock

namespace VectorClock

/-- A clock that the operations build, as a clock without a stored zero. -/
def Built.sparse {c : VectorClock} (h : Built c) : SparseClock := ⟨c, h.noStoredZero⟩

/-! ## Causality -/

/-- Neither of two clocks is ahead: each has a counter that is greater than the other's. -/
theorem isConcurrentWith_iff {a b : VectorClock} (ha : a.NoStoredZero) (hb : b.NoStoredZero) :
    a.isConcurrentWith b = true ↔ (∃ n, a.get n < b.get n) ∧ ∃ n, b.get n < a.get n := by
  have hle : ∀ x y : VectorClock, (∃ n, x.get n < y.get n) ↔ ¬ y.counters ≤ x.counters := by
    intro x y
    rw [VectorClock.counters_le_iff, not_forall]
    exact exists_congr fun n => UInt64.not_le.symm
  simp only [isConcurrentWith, Bool.and_eq_true, Bool.not_eq_true', dominates_eq_false_iff, bne_iff_ne]
  rw [hle, hle]
  constructor
  · rintro ⟨⟨hab, hba⟩, hne⟩
    constructor
    · intro h
      exact hab (lt_of_le_of_ne h fun heq => hne (ha.ext hb heq.symm))
    · intro h
      exact hba (lt_of_le_of_ne h fun heq => hne (ha.ext hb heq))
  · rintro ⟨hba, hab⟩
    refine ⟨⟨fun h => hba h.le, fun h => hab h.le⟩, ?_⟩
    rintro rfl
    exact hab le_rfl

/-- One of the four relations holds, and no two of them. -/
theorem count_causality (a b : VectorClock) :
    [a.dominates b, b.dominates a, a == b, a.isConcurrentWith b].count true = 1 := by
  by_cases heq : a = b
  · subst heq
    simp [isConcurrentWith, dominates_irrefl]
  · have hbeq : (a == b) = false := by simpa using heq
    cases hab : a.dominates b with
    | true =>
        have hba : b.dominates a = false := by
          -- else the clock would dominate itself
          by_contra h
          exact absurd (dominates_trans hab (Bool.not_eq_false _ ▸ h)) (by simp [dominates_irrefl])
        simp [isConcurrentWith, hab, hba, hbeq]
    | false =>
        cases hba : b.dominates a with
        | true => simp [isConcurrentWith, hab, hba, hbeq]
        | false => simp [isConcurrentWith, hab, hba, hbeq, heq]

theorem increment_dominates {c : VectorClock} {n : NodeId} (h : (c.get n).toNat < 2 ^ 64 - 1) :
    (c.increment n).1.dominates c = true := by
  rw [dominates_iff_lt, counters_increment h]
  exact lt_update_self_iff.2 (Nat.lt_succ_self _)

/-! ## Totals -/

/-- The sum of the counters, which `total` computes modulo `2 ^ 64`. -/
def sumCounters (c : VectorClock) : ℕ := (c.clocks.toList.map fun e => e.2.toNat).sum

theorem toNat_foldl_add (counts : List UInt64) :
    ∀ acc : UInt64, (counts.foldl (· + ·) acc).toNat = (acc.toNat + (counts.map UInt64.toNat).sum) % 2 ^ 64 := by
  induction counts with
  | nil => exact fun acc => (Nat.mod_eq_of_lt acc.toNat_lt).symm
  | cons count counts ih =>
      intro acc
      rw [List.foldl_cons, ih, UInt64.toNat_add, Nat.mod_add_mod, List.map_cons, List.sum_cons, Nat.add_assoc]

theorem toNat_total (c : VectorClock) : c.total.toNat = c.sumCounters % 2 ^ 64 := by
  rw [total, toNat_foldl_add, List.map_map, sumCounters]
  show (0 + _) % 2 ^ 64 = _
  rw [Nat.zero_add]
  rfl

/-- The sum may be taken over any nodes that include those with an entry. -/
theorem sumCounters_eq_sum {c : VectorClock} {nodes : Finset NodeId} (h : ∀ n ∈ c.clocks, n ∈ nodes) :
    c.sumCounters = ∑ n ∈ nodes, c.counters n := by
  have hkeys : c.sumCounters = (c.clocks.keys.map c.counters).sum := by
    rw [sumCounters, ← ExtTreeMap.map_fst_toList_eq_keys, List.map_map]
    congr 1
    apply List.map_congr_left
    intro e he
    exact congrArg UInt64.toNat (get_of_mem he).symm
  rw [hkeys, ← List.sum_toFinset c.counters ExtTreeMap.nodup_keys]
  apply Finset.sum_subset
  · intro n hn
    exact h n (ExtTreeMap.mem_keys.1 (List.mem_toFinset.1 hn))
  · intro n _ hn
    apply counters_of_notMem
    intro hmem
    exact hn (List.mem_toFinset.2 (ExtTreeMap.mem_keys.2 hmem))

/-- The nodes with an entry in one of two clocks. -/
def commonNodes (a b : VectorClock) : Finset NodeId := (a.clocks.keys ++ b.clocks.keys).toFinset

theorem sumCounters_left (a b : VectorClock) : a.sumCounters = ∑ n ∈ commonNodes a b, a.counters n :=
  sumCounters_eq_sum fun n hn => by simp [commonNodes, hn]

theorem sumCounters_right (a b : VectorClock) : b.sumCounters = ∑ n ∈ commonNodes a b, b.counters n :=
  sumCounters_eq_sum fun n hn => by simp [commonNodes, hn]

theorem sumCounters_congr {a b : VectorClock} (h : a.counters = b.counters) : a.sumCounters = b.sumCounters := by
  rw [sumCounters_left a b, sumCounters_right a b, h]

/-- A clock that dominates another has the greater sum. -/
theorem sumCounters_lt {a b : VectorClock} (h : a.dominates b = true) : b.sumCounters < a.sumCounters := by
  rw [sumCounters_left a b, sumCounters_right a b]
  obtain ⟨hle, n, hn⟩ := Pi.lt_def.1 (dominates_iff_lt.1 h)
  apply Finset.sum_lt_sum
  · exact fun m _ => hle m
  · refine ⟨n, ?_, hn⟩
    have hmem : n ∈ a.clocks := by
      by_contra hnot
      rw [counters_of_notMem hnot] at hn
      exact absurd hn (Nat.not_lt_zero _)
    simp [commonNodes, hmem]

/-! ## The laws -/

/-- **The causal order.** `dominates` compares the counters, absent ones being zero; it
is a strict partial order; of two clocks that the operations build exactly one dominates,
or they are equal, or they are concurrent; and a clock is dominated by its increments. -/
theorem dominates_is_causal_order :
    (∀ a b : VectorClock,
      a.dominates b = true ↔ (∀ n, b.get n ≤ a.get n) ∧ ∃ n, b.get n < a.get n) ∧
    IsStrictOrder VectorClock (fun a b => a.dominates b = true) ∧
    (∀ a b : VectorClock, Built a → Built b →
      [a.dominates b, b.dominates a, a == b, a.isConcurrentWith b].count true = 1 ∧
      ((a == b) = true ↔ ∀ n, a.get n = b.get n) ∧
      (a.isConcurrentWith b = true ↔ (∃ n, a.get n < b.get n) ∧ ∃ n, b.get n < a.get n)) ∧
    ∀ (a : VectorClock) (n : NodeId), Built a → (a.get n).toNat < 2 ^ 64 - 1 →
      (a.increment n).1.dominates a = true := by
  refine ⟨fun a b => dominates_iff, ?_, fun a b ha hb => ⟨count_causality a b, ?_, ?_⟩, ?_⟩
  · exact { irrefl := fun c => by simp [dominates_irrefl], trans := fun a b c => dominates_trans }
  · rw [beq_iff_eq]
    constructor
    · rintro rfl n
      rfl
    · intro h
      apply ha.noStoredZero.ext hb.noStoredZero
      funext n
      exact congrArg UInt64.toNat (h n)
  · exact isConcurrentWith_iff ha.noStoredZero hb.noStoredZero
  · exact fun a n _ h => increment_dominates h

/-- Writes on two nodes are concurrent, and a second write on one of them dominates the first. -/
theorem dominates_is_causal_order_two_nodes :
    let a := (VectorClock.new.increment 1).1
    let b := (VectorClock.new.increment 2).1
    a.isConcurrentWith b = true ∧ (a.increment 1).1.dominates a = true := by
  intro a b
  have ha : Built a := .increment 1 .new (by decide)
  have hb : Built b := .increment 2 .new (by decide)
  obtain ⟨-, -, hpair, hincrement⟩ := dominates_is_causal_order
  constructor
  · rw [(hpair a b ha hb).2.2]
    exact ⟨⟨2, by decide⟩, 1, by decide⟩
  · exact hincrement a 1 ha (by decide)

/-- **Merging is the least upper bound.** -/
theorem merge_is_least_upper_bound (a b c : VectorClock) (ha : Built a) (hb : Built b) (hc : Built c) :
    (∀ n, (a.merge b).get n = max (a.get n) (b.get n)) ∧
    a.merge b = b.merge a ∧
    (a.merge b).merge c = a.merge (b.merge c) ∧
    a.merge a = a ∧
    CoversClock (a.merge b) a ∧ CoversClock (a.merge b) b ∧
    (CoversClock c a → CoversClock c b → CoversClock c (a.merge b)) ∧
    a.mergeInPlace b = a.merge b := by
  refine ⟨?_, ?_, ?_, ?_, ?_, ?_, ?_, rfl⟩
  · intro n
    have hn := congrFun (counters_mergeInPlace a b) n
    change ((a.merge b).get n).toNat = max (a.get n).toNat (b.get n).toNat at hn
    apply UInt64.toNat_inj.1
    rw [hn]
    change _ = (if a.get n ≤ b.get n then b.get n else a.get n).toNat
    split
    case isTrue h => exact max_eq_right (UInt64.le_iff_toNat_le.1 h)
    case isFalse h => exact max_eq_left (UInt64.lt_iff_toNat_lt.1 (UInt64.not_le.1 h)).le
  · exact congrArg SparseClock.clock (sup_comm ha.sparse hb.sparse)
  · exact congrArg SparseClock.clock (sup_assoc ha.sparse hb.sparse hc.sparse)
  · exact congrArg SparseClock.clock (sup_idem ha.sparse)
  · exact (le_sup_left : ha.sparse ≤ ha.sparse ⊔ hb.sparse)
  · exact (le_sup_right : hb.sparse ≤ ha.sparse ⊔ hb.sparse)
  · exact (sup_le : ha.sparse ≤ hc.sparse → hb.sparse ≤ hc.sparse → ha.sparse ⊔ hb.sparse ≤ hc.sparse)

/-- The writes of two nodes merge to a clock that counts both. -/
theorem merge_is_least_upper_bound_two_nodes :
    let a := (VectorClock.new.increment 1).1
    let b := (VectorClock.new.increment 2).1
    a.merge b = b.merge a ∧ CoversClock (a.merge b) a ∧ CoversClock (a.merge b) b := by
  intro a b
  have ha : Built a := .increment 1 .new (by decide)
  have hb : Built b := .increment 2 .new (by decide)
  obtain ⟨-, hcomm, -, -, hleft, hright, -⟩ := merge_is_least_upper_bound a b a ha hb ha
  exact ⟨hcomm, hleft, hright⟩

end VectorClock

end MSearchDB.Core
