import Mathlib.Algebra.BigOperators.Group.List.Lemmas
import MSearchDB.Lib.OrderedMap

/-!
# Counting with a map

`tally` is the loop that adds one to the count of every element of a list. Its entries are
the elements with how often they occur (`mem_toList_tally`); it depends on the elements
and not on their order (`tally_eq_of_perm`), and its counts add up to the length of the
list (`sum_tally`).
-/

set_option autoImplicit false

namespace MSearchDB.Lib

open Std

universe u

variable {κ : Type u} [Ord κ] [TransOrd κ]

/-- One more of a key. -/
def tallyOne (counts : ExtTreeMap κ Nat) (key : κ) : ExtTreeMap κ Nat :=
  counts.insert key (counts[key]?.getD 0 + 1)

/-- The number of occurrences of each element. -/
def tally (l : List κ) : ExtTreeMap κ Nat := l.foldl tallyOne ∅

theorem tally_concat (l : List κ) (key : κ) : tally (l ++ [key]) = tallyOne (tally l) key := by
  rw [tally, List.foldl_append, ← tally, List.foldl_cons, List.foldl_nil]

theorem nodup_toList_tally (l : List κ) : (tally l).toList.Nodup :=
  (nodup_fst_of_perm (List.Perm.refl _)).of_map

variable [LawfulEqOrd κ] [DecidableEq κ]

/-- An element that occurs has its number of occurrences. -/
theorem getElem?_tally (l : List κ) (k : κ) :
    (tally l)[k]? = if l.count k = 0 then none else some (l.count k) := by
  induction l using List.reverseRecOn with
  | nil => simp [tally]
  | append_singleton l key ih =>
      rw [tally_concat, tallyOne, ExtTreeMap.getElem?_insert, List.count_append, List.count_singleton]
      by_cases hkey : key = k
      · subst hkey
        rw [if_pos compare_self, ih]
        by_cases hzero : l.count key = 0
        · simp [hzero]
        · simp [hzero]
      · rw [if_neg (mt Std.compare_eq_iff_eq.1 hkey), ih]
        simp [hkey]

theorem mem_toList_tally {l : List κ} {k : κ} {n : Nat} :
    (k, n) ∈ (tally l).toList ↔ 0 < n ∧ l.count k = n := by
  rw [ExtTreeMap.mem_toList_iff_getElem?_eq_some, getElem?_tally]
  split
  next hzero => simp only [reduceCtorEq, false_iff]; omega
  next hpos =>
    rw [Option.some.injEq]
    constructor
    · intro hn
      exact ⟨by omega, hn⟩
    · exact And.right

/-- **The order of the list leaves no trace.** -/
theorem tally_eq_of_perm {l l' : List κ} (h : l.Perm l') : tally l = tally l' := by
  refine ExtTreeMap.ext_getElem? fun {k} => ?_
  rw [getElem?_tally, getElem?_tally, h.count_eq]

/-- The entries, in some order. -/
theorem toList_tally_perm (l : List κ) : (tally l).toList.Perm (l.dedup.map fun k => (k, l.count k)) := by
  have hnodup : (l.dedup.map fun k => (k, l.count k)).Nodup :=
    (List.nodup_dedup l).map fun _ _ h => congrArg Prod.fst h
  refine (List.perm_ext_iff_of_nodup (nodup_toList_tally l) hnodup).2 fun ⟨k, n⟩ => ?_
  rw [mem_toList_tally, List.mem_map]
  constructor
  · rintro ⟨hpos, rfl⟩
    exact ⟨k, List.mem_dedup.2 (List.count_pos_iff.1 hpos), rfl⟩
  · rintro ⟨k', hk', heq⟩
    cases heq
    exact ⟨List.count_pos_iff.2 (List.mem_dedup.1 hk'), rfl⟩

theorem size_tally (l : List κ) : (tally l).size = l.dedup.length := by
  rw [← ExtTreeMap.length_toList, (toList_tally_perm l).length_eq, List.length_map]

/-- **Every element is counted once.** -/
theorem sum_tally (l : List κ) : ((tally l).toList.map Prod.snd).sum = l.length := by
  rw [((toList_tally_perm l).map Prod.snd).sum_eq, List.map_map]
  exact List.sum_map_count_dedup_eq_length l

end MSearchDB.Lib
