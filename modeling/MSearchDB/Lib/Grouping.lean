import Mathlib.Data.List.Perm.Basic
import Mathlib.Data.List.Induction
import Mathlib.Data.List.Nodup
import Std.Data.ExtTreeMap.Lemmas

/-!
# Grouping a list by a key

`groupBy` is the loop that pushes every element of a list to the group of its key. A
group has the elements of its key in the order of the list (`getElem?_groupBy`).

A map hands out its groups in an order of its own. Whatever this order is, nothing is
lost, doubled or moved within a key: the concatenated groups have, for every key, the
elements of the list with that key (`filter_flatMap_groups`), and two lists of which
this is true are permutations of each other (`perm_of_filter_eq`).
-/

set_option autoImplicit false

namespace MSearchDB.Lib

open Std (ExtTreeMap TransOrd LawfulEqOrd)

universe u v

variable {α : Type u} {κ : Type v}

section Filter

variable [DecidableEq κ] (key : α → κ)

/-- The elements of a key. -/
def ofKey (c : κ) (l : List α) : List α := l.filter fun a => key a = c

@[simp] theorem ofKey_nil (c : κ) : ofKey key c [] = [] := rfl

theorem ofKey_cons (c : κ) (a : α) (l : List α) :
    ofKey key c (a :: l) = if key a = c then a :: ofKey key c l else ofKey key c l := by
  by_cases h : key a = c <;> simp [ofKey, h]

@[simp] theorem ofKey_append (c : κ) (l l' : List α) :
    ofKey key c (l ++ l') = ofKey key c l ++ ofKey key c l' :=
  List.filter_append ..

theorem mem_ofKey {c : κ} {l : List α} {a : α} : a ∈ ofKey key c l ↔ a ∈ l ∧ key a = c := by
  simp [ofKey]

theorem ofKey_eq_self {c : κ} {l : List α} (h : ∀ a ∈ l, key a = c) : ofKey key c l = l := by
  simpa [ofKey] using h

theorem ofKey_eq_nil {c : κ} {l : List α} (h : ∀ a ∈ l, key a ≠ c) : ofKey key c l = [] := by
  simpa [ofKey] using h

theorem ofKey_ofKey (c d : κ) (l : List α) :
    ofKey key c (ofKey key d l) = if c = d then ofKey key d l else [] := by
  split
  · rename_i h
    subst h
    exact ofKey_eq_self key fun a ha => ((mem_ofKey key).1 ha).2
  · rename_i h
    refine ofKey_eq_nil key fun a ha hc => h ?_
    rw [← hc, ((mem_ofKey key).1 ha).2]

/-- Where no two elements have the same key, a key has one element. -/
theorem ofKey_eq_singleton {l : List α} (hnodup : (l.map key).Nodup) {a : α} (ha : a ∈ l) :
    ofKey key (key a) l = [a] := by
  obtain ⟨l₁, l₂, rfl⟩ := List.append_of_mem ha
  rw [List.map_append, List.map_cons, List.nodup_middle, List.nodup_cons, List.mem_append, not_or] at hnodup
  obtain ⟨⟨h₁, h₂⟩, -⟩ := hnodup
  have hleft : ofKey key (key a) l₁ = [] :=
    ofKey_eq_nil key fun b hb heq => h₁ (heq ▸ List.mem_map_of_mem hb)
  have hright : ofKey key (key a) l₂ = [] :=
    ofKey_eq_nil key fun b hb heq => h₂ (heq ▸ List.mem_map_of_mem hb)
  rw [← List.singleton_append, ofKey_append, ofKey_append, ofKey_eq_self key (l := [a]) (by simp),
    hleft, hright]
  rfl

/-- A list is determined up to order by its elements of every key. -/
theorem perm_of_filter_eq {l l' : List α} (h : ∀ c, ofKey key c l = ofKey key c l') : l.Perm l' := by
  classical
  refine List.perm_iff_count.2 fun a => ?_
  have hcount : ∀ l : List α, l.count a = (ofKey key (key a) l).count a := fun l =>
    (List.count_filter (by simp)).symm
  rw [hcount l, hcount l', h]

/-- The groups of the keys, one after the other. -/
theorem filter_flatMap_groups {order : List κ} (hnodup : order.Nodup) (l : List α) (c : κ) :
    ofKey key c (order.flatMap fun d => ofKey key d l) =
      if c ∈ order then ofKey key c l else [] := by
  induction order with
  | nil => rfl
  | cons d order ih =>
      rw [List.nodup_cons] at hnodup
      rw [List.flatMap_cons, ofKey_append, ofKey_ofKey, ih hnodup.2]
      by_cases hcd : c = d
      · subst hcd
        simp [hnodup.1]
      · simp [hcd]

end Filter

section Map

variable [Ord κ] [TransOrd κ] [LawfulEqOrd κ] [DecidableEq κ] (key : α → κ)

/-- The loop that pushes every element to the group of its key. -/
def groupBy (l : List α) : ExtTreeMap κ (List α) :=
  l.foldl (fun groups a => groups.alter (key a) fun group => some (group.getD [] ++ [a])) ∅

theorem getElem?_groupBy (l : List α) (c : κ) :
    (groupBy key l)[c]? = if ofKey key c l = [] then none else some (ofKey key c l) := by
  induction l using List.reverseRecOn with
  | nil => simp [groupBy]
  | append_singleton l a ih =>
      rw [groupBy, List.foldl_append, ← groupBy, List.foldl_cons, List.foldl_nil,
        ExtTreeMap.getElem?_alter, ofKey_append]
      by_cases hc : key a = c
      · subst hc
        rw [if_pos (by simp), ih, ofKey_eq_self key (l := [a]) (by simp)]
        by_cases hnil : ofKey key (key a) l = []
        · simp [hnil]
        · simp [hnil]
      · rw [if_neg (by simpa using hc), ih, ofKey_eq_nil key (l := [a]) (by simpa using hc),
          List.append_nil]

theorem mem_keys_groupBy {l : List α} {c : κ} : c ∈ (groupBy key l).keys ↔ ∃ a ∈ l, key a = c := by
  rw [ExtTreeMap.mem_keys, ExtTreeMap.mem_iff_isSome_getElem?, getElem?_groupBy]
  by_cases h : ofKey key c l = []
  · rw [if_pos h]
    simp only [Option.isSome_none, Bool.false_eq_true, false_iff, not_exists, not_and]
    intro a ha hc
    exact List.not_mem_nil (h ▸ (mem_ofKey key).2 ⟨ha, hc⟩)
  · rw [if_neg h]
    obtain ⟨a, ha⟩ := List.exists_mem_of_ne_nil _ h
    simpa using ⟨a, (mem_ofKey key).1 ha⟩

end Map

end MSearchDB.Lib
