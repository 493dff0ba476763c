import Mathlib.Data.List.Perm.Lattice
import Mathlib.Tactic
import Std.Data.ExtTreeMap

/-!
# Ordered maps as sorted lists

The entries of an ordered map are a list with strictly increasing keys, and such a list
is determined by its members (`eq_of_mem_iff`). This is how the iterations of two maps
are compared: by what they contain. In a sorted list a loop that stops at the first
entry beyond a bound sees the entries up to the bound (`takeWhile_eq_filter`), and a walk
that begins at a key sees the entries from the key to the bound (`listing_walk`); lists
with a common prefix stand together (`prefix_of_compare_lt`). What the entries weigh
together follows insertions and removals (`weight_insert`, `weight_erase`).
-/

set_option autoImplicit false

namespace MSearchDB.Lib

open Std

universe u v

/-- The keys are strictly increasing. -/
def Ascending {κ : Type u} {ν : Type v} [Ord κ] (l : List (κ × ν)) : Prop :=
  l.Pairwise fun a b => compare a.1 b.1 = .lt

section Ascending

variable {κ : Type u} {ν : Type v} [Ord κ] [TransOrd κ] {l l' : List (κ × ν)}

theorem ascending_toList (m : ExtTreeMap κ ν) : Ascending m.toList := ExtTreeMap.ordered_keys_toList

/-- The entries of a map have distinct keys, in whatever order they come. -/
theorem nodup_fst_of_perm {m : ExtTreeMap κ ν} (h : l.Perm m.toList) : (l.map Prod.fst).Nodup := by
  rw [(h.map Prod.fst).nodup_iff, ExtTreeMap.map_fst_toList_eq_keys]
  exact ExtTreeMap.nodup_keys

theorem Ascending.nodup (h : Ascending l) : l.Nodup := by
  refine List.Pairwise.imp (fun {a b} hlt heq => ?_) h
  rw [heq, compare_self] at hlt
  simp at hlt

/-- **Ascending lists with the same members are equal.** -/
theorem Ascending.eq_of_mem_iff (h : Ascending l) (h' : Ascending l') (hmem : ∀ a, a ∈ l ↔ a ∈ l') :
    l = l' := by
  refine List.Perm.eq_of_pairwise ?_ h h' ((List.perm_ext_iff_of_nodup h.nodup h'.nodup).2 hmem)
  intro a b _ _ hab hba
  have hgt := OrientedOrd.eq_swap (a := a.1) (b := b.1)
  rw [hab, hba] at hgt
  simp at hgt

omit [TransOrd κ] in
theorem Ascending.filter (h : Ascending l) (p : κ × ν → Bool) : Ascending (l.filter p) :=
  List.Pairwise.filter p h

omit [TransOrd κ] in
/-- Lists over other keys, which are in the same order. -/
theorem Ascending.map {κ' : Type u} {ν' : Type v} [Ord κ'] {f : κ × ν → κ' × ν'} (h : Ascending l)
    (hf : ∀ a b, compare a.1 b.1 = .lt → compare (f a).1 (f b).1 = .lt) : Ascending (l.map f) :=
  List.Pairwise.map f (fun a b hab => hf a b hab) h

omit [TransOrd κ] in
/-- A loop that stops at the first entry out of bounds. -/
theorem Ascending.takeWhile_eq_filter (h : Ascending l) {p : κ × ν → Bool}
    (hp : ∀ a ∈ l, ∀ b ∈ l, compare a.1 b.1 = .lt → p b = true → p a = true) :
    l.takeWhile p = l.filter p := by
  induction l with
  | nil => rfl
  | cons a l ih =>
      obtain ⟨hhead, htail⟩ := List.pairwise_cons.1 h
      by_cases ha : p a = true
      · rw [List.takeWhile_cons_of_pos ha, List.filter_cons_of_pos ha, ih htail]
        intro b hb c hc
        exact hp b (List.mem_cons_of_mem _ hb) c (List.mem_cons_of_mem _ hc)
      · rw [List.takeWhile_cons_of_neg ha, List.filter_cons_of_neg ha, eq_comm,
          List.filter_eq_nil_iff]
        intro b hb hpb
        exact ha (hp a List.mem_cons_self b (List.mem_cons_of_mem _ hb) (hhead b hb) hpb)

omit [TransOrd κ] in
/-- The first entry with a property comes before all others with it. -/
theorem Ascending.find?_first (h : Ascending l) {p : κ × ν → Bool} {a b : κ × ν}
    (hfind : l.find? p = some a) (hb : b ∈ l) (hp : p b = true) :
    b = a ∨ compare a.1 b.1 = .lt := by
  obtain ⟨-, as, bs, rfl, hnone⟩ := List.find?_eq_some_iff_append.1 hfind
  obtain ⟨-, htail, -⟩ := List.pairwise_append.1 h
  rcases List.mem_append.1 hb with hb | hb
  · have hnot := hnone b hb
    rw [hp] at hnot
    simp at hnot
  · rcases List.mem_cons.1 hb with rfl | hb
    · exact Or.inl rfl
    · exact Or.inr ((List.pairwise_cons.1 htail).1 b hb)

omit [TransOrd κ] in
theorem Ascending.concat (h : Ascending l) {a : κ × ν} (ha : ∀ b ∈ l, compare b.1 a.1 = .lt) :
    Ascending (l ++ [a]) := by
  refine List.pairwise_append.2 ⟨h, List.pairwise_singleton _ _, fun b hb c hc => ?_⟩
  rw [List.mem_singleton.1 hc]
  exact ha b hb

/-- A key after the last one is after all of them. -/
theorem Ascending.lt_of_getLast? (h : Ascending l) {k : κ}
    (hk : ∀ a, l.getLast? = some a → compare a.1 k = .lt) {b : κ × ν} (hb : b ∈ l) :
    compare b.1 k = .lt := by
  rcases List.eq_nil_or_concat' l with rfl | ⟨l, a, rfl⟩
  · simp at hb
  · have ha := hk a (by simp)
    obtain ⟨-, -, hlt⟩ := List.pairwise_append.1 h
    rcases List.mem_append.1 hb with hb | hb
    · exact TransCmp.lt_trans (hlt b hb a (List.mem_singleton_self a)) ha
    · rwa [List.mem_singleton.1 hb]

end Ascending

section Members

variable {κ : Type u} {ν : Type v} [Ord κ] [TransOrd κ] [LawfulEqOrd κ] [DecidableEq κ]

omit [DecidableEq κ] in
theorem mem_of_mem_toList {m : ExtTreeMap κ ν} {a : κ × ν} (h : a ∈ m.toList) : a.1 ∈ m := by
  rw [ExtTreeMap.mem_iff_isSome_getElem?, ExtTreeMap.mem_toList_iff_getElem?_eq_some.1 h]
  rfl

theorem getElem?_eraseAll (ks : List κ) (k : κ) :
    ∀ m : ExtTreeMap κ ν, (ks.foldl ExtTreeMap.erase m)[k]? = if k ∈ ks then none else m[k]? := by
  induction ks with
  | nil => simp
  | cons k' ks ih =>
      intro m
      rw [List.foldl_cons, ih, ExtTreeMap.getElem?_erase]
      by_cases hk : k' = k
      · simp [hk]
      · simp [hk, Ne.symm hk]

end Members

/-! ## Weights -/

section Weight

variable {κ : Type u} {ν : Type v} [Ord κ] (w : κ × ν → Nat) {m : ExtTreeMap κ ν} {k : κ} {v : ν}

/-- What the entries of a map weigh together. -/
def weight [TransOrd κ] (m : ExtTreeMap κ ν) : Nat := (m.toList.map w).sum

variable [TransOrd κ] [LawfulEqOrd κ]

theorem weight_erase (h : m[k]? = some v) : weight w m = w (k, v) + weight w (m.erase k) := by
  have hperm : m.toList.Perm ((k, v) :: (m.erase k).toList) := by
    have hnot : (k, v) ∉ (m.erase k).toList := fun hmem => by
      simp [ExtTreeMap.mem_toList_iff_getElem?_eq_some] at hmem
    refine (List.perm_ext_iff_of_nodup (ascending_toList m).nodup
      (List.nodup_cons.2 ⟨hnot, (ascending_toList _).nodup⟩)).2 fun a => ?_
    obtain ⟨k', v'⟩ := a
    rw [List.mem_cons, ExtTreeMap.mem_toList_iff_getElem?_eq_some, ExtTreeMap.mem_toList_iff_getElem?_eq_some,
      ExtTreeMap.getElem?_erase]
    by_cases hk : k = k'
    · subst hk
      simp [h, eq_comm]
    · simp [hk, Ne.symm hk]
  rw [weight, (hperm.map w).sum_eq, List.map_cons, List.sum_cons]
  rfl

theorem weight_erase_le (m : ExtTreeMap κ ν) (k : κ) : weight w (m.erase k) ≤ weight w m := by
  cases h : m[k]? with
  | none =>
      have hsame : m.erase k = m := by
        refine ExtTreeMap.ext_getElem? fun k' => ?_
        rw [ExtTreeMap.getElem?_erase]
        split
        · rename_i heq
          rw [← compare_eq_iff_eq.1 heq, h]
        · rfl
      rw [hsame]
  | some v =>
      rw [weight_erase w h]
      exact Nat.le_add_left _ _

/-- An insertion replaces what was there at the key. -/
theorem weight_insert (m : ExtTreeMap κ ν) (k : κ) (v : ν) :
    weight w (m.insert k v) = w (k, v) + weight w (m.erase k) := by
  have herase : (m.insert k v).erase k = m.erase k := by
    refine ExtTreeMap.ext_getElem? fun k' => ?_
    rw [ExtTreeMap.getElem?_erase, ExtTreeMap.getElem?_erase, ExtTreeMap.getElem?_insert]
    split <;> rfl
  rw [weight_erase w ExtTreeMap.getElem?_insert_self, herase]

end Weight

/-! ## Walks from a key on -/

section Listing

variable {κ : Type u} {ν : Type v} [Ord κ] {f : κ → Option ν} {p : κ → Prop} {l l' : List (κ × ν)}

/-- The entries of a map whose keys have a property, in the order of the keys. -/
structure Listing (f : κ → Option ν) (p : κ → Prop) (l : List (κ × ν)) : Prop where
  ascending : Ascending l
  mem_iff : ∀ a, a ∈ l ↔ f a.1 = some a.2 ∧ p a.1

theorem Listing.unique [TransOrd κ] (h : Listing f p l) (h' : Listing f p l') : l = l' := by
  apply h.ascending.eq_of_mem_iff h'.ascending
  intro a
  rw [h.mem_iff, h'.mem_iff]

theorem Listing.eq_nil_iff (h : Listing f p l) : l = [] ↔ ∀ k v, f k = some v → ¬ p k := by
  rw [List.eq_nil_iff_forall_not_mem]
  constructor
  · intro hnil k v hv hk
    exact hnil (k, v) ((h.mem_iff _).2 ⟨hv, hk⟩)
  · intro hnone a ha
    obtain ⟨hv, hk⟩ := (h.mem_iff a).1 ha
    exact hnone a.1 a.2 hv hk

/-- **A walk.** It begins at the first key that is not before `start`, and ends at the first
key without the property; the keys with the property must stand together. -/
theorem listing_walk [TransOrd κ] [LawfulEqOrd κ] (m : ExtTreeMap κ ν) (start : κ) (q : κ → Bool)
    (hq : ∀ k ∈ m, ∀ k' ∈ m, (compare start k).isLE = true → compare k k' = .lt → q k' = true → q k = true) :
    Listing (fun k => m[k]?) (fun k => (compare start k).isLE = true ∧ q k = true)
      ((m.toList.filter fun kv => (compare start kv.1).isLE).takeWhile fun kv => q kv.1) := by
  have hfrom := (ascending_toList m).filter fun kv => (compare start kv.1).isLE
  rw [hfrom.takeWhile_eq_filter]
  · refine ⟨hfrom.filter _, fun a => ?_⟩
    rw [List.mem_filter, List.mem_filter, ExtTreeMap.mem_toList_iff_getElem?_eq_some, and_assoc]
  · intro a ha b hb
    obtain ⟨ha, hstart⟩ := List.mem_filter.1 ha
    exact hq a.1 (mem_of_mem_toList ha) b.1 (mem_of_mem_toList (List.mem_of_mem_filter hb)) hstart

end Listing

/-! ## Prefixes in the order of lists -/

section Prefix

variable {α : Type u} [Ord α] [TransOrd α] [LawfulEqOrd α]

omit [LawfulEqOrd α] in
/-- A list does not come before its prefixes. -/
theorem isLE_compare_of_prefix {xs ys : List α} (h : xs <+: ys) : (compare xs ys).isLE = true := by
  induction xs generalizing ys with
  | nil => exact List.isLE_compare_nil_left
  | cons x xs ih =>
      obtain ⟨zs, rfl⟩ := h
      rw [List.cons_append, List.compare_cons_cons, compare_self]
      exact ih (List.prefix_append xs zs)

/-- The lists with a prefix are the first of those that do not come before it. -/
theorem prefix_of_compare_lt {xs ys zs : List α} (hle : (compare xs ys).isLE = true)
    (hlt : compare ys zs = .lt) (h : xs <+: zs) : xs <+: ys := by
  -- induction on the prefix, whose first letter is that of all three lists
  induction xs generalizing ys zs with
  | nil => exact List.nil_prefix
  | cons x xs ih =>
      obtain ⟨zs, rfl⟩ := h
      cases ys with
      | nil => simp at hle
      | cons y ys =>
          rw [List.compare_cons_cons, Ordering.isLE_then_iff_and] at hle
          rw [List.cons_append, List.compare_cons_cons, Ordering.then_eq_lt] at hlt
          obtain ⟨hxy, htail⟩ := hle
          rcases hlt with hyx | ⟨hyx, hlt⟩
          · -- then `y` comes before `x`
            rw [OrientedCmp.gt_of_lt hyx] at hxy
            simp at hxy
          · obtain rfl := LawfulEqOrd.eq_of_compare hyx
            have hle : (compare xs ys).isLE = true := htail.resolve_left (by simp [compare_self])
            rw [List.cons_prefix_cons]
            exact ⟨rfl, ih hle hlt (List.prefix_append xs zs)⟩

end Prefix

end MSearchDB.Lib
