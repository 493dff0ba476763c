import MSearchDB.Lib.OrderedMap

/-!
# Ordered values as keys

An ordered map may hold entries of several kinds under one type of keys. The keys of one
kind are an order preserving code of the values of an ordered type, with a function that
reads them; all other keys come before the codes and are not read as one (`Outside`). Then
an iteration from a code on meets the codes of the values from there on and nothing else
(`map_parse_filter`), and a search from the last key back finds the greatest value that is
stored (`findSome?_reverse_eq_some_iff`).
-/

set_option autoImplicit false

namespace MSearchDB.Lib

open Std

universe u v w

/-- A code that keeps the order, and the reading of it. -/
structure OrderCode (α : Type u) (κ : Type v) [Ord α] [Ord κ] where
  code : α → κ
  parse : κ → Option α
  parse_code : ∀ a, parse (code a) = some a
  compare_code : ∀ a b, compare (code a) (code b) = compare a b

namespace OrderCode

variable {α : Type u} {κ : Type v} {ν : Type w} [Ord α] [Ord κ] {C : OrderCode α κ} {k : κ} {a b : α}
  {l : List (κ × ν)}

/-- A key that is not a code and comes before all codes. -/
structure Outside (C : OrderCode α κ) (k : κ) : Prop where
  parse_eq_none : C.parse k = none
  lt_code : ∀ a, compare k (C.code a) = .lt

/-- Every key is a code, or outside. -/
def Covers (C : OrderCode α κ) (l : List (κ × ν)) : Prop :=
  ∀ e ∈ l, C.Outside e.1 ∨ ∃ a, e.1 = C.code a

/-- The value is stored under its code. -/
def Stores (C : OrderCode α κ) (l : List (κ × ν)) (a : α) : Prop := ∃ v, (C.code a, v) ∈ l

theorem Covers.parse_eq_some_iff (h : C.Covers l) {e : κ × ν} (he : e ∈ l) :
    C.parse e.1 = some a ↔ e.1 = C.code a := by
  refine ⟨fun hparse => ?_, fun hcode => hcode ▸ C.parse_code a⟩
  rcases h e he with hout | ⟨b, hb⟩
  · rw [hout.parse_eq_none] at hparse
    cases hparse
  · rw [hb, C.parse_code] at hparse
    rw [hb, Option.some.inj hparse]

theorem Covers.mem_filterMap_iff (h : C.Covers l) :
    a ∈ l.filterMap (fun e => C.parse e.1) ↔ C.Stores l a := by
  rw [List.mem_filterMap]
  constructor
  · rintro ⟨⟨k, v⟩, he, hparse⟩
    obtain rfl := (h.parse_eq_some_iff he).1 hparse
    exact ⟨v, he⟩
  · rintro ⟨v, he⟩
    exact ⟨(C.code a, v), he, C.parse_code a⟩

/-- The values are met in their order. -/
theorem Covers.pairwise_filterMap (h : C.Covers l) (hl : Ascending l) :
    (l.filterMap fun e => C.parse e.1).Pairwise fun a b => compare a b = .lt := by
  rw [List.pairwise_filterMap]
  refine List.Pairwise.imp_of_mem (fun {e e'} he he' hlt a ha b hb => ?_) hl
  rw [(h.parse_eq_some_iff he).1 ha, (h.parse_eq_some_iff he').1 hb, C.compare_code] at hlt
  exact hlt

/-- **Forward.** What an iteration from a code on meets. -/
theorem Covers.map_parse_filter [OrientedOrd κ] (h : C.Covers l) (hl : Ascending l) (a : α) :
    ∃ as : List α, ((l.filter fun e => (compare (C.code a) e.1).isLE).map fun e => C.parse e.1) = as.map some ∧
      (as.Pairwise fun x y => compare x y = .lt) ∧
      ∀ b, b ∈ as ↔ (compare a b).isLE = true ∧ C.Stores l b := by
  have hcovers : C.Covers (l.filter fun e => (compare (C.code a) e.1).isLE) := fun e he =>
    h e (List.mem_of_mem_filter he)
  refine ⟨(l.filter fun e => (compare (C.code a) e.1).isLE).filterMap fun e => C.parse e.1, ?_,
    hcovers.pairwise_filterMap (hl.filter _), fun b => ?_⟩
  · -- the keys outside come before the first code
    rw [List.map_filterMap_some_eq_filter_map_isSome, eq_comm, List.filter_eq_self]
    intro parsed hparsed
    obtain ⟨e, he, rfl⟩ := List.mem_map.1 hparsed
    obtain ⟨hmem, hle⟩ := List.mem_filter.1 he
    rcases h e hmem with hout | ⟨b, hb⟩
    · rw [OrientedCmp.gt_of_lt (hout.lt_code a)] at hle
      cases hle
    · rw [hb, C.parse_code]
      rfl
  · rw [hcovers.mem_filterMap_iff, Stores, Stores]
    simp only [List.mem_filter, C.compare_code]
    exact ⟨fun ⟨v, hmem, hle⟩ => ⟨hle, v, hmem⟩, fun ⟨hle, v, hmem⟩ => ⟨v, hmem, hle⟩⟩

/-- The first code met on the way back, with what stands before it and after it. -/
theorem Covers.split_of_findSome? (h : C.Covers l) (hl : Ascending l)
    (hfind : l.reverse.findSome? (fun e => C.parse e.1) = some a) :
    ∃ skipped v rest, l.reverse = skipped ++ (C.code a, v) :: rest ∧
      (∀ e ∈ skipped, C.parse e.1 = none) ∧ ∀ b, C.Stores l b → b = a ∨ compare b a = .lt := by
  obtain ⟨skipped, ⟨k, v⟩, rest, hsplit, hparse, hskipped⟩ := List.findSome?_eq_some_iff.1 hfind
  have hmem : ∀ e, e ∈ l ↔ e ∈ skipped ∨ e = (k, v) ∨ e ∈ rest := by
    intro e
    rw [← List.mem_reverse, hsplit, List.mem_append, List.mem_cons]
  obtain rfl := (h.parse_eq_some_iff ((hmem _).2 (Or.inr (Or.inl rfl)))).1 hparse
  refine ⟨skipped, v, rest, hsplit, hskipped, fun b hb => ?_⟩
  obtain ⟨w, hw⟩ := hb
  rcases (hmem _).1 hw with hw | hw | hw
  · -- a code would not have been passed over
    have hnone : C.parse (C.code b) = none := hskipped _ hw
    rw [C.parse_code] at hnone
    cases hnone
  · left
    have hcode : C.code b = C.code a := congrArg Prod.fst hw
    have hsame := C.parse_code b
    rw [hcode, C.parse_code] at hsame
    exact (Option.some.inj hsame).symm
  · right
    have hpair : l.reverse.Pairwise fun e e' => compare e'.1 e.1 = .lt := List.pairwise_reverse.2 hl
    rw [hsplit] at hpair
    have hlt := (List.pairwise_cons.1 (List.pairwise_append.1 hpair).2.1).1 _ hw
    rwa [C.compare_code] at hlt

/-- **Backward.** A search from the last key back finds the greatest value. -/
theorem Covers.findSome?_reverse_eq_some_iff [OrientedOrd α] (h : C.Covers l) (hl : Ascending l) :
    l.reverse.findSome? (fun e => C.parse e.1) = some a ↔
      C.Stores l a ∧ ∀ b, C.Stores l b → b = a ∨ compare b a = .lt := by
  constructor
  · intro hfind
    obtain ⟨skipped, v, rest, hsplit, -, hgreatest⟩ := h.split_of_findSome? hl hfind
    refine ⟨⟨v, List.mem_reverse.1 ?_⟩, hgreatest⟩
    rw [hsplit]
    exact List.mem_append_right _ List.mem_cons_self
  · rintro ⟨hstored, hgreatest⟩
    have hsome : (l.reverse.findSome? fun e => C.parse e.1).isSome = true := by
      obtain ⟨v, hv⟩ := hstored
      rw [List.findSome?_isSome_iff]
      exact ⟨(C.code a, v), List.mem_reverse.2 hv, by rw [C.parse_code]; rfl⟩
    obtain ⟨found, hfound⟩ := Option.isSome_iff_exists.1 hsome
    obtain ⟨skipped, v, rest, hsplit, -, hfirst⟩ := h.split_of_findSome? hl hfound
    have hmem : C.Stores l found := by
      refine ⟨v, List.mem_reverse.1 ?_⟩
      rw [hsplit]
      exact List.mem_append_right _ List.mem_cons_self
    -- both are the greatest value, so they are the same
    rcases hgreatest found hmem with rfl | hlt
    · exact hfound
    · rcases hfirst a hstored with rfl | hlt'
      · exact hfound
      · rw [OrientedCmp.gt_of_lt hlt] at hlt'
        cases hlt'

end OrderCode

end MSearchDB.Lib
