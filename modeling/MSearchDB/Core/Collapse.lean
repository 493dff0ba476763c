import MSearchDB.Core.Query

/-!
# Collapsing sorted lists

`apply_collapse` keeps the first document with each key. Which keys were seen before
matters only for the keys of the list (`collapseLoop_congr`), so that a list can be
collapsed piece by piece (`collapseLoop_append`).

Lists without a common key can be collapsed one by one before they are sorted together
(`collapse_sortBy_flatten`).
-/

set_option autoImplicit false

namespace MSearchDB.Core

open MSearchDB.Lib
open Std

variable {key : ScoredDocument → String} {seen seen' : List String} {docs : List ScoredDocument}

theorem collapseLoop_sublist (key : ScoredDocument → String) (seen : List String)
    (docs : List ScoredDocument) : (collapseLoop key seen docs).Sublist docs := by
  induction docs generalizing seen with
  | nil => exact List.Sublist.refl _
  | cons doc docs ih =>
      rw [collapseLoop]
      split
      · exact (ih seen).cons _
      · exact (ih _).cons_cons _

/-- Only the keys of the list matter. -/
theorem collapseLoop_congr (h : ∀ doc ∈ docs, key doc ∈ seen ↔ key doc ∈ seen') :
    collapseLoop key seen docs = collapseLoop key seen' docs := by
  induction docs generalizing seen seen' with
  | nil => rfl
  | cons doc docs ih =>
      have hhead := h doc List.mem_cons_self
      have htail : ∀ d ∈ docs, key d ∈ seen ↔ key d ∈ seen' :=
        fun d hd => h d (List.mem_cons_of_mem _ hd)
      have hnext : ∀ d ∈ docs, key d ∈ key doc :: seen ↔ key d ∈ key doc :: seen' := by
        intro d hd
        rw [List.mem_cons, List.mem_cons, htail d hd]
      rw [collapseLoop, collapseLoop, ih htail, ih hnext]
      simp only [hhead]

theorem collapseLoop_append (key : ScoredDocument → String) (seen : List String)
    (docs docs' : List ScoredDocument) :
    collapseLoop key seen (docs ++ docs') =
      collapseLoop key seen docs ++ collapseLoop key (docs.map key ++ seen) docs' := by
  induction docs generalizing seen with
  | nil => rfl
  | cons doc docs ih =>
      rw [List.cons_append, collapseLoop, collapseLoop]
      split
      next hseen =>
        rw [ih]
        congr 1
        refine collapseLoop_congr fun d _ => ?_
        simp only [List.map_cons, List.cons_append, List.mem_cons, List.mem_append]
        constructor
        · exact .inr
        · rintro (hkey | hkey)
          · rw [hkey]
            exact .inr hseen
          · exact hkey
      next hseen =>
        rw [ih, List.cons_append]
        congr 2
        refine collapseLoop_congr fun d _ => ?_
        simp only [List.map_cons, List.cons_append, List.mem_cons, List.mem_append]
        tauto

/-! ## Keys -/

theorem mem_keys_collapseLoop {k : String} :
    k ∈ (collapseLoop key seen docs).map key ↔ k ∈ docs.map key ∧ k ∉ seen := by
  induction docs generalizing seen with
  | nil => simp [collapseLoop]
  | cons doc docs ih =>
      rw [collapseLoop]
      split
      next hseen =>
        rw [ih, List.map_cons, List.mem_cons]
        constructor
        · rintro ⟨hk, hnot⟩
          exact ⟨.inr hk, hnot⟩
        · rintro ⟨rfl | hk, hnot⟩
          · exact absurd hseen hnot
          · exact ⟨hk, hnot⟩
      next hseen =>
        rw [List.map_cons, List.mem_cons, ih, List.map_cons, List.mem_cons, List.mem_cons]
        constructor
        · rintro (rfl | ⟨hk, hnot⟩)
          · exact ⟨.inl rfl, hseen⟩
          · exact ⟨.inr hk, fun h => hnot (.inr h)⟩
        · rintro ⟨hk, hnot⟩
          by_cases hkey : k = key doc
          · exact .inl hkey
          · exact .inr ⟨hk.resolve_left hkey, fun h => (h.resolve_left hkey |> hnot)⟩

theorem nodup_keys_collapseLoop (key : ScoredDocument → String) (seen : List String)
    (docs : List ScoredDocument) : ((collapseLoop key seen docs).map key).Nodup := by
  induction docs generalizing seen with
  | nil => exact List.nodup_nil
  | cons doc docs ih =>
      rw [collapseLoop]
      split
      · exact ih seen
      · refine List.nodup_cons.2 ⟨fun hmem => ?_, ih _⟩
        exact (mem_keys_collapseLoop.1 hmem).2 List.mem_cons_self

/-- A list has at least as many members as there are keys in a list whose keys it has. -/
theorem length_collapseLoop_le {docs' : List ScoredDocument} (h : ∀ doc ∈ docs, key doc ∈ docs'.map key) :
    (collapseLoop key [] docs).length ≤ docs'.length := by
  have hsub : (collapseLoop key [] docs).map key ⊆ docs'.map key := by
    intro k hk
    obtain ⟨doc, hdoc, rfl⟩ := List.mem_map.1 (mem_keys_collapseLoop.1 hk).1
    exact h doc hdoc
  have hlen := ((nodup_keys_collapseLoop key [] docs).subperm hsub).length_le
  rwa [List.length_map, List.length_map] at hlen

/-- No two lists have a key in common. -/
def KeysApart (key : ScoredDocument → String) (lists : List (List ScoredDocument)) : Prop :=
  lists.Pairwise fun l l' => (l.map key).Disjoint (l'.map key)

theorem KeysApart.eq_of_key_eq {lists : List (List ScoredDocument)} (h : KeysApart key lists)
    {l l' : List ScoredDocument} (hl : l ∈ lists) (hl' : l' ∈ lists) {a b : ScoredDocument} (ha : a ∈ l)
    (hb : b ∈ l') (hkey : key a = key b) : l = l' := by
  by_contra hne
  have hsymm : Std.Symm fun l l' : List ScoredDocument => (l.map key).Disjoint (l'.map key) :=
    ⟨fun _ _ h => h.symm⟩
  refine h.forall hl hl' hne (List.mem_map_of_mem ha) ?_
  rw [hkey]
  exact List.mem_map_of_mem hb

/-! ## Sorted lists -/

section Sorted

variable {cmp : ScoredDocument → ScoredDocument → Ordering} [TransCmp cmp]

/-- What is left of the ties of a document: those whose key was not seen among the
documents before them. -/
theorem tiesOf_collapseLoop (a : ScoredDocument) (h : docs.Pairwise fun b c => (cmp b c).isLE = true) :
    tiesOf cmp a (collapseLoop key seen docs) =
      collapseLoop key ((docs.filter fun b => cmp b a = .lt).map key ++ seen) (tiesOf cmp a docs) := by
  induction docs generalizing seen with
  | nil => rfl
  | cons x docs ih =>
      obtain ⟨hle, htail⟩ := List.pairwise_cons.1 h
      cases hcmp : cmp x a with
      | lt =>
          -- `x` stands before the ties, and its key is seen from here on
          have hax : cmp a x ≠ .eq := by
            rw [OrientedCmp.gt_of_lt hcmp]
            exact fun heq => nomatch heq
          have hties : ∀ l, tiesOf cmp a (x :: l) = tiesOf cmp a l :=
            fun l => List.filter_cons_of_neg (by simpa using hax)
          rw [collapseLoop, hties, List.filter_cons_of_pos (by simpa using hcmp)]
          split
          next hseen =>
            rw [ih htail]
            refine collapseLoop_congr fun d _ => ?_
            simp only [List.map_cons, List.cons_append, List.mem_cons, List.mem_append]
            constructor
            · exact .inr
            · rintro (hkey | hkey)
              · rw [hkey]
                exact .inr hseen
              · exact hkey
          next hseen =>
            rw [hties, ih htail]
            refine collapseLoop_congr fun d _ => ?_
            simp only [List.map_cons, List.cons_append, List.mem_cons, List.mem_append]
            tauto
      | eq =>
          -- `x` is the first of the ties, so nothing that follows stands before them
          have hax : cmp a x = .eq := OrientedCmp.eq_symm hcmp
          have hties : ∀ l, tiesOf cmp a (x :: l) = x :: tiesOf cmp a l :=
            fun l => List.filter_cons_of_pos (by simpa using hax)
          have hnone : docs.filter (fun b => cmp b a = .lt) = [] := by
            refine List.filter_eq_nil_iff.2 fun c hc => ?_
            intro hlt
            have hxa : cmp x a = .lt := TransCmp.lt_of_isLE_of_lt (hle c hc) (by simpa using hlt)
            rw [hcmp] at hxa
            cases hxa
          rw [collapseLoop, hties, List.filter_cons_of_neg (by simp [hcmp]), hnone, collapseLoop]
          split
          next hseen => rw [ih htail, hnone, if_pos (by simpa using hseen)]
          next hseen =>
            rw [hties, ih htail, hnone, if_neg (by simpa using hseen)]
            rfl
      | gt =>
          -- all that is left comes after the ties
          have hnone : ∀ l, l.Sublist (x :: docs) → tiesOf cmp a l = [] := by
            intro l hsub
            refine List.filter_eq_nil_iff.2 fun c hc => ?_
            intro heq
            have hca : cmp c a = .eq := OrientedCmp.eq_symm (by simpa using heq)
            have hxc : (cmp x c).isLE = true := isLE_of_mem_cons h (hsub.subset hc)
            have hxa : (cmp x a).isLE = true := TransCmp.isLE_trans hxc (by rw [hca]; rfl)
            rw [hcmp] at hxa
            cases hxa
          rw [hnone _ (collapseLoop_sublist key seen _), hnone _ (List.Sublist.refl _)]
          rfl

omit [TransCmp cmp] in
/-- The ties that lists without a common key have left. -/
theorem collapseLoop_flatten_tiesOf (a : ScoredDocument) {lists : List (List ScoredDocument)}
    (hapart : KeysApart key lists)
    (hseen : ∀ l ∈ lists, ∀ d ∈ l, key d ∈ seen ↔ key d ∈ (l.filter fun b => cmp b a = .lt).map key) :
    collapseLoop key seen (lists.map (tiesOf cmp a)).flatten =
      (lists.map fun l => collapseLoop key ((l.filter fun b => cmp b a = .lt).map key) (tiesOf cmp a l)).flatten := by
  induction lists generalizing seen with
  | nil => rfl
  | cons l lists ih =>
      obtain ⟨hhead, htail⟩ := List.pairwise_cons.1 hapart
      rw [List.map_cons, List.flatten_cons, collapseLoop_append, List.map_cons, List.flatten_cons]
      congr 1
      · refine collapseLoop_congr fun d hd => ?_
        exact hseen l List.mem_cons_self d (List.mem_filter.1 hd).1
      · refine ih htail fun l' hl' d hd => ?_
        rw [← hseen l' (List.mem_cons_of_mem _ hl') d hd, List.mem_append]
        refine or_iff_right fun hmem => ?_
        exact hhead l' hl' (List.filter_sublist.map key |>.subset hmem) (List.mem_map_of_mem hd)

/-- **Collapsing before sorting together.** -/
theorem collapse_sortBy_flatten {lists : List (List ScoredDocument)} (hapart : KeysApart key lists)
    (hsorted : ∀ l ∈ lists, l.Pairwise fun b c => (cmp b c).isLE = true) :
    collapseLoop key [] (sortBy cmp lists.flatten) =
      sortBy cmp (lists.map (collapseLoop key [])).flatten := by
  refine eq_sortBy_of_tiesOf_eq ((pairwise_sortBy _).sublist (collapseLoop_sublist key [] _)) fun a => ?_
  rw [tiesOf_collapseLoop a (pairwise_sortBy _), tiesOf_sortBy, tiesOf_flatten,
    collapseLoop_flatten_tiesOf a hapart]
  · rw [tiesOf_flatten, List.map_map]
    congr 1
    refine List.map_congr_left fun l hl => ?_
    have hties : tiesOf cmp a (collapseLoop key [] l) = _ := tiesOf_collapseLoop a (hsorted l hl)
    rw [List.append_nil] at hties
    exact hties.symm
  · -- a key seen before is one of the same list
    intro l hl d hd
    rw [List.append_nil, List.mem_map, List.mem_map]
    constructor
    · rintro ⟨b, hb, hkey⟩
      obtain ⟨hb, hlt⟩ := List.mem_filter.1 hb
      obtain ⟨l', hl', hb'⟩ := List.mem_flatten.1 (mem_sortBy.1 hb)
      obtain rfl := hapart.eq_of_key_eq hl' hl hb' hd hkey
      exact ⟨b, List.mem_filter.2 ⟨hb', hlt⟩, hkey⟩
    · rintro ⟨b, hb, hkey⟩
      obtain ⟨hb, hlt⟩ := List.mem_filter.1 hb
      exact ⟨b, List.mem_filter.2 ⟨mem_sortBy.2 (List.mem_flatten.2 ⟨l, hl, hb⟩), hlt⟩, hkey⟩

end Sorted

end MSearchDB.Core
