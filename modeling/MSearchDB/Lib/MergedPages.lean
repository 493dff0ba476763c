import Mathlib.Tactic

/-!
# Pages of lists that are merged

Several lists are merged into one list `G`. Someone who has the page `[f, f + s)` of each
list, and not the lists, puts these pages together. `mergedPages_eq` and its converses say
when the outcome is the page `[f, f + s)` of `G`: the page is empty, one list only has
members, all lists fit in the first page, or one list holds the first `f + s` members of
`G` and no other list is longer than `f`.
-/

set_option autoImplicit false

namespace MSearchDB.Lib

universe u v

variable {α : Type u}

/-- The page `[f, f + s)` of a list. -/
def slice (f s : Nat) (l : List α) : List α := (l.drop f).take s

theorem length_slice (f s : Nat) (l : List α) : (slice f s l).length = min s (l.length - f) := by
  rw [slice, List.length_take, List.length_drop]

theorem slice_eq_nil_of_le {f s : Nat} {l : List α} (h : l.length ≤ f) : slice f s l = [] := by
  rw [slice, List.drop_eq_nil_of_le h, List.take_nil]

theorem take_append_slice (f s : Nat) (l : List α) : l.take f ++ slice f s l = l.take (f + s) :=
  List.take_add.symm

theorem slice_sublist (f s : Nat) (l : List α) : (slice f s l).Sublist l :=
  (List.take_sublist _ _).trans (List.drop_sublist _ _)

/-- The pages of the lists, one after the other. -/
def slices (f s : Nat) (Ls : List (List α)) : List α := (Ls.map (slice f s)).flatten

theorem slices_append (f s : Nat) (Ls Ls' : List (List α)) :
    slices f s (Ls ++ Ls') = slices f s Ls ++ slices f s Ls' := by
  rw [slices, slices, slices, List.map_append, List.flatten_append]

theorem slices_eq_nil {f s : Nat} {Ls : List (List α)} (h : ∀ L ∈ Ls, L.length ≤ f) :
    slices f s Ls = [] := by
  refine List.flatten_eq_nil_iff.2 fun P hP => ?_
  obtain ⟨L, hL, rfl⟩ := List.mem_map.1 hP
  exact slice_eq_nil_of_le (h L hL)

/-- One list only reaches beyond `f`. -/
theorem slices_split {f s : Nat} {as bs : List (List α)} {L : List α}
    (h : ∀ L' ∈ as ++ bs, L'.length ≤ f) : slices f s (as ++ L :: bs) = slice f s L := by
  have has : slices f s as = [] := slices_eq_nil fun L' hL' => h L' (List.mem_append_left _ hL')
  have hbs : slices f s bs = [] := slices_eq_nil fun L' hL' => h L' (List.mem_append_right _ hL')
  have hcons : slices f s (L :: bs) = slice f s L ++ slices f s bs := rfl
  rw [slices_append, has, hcons, hbs, List.nil_append, List.append_nil]

theorem slices_eq_flatten {s : Nat} {Ls : List (List α)} (h : ∀ L ∈ Ls, L.length ≤ s) :
    slices 0 s Ls = Ls.flatten := by
  have hmap : Ls.map (slice 0 s) = Ls := by
    refine (List.map_congr_left fun L hL => ?_).trans (List.map_id Ls)
    rw [slice, List.drop_zero, List.take_of_length_le (h L hL), id]
  rw [slices, hmap]

theorem mem_slices {f s : Nat} {Ls : List (List α)} {x : α} :
    x ∈ slices f s Ls ↔ ∃ L ∈ Ls, x ∈ slice f s L := by
  simp [slices, List.mem_flatten]

theorem length_le_flatten {Ls : List (List α)} {L : List α} (h : L ∈ Ls) :
    L.length ≤ Ls.flatten.length := (List.sublist_flatten_of_mem h).length_le

/-- One list only has members. -/
def Lone (Ls : List (List α)) : Prop :=
  ∃ as L bs, Ls = as ++ L :: bs ∧ ∀ L' ∈ as ++ bs, L' = []

theorem flatten_split_of_nil {as bs : List (List α)} {L : List α} (h : ∀ L' ∈ as ++ bs, L' = []) :
    (as ++ L :: bs).flatten = L := by
  have has : as.flatten = [] := List.flatten_eq_nil_iff.2 fun L' hL' => h L' (List.mem_append_left _ hL')
  have hbs : bs.flatten = [] := List.flatten_eq_nil_iff.2 fun L' hL' => h L' (List.mem_append_right _ hL')
  rw [List.flatten_append, List.flatten_cons, has, hbs, List.nil_append, List.append_nil]

theorem Lone.flatten_mem {Ls : List (List α)} (h : Lone Ls) : Ls.flatten ∈ Ls := by
  obtain ⟨as, L, bs, rfl, hothers⟩ := h
  rw [flatten_split_of_nil hothers]
  simp

theorem Lone.pairwise {Ls : List (List α)} (h : Lone Ls) {R : List α → List α → Prop} (hl : ∀ L, R [] L)
    (hr : ∀ L, R L []) : Ls.Pairwise R := by
  obtain ⟨as, L, bs, rfl, hothers⟩ := h
  have has : ∀ L' ∈ as, L' = [] := fun L' hL' => hothers L' (List.mem_append_left _ hL')
  have hbs : ∀ L' ∈ bs, L' = [] := fun L' hL' => hothers L' (List.mem_append_right _ hL')
  refine List.pairwise_append.2 ⟨?_, List.pairwise_cons.2 ⟨fun L' hL' => ?_, ?_⟩, fun L' hL' L'' _ => ?_⟩
  · refine List.pairwise_of_forall_mem_list fun L' hL' L'' _ => ?_
    rw [has L' hL']
    exact hl L''
  · rw [hbs L' hL']
    exact hr L
  · refine List.pairwise_of_forall_mem_list fun L' hL' L'' _ => ?_
    rw [hbs L' hL']
    exact hl L''
  · rw [has L' hL']
    exact hl L''

/-- Some of the lists. -/
theorem Lone.sublist {Ls Ls' : List (List α)} (h : Lone Ls) (hsub : Ls'.Sublist Ls) (hne : Ls' ≠ []) : Lone Ls' := by
  obtain ⟨as, L, bs, rfl, hothers⟩ := h
  obtain ⟨as', rest, rfl, has, hrest⟩ := List.sublist_append_iff.1 hsub
  rcases List.sublist_cons_iff.1 hrest with hbs | ⟨bs', rfl, hbs⟩
  · -- the list with members is not among them
    have hnil : ∀ L' ∈ as' ++ rest, L' = [] := fun L' hL' => hothers L' ((has.append hbs).subset hL')
    cases hsplit : as' ++ rest with
    | nil => exact absurd hsplit hne
    | cons L' Ls' =>
        rw [hsplit] at hnil
        exact ⟨[], L', Ls', rfl, fun L'' hL'' => hnil L'' (List.mem_cons_of_mem _ hL'')⟩
  · exact ⟨as', L, bs', rfl, fun L' hL' => hothers L' ((has.append hbs).subset hL')⟩

/-- Lists made of the same things, where one list is empty whenever the other is. -/
theorem Lone.map_of_map {β : Type v} {bs : List β} {f g : β → List α} (h : Lone (bs.map f))
    (hfg : ∀ b, f b = [] → g b = []) : Lone (bs.map g) := by
  obtain ⟨as, L, cs, hsplit, hothers⟩ := h
  obtain ⟨bs₁, bs₂, rfl, rfl, htail⟩ := List.map_eq_append_iff.1 hsplit
  obtain ⟨b, bs₂, rfl, rfl, rfl⟩ := List.map_eq_cons_iff.1 htail
  refine ⟨bs₁.map g, g b, bs₂.map g, by rw [List.map_append, List.map_cons], fun L' hL' => ?_⟩
  rw [← List.map_append] at hL' hothers
  obtain ⟨c, hc, rfl⟩ := List.mem_map.1 hL'
  exact hfg c (hothers _ (List.mem_map_of_mem hc))

/-- One list holds the first `f + s` members of `G`, and no other reaches beyond `f`. -/
def Leads (f s : Nat) (Ls : List (List α)) (G : List α) : Prop :=
  ∃ as L bs, Ls = as ++ L :: bs ∧ (∀ L' ∈ as ++ bs, L'.length ≤ f) ∧ f + s ≤ L.length ∧
    L.take (f + s) <+: G

/-! ## When the pages make up the page -/

section Merge

variable {arrange : List α → List α} {Ls : List (List α)} {G : List α} {f s : Nat}

/-- **The pages make up the page.** -/
theorem mergedPages_eq (hperm : ∀ l, (arrange l).Perm l)
    (hslice : ∀ L ∈ Ls, arrange (slice f s L) = slice f s L)
    (hle : ∀ L ∈ Ls, L.length ≤ G.length) (hlen : G.length ≤ Ls.flatten.length)
    (hlone : Lone Ls → G = Ls.flatten)
    (h : s = 0 ∨ G.length ≤ f ∨ Lone Ls ∨ (f = 0 ∧ Ls.flatten.length ≤ s ∧ arrange Ls.flatten = G) ∨
      Leads f s Ls G) :
    arrange (slices f s Ls) = slice f s G := by
  have hnil : arrange [] = [] := (hperm []).eq_nil
  rcases h with rfl | hG | hone | ⟨rfl, hs, hall⟩ | ⟨as, L, bs, rfl, hothers, hL, hprefix⟩
  · have hzero : slices f 0 Ls = [] := by
      refine List.flatten_eq_nil_iff.2 fun P hP => ?_
      obtain ⟨L, -, rfl⟩ := List.mem_map.1 hP
      exact List.take_zero
    rw [hzero, hnil, slice, List.take_zero]
  · rw [slices_eq_nil fun L hL => (hle L hL).trans hG, hnil, slice_eq_nil_of_le hG]
  · have hG := hlone hone
    obtain ⟨as, L, bs, rfl, hothers⟩ := hone
    have hshort : ∀ L' ∈ as ++ bs, L'.length ≤ f := by
      intro L' hL'
      simp [hothers L' hL']
    rw [slices_split hshort, hslice L (by simp), hG, flatten_split_of_nil hothers]
  · have hshort : ∀ L ∈ Ls, L.length ≤ s := fun L hL => (length_le_flatten hL).trans hs
    rw [slices_eq_flatten hshort, hall, slice, List.drop_zero, List.take_of_length_le (hlen.trans hs)]
  · have htake : L.take (f + s) = G.take (f + s) := by
      have hprefix' := List.prefix_iff_eq_take.1 hprefix
      rwa [List.length_take, Nat.min_eq_left hL] at hprefix'
    have hdrop : ∀ l : List α, slice f s l = (l.take (f + s)).drop f := by
      intro l
      rw [slice, List.drop_take, Nat.add_sub_cancel_left]
    rw [slices_split hothers, hslice L (by simp), hdrop, hdrop, htake]

/-! ## When they do not -/

theorem length_slices (f s : Nat) (Ls : List (List α)) :
    (slices f s Ls).length = (Ls.map fun L => min s (L.length - f)).sum := by
  rw [slices, List.length_flatten, List.map_map]
  congr 1
  exact List.map_congr_left fun L _ => length_slice f s L

theorem min_length_flatten_le (s : Nat) (Ls : List (List α)) :
    min s Ls.flatten.length ≤ (slices 0 s Ls).length := by
  induction Ls with
  | nil => simp [slices]
  | cons L Ls ih =>
      rw [length_slices] at ih ⊢
      rw [List.flatten_cons, List.length_append, List.map_cons, List.sum_cons]
      omega

/-- A list that is not alone: it and the others have members. -/
theorem exists_split_of_not_lone (h : ¬ Lone Ls) (hne : Ls.flatten ≠ []) :
    ∃ as L bs, Ls = as ++ L :: bs ∧ L ≠ [] ∧ (as ++ bs).flatten ≠ [] := by
  obtain ⟨L, hL, hLne⟩ : ∃ L ∈ Ls, L ≠ [] := by
    by_contra hall
    push Not at hall
    exact hne (List.flatten_eq_nil_iff.2 hall)
  obtain ⟨as, bs, rfl⟩ := List.append_of_mem hL
  refine ⟨as, L, bs, rfl, hLne, fun hnil => h ⟨as, L, bs, rfl, ?_⟩⟩
  exact List.flatten_eq_nil_iff.1 hnil

/-- Two lists with members that do not fit in the first page give more than a page. -/
theorem lt_length_slices (h : ¬ Lone Ls) (hs : 0 < s) (hlen : s < Ls.flatten.length) :
    s < (slices 0 s Ls).length := by
  have hne : Ls.flatten ≠ [] := List.ne_nil_of_length_pos (Nat.zero_lt_of_lt hlen)
  obtain ⟨as, L, bs, rfl, hL, hothers⟩ := exists_split_of_not_lone h hne
  have hrest := min_length_flatten_le s (as ++ bs)
  have hlenL : 0 < L.length := List.length_pos_iff.2 hL
  have hlenOthers : 0 < (as ++ bs).flatten.length := List.length_pos_iff.2 hothers
  have hcons : slices 0 s (L :: bs) = slice 0 s L ++ slices 0 s bs := rfl
  rw [slices_append, List.length_append] at hrest ⊢
  rw [hcons, List.length_append, length_slice]
  simp only [List.flatten_append, List.flatten_cons, List.length_append] at hlen hrest hlenOthers
  omega

/-- **The first page.** -/
theorem of_mergedPages_eq_first (hperm : ∀ l, (arrange l).Perm l) (hlen : G.length ≤ Ls.flatten.length)
    (h : arrange (slices 0 s Ls) = slice 0 s G) :
    s = 0 ∨ G.length ≤ 0 ∨ Lone Ls ∨ ((0 : Nat) = 0 ∧ Ls.flatten.length ≤ s ∧ arrange Ls.flatten = G) := by
  by_cases hs : s = 0
  · exact .inl hs
  by_cases hone : Lone Ls
  · exact .inr (.inr (.inl hone))
  have hfit : Ls.flatten.length ≤ s := by
    by_contra hlong
    have hmore := lt_length_slices hone (Nat.pos_of_ne_zero hs) (Nat.lt_of_not_le hlong)
    have hlength := (hperm (slices 0 s Ls)).length_eq
    rw [h, length_slice] at hlength
    omega
  refine .inr (.inr (.inr ⟨rfl, hfit, ?_⟩))
  rw [slices_eq_flatten fun L hL => (length_le_flatten hL).trans hfit, slice, List.drop_zero,
    List.take_of_length_le (hlen.trans hfit)] at h
  exact h

/-! ### Later pages

The members of the lists are distinct here. A list that reaches beyond `f` has a member
in the page, and what precedes this member in the list precedes it in `G` and is in no
page, so it is among the first `f` members of `G` (`take_subset_take`). There is room for
the members of one such list. -/

/-- Lists that share a member are the same. -/
theorem eq_of_mem_of_mem (hnodup : Ls.flatten.Nodup) {L L' : List α} (hL : L ∈ Ls) (hL' : L' ∈ Ls)
    {x : α} (hx : x ∈ L) (hx' : x ∈ L') : L = L' := by
  by_contra hne
  have hsymm : Std.Symm (@List.Disjoint α) := ⟨fun _ _ h => h.symm⟩
  exact (List.nodup_flatten.1 hnodup).2.forall hL hL' hne hx hx'

/-- What precedes a member in a sublist precedes it in the list. -/
theorem mem_take_of_sublist {l : List α} (hsub : l.Sublist G) (hnodup : G.Nodup) {i j : Nat} (hi : i < l.length)
    (hj : j < G.length) (heq : l[i] = G[j]) : ∀ x ∈ l.take i, x ∈ G.take j := by
  intro x hx
  have hsplit : l.take i ++ (l[i] :: l.drop (i + 1)) = l := by
    rw [← List.drop_eq_getElem_cons hi, List.take_append_drop]
  rw [← hsplit] at hsub
  obtain ⟨G₁, G₂, rfl, hbefore, hafter⟩ := List.append_sublist_iff.1 hsub
  have hmem : (G₁ ++ G₂)[j] ∈ G₂ := by
    rw [← heq]
    exact hafter.subset List.mem_cons_self
  have hle : G₁.length ≤ j := by
    by_contra hlt
    have hfirst : (G₁ ++ G₂)[j] ∈ G₁ := by
      rw [List.getElem_append_left (Nat.lt_of_not_le hlt)]
      exact List.getElem_mem _
    exact List.disjoint_of_nodup_append hnodup hfirst hmem
  rw [List.take_append, List.take_of_length_le hle]
  exact List.mem_append_left _ (hbefore.subset hx)

/-- A list that reaches beyond `f` starts with members that `G` starts with. -/
theorem take_subset_take (hnodup : Ls.flatten.Nodup) (hG : G.Nodup) (hsub : ∀ L ∈ Ls, L.Sublist G)
    (hs : 0 < s) (hpages : (slices f s Ls).Perm (slice f s G)) {L : List α} (hL : L ∈ Ls)
    (hlen : f < L.length) : ∀ x ∈ L.take f, x ∈ G.take f := by
  intro x hx
  have hmem : L[f] ∈ slice f s G := by
    refine hpages.mem_iff.1 (mem_slices.2 ⟨L, hL, ?_⟩)
    rw [slice, List.drop_eq_getElem_cons hlen]
    obtain ⟨s, rfl⟩ := Nat.exists_eq_succ_of_ne_zero (Nat.ne_of_gt hs)
    exact List.mem_cons_self
  have htake : L[f] ∈ G.take (f + s) := by
    rw [← take_append_slice]
    exact List.mem_append_right _ hmem
  obtain ⟨j, hj, hGj⟩ := List.mem_iff_getElem.1 htake
  rw [List.length_take] at hj
  rw [List.getElem_take] at hGj
  have hbefore := mem_take_of_sublist (hsub L hL) hG hlen (by omega) hGj.symm x hx
  -- it is in the first `f + s` and in no page
  have hfirst : x ∈ G.take f ++ slice f s G := by
    rw [take_append_slice]
    exact List.take_subset_take_left G (by omega) hbefore
  rcases List.mem_append.1 hfirst with hfirst | hpage
  · exact hfirst
  · obtain ⟨L', hL', hx'⟩ := mem_slices.1 (hpages.mem_iff.2 hpage)
    obtain rfl := eq_of_mem_of_mem hnodup hL hL' (List.mem_of_mem_take hx)
      ((slice_sublist f s L').subset hx')
    have hLnodup : L.Nodup := (List.nodup_flatten.1 hnodup).1 L hL
    exact absurd (List.mem_of_mem_take hx') (List.disjoint_take_drop hLnodup le_rfl hx)

/-- A sublist with the first members of a list is its start. -/
theorem eq_take_of_sublist {l : List α} {n : Nat} (hsub : l.Sublist G) (hnodup : G.Nodup)
    (hperm : l.Perm (G.take n)) : l = G.take n := by
  rw [← List.take_append_drop n G] at hsub
  obtain ⟨l₁, l₂, rfl, hfirst, hrest⟩ := List.sublist_append_iff.1 hsub
  have hnil : l₂ = [] := by
    refine List.eq_nil_iff_forall_not_mem.2 fun x hx => ?_
    have htake : x ∈ G.take n := hperm.mem_iff.1 (List.mem_append_right _ hx)
    exact List.disjoint_take_drop hnodup le_rfl htake (hrest.subset hx)
  rw [hnil, List.append_nil] at hperm ⊢
  exact hfirst.eq_of_length hperm.length_eq

/-- **Later pages.** -/
theorem of_mergedPages_eq_later (hperm : ∀ l, (arrange l).Perm l)
    (hslice : ∀ L ∈ Ls, arrange (slice f s L) = slice f s L) (hmerge : G.Perm Ls.flatten)
    (hsub : ∀ L ∈ Ls, L.Sublist G) (hnodup : Ls.flatten.Nodup) (hf : f ≠ 0)
    (h : arrange (slices f s Ls) = slice f s G) :
    s = 0 ∨ G.length ≤ f ∨ Lone Ls ∨ Leads f s Ls G := by
  by_cases hs : s = 0
  · exact .inl hs
  by_cases hG : G.length ≤ f
  · exact .inr (.inl hG)
  have hpos : 0 < s := Nat.pos_of_ne_zero hs
  have hGnodup : G.Nodup := hmerge.nodup_iff.2 hnodup
  have hpages : (slices f s Ls).Perm (slice f s G) := by
    rw [← h]
    exact (hperm _).symm
  have hheads : ∀ L ∈ Ls, f < L.length → (L.take f).Perm (G.take f) := by
    intro L hL hlen
    have hLnodup : L.Nodup := (List.nodup_flatten.1 hnodup).1 L hL
    refine (hLnodup.sublist (List.take_sublist f L)).subperm
      (take_subset_take hnodup hGnodup hsub hpos hpages hL hlen) |>.perm_of_length_le ?_
    rw [List.length_take, List.length_take]
    omega
  -- some list reaches beyond `f`
  obtain ⟨L, hL, hlen⟩ : ∃ L ∈ Ls, f < L.length := by
    by_contra hshort
    push Not at hshort
    have hlength := hpages.length_eq
    rw [slices_eq_nil hshort, length_slice, List.length_nil] at hlength
    omega
  obtain ⟨as, bs, rfl⟩ := List.append_of_mem hL
  have hmiddle : (as ++ L :: bs).flatten.Perm (L ++ (as ++ bs).flatten) := List.perm_middle.flatten
  have hothers : ∀ L' ∈ as ++ bs, L'.length ≤ f := by
    -- two such lists would both start with the first members of `G`
    intro L' hL'
    by_contra hlen'
    have hL'mem : L' ∈ as ++ L :: bs := List.perm_middle.mem_iff.2 (List.mem_cons_of_mem _ hL')
    have hsame := (hheads L hL hlen).trans (hheads L' hL'mem (Nat.lt_of_not_le hlen')).symm
    obtain ⟨x, hx⟩ := List.exists_mem_of_length_pos (l := L.take f) (by rw [List.length_take]; omega)
    have hx' : x ∈ L' := List.mem_of_mem_take (hsame.mem_iff.1 hx)
    exact List.disjoint_of_nodup_append (hmiddle.nodup_iff.1 hnodup) (List.mem_of_mem_take hx)
      (List.mem_flatten.2 ⟨L', hL', hx'⟩)
  rw [slices_split hothers, hslice L hL] at h
  have hlength := congrArg List.length h
  rw [length_slice, length_slice] at hlength
  by_cases hlong : f + s ≤ L.length
  · refine .inr (.inr (.inr ⟨as, L, bs, rfl, hothers, hlong, ?_⟩))
    have hstart : L.take f = G.take f :=
      eq_take_of_sublist ((List.take_sublist f L).trans (hsub L hL)) hGnodup (hheads L hL hlen)
    rw [← take_append_slice, hstart, h, take_append_slice]
    exact List.take_prefix _ _
  · -- the page ends with the list, so the list is all there is
    refine .inr (.inr (.inl ⟨as, L, bs, rfl, fun L' hL' => ?_⟩))
    have htotal := (hmerge.trans hmiddle).length_eq
    rw [List.length_append] at htotal
    have hnil : (as ++ bs).flatten = [] := List.eq_nil_of_length_eq_zero (by omega)
    exact List.flatten_eq_nil_iff.1 hnil L' hL'

end Merge

end MSearchDB.Lib
