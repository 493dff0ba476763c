import Mathlib.Tactic
import Std.Data.ExtTreeMap

/-!
# Stable sorting by a comparator

A comparator returns an `Ordering`. `sortBy cmp` is a stable sort by `cmp`, and
`lexCompare` compares by one comparator after the other until two values differ. A
comparator that is transitive on all values sorts (`pairwise_sortBy`); where it is known
to be so only on the members of a list, `sortBy_congr` moves to one that is.

When members that compare equal are equal, the order is strict: sorting then depends on
the members alone (`sortBy_eq_of_perm`), and what compares greater than a member is what
comes after it (`filter_gt_eq`). With ties the order of the list decides, also about the
member that is sorted last (`sortBy_last_iff`).
-/

set_option autoImplicit false

namespace MSearchDB.Lib

open Std

universe u v

variable {α : Type u} {cmp cmp' : α → α → Ordering} {l l' : List α}

/-- A stable sort. -/
def sortBy (cmp : α → α → Ordering) (l : List α) : List α := l.mergeSort fun a b => (cmp a b).isLE

/-- Compare by the first comparator that tells two values apart. -/
def lexCompare : List (α → α → Ordering) → α → α → Ordering
  | [], _, _ => .eq
  | cmp :: cmps, a, b => (cmp a b).then (lexCompare cmps a b)

/-! ## Comparators -/

theorem transCmp_lexCompare (cmps : List (α → α → Ordering)) (h : ∀ cmp ∈ cmps, TransCmp cmp) :
    TransCmp (lexCompare cmps) := by
  induction cmps with
  | nil => exact { eq_swap := rfl, isLE_trans := fun _ _ => rfl }
  | cons cmp cmps ih =>
      have hhead : TransCmp cmp := h cmp List.mem_cons_self
      have htail : TransCmp (lexCompare cmps) := ih fun c hc => h c (List.mem_cons_of_mem _ hc)
      exact inferInstanceAs (TransCmp (compareLex cmp (lexCompare cmps)))

theorem lexCompare_congr {β : Type v} {cmps cmps' : β → α → α → Ordering} {bs : List β} {a a' : α}
    (h : ∀ b ∈ bs, cmps b a a' = cmps' b a a') :
    lexCompare (bs.map cmps) a a' = lexCompare (bs.map cmps') a a' := by
  induction bs with
  | nil => rfl
  | cons b bs ih =>
      rw [List.map_cons, List.map_cons, lexCompare, lexCompare, h b List.mem_cons_self,
        ih fun c hc => h c (List.mem_cons_of_mem _ hc)]

/-- Values compare equal when they do so for each comparator. -/
theorem lexCompare_eq_eq {cmps : List (α → α → Ordering)} {a b : α} :
    lexCompare cmps a b = .eq ↔ ∀ cmp ∈ cmps, cmp a b = .eq := by
  induction cmps with
  | nil => simp [lexCompare]
  | cons cmp cmps ih => rw [lexCompare, Ordering.then_eq_eq, ih, List.forall_mem_cons]

/-- Comparing what a function makes of the values. -/
theorem transCmp_on {β : Type v} {cmp : β → β → Ordering} [TransCmp cmp] (f : α → β) :
    TransCmp fun a b => cmp (f a) (f b) where
  eq_swap {a b} := @OrientedCmp.eq_swap _ cmp _ (f a) (f b)
  isLE_trans {a b c} := @TransCmp.isLE_trans _ cmp _ (f a) (f b) (f c)

/-! ## Sorting -/

theorem perm_sortBy (cmp : α → α → Ordering) (l : List α) : (sortBy cmp l).Perm l :=
  List.mergeSort_perm l _

@[simp] theorem mem_sortBy {a : α} : a ∈ sortBy cmp l ↔ a ∈ l := (perm_sortBy cmp l).mem_iff

@[simp] theorem length_sortBy : (sortBy cmp l).length = l.length := (perm_sortBy cmp l).length_eq

theorem isLE_total [OrientedCmp cmp] (a b : α) : ((cmp a b).isLE || (cmp b a).isLE) = true := by
  rw [@OrientedCmp.eq_swap _ cmp _ b a]
  cases cmp a b with
  | lt => rfl
  | eq => rfl
  | gt => rfl

theorem pairwise_sortBy [TransCmp cmp] (l : List α) :
    (sortBy cmp l).Pairwise fun a b => (cmp a b).isLE = true := by
  refine List.pairwise_mergeSort (fun a b c => ?_) (fun a b => isLE_total a b) l
  exact @TransCmp.isLE_trans _ cmp _ a b c

theorem sortBy_of_pairwise (h : l.Pairwise fun a b => (cmp a b).isLE = true) : sortBy cmp l = l :=
  List.mergeSort_of_pairwise h

/-- Only the comparisons of members matter. -/
theorem sortBy_congr (h : ∀ a ∈ l, ∀ b ∈ l, cmp a b = cmp' a b) : sortBy cmp l = sortBy cmp' l := by
  have hmap := List.map_mergeSort (f := id) (r := fun a b => (cmp a b).isLE)
    (s := fun a b => (cmp' a b).isLE) (l := l) fun a ha b hb => congrArg Ordering.isLE (h a ha b hb)
  rwa [List.map_id, List.map_id] at hmap

theorem map_sortBy {f : α → α} (h : ∀ a b, cmp (f a) (f b) = cmp a b) (l : List α) :
    (sortBy cmp l).map f = sortBy cmp (l.map f) :=
  List.map_mergeSort fun a _ b _ => congrArg Ordering.isLE (h a b).symm

/-- Sorting keeps the order of the members that are in order. -/
theorem sublist_sortBy [TransCmp cmp] (h : l.Pairwise fun a b => (cmp a b).isLE = true)
    (hsub : l.Sublist l') : l.Sublist (sortBy cmp l') := by
  refine List.sublist_mergeSort (fun a b c => ?_) (fun a b => isLE_total a b) h hsub
  exact @TransCmp.isLE_trans _ cmp _ a b c

/-! ## Stability -/

section Stable

variable [TransCmp cmp]

/-- The values that compare equal to one, in their order. -/
def tiesOf (cmp : α → α → Ordering) (a : α) (l : List α) : List α := l.filter fun b => cmp a b = .eq

omit [TransCmp cmp] in
theorem tiesOf_flatten (a : α) (ls : List (List α)) :
    tiesOf cmp a ls.flatten = (ls.map (tiesOf cmp a)).flatten := List.filter_flatten

theorem pairwise_tiesOf (a : α) (l : List α) :
    (tiesOf cmp a l).Pairwise fun b c => (cmp b c).isLE = true := by
  refine List.pairwise_of_forall_mem_list fun b hb c hc => ?_
  have hab : cmp a b = .eq := by simpa using (List.mem_filter.1 hb).2
  have hac : cmp a c = .eq := by simpa using (List.mem_filter.1 hc).2
  have hbc : cmp b c = .eq := TransCmp.eq_trans (OrientedCmp.eq_symm hab) hac
  rw [hbc]
  rfl

/-- **Sorting is stable.** Values that compare equal stay in their order. -/
theorem tiesOf_sortBy (a : α) (l : List α) : tiesOf cmp a (sortBy cmp l) = tiesOf cmp a l := by
  have hsub : (tiesOf cmp a l).Sublist (sortBy cmp l) :=
    sublist_sortBy (pairwise_tiesOf a l) List.filter_sublist
  have hself : tiesOf cmp a (tiesOf cmp a l) = tiesOf cmp a l := by
    rw [tiesOf, tiesOf, List.filter_filter]
    simp
  have hties : (tiesOf cmp a l).Sublist (tiesOf cmp a (sortBy cmp l)) := by
    have hfilter := hsub.filter fun b => cmp a b = .eq
    rwa [← tiesOf, hself] at hfilter
  exact (hties.eq_of_length ((perm_sortBy cmp l).filter _).length_eq.symm).symm

theorem mem_tiesOf_self {a : α} (h : a ∈ l) : a ∈ tiesOf cmp a l := by
  have hself : cmp a a = .eq := ReflCmp.compare_self
  exact List.mem_filter.2 ⟨h, decide_eq_true hself⟩

theorem mem_of_tiesOf_eq (hties : ∀ a, tiesOf cmp a l = tiesOf cmp a l') {x : α} (hx : x ∈ l) : x ∈ l' := by
  have htie : x ∈ tiesOf cmp x l := mem_tiesOf_self hx
  rw [hties x] at htie
  exact (List.mem_filter.1 htie).1

theorem isLE_of_mem_cons {x y : α} (h : (x :: l).Pairwise fun a b => (cmp a b).isLE = true)
    (hy : y ∈ x :: l) : (cmp x y).isLE = true := by
  rcases List.mem_cons.1 hy with rfl | hy
  · have hself : cmp y y = .eq := ReflCmp.compare_self
    rw [hself]
    rfl
  · exact (List.pairwise_cons.1 h).1 y hy

/-- **A sorted list is known from its ties.** -/
theorem eq_of_tiesOf_eq (h : l.Pairwise fun a b => (cmp a b).isLE = true)
    (h' : l'.Pairwise fun a b => (cmp a b).isLE = true) (hties : ∀ a, tiesOf cmp a l = tiesOf cmp a l') :
    l = l' := by
  induction l generalizing l' with
  | nil =>
      refine (List.eq_nil_iff_forall_not_mem.2 fun y hy => ?_).symm
      exact List.not_mem_nil (mem_of_tiesOf_eq (fun a => (hties a).symm) hy)
  | cons x l ih =>
      cases l' with
      | nil => exact absurd (mem_of_tiesOf_eq hties List.mem_cons_self) List.not_mem_nil
      | cons y l' =>
          -- each head is in the other list, so neither comes before the other
          have hxy := isLE_of_mem_cons h (mem_of_tiesOf_eq (fun a => (hties a).symm) List.mem_cons_self)
          have hyx := isLE_of_mem_cons h' (mem_of_tiesOf_eq hties List.mem_cons_self)
          rw [@OrientedCmp.eq_swap _ cmp _ y x] at hyx
          have heq : cmp x y = .eq := Ordering.eq_eq_of_isLE_of_isLE_swap hxy hyx
          have hself : cmp x x = .eq := ReflCmp.compare_self
          have hheads : x = y := by
            have hx := hties x
            simp only [tiesOf, List.filter_cons, hself, heq, decide_true, if_true] at hx
            exact (List.cons.inj hx).1
          subst hheads
          have htails : ∀ a, tiesOf cmp a l = tiesOf cmp a l' := by
            intro a
            have ha := hties a
            simp only [tiesOf, List.filter_cons] at ha ⊢
            split at ha
            · exact (List.cons.inj ha).2
            · exact ha
          rw [ih (List.pairwise_cons.1 h).2 (List.pairwise_cons.1 h').2 htails]

/-- A sorted list with the ties of another is that list sorted. -/
theorem eq_sortBy_of_tiesOf_eq (h : l.Pairwise fun a b => (cmp a b).isLE = true)
    (hties : ∀ a, tiesOf cmp a l = tiesOf cmp a l') : l = sortBy cmp l' :=
  eq_of_tiesOf_eq h (pairwise_sortBy l') fun a => (hties a).trans (tiesOf_sortBy a l').symm

theorem filter_sortBy (p : α → Bool) (l : List α) : (sortBy cmp l).filter p = sortBy cmp (l.filter p) := by
  refine eq_sortBy_of_tiesOf_eq ((pairwise_sortBy l).filter p) fun a => ?_
  have hcomm : ∀ l : List α, tiesOf cmp a (l.filter p) = (tiesOf cmp a l).filter p := by
    intro l
    rw [tiesOf, tiesOf, List.filter_filter, List.filter_filter]
    simp only [Bool.and_comm]
  rw [hcomm, hcomm, tiesOf_sortBy]

/-- **Sorted lists can be sorted together.** -/
theorem sortBy_flatten_sortBy (ls : List (List α)) :
    sortBy cmp (ls.map (sortBy cmp)).flatten = sortBy cmp ls.flatten := by
  refine eq_sortBy_of_tiesOf_eq (pairwise_sortBy _) fun a => ?_
  rw [tiesOf_sortBy, tiesOf_flatten, tiesOf_flatten, List.map_map]
  congr 1
  exact List.map_congr_left fun l _ => tiesOf_sortBy a l

end Stable

/-! ## Strict orders -/

section Strict

variable [TransCmp cmp]

theorem pairwise_lt_sortBy (hnodup : l.Nodup) (heq : ∀ a ∈ l, ∀ b ∈ l, cmp a b = .eq → a = b) :
    (sortBy cmp l).Pairwise fun a b => cmp a b = .lt := by
  have hne : (sortBy cmp l).Pairwise fun a b => a ≠ b := (perm_sortBy cmp l).nodup_iff.2 hnodup
  refine List.Pairwise.imp_of_mem (fun {a b} ha hb h => ?_) ((pairwise_sortBy l).and hne)
  rcases Ordering.isLE_iff_eq_lt_or_eq_eq.1 h.1 with hlt | heq'
  · exact hlt
  · exact absurd (heq a (mem_sortBy.1 ha) b (mem_sortBy.1 hb) heq') h.2

/-- **Sorting depends on the members.** -/
theorem sortBy_eq_of_perm (hperm : l'.Perm l) (heq : ∀ a ∈ l, ∀ b ∈ l, cmp a b = .eq → a = b) :
    sortBy cmp l' = sortBy cmp l := by
  refine List.Perm.eq_of_pairwise ?_ (pairwise_sortBy l') (pairwise_sortBy l)
    ((perm_sortBy cmp l').trans (hperm.trans (perm_sortBy cmp l).symm))
  intro a b ha hb hab hba
  refine heq a (hperm.mem_iff.1 (mem_sortBy.1 ha)) b (mem_sortBy.1 hb) ?_
  rw [@OrientedCmp.eq_swap _ cmp _ b a] at hba
  exact Ordering.eq_eq_of_isLE_of_isLE_swap hab hba

/-- **What comes after a member.** -/
theorem filter_gt_eq {before after : List α} {x : α}
    (h : (before ++ x :: after).Pairwise fun a b => cmp a b = .lt) :
    (before ++ x :: after).filter (fun a => cmp a x = .gt) = after := by
  obtain ⟨-, hafter, hlt⟩ := List.pairwise_append.1 h
  have hbefore : before.filter (fun a => cmp a x = .gt) = [] := by
    refine List.filter_eq_nil_iff.2 fun a ha => ?_
    simp [hlt a ha x List.mem_cons_self]
  have hself : cmp x x = .eq := ReflCmp.compare_self
  rw [List.filter_append, hbefore, List.nil_append, List.filter_cons_of_neg (by simp [hself])]
  refine List.filter_eq_self.2 fun a ha => ?_
  simpa using OrientedCmp.gt_of_lt ((List.pairwise_cons.1 hafter).1 a ha)

end Strict

/-! ## The last member -/

theorem pair_sublist_or {x e : α} (hx : x ∈ l) (he : e ∈ l) (hne : x ≠ e) :
    [x, e].Sublist l ∨ [e, x].Sublist l := by
  obtain ⟨before, after, rfl⟩ := List.append_of_mem he
  rcases List.mem_append.1 hx with hbefore | hafter
  · exact Or.inl ((List.singleton_sublist.2 hbefore).append (List.singleton_sublist.2 List.mem_cons_self))
  · have hx' : x ∈ after := (List.mem_cons.1 hafter).resolve_left hne
    exact Or.inr (((List.singleton_sublist.2 hx').cons_cons e).trans (List.sublist_append_right before _))

/-- A list without repetitions holds two members in one order only. -/
theorem pair_sublist_asymm (hnodup : l.Nodup) {x e : α} (h : [x, e].Sublist l) : ¬ [e, x].Sublist l := by
  classical
  intro h'
  have hidx : l.Pairwise fun a b => l.idxOf a < l.idxOf b := by
    refine List.pairwise_iff_getElem.2 fun i j hi hj hij => ?_
    rwa [hnodup.idxOf_getElem i hi, hnodup.idxOf_getElem j hj]
  have hlt := (List.pairwise_cons.1 (hidx.sublist h)).1 e List.mem_cons_self
  have hgt := (List.pairwise_cons.1 (hidx.sublist h')).1 x List.mem_cons_self
  exact lt_asymm hlt hgt

/-- **What a stable sort puts last**: a member that no other compares greater than, and that comes
after the others it ties with. -/
theorem sortBy_last_iff [TransCmp cmp] (hnodup : l.Nodup) {e : α} :
    (∃ front, sortBy cmp l = front ++ [e]) ↔
      e ∈ l ∧ ∀ x ∈ l, x ≠ e → cmp x e = .lt ∨ cmp x e = .eq ∧ [x, e].Sublist l := by
  have hsorted : (sortBy cmp l).Nodup := (perm_sortBy cmp l).nodup_iff.2 hnodup
  constructor
  · rintro ⟨front, hfront⟩
    have he : e ∈ l := mem_sortBy.1 (by rw [hfront]; simp)
    refine ⟨he, fun x hx hne => ?_⟩
    have hpair : (sortBy cmp l).Pairwise fun a b => (cmp a b).isLE = true := pairwise_sortBy l
    rw [hfront] at hpair
    have hx' : x ∈ front := by
      have hmem : x ∈ sortBy cmp l := mem_sortBy.2 hx
      rw [hfront, List.mem_append, List.mem_singleton] at hmem
      exact hmem.resolve_right hne
    have hle : (cmp x e).isLE = true := (List.pairwise_append.1 hpair).2.2 x hx' e (by simp)
    refine (Ordering.isLE_iff_eq_lt_or_eq_eq.1 hle).imp_right fun heq => ⟨heq, ?_⟩
    -- a tie that came later would be last
    refine (pair_sublist_or hx he hne).resolve_right fun hsub => ?_
    have hback : [e, x].Pairwise fun a b => (cmp a b).isLE = true := by
      simp [OrientedCmp.eq_comm.1 heq]
    have hbefore : [x, e].Sublist (sortBy cmp l) := by
      rw [hfront]
      exact (List.singleton_sublist.2 hx').append (List.Sublist.refl [e])
    exact pair_sublist_asymm hsorted hbefore (sublist_sortBy hback hsub)
  · rintro ⟨he, hlast⟩
    obtain ⟨front, after, hsplit⟩ := List.append_of_mem (mem_sortBy.2 he : e ∈ sortBy cmp l)
    cases after with
    | nil => exact ⟨front, hsplit⟩
    | cons y after =>
        have hpair : (sortBy cmp l).Pairwise fun a b => (cmp a b).isLE = true := pairwise_sortBy l
        have hnodup' := hsorted
        rw [hsplit] at hpair hnodup'
        have hy : y ∈ l := mem_sortBy.1 (by rw [hsplit]; simp)
        have hne : y ≠ e := by
          obtain ⟨-, htail, -⟩ := List.nodup_append.1 hnodup'
          exact fun heq => (List.nodup_cons.1 htail).1 (by simp [heq])
        have hle : (cmp e y).isLE = true :=
          (List.pairwise_cons.1 (List.pairwise_append.1 hpair).2.1).1 y List.mem_cons_self
        rcases hlast y hy hne with hlt | ⟨heq, hsub⟩
        · rw [OrientedCmp.gt_of_lt hlt] at hle
          cases hle
        · -- the order of a tie is kept, so `y` is before `e` as well
          have hback : [y, e].Pairwise fun a b => (cmp a b).isLE = true := by simp [heq]
          have hbefore := sublist_sortBy hback hsub
          have hforward : [e, y].Sublist (sortBy cmp l) := by
            rw [hsplit]
            exact ((List.nil_sublist after).cons_cons y |>.cons_cons e).trans (List.sublist_append_right front _)
          exact absurd hbefore (pair_sublist_asymm hsorted hforward)

end MSearchDB.Lib
