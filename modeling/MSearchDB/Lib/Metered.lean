import Mathlib.Tactic
import MSearchDB.Lib.Run

/-!
# Metered grants

A machine takes steps at times and grants something in some of them. It is metered when it has
a credit that grows at most at a rate, that a grant lowers by its cost, and that is at most
`max` whenever a step is taken, what the step grants included. Then the grants of every window
of time cost at most `max` and what has accrued in the window (`Metered.window`), whatever
happened before.
-/

set_option autoImplicit false

namespace MSearchDB.Lib

universe u v w

variable {σ : Type u} {α : Type v} {K : Type w}

section Times

variable (step : σ → α → σ) (time : α → K) (grants : σ → α → Bool)

/-- The times of the grants of a run. -/
def grantTimes : σ → List α → List K
  | _, [] => []
  | s, a :: as => if grants s a then time a :: grantTimes (step s a) as else grantTimes (step s a) as

variable {step time grants}

theorem exists_of_mem_grantTimes {x : K} {as : List α} {s : σ} (h : x ∈ grantTimes step time grants s as) :
    ∃ a ∈ as, time a = x := by
  induction as generalizing s with
  | nil => cases h
  | cons a as ih =>
      rw [grantTimes] at h
      split at h
      · rcases List.mem_cons.1 h with rfl | h
        · exact ⟨a, List.mem_cons_self, rfl⟩
        · obtain ⟨b, hb, hx⟩ := ih h
          exact ⟨b, List.mem_cons_of_mem _ hb, hx⟩
      · obtain ⟨b, hb, hx⟩ := ih h
        exact ⟨b, List.mem_cons_of_mem _ hb, hx⟩

/-- A grant is counted at its time. -/
theorem countP_grantTimes_cons (p : K → Bool) (s : σ) (a : α) (as : List α) :
    (grantTimes step time grants s (a :: as)).countP p =
      (grantTimes step time grants (step s a) as).countP p + if grants s a ∧ p (time a) then 1 else 0 := by
  rw [grantTimes]
  by_cases hgrant : grants s a = true
  · rw [if_pos hgrant, List.countP_cons]
    simp [hgrant]
  · rw [if_neg hgrant]
    simp [hgrant]

/-- Steps after the end of a window grant nothing in it. -/
theorem countP_grantTimes_of_late [LinearOrder K] {t₁ : K} {as : List α} (hlate : ∀ a ∈ as, t₁ < time a) (s : σ) :
    (grantTimes step time grants s as).countP (fun x => x ≤ t₁) = 0 := by
  refine List.countP_eq_zero.2 fun x hx => ?_
  obtain ⟨a, ha, rfl⟩ := exists_of_mem_grantTimes hx
  simpa using hlate a ha

end Times

section Windows

variable [Field K] [LinearOrder K] [IsStrictOrderedRing K] {step : σ → α → σ} {time : α → K} {grants : σ → α → Bool}

/-- A credit that the grants are paid from. -/
structure Metered (step : σ → α → σ) (time : α → K) (grants : σ → α → Bool) (Inv : σ → K → Prop)
    (V : σ → α → Prop) (credit : σ → K → K) (rate cost max : K) : Prop where
  nonneg : ∀ s t, Inv s t → 0 ≤ credit s t
  later : ∀ s t t', Inv s t → t ≤ t' → Inv s t' ∧ credit s t' ≤ credit s t + rate * (t' - t)
  spent : ∀ s a, Inv s (time a) → V s a →
    Inv (step s a) (time a) ∧
      credit (step s a) (time a) + (if grants s a then cost else 0) ≤ min (credit s (time a)) max

variable {Inv : σ → K → Prop} {V : σ → α → Prop} {credit : σ → K → K} {rate cost max : K}

/-- The grants up to a time are paid from the credit there is and what accrues. -/
theorem Metered.upTo (h : Metered step time grants Inv V credit rate cost max) (hrate : 0 ≤ rate) {t₁ : K}
    {as : List α} {s : σ} {t : K} (hinv : Inv s t) (hvalid : Along step V s as)
    (hsorted : (as.map time).Pairwise (· ≤ ·)) (hfrom : ∀ a ∈ as, t ≤ time a) (ht : t ≤ t₁) :
    cost * ((grantTimes step time grants s as).countP fun x => x ≤ t₁) ≤ credit s t + rate * (t₁ - t) := by
  induction as generalizing s t with
  | nil =>
      have hcredit := h.nonneg s t hinv
      have haccrued := mul_nonneg hrate (sub_nonneg.2 ht)
      simp only [grantTimes, List.countP_nil, Nat.cast_zero, mul_zero]
      linarith
  | cons a as ih =>
      rw [List.map_cons, List.pairwise_cons] at hsorted
      by_cases ha : time a ≤ t₁
      · obtain ⟨hinv', hlater⟩ := h.later s t (time a) hinv (hfrom a List.mem_cons_self)
        obtain ⟨hnext, hspent⟩ := h.spent s a hinv' hvalid.1
        have hafter : ∀ b ∈ as, time a ≤ time b := fun b hb => hsorted.1 _ (List.mem_map_of_mem hb)
        have hrest := ih hnext hvalid.2 hsorted.2 hafter ha
        have hpaid := le_trans hspent (min_le_left _ _)
        have hsplit : rate * (t₁ - t) = rate * (t₁ - time a) + rate * (time a - t) := by ring
        rw [countP_grantTimes_cons]
        by_cases hgrant : grants s a = true
        · rw [if_pos hgrant] at hpaid
          rw [if_pos ⟨hgrant, by simpa using ha⟩]
          push_cast
          linarith
        · rw [if_neg hgrant] at hpaid
          rw [if_neg fun hboth => hgrant hboth.1, Nat.add_zero]
          linarith
      · have hlate : ∀ b ∈ a :: as, t₁ < time b := by
          refine List.forall_mem_cons.2 ⟨lt_of_not_ge ha, fun b hb => ?_⟩
          exact lt_of_lt_of_le (lt_of_not_ge ha) (hsorted.1 _ (List.mem_map_of_mem hb))
        have hcredit := h.nonneg s t hinv
        have haccrued := mul_nonneg hrate (sub_nonneg.2 ht)
        rw [countP_grantTimes_of_late hlate, Nat.cast_zero, mul_zero]
        linarith

/-- **Every window.** The grants between two times cost at most `max` and what accrues between
them. -/
theorem Metered.window (h : Metered step time grants Inv V credit rate cost max) (hrate : 0 ≤ rate) (hcost : 0 ≤ cost)
    (hmax : 0 ≤ max) {t₀ t₁ : K} (hle : t₀ ≤ t₁) {as : List α} {s : σ} {t : K} (hinv : Inv s t)
    (hvalid : Along step V s as) (hsorted : (as.map time).Pairwise (· ≤ ·)) (hfrom : ∀ a ∈ as, t ≤ time a) :
    cost * ((grantTimes step time grants s as).countP fun x => t₀ ≤ x ∧ x ≤ t₁) ≤ max + rate * (t₁ - t₀) := by
  have haccrued := mul_nonneg hrate (sub_nonneg.2 hle)
  induction as generalizing s t with
  | nil =>
      simp only [grantTimes, List.countP_nil, Nat.cast_zero, mul_zero]
      linarith
  | cons a as ih =>
      rw [List.map_cons, List.pairwise_cons] at hsorted
      obtain ⟨hinv', -⟩ := h.later s t (time a) hinv (hfrom a List.mem_cons_self)
      obtain ⟨hnext, hspent⟩ := h.spent s a hinv' hvalid.1
      have hafter : ∀ b ∈ as, time a ≤ time b := fun b hb => hsorted.1 _ (List.mem_map_of_mem hb)
      rw [countP_grantTimes_cons]
      by_cases hbefore : time a < t₀
      · -- the window has not begun
        have hout : ¬ (t₀ ≤ time a ∧ time a ≤ t₁) := fun hin => not_le_of_gt hbefore hin.1
        rw [if_neg (by simp [hout]), Nat.add_zero]
        exact ih hnext hvalid.2 hsorted.2 hafter
      · by_cases ha : time a ≤ t₁
        · -- the first step in the window finds at most `max`
          have hrest := h.upTo hrate hnext hvalid.2 hsorted.2 hafter ha
          have hcount : (grantTimes step time grants (step s a) as).countP (fun x => t₀ ≤ x ∧ x ≤ t₁) ≤
              (grantTimes step time grants (step s a) as).countP fun x => x ≤ t₁ :=
            List.countP_mono_left fun x _ hx => by simp at hx ⊢; exact hx.2
          have hcast := mul_le_mul_of_nonneg_left (Nat.cast_le (α := K).2 hcount) hcost
          have hpaid := le_trans hspent (min_le_right _ _)
          have hshift : rate * (t₁ - time a) ≤ rate * (t₁ - t₀) :=
            mul_le_mul_of_nonneg_left (by linarith [le_of_not_gt hbefore]) hrate
          by_cases hgrant : grants s a = true
          · rw [if_pos hgrant] at hpaid
            rw [if_pos ⟨hgrant, by simp [le_of_not_gt hbefore, ha]⟩]
            push_cast
            linarith
          · rw [if_neg hgrant] at hpaid
            rw [if_neg fun hboth => hgrant hboth.1, Nat.add_zero]
            linarith
        · have hout : ¬ (t₀ ≤ time a ∧ time a ≤ t₁) := fun hin => ha hin.2
          rw [if_neg (by simp [hout]), Nat.add_zero]
          exact ih hnext hvalid.2 hsorted.2 hafter

end Windows

end MSearchDB.Lib
