import Mathlib.Data.List.MinMax
import Mathlib.Data.List.FinRange

/-!
# Loops that keep the greatest

A loop whose measure becomes the greater of what it was and of what the next element has
ends at the greatest of them (`foldl_max`). A loop over indices that moves to the next one
only where it is strictly greater ends at the first of the greatest (`isFirstMax_foldl`).
-/

set_option autoImplicit false

namespace MSearchDB.Lib

universe u v w

variable {σ : Type u} {ε : Type v} {β : Type w} [LinearOrder β]

/-- After the loop the measure is no smaller than before it and than at every element, and
it is one of these. -/
theorem foldl_max (val : σ → β) {step : σ → ε → σ} {g : ε → β}
    (hstep : ∀ s e, val (step s e) = max (val s) (g e)) (l : List ε) :
    ∀ s, val s ≤ val (l.foldl step s) ∧ (∀ e ∈ l, g e ≤ val (l.foldl step s)) ∧
      (val (l.foldl step s) = val s ∨ ∃ e ∈ l, val (l.foldl step s) = g e) := by
  induction l with
  | nil => exact fun s => ⟨le_rfl, by simp, .inl rfl⟩
  | cons e l ih =>
      intro s
      obtain ⟨hle, hall, hsome⟩ := ih (step s e)
      rw [hstep] at hle hsome
      rw [List.foldl_cons]
      refine ⟨le_trans (le_max_left _ _) hle, ?_, ?_⟩
      · intro e' he'
        rcases List.mem_cons.1 he' with rfl | he'
        · exact le_trans (le_max_right _ _) hle
        · exact hall e' he'
      · rcases hsome with hsome | ⟨e', he', hsome⟩
        · rcases max_choice (val s) (g e) with h | h
          · exact .inl (hsome.trans h)
          · exact .inr ⟨e, List.mem_cons_self, hsome.trans h⟩
        · exact .inr ⟨e', List.mem_cons_of_mem _ he', hsome⟩

variable {n : ℕ} {rank : Fin n → β}

/-- The first index of the greatest rank. -/
structure IsFirstMax (rank : Fin n → β) (w : Fin n) : Prop where
  le : ∀ j, rank j ≤ rank w
  lt : ∀ j < w, rank j < rank w

theorem IsFirstMax.unique {v w : Fin n} (hv : IsFirstMax rank v) (hw : IsFirstMax rank w) : v = w := by
  rcases lt_trichotomy v w with h | h | h
  · exact absurd (hw.lt v h) (not_lt.2 (hv.le w))
  · exact h
  · exact absurd (hv.lt w h) (not_lt.2 (hw.le v))

theorem IsFirstMax.cast {m : ℕ} (h : n = m) {w : Fin n} (hw : IsFirstMax rank w) :
    IsFirstMax (fun j => rank (j.cast h.symm)) (w.cast h) := by
  subst h
  exact hw

theorem foldl_mem_argmax {α : Type u} {rank : α → β} {step : α → α → α}
    (hstep : ∀ a b, step a b = if rank a < rank b then b else a) (l : List α) :
    ∀ a, l.foldl step a ∈ List.argmax rank (a :: l) := by
  rw [funext fun a => funext (hstep a)]
  induction l with
  | nil => exact fun a => rfl
  | cons b l ih =>
      intro a
      have hb := ih (if rank a < rank b then b else a)
      rw [List.foldl_cons]
      rw [List.argmax, List.foldl_cons] at hb ⊢
      rw [List.foldl_cons]
      by_cases h : rank a < rank b
      · simpa [List.argAux, h] using hb
      · simpa [List.argAux, h] using hb

/-- A loop over the indices after the first that moves to a strictly greater rank only. -/
theorem isFirstMax_foldl {step : Fin n → Fin n → Fin n}
    (hstep : ∀ i j, step i j = if rank i < rank j then j else i) (h : 0 < n) :
    IsFirstMax rank ((List.finRange n).tail.foldl step ⟨0, h⟩) := by
  have hrange : List.finRange n = ⟨0, h⟩ :: (List.finRange n).tail := by
    cases n with
    | zero => exact absurd h (lt_irrefl 0)
    | succ n => rw [List.finRange_succ]; rfl
  have hmem := foldl_mem_argmax hstep (List.finRange n).tail ⟨0, h⟩
  rw [← hrange, List.mem_argmax_iff] at hmem
  obtain ⟨-, hle, hfirst⟩ := hmem
  refine ⟨fun j => hle j (List.mem_finRange j), fun j hj => ?_⟩
  by_contra hnot
  have hidx := hfirst j (List.mem_finRange j) (not_lt.1 hnot)
  rw [List.idxOf_finRange, List.idxOf_finRange] at hidx
  exact absurd hj (not_lt.2 hidx)

end MSearchDB.Lib
