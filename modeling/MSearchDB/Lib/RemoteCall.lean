import Mathlib.Tactic

/-!
# Remote calls

A call sends one message to a server and waits for one answer. Either message may be
lost, and the caller is told the same in both cases. `Transit.carry` is the call as the
caller and the server see it: a server whose request arrives takes its step, also when the
caller never learns of it.

`foldl_eq_foldl_filterMap` reduces a run over such a network to a run without losses over
what the server gets of the calls.
-/

set_option autoImplicit false

namespace MSearchDB.Lib

universe u v w x

variable {ε : Type u} {σ : Type v} {μ : Type w} {ρ : Type x}

/-- What becomes of the two messages of a call. -/
inductive Transit (ε : Type u) where
  | delivered
  | requestLost (e : ε)
  | responseLost (e : ε)

namespace Transit

/-- The request gets to the server. -/
def arrives : Transit ε → Bool
  | requestLost _ => false
  | _ => true

/-- The answer gets back to the caller. -/
def returns : Transit ε → Bool
  | delivered => true
  | _ => false

/-- Carry a message to a server and the answer back. -/
def carry (serve : σ → μ → Except ε ρ × σ) (s : σ) (msg : μ) : Transit ε → Except ε ρ × σ
  | delivered => serve s msg
  | requestLost e => (.error e, s)
  | responseLost e => (.error e, (serve s msg).2)

variable (serve : σ → μ → Except ε ρ × σ) (s : σ) (msg : μ)

/-- The server steps exactly when the request arrives. -/
theorem carry_snd (t : Transit ε) :
    (t.carry serve s msg).2 = if t.arrives then (serve s msg).2 else s := by
  cases t with
  | delivered => rfl
  | requestLost e => rfl
  | responseLost e => rfl

/-- The caller sees an answer exactly when both messages arrive. -/
theorem carry_fst_eq_ok_iff (t : Transit ε) (answer : ρ) :
    (t.carry serve s msg).1 = .ok answer ↔ t.returns = true ∧ (serve s msg).1 = .ok answer := by
  cases t with
  | delivered => exact ⟨fun h => ⟨rfl, h⟩, fun h => h.2⟩
  | requestLost e => exact ⟨nofun, fun h => absurd h.1 Bool.false_ne_true⟩
  | responseLost e => exact ⟨nofun, fun h => absurd h.1 Bool.false_ne_true⟩

/-- An answer comes from a request. -/
theorem arrives_of_returns {t : Transit ε} (h : t.returns = true) : t.arrives = true := by
  cases t with
  | delivered => rfl
  | requestLost e => exact absurd h Bool.false_ne_true
  | responseLost e => exact absurd h Bool.false_ne_true

end Transit

/-- **Losses as omissions.** A machine that skips some calls and takes for the rest the steps of
another machine, on what that machine gets of them, runs as that machine does. -/
theorem foldl_eq_foldl_filterMap {ν : Type x} {step : σ → μ → σ} {step' : σ → ν → σ} {f : μ → Option ν}
    (hskip : ∀ s a, f a = none → step s a = s) (hstep : ∀ s a b, f a = some b → step s a = step' s b)
    (as : List μ) : ∀ s : σ, as.foldl step s = (as.filterMap f).foldl step' s := by
  induction as with
  | nil => exact fun _ => rfl
  | cons a as ih =>
      intro s
      rw [List.foldl_cons, ih]
      cases hf : f a with
      | none => rw [hskip s a hf, List.filterMap_cons_none hf]
      | some b => rw [hstep s a b hf, List.filterMap_cons_some hf, List.foldl_cons]

end MSearchDB.Lib
