import Mathlib.Tactic

/-!
# Runs whose steps meet a condition

A state is changed by a sequence of steps. `Along step C s as` says that every step
of the sequence meets the condition `C` in the state in which it is taken.

`Along.invariant` is the induction over such a run: what a step keeps under the
condition holds after every prefix. `Along.forall_prefix_iff` is for a property that
a step keeps exactly under the condition: it holds after every prefix of a run if and
only if every step of the run meets the condition.

Where steps also return something, `answers` are the results of a run. Two machines that
answer the same in related states, and stay related, answer the same in every run
(`answers_eq_of_simulation`).
-/

set_option autoImplicit false

namespace MSearchDB.Lib

universe u v

variable {σ : Type u} {α : Type v} {step : σ → α → σ} {C : σ → α → Prop}

/-- Every step meets the condition in the state before it. -/
def Along (step : σ → α → σ) (C : σ → α → Prop) : σ → List α → Prop
  | _, [] => True
  | s, a :: as => C s a ∧ Along step C (step s a) as

theorem along_append (xs ys : List α) :
    ∀ s : σ, Along step C s (xs ++ ys) ↔ Along step C s xs ∧ Along step C (xs.foldl step s) ys := by
  induction xs with
  | nil => exact fun s => ⟨fun h => ⟨trivial, h⟩, fun h => h.2⟩
  | cons x xs ih =>
      intro s
      rw [List.cons_append, Along, ih, Along, and_assoc]
      rfl

theorem Along.of_prefix {pre as : List α} {s : σ} (h : Along step C s as) (hpre : pre <+: as) :
    Along step C s pre := by
  obtain ⟨rest, rfl⟩ := hpre
  exact ((along_append pre rest s).1 h).1

/-- **Invariant rule.** -/
theorem Along.invariant {I : σ → Prop} (hstep : ∀ s a, I s → C s a → I (step s a)) :
    ∀ {as : List α} {s : σ}, Along step C s as → I s → I (as.foldl step s) := by
  intro as
  induction as with
  | nil => exact fun _ hs => hs
  | cons a as ih => exact fun h hs => ih h.2 (hstep _ a hs h.1)

/-- **Exact conditions.** Under an invariant of the run, and for steps that are valid
where they are taken, a property that a step keeps exactly when it meets the
condition. -/
theorem Along.forall_prefix_iff {I P : σ → Prop} {V : σ → α → Prop}
    (hinv : ∀ s a, I s → V s a → I (step s a))
    (hstep : ∀ s a, I s → P s → V s a → (P (step s a) ↔ C s a)) {as : List α} :
    ∀ {s : σ}, Along step V s as → I s → P s →
      ((∀ pre, pre <+: as → P (pre.foldl step s)) ↔ Along step C s as) := by
  induction as with
  | nil =>
      intro s _ _ hP
      refine ⟨fun _ => trivial, fun _ pre hpre => ?_⟩
      rwa [List.prefix_nil.1 hpre]
  | cons a as ih =>
      intro s hV hs hP
      constructor
      · intro hall
        have hnext : P (step s a) := hall [a] (by simp)
        refine ⟨(hstep s a hs hP hV.1).1 hnext, (ih hV.2 (hinv s a hs hV.1) hnext).1 fun pre hpre => ?_⟩
        exact hall (a :: pre) (List.cons_prefix_cons.2 ⟨rfl, hpre⟩)
      · intro halong pre hpre
        have hnext := (hstep s a hs hP hV.1).2 halong.1
        cases pre with
        | nil => exact hP
        | cons b pre =>
            obtain ⟨rfl, hrest⟩ := List.cons_prefix_cons.1 hpre
            exact (ih hV.2 (hinv s b hs hV.1) hnext).2 halong.2 pre hrest

/-- A condition that every step of the sequence meets in any state. -/
theorem along_of_forall_mem {as : List α} (h : ∀ a ∈ as, ∀ s, C s a) : ∀ s : σ, Along step C s as := by
  induction as with
  | nil => exact fun _ => trivial
  | cons a as ih =>
      rw [List.forall_mem_cons] at h
      exact fun s => ⟨h.1 s, ih h.2 (step s a)⟩

theorem along_true (as : List α) (s : σ) : Along step (fun _ _ => True) s as :=
  along_of_forall_mem (fun _ _ _ => trivial) s

/-- The rule when every step is valid. -/
theorem forall_prefix_iff_along {I P : σ → Prop} (hinv : ∀ s a, I s → I (step s a))
    (hstep : ∀ s a, I s → P s → (P (step s a) ↔ C s a)) {s : σ} (hs : I s) (hP : P s)
    (as : List α) :
    (∀ pre, pre <+: as → P (pre.foldl step s)) ↔ Along step C s as :=
  (along_true as s).forall_prefix_iff (fun s a hs _ => hinv s a hs) (fun s a hs hP _ => hstep s a hs hP) hs hP

/-! ## Parties in a list -/

section Parties

universe w

variable {π : Type w} {l : List π} {i : Nat} {p : π}

theorem getElem?_set_of_some (h : l[i]? = some p) (q : π) (k : Nat) :
    (l.set i q)[k]? = if i = k then some q else l[k]? := by
  obtain ⟨hi, -⟩ := List.getElem?_eq_some_iff.1 h
  simp [List.getElem?_set, hi]

/-- Every party but one is unchanged. -/
theorem forall_mem_set {Q : π → Prop} (h : ∀ p ∈ l, Q p) {q : π} (hq : Q q) : ∀ p ∈ l.set i q, Q p := by
  intro p hp
  rcases List.mem_or_eq_of_mem_set hp with hp | rfl
  · exact h p hp
  · exact hq

/-- One party is counted anew. -/
theorem countP_set_of_some (h : l[i]? = some p) (f : π → Bool) (q : π) :
    (l.set i q).countP f + (if f p then 1 else 0) = l.countP f + if f q then 1 else 0 := by
  obtain ⟨hi, rfl⟩ := List.getElem?_eq_some_iff.1 h
  have hcounted : (if f l[i] then 1 else 0) ≤ l.countP f := by
    split
    case isTrue hf => exact List.countP_pos_iff.2 ⟨l[i], List.getElem_mem hi, hf⟩
    case isFalse => exact Nat.zero_le _
  rw [List.countP_set hi]
  omega

/-- A party joins. -/
theorem forall_mem_concat {Q : π → Prop} (h : ∀ p ∈ l, Q p) {q : π} (hq : Q q) : ∀ p ∈ l ++ [q], Q p := by
  intro p hp
  rcases List.mem_append.1 hp with hp | hp
  · exact h p hp
  · rw [List.mem_singleton.1 hp]
    exact hq

end Parties

/-! ## Answers -/

section Answers

universe w x

variable {τ : Type w} {β : Type x}

/-- What a machine answers to a sequence of calls. -/
def answers (exec : σ → α → σ × β) : σ → List α → List β
  | _, [] => []
  | s, a :: as => (exec s a).2 :: answers exec (exec s a).1 as

/-- **Exact conditions for answers.** Where under an invariant a step answers well exactly
when it meets the condition, a run answers well throughout if and only if all its steps
meet it. -/
theorem forall_answers_iff_along {exec : σ → α → σ × β} {I : σ → Prop} {G : β → Prop} {C : σ → α → Prop}
    (hinv : ∀ s a, I s → I (exec s a).1) (hstep : ∀ s a, I s → (G (exec s a).2 ↔ C s a)) (as : List α) :
    ∀ {s : σ}, I s → ((∀ b ∈ answers exec s as, G b) ↔ Along (fun s a => (exec s a).1) C s as) := by
  induction as with
  | nil => exact fun _ => ⟨fun _ => trivial, fun _ => by simp [answers]⟩
  | cons a as ih =>
      intro s hs
      rw [answers, List.forall_mem_cons, Along, hstep s a hs, ih (hinv s a hs)]

/-- **Simulation rule.** -/
theorem answers_eq_of_simulation {exec : σ → α → σ × β} {exec' : τ → α → τ × β} {R : σ → τ → Prop}
    {V : α → Prop}
    (hstep : ∀ s t a, R s t → V a → (exec s a).2 = (exec' t a).2 ∧ R (exec s a).1 (exec' t a).1)
    (as : List α) :
    ∀ {s : σ} {t : τ}, R s t → (∀ a ∈ as, V a) → answers exec s as = answers exec' t as := by
  induction as with
  | nil => exact fun _ _ => rfl
  | cons a as ih =>
      intro s t h hV
      obtain ⟨hanswer, hnext⟩ := hstep s t a h (hV a List.mem_cons_self)
      rw [answers, answers, hanswer, ih hnext fun b hb => hV b (List.mem_cons_of_mem _ hb)]

/-- Related states stay related. -/
theorem related_of_simulation {step : σ → α → σ} {step' : τ → α → τ} {R : σ → τ → Prop}
    {V : α → Prop} (hstep : ∀ s t a, R s t → V a → R (step s a) (step' t a)) (as : List α) :
    ∀ {s : σ} {t : τ}, R s t → (∀ a ∈ as, V a) → R (as.foldl step s) (as.foldl step' t) := by
  induction as with
  | nil => exact fun h _ => h
  | cons a as ih =>
      intro s t h hV
      exact ih (hstep s t a h (hV a List.mem_cons_self)) fun b hb => hV b (List.mem_cons_of_mem _ hb)

end Answers

end MSearchDB.Lib
