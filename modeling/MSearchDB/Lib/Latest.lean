import Mathlib.Tactic

/-!
# Registers in which the latest offer wins

A register holds a value with a stamp. An offer replaces it when its stamp is newer;
a weak offer also replaces a value of the same stamp. `settle_spec` says what a
sequence of offers leaves: a value of the newest stamp, namely one of the weak offers
with that stamp, and where there are none the first offer with it. Sequences with the
same offers therefore settle alike when these ties agree (`settle_eq_settle`).

A register may also take over what another one shows. It then shows the newest of both
(`Shows.merge`), and without ties the offers alone decide what that is (`Shows.unique`).
-/

set_option autoImplicit false

namespace MSearchDB.Lib

universe u v

/-- A value offered to a register. -/
structure Offer (α : Type u) (τ : Type v) where
  weak : Bool
  value : α
  stamp : τ

namespace Offer

variable {α : Type u} {τ : Type v} [LinearOrder τ] {l l' : List (Offer α τ)} {o : Offer α τ} {t : τ}

/-- The register after an offer. -/
def take (c : Option (α × τ)) (o : Offer α τ) : Option (α × τ) :=
  match c with
  | none => some (o.value, o.stamp)
  | some (v, t) => if t < o.stamp ∨ o.weak ∧ t = o.stamp then some (o.value, o.stamp) else some (v, t)

/-- The register after offers to an empty one. -/
def settle (l : List (Offer α τ)) : Option (α × τ) := l.foldl take none

/-- The newest stamp of some offers. -/
def Newest (l : List (Offer α τ)) (t : τ) : Prop := (∃ o ∈ l, o.stamp = t) ∧ ∀ o ∈ l, o.stamp ≤ t

/-- The first offer with a stamp. -/
def firstAt (t : τ) (l : List (Offer α τ)) : Option (Offer α τ) := l.find? fun o => o.stamp = t

/-- A value that the ties at the newest stamp may leave. -/
def Wins (l : List (Offer α τ)) (v : α) (t : τ) : Prop :=
  (∃ o ∈ l, o.weak = true ∧ o.stamp = t ∧ o.value = v) ∨
    (∀ o ∈ l, o.stamp = t → o.weak = false) ∧ ∃ o, firstAt t l = some o ∧ o.value = v

theorem settle_concat (l : List (Offer α τ)) (o : Offer α τ) : settle (l ++ [o]) = take (settle l) o := by
  rw [settle, List.foldl_append, List.foldl_cons, List.foldl_nil, ← settle]

theorem firstAt_eq_none (h : ∀ o ∈ l, o.stamp ≠ t) : firstAt t l = none := by
  refine List.find?_eq_none.2 fun o ho => ?_
  simpa using h o ho

theorem wins_concat_of_lt (hnewest : ∀ o' ∈ l, o'.stamp < o.stamp) :
    Wins (l ++ [o]) o.value o.stamp := by
  by_cases hweak : o.weak = true
  · exact .inl ⟨o, by simp, hweak, rfl, rfl⟩
  · refine .inr ⟨fun o' ho' hstamp => ?_, o, ?_, rfl⟩
    · rcases List.mem_append.1 ho' with ho' | ho'
      · exact absurd hstamp (hnewest o' ho').ne
      · rw [List.mem_singleton.1 ho']
        simpa using hweak
    · rw [firstAt, List.find?_append, ← firstAt, firstAt_eq_none fun o' ho' => (hnewest o' ho').ne]
      simp

/-- A later offer that does not replace the value changes nothing. -/
theorem Wins.concat {v : α} (h : Wins l v t) (ho : o.stamp ≤ t) (hkeep : o.weak = true → o.stamp ≠ t) :
    Wins (l ++ [o]) v t := by
  rcases h with ⟨w, hw, hweak, hstamp, rfl⟩ | ⟨hstrict, w, hfirst, rfl⟩
  · exact .inl ⟨w, by simp [hw], hweak, hstamp, rfl⟩
  · refine .inr ⟨fun o' ho' hstamp => ?_, w, ?_, rfl⟩
    · rcases List.mem_append.1 ho' with ho' | ho'
      · exact hstrict o' ho' hstamp
      · obtain rfl := List.mem_singleton.1 ho'
        exact Bool.eq_false_iff.2 fun hweak => hkeep hweak hstamp
    · rw [firstAt, List.find?_append, ← firstAt, hfirst]
      rfl

/-- **What offers leave.** -/
theorem settle_spec (hl : l ≠ []) : ∃ v t, settle l = some (v, t) ∧ Newest l t ∧ Wins l v t := by
  induction l using List.reverseRecOn with
  | nil => exact absurd rfl hl
  | append_singleton l o ih =>
      rw [settle_concat]
      by_cases hnil : l = []
      · subst hnil
        refine ⟨o.value, o.stamp, rfl, ⟨⟨o, by simp, rfl⟩, by simp⟩, wins_concat_of_lt (by simp)⟩
      obtain ⟨v, t, hsettle, ⟨hmem, hle⟩, hwins⟩ := ih hnil
      rw [hsettle, take]
      -- against the stamp so far the offer is newer, of the same age or older
      rcases lt_trichotomy t o.stamp with hlt | heq | hgt
      · have hall : ∀ o' ∈ l, o'.stamp < o.stamp := fun o' ho' => (hle o' ho').trans_lt hlt
        refine ⟨o.value, o.stamp, if_pos (.inl hlt), ⟨⟨o, by simp, rfl⟩, ?_⟩, wins_concat_of_lt hall⟩
        intro o' ho'
        rcases List.mem_append.1 ho' with ho' | ho'
        · exact (hall o' ho').le
        · rw [List.mem_singleton.1 ho']
      · have hnewest : Newest (l ++ [o]) t := by
          refine ⟨⟨o, by simp, heq.symm⟩, fun o' ho' => ?_⟩
          rcases List.mem_append.1 ho' with ho' | ho'
          · exact hle o' ho'
          · rw [List.mem_singleton.1 ho', heq]
        by_cases hweak : o.weak = true
        · refine ⟨o.value, t, ?_, hnewest, .inl ⟨o, by simp, hweak, heq.symm, rfl⟩⟩
          rw [if_pos (.inr ⟨hweak, heq⟩), heq]
        · refine ⟨v, t, if_neg ?_, hnewest, hwins.concat heq.ge fun h => absurd h hweak⟩
          rintro (hlt | ⟨h, -⟩)
          · exact absurd heq hlt.ne
          · exact hweak h
      · refine ⟨v, t, if_neg ?_, ⟨?_, fun o' ho' => ?_⟩, hwins.concat hgt.le fun _ => hgt.ne⟩
        · rintro (hlt | ⟨-, heq⟩)
          · exact absurd hlt hgt.not_gt
          · exact absurd heq hgt.ne'
        · obtain ⟨w, hw, hstamp⟩ := hmem
          exact ⟨w, by simp [hw], hstamp⟩
        · rcases List.mem_append.1 ho' with ho' | ho'
          · exact hle o' ho'
          · rw [List.mem_singleton.1 ho']
            exact hgt.le

theorem Newest.unique {t' : τ} (h : Newest l t) (h' : Newest l t') : t = t' := by
  obtain ⟨⟨o, ho, rfl⟩, hle⟩ := h
  obtain ⟨⟨o', ho', rfl⟩, hle'⟩ := h'
  exact le_antisymm (hle' o ho) (hle o' ho')

theorem Newest.congr (hmem : ∀ o, o ∈ l ↔ o ∈ l') (h : Newest l t) : Newest l' t := by
  obtain ⟨⟨o, ho, hstamp⟩, hle⟩ := h
  exact ⟨⟨o, (hmem o).1 ho, hstamp⟩, fun o' ho' => hle o' ((hmem o').2 ho')⟩

/-- **Ties decide.** Sequences of the same offers settle alike when the weak offers of
the newest stamp have one value and, where there are none, the first offers do. -/
theorem settle_eq_settle (hmem : ∀ o, o ∈ l ↔ o ∈ l')
    (hweak : ∀ t, Newest l t → ∀ o ∈ l, ∀ o' ∈ l, o.weak = true → o'.weak = true →
      o.stamp = t → o'.stamp = t → o.value = o'.value)
    (hfirst : ∀ t, Newest l t → (∀ o ∈ l, o.stamp = t → o.weak = false) →
      ∀ o o', firstAt t l = some o → firstAt t l' = some o' → o.value = o'.value) :
    settle l = settle l' := by
  by_cases hl : l = []
  · subst hl
    rw [List.eq_nil_iff_forall_not_mem.2 fun o ho => List.not_mem_nil ((hmem o).2 ho)]
  have hl' : l' ≠ [] := by
    obtain ⟨o, ho⟩ := List.exists_mem_of_ne_nil l hl
    exact List.ne_nil_of_mem ((hmem o).1 ho)
  obtain ⟨v, t, hsettle, hnewest, hwins⟩ := settle_spec hl
  obtain ⟨v', t', hsettle', hnewest', hwins'⟩ := settle_spec hl'
  obtain rfl := (hnewest.congr hmem).unique hnewest'
  rw [hsettle, hsettle']
  suffices hv : v = v' by rw [hv]
  -- whether a weak offer wins depends on the offers alone, so the mixed cases are empty
  rcases hwins with ⟨o, ho, hw, hstamp, rfl⟩ | ⟨hstrict, o, ho, rfl⟩
  · rcases hwins' with ⟨o', ho', hw', hstamp', rfl⟩ | ⟨hstrict', -⟩
    · exact hweak t hnewest o ho o' ((hmem o').2 ho') hw hw' hstamp hstamp'
    · exact absurd hw (by simp [hstrict' o ((hmem o).1 ho) hstamp])
  · rcases hwins' with ⟨o', ho', hw', hstamp', rfl⟩ | ⟨-, o', ho', rfl⟩
    · exact absurd hw' (by simp [hstrict o' ((hmem o').2 ho') hstamp'])
    · exact hfirst t hnewest hstrict o o' ho ho'

/-- A weak offer of the newest stamp has the last word. -/
theorem settle_concat_weak (hweak : o.weak = true) (hle : ∀ o' ∈ l, o'.stamp ≤ o.stamp) :
    settle (l ++ [o]) = some (o.value, o.stamp) := by
  rw [settle_concat]
  by_cases hl : l = []
  · subst hl
    rfl
  obtain ⟨v, t, hsettle, ⟨⟨w, hw, rfl⟩, -⟩, -⟩ := settle_spec hl
  rw [hsettle, take]
  exact if_pos ((hle w hw).lt_or_eq.imp_right fun heq => ⟨hweak, heq⟩)

/-- Without weak offers of the newest stamp the first one stays. -/
theorem settle_of_firstAt (hnewest : Newest l t) (hstrict : ∀ o ∈ l, o.stamp = t → o.weak = false)
    (ho : firstAt t l = some o) : settle l = some (o.value, t) := by
  obtain ⟨w, hw, -⟩ := hnewest.1
  obtain ⟨v, t', hsettle, hnewest', hwins⟩ := settle_spec (List.ne_nil_of_mem hw)
  obtain rfl := hnewest.unique hnewest'
  rcases hwins with ⟨w, hw, hweak, hstamp, -⟩ | ⟨-, w, hfirst, rfl⟩
  · exact absurd hweak (by simp [hstrict w hw hstamp])
  · rw [hsettle]
    rw [ho] at hfirst
    cases hfirst
    rfl

/-! ## Registers that are merged -/

/-- A register that shows a newest one of some offers, and nothing where there are none. -/
def Shows (l : List (Offer α τ)) : Option (α × τ) → Prop
  | none => l = []
  | some (v, t) => (∃ o ∈ l, o.value = v ∧ o.stamp = t) ∧ ∀ o ∈ l, o.stamp ≤ t

/-- What a register shows is offered to another one. -/
theorem Shows.merge {c : Option (α × τ)} (h : Shows l c) {v : α} (h' : Shows l' (some (v, t))) (weak : Bool) :
    Shows (l ++ l') (take c ⟨weak, v, t⟩) := by
  obtain ⟨⟨w, hw, hvalue, hstamp⟩, hle'⟩ := h'
  cases c with
  | none =>
      rw [show l = [] from h, List.nil_append]
      exact ⟨⟨w, hw, hvalue, hstamp⟩, hle'⟩
  | some entry =>
      obtain ⟨u, s⟩ := entry
      obtain ⟨⟨x, hx, hxvalue, hxstamp⟩, hle⟩ := h
      rw [take]
      by_cases hnewer : s < t ∨ weak ∧ s = t
      · -- the offer replaces the value
        rw [if_pos hnewer]
        have hst : s ≤ t := hnewer.elim le_of_lt fun heq => heq.2.le
        refine ⟨⟨w, List.mem_append_right _ hw, hvalue, hstamp⟩, fun o ho => ?_⟩
        rcases List.mem_append.1 ho with ho | ho
        · exact (hle o ho).trans hst
        · exact hle' o ho
      · rw [if_neg hnewer]
        have hts : t ≤ s := not_lt.1 fun hlt => hnewer (.inl hlt)
        refine ⟨⟨x, List.mem_append_left _ hx, hxvalue, hxstamp⟩, fun o ho => ?_⟩
        rcases List.mem_append.1 ho with ho | ho
        · exact hle o ho
        · exact (hle' o ho).trans hts

/-- With more offers the stamp does not go back. -/
theorem Shows.stamp_le {v v' : α} {t' : τ} (h : Shows l (some (v, t))) (h' : Shows l' (some (v', t')))
    (hsub : ∀ o ∈ l, o ∈ l') : t ≤ t' := by
  obtain ⟨⟨o, ho, -, rfl⟩, -⟩ := h
  exact h'.2 o (hsub o ho)

/-- **Without ties** the offers alone decide what a register shows. -/
theorem Shows.unique {c c' : Option (α × τ)} (h : Shows l c) (h' : Shows l' c') (hmem : ∀ o, o ∈ l ↔ o ∈ l')
    (hties : ∀ o ∈ l, ∀ o' ∈ l, o.stamp = o'.stamp → o.value = o'.value) : c = c' := by
  cases c with
  | none =>
      cases c' with
      | none => rfl
      | some entry =>
          obtain ⟨⟨o, ho, -⟩, -⟩ := h'
          have ho' := (hmem o).2 ho
          rw [show l = [] from h] at ho'
          exact absurd ho' List.not_mem_nil
  | some entry =>
      obtain ⟨v, t⟩ := entry
      obtain ⟨⟨o, ho, rfl, rfl⟩, hle⟩ := h
      cases c' with
      | none =>
          have ho' := (hmem o).1 ho
          rw [show l' = [] from h'] at ho'
          exact absurd ho' List.not_mem_nil
      | some entry' =>
          obtain ⟨v', t'⟩ := entry'
          obtain ⟨⟨o', ho', rfl, rfl⟩, hle'⟩ := h'
          have hstamp : o.stamp = o'.stamp := le_antisymm (hle' o ((hmem o).1 ho)) (hle o' ((hmem o').2 ho'))
          rw [hties o ho o' ((hmem o').2 ho') hstamp, hstamp]

end Offer

end MSearchDB.Lib
