import Mathlib.Tactic

/-!
# Replacing a pattern

`replaceAll pat sub` replaces the occurrences of a pattern that is not empty from left to
right, as `str::replace` does on characters. A text is consumed by an occurrence or by one
item (`pattern_induction`), and the replacement follows the same two cases.

A text may be replaced in parts when no occurrence lies across the parts
(`replaceAll_append`), and it stays as it is exactly when nothing occurs in it or the
pattern is replaced by itself (`replaceAll_eq_self_iff`).
-/

set_option autoImplicit false

namespace MSearchDB.Lib

universe u

variable {α : Type u} [DecidableEq α]

/-- Replace, after some items that belong to the last occurrence. -/
def replaceFrom (pat sub : List α) : Nat → List α → List α
  | _, [] => []
  | skip + 1, _ :: cs => replaceFrom pat sub skip cs
  | 0, c :: cs =>
      if pat <+: c :: cs then sub ++ replaceFrom pat sub (pat.length - 1) cs
      else c :: replaceFrom pat sub 0 cs

/-- Replace all occurrences. -/
def replaceAll (pat sub : List α) (cs : List α) : List α := replaceFrom pat sub 0 cs

variable {pat sub xs ys : List α}

@[simp] theorem replaceAll_nil (pat sub : List α) : replaceAll pat sub [] = [] := rfl

theorem replaceFrom_append (pat sub : List α) (xs ys : List α) :
    replaceFrom pat sub xs.length (xs ++ ys) = replaceAll pat sub ys := by
  induction xs with
  | nil => rfl
  | cons x xs ih => exact ih

/-- An occurrence. -/
theorem replaceAll_pattern_append (hpat : pat ≠ []) (sub ys : List α) :
    replaceAll pat sub (pat ++ ys) = sub ++ replaceAll pat sub ys := by
  cases pat with
  | nil => exact absurd rfl hpat
  | cons p ps =>
      rw [replaceAll, List.cons_append, replaceFrom, if_pos]
      · exact congrArg (sub ++ ·) (replaceFrom_append (p :: ps) sub ps ys)
      · exact ⟨ys, rfl⟩

/-- An item at which nothing occurs. -/
theorem replaceAll_cons {c : α} {cs : List α} (h : ¬ pat <+: c :: cs) (sub : List α) :
    replaceAll pat sub (c :: cs) = c :: replaceAll pat sub cs := by
  rw [replaceAll, replaceFrom, if_neg h]
  rfl

omit [DecidableEq α] in
/-- **Induction from the left.** A text is empty, or an occurrence is taken off, or an item. -/
theorem pattern_induction (hpat : pat ≠ []) {motive : List α → Prop} (nil : motive [])
    (occurs : ∀ cs, motive cs → motive (pat ++ cs))
    (item : ∀ c cs, ¬ pat <+: c :: cs → motive cs → motive (c :: cs)) : ∀ cs, motive cs := by
  have hlength : ∀ (n : Nat) (cs : List α), cs.length ≤ n → motive cs := by
    intro n
    induction n with
    | zero =>
        intro cs hcs
        rw [List.length_eq_zero_iff.1 (Nat.le_zero.1 hcs)]
        exact nil
    | succ n ih =>
        intro cs hcs
        cases cs with
        | nil => exact nil
        | cons c cs =>
            by_cases hoccurs : pat <+: c :: cs
            · obtain ⟨rest, hrest⟩ := hoccurs
              rw [← hrest]
              apply occurs
              apply ih
              -- the pattern takes at least one item
              have hpos := List.length_pos_of_ne_nil hpat
              have hsum := congrArg List.length hrest
              rw [List.length_append] at hsum
              omega
            · apply item c cs hoccurs
              apply ih
              exact Nat.le_of_succ_le_succ hcs
  exact fun cs => hlength cs.length cs (Nat.le_refl _)

/-- **Replacing in parts.** No end of the pattern starts the second part. -/
theorem replaceAll_append (hpat : pat ≠ []) (sub xs : List α) {ys : List α}
    (h : ∀ s t, pat = s ++ t → s ≠ [] → t ≠ [] → ¬ t <+: ys) :
    replaceAll pat sub (xs ++ ys) = replaceAll pat sub xs ++ replaceAll pat sub ys := by
  induction xs using pattern_induction hpat with
  | nil => rfl
  | occurs cs ih =>
      rw [List.append_assoc, replaceAll_pattern_append hpat, ih, replaceAll_pattern_append hpat, List.append_assoc]
  | item c cs hnot ih =>
      have hnot' : ¬ pat <+: c :: (cs ++ ys) := by
        rintro ⟨z, hz⟩
        have hz' : pat ++ z = (c :: cs) ++ ys := hz
        rcases List.append_eq_append_iff.1 hz' with ⟨w, hw, -⟩ | ⟨t, ht, htys⟩
        · exact hnot ⟨w, hw.symm⟩
        · cases t with
          | nil =>
              rw [List.append_nil] at ht
              exact hnot ⟨[], by rw [ht, List.append_nil]⟩
          | cons t ts => exact h (c :: cs) (t :: ts) ht (List.cons_ne_nil _ _) (List.cons_ne_nil _ _) ⟨z, htys.symm⟩
      rw [List.cons_append, replaceAll_cons hnot', ih, replaceAll_cons hnot, List.cons_append]

/-- A text without the first item of the pattern is skipped. -/
theorem replaceAll_append_of_not_mem {p : α} {ps : List α} (sub : List α) (hxs : p ∉ xs) (ys : List α) :
    replaceAll (p :: ps) sub (xs ++ ys) = xs ++ replaceAll (p :: ps) sub ys := by
  induction xs with
  | nil => rfl
  | cons x xs ih =>
      rw [List.mem_cons, not_or] at hxs
      have hnot : ¬ (p :: ps) <+: x :: (xs ++ ys) := fun hpre => hxs.1 (List.cons_prefix_cons.1 hpre).1
      rw [List.cons_append, replaceAll_cons hnot, ih hxs.2, List.cons_append]

/-- A replacement that is not longer does not make the text longer. -/
theorem length_replaceAll_le (hpat : pat ≠ []) (hle : sub.length ≤ pat.length) (cs : List α) :
    (replaceAll pat sub cs).length ≤ cs.length := by
  induction cs using pattern_induction hpat with
  | nil => exact Nat.le_refl 0
  | occurs cs ih =>
      rw [replaceAll_pattern_append hpat, List.length_append, List.length_append]
      exact Nat.add_le_add hle ih
  | item c cs hnot ih =>
      rw [replaceAll_cons hnot]
      exact Nat.succ_le_succ ih

/-- Nor does one that is not shorter make it shorter. -/
theorem le_length_replaceAll (hpat : pat ≠ []) (hle : pat.length ≤ sub.length) (cs : List α) :
    cs.length ≤ (replaceAll pat sub cs).length := by
  induction cs using pattern_induction hpat with
  | nil => exact Nat.le_refl 0
  | occurs cs ih =>
      rw [replaceAll_pattern_append hpat, List.length_append, List.length_append]
      exact Nat.add_le_add hle ih
  | item c cs hnot ih =>
      rw [replaceAll_cons hnot]
      exact Nat.succ_le_succ ih

/-- **Texts that stay.** -/
theorem replaceAll_eq_self_iff (hpat : pat ≠ []) (sub cs : List α) :
    replaceAll pat sub cs = cs ↔ ¬ pat <:+: cs ∨ sub = pat := by
  constructor
  · intro h
    by_contra hboth
    rw [not_or, not_not] at hboth
    obtain ⟨hoccurs, hne⟩ := hboth
    induction cs using pattern_induction hpat with
    | nil => exact hpat (List.infix_nil.1 hoccurs)
    | occurs cs ih =>
        rw [replaceAll_pattern_append hpat] at h
        -- the rest cannot make up for another length of the replacement
        have hsum := congrArg List.length h
        rw [List.length_append, List.length_append] at hsum
        have hshort : sub.length ≤ pat.length → (replaceAll pat sub cs).length ≤ cs.length :=
          fun hle => length_replaceAll_le hpat hle cs
        have hlong : pat.length ≤ sub.length → cs.length ≤ (replaceAll pat sub cs).length :=
          fun hle => le_length_replaceAll hpat hle cs
        have hlength : sub.length = pat.length := by
          rcases Nat.le_total sub.length pat.length with hle | hle
          · have := hshort hle
            omega
          · have := hlong hle
            omega
        exact hne (List.append_inj h hlength).1
    | item c cs hnot ih =>
        rw [replaceAll_cons hnot, List.cons.injEq] at h
        rw [List.infix_cons_iff] at hoccurs
        exact ih h.2 (hoccurs.resolve_left hnot)
  · rintro (hnone | rfl)
    · induction cs using pattern_induction hpat with
      | nil => rfl
      | occurs cs ih => exact absurd (List.prefix_append pat cs).isInfix hnone
      | item c cs hnot ih =>
          rw [replaceAll_cons hnot, ih fun hmem => hnone (List.infix_cons_iff.2 (.inr hmem))]
    · induction cs using pattern_induction hpat with
      | nil => rfl
      | occurs cs ih => rw [replaceAll_pattern_append hpat, ih]
      | item c cs hnot ih => rw [replaceAll_cons hnot, ih]

end MSearchDB.Lib
