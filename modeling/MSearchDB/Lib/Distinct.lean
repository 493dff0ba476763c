import Mathlib.Data.List.Basic
import Mathlib.Data.List.Dedup
import Mathlib.Data.List.Flatten
import Mathlib.Data.List.Nodup
import Mathlib.Data.List.Infix

/-!
# First occurrences along a walk

A walk meets values, some of them many times. `firsts` lists each value once, at
the place it is met first; `collectDistinct` is the loop that collects the first
`max` of them and breaks when it has enough. The loop is `firsts` cut at `max`
(`collectDistinct_eq`), and leaving some values out of the walk leaves them out
of the list and nothing else (`firsts_filter`).

`flatMap_firsts` and its converse compare what the values give with what each gives once.
`dedup_concat` is about last occurrences: a value met again moves to the end.
`prefix_filter_take` and `take_eq_of_notMem` compare the first values of a walk
with those of the same walk less one value. `separates` is a check for many large
numbers that they are all different.
-/

set_option autoImplicit false

namespace MSearchDB.Lib

universe u v

variable {α : Type u} [DecidableEq α]

/-- The values of a list, each at its first occurrence. -/
def firsts : List α → List α
  | [] => []
  | a :: l => a :: (firsts l).filter (· ≠ a)

/-- The loop that pushes every value it has not pushed yet and breaks when it has
`max` of them. -/
def collectDistinct (max : Nat) : List α → List α → List α
  | acc, [] => acc
  | acc, a :: l =>
      if max ≤ acc.length then acc
      else if a ∈ acc then collectDistinct max acc l
      else collectDistinct max (acc ++ [a]) l

@[simp] theorem mem_firsts {a : α} {l : List α} : a ∈ firsts l ↔ a ∈ l := by
  induction l with
  | nil => simp [firsts]
  | cons b l ih =>
      by_cases hab : a = b
      · simp [firsts, hab]
      · simp [firsts, ih, hab]

theorem nodup_firsts (l : List α) : (firsts l).Nodup := by
  induction l with
  | nil => exact List.nodup_nil
  | cons a l ih =>
      rw [firsts, List.nodup_cons]
      exact ⟨by simp, ih.filter _⟩

/-- The values that are left out of the walk are left out of the list. -/
theorem firsts_filter (p : α → Bool) (l : List α) : firsts (l.filter p) = (firsts l).filter p := by
  induction l with
  | nil => rfl
  | cons a l ih =>
      cases hp : p a with
      | true =>
          rw [List.filter_cons_of_pos hp, firsts, firsts, List.filter_cons_of_pos hp, ih,
            List.filter_comm]
      | false =>
          have ha : ¬ p a = true := by simp [hp]
          rw [List.filter_cons_of_neg ha, ih, firsts, List.filter_cons_of_neg ha,
            List.filter_filter]
          -- the value `a` fails `p`, so leaving it out again changes nothing
          refine (List.filter_congr fun b _ => ?_).symm
          by_cases hb : b = a
          · simp [hb, hp]
          · simp [hb]

theorem firsts_sublist (l : List α) : (firsts l).Sublist l := by
  induction l with
  | nil => exact List.Sublist.refl []
  | cons a l ih => exact (List.filter_sublist.trans ih).cons_cons a

section Flat

variable {β : Type v} {g : α → List β}

theorem filter_ne_of_notMem {l : List α} {a : α} (ha : a ∉ l) : l.filter (· ≠ a) = l := by
  refine List.filter_eq_self.2 fun b hb => ?_
  have hne : b ≠ a := fun hba => ha (hba ▸ hb)
  simp [hne]

/-- What a value gives that is left out. -/
theorem length_flatMap_filter_ne {l : List α} (hl : l.Nodup) {a : α} (ha : a ∈ l) :
    (l.flatMap g).length = (g a).length + ((l.filter (· ≠ a)).flatMap g).length := by
  induction l with
  | nil => cases ha
  | cons b l ih =>
      rw [List.nodup_cons] at hl
      by_cases hb : b = a
      · subst hb
        rw [List.filter_cons_of_neg (by simp), filter_ne_of_notMem hl.1, List.flatMap_cons, List.length_append]
      · have hmem : a ∈ l := (List.mem_cons.1 ha).resolve_left (Ne.symm hb)
        rw [List.filter_cons_of_pos (by simp [hb]), List.flatMap_cons, List.flatMap_cons, List.length_append,
          List.length_append, ih hl.2 hmem]
        omega

/-- The values that are met again give nothing: it does not matter how often they are met. -/
theorem flatMap_firsts {l : List α} (h : ∀ a, 1 < l.count a → g a = []) : (firsts l).flatMap g = l.flatMap g := by
  induction l with
  | nil => rfl
  | cons a l ih =>
      have hl : (firsts l).flatMap g = l.flatMap g := by
        refine ih fun b hb => h b (hb.trans_le ?_)
        exact List.count_le_count_cons
      rw [firsts, List.flatMap_cons, List.flatMap_cons, ← hl]
      by_cases ha : a ∈ l
      · have hnil : g a = [] := h a (by rw [List.count_cons_self]; exact Nat.succ_lt_succ (List.count_pos_iff.2 ha))
        have hfilter : ∀ l' : List α, (l'.filter (· ≠ a)).flatMap g = l'.flatMap g := by
          intro l'
          induction l' with
          | nil => rfl
          | cons b l' ih' =>
              by_cases hb : b = a
              · rw [List.filter_cons_of_neg (by simp [hb]), ih', List.flatMap_cons, hb, hnil, List.nil_append]
              · rw [List.filter_cons_of_pos (by simp [hb]), List.flatMap_cons, List.flatMap_cons, ih']
        rw [hfilter]
      · rw [filter_ne_of_notMem (mt mem_firsts.1 ha)]

/-- Where nothing is lost, the values that are met again give nothing. -/
theorem eq_nil_of_length_flatMap_firsts {l : List α}
    (h : (l.flatMap g).length ≤ ((firsts l).flatMap g).length) : ∀ a, 1 < l.count a → g a = [] := by
  induction l with
  | nil =>
      intro a ha
      simp at ha
  | cons a l ih =>
      rw [firsts, List.flatMap_cons, List.flatMap_cons, List.length_append, List.length_append] at h
      have hfirsts : ((firsts l).flatMap g).length ≤ (l.flatMap g).length :=
        ((firsts_sublist l).flatMap g).length_le
      have hfilter : (((firsts l).filter (· ≠ a)).flatMap g).length ≤ ((firsts l).flatMap g).length :=
        (List.filter_sublist.flatMap g).length_le
      intro b hb
      by_cases hba : a = b
      · subst hba
        rw [List.count_cons_self] at hb
        have hmem : a ∈ firsts l := mem_firsts.2 (List.count_pos_iff.1 (Nat.lt_of_succ_lt_succ hb))
        have hlength := length_flatMap_filter_ne (g := g) (nodup_firsts l) hmem
        exact List.eq_nil_of_length_eq_zero (by omega)
      · rw [List.count_cons_of_ne hba] at hb
        exact ih (by omega) b hb

end Flat

theorem collectDistinct_of_le {max : Nat} {acc : List α} (h : max ≤ acc.length) (l : List α) :
    collectDistinct max acc l = acc := by
  cases l with
  | nil => rfl
  | cons a l => rw [collectDistinct, if_pos h]

/-- The loop with `acc` already collected goes on with the first values that
`acc` does not have. -/
theorem collectDistinct_append {max : Nat} (l : List α) :
    ∀ acc : List α, acc.length ≤ max →
      collectDistinct max acc l = (acc ++ (firsts l).filter (· ∉ acc)).take max := by
  induction l with
  | nil =>
      intro acc hacc
      simp [collectDistinct, firsts, List.take_of_length_le hacc]
  | cons a l ih =>
      intro acc hacc
      by_cases hmax : max ≤ acc.length
      · have hlen : acc.length = max := by omega
        rw [collectDistinct_of_le hmax, List.take_append_of_le_length hmax, ← hlen,
          List.take_length]
      · rw [collectDistinct, if_neg hmax]
        by_cases ha : a ∈ acc
        · rw [if_pos ha, ih acc hacc, firsts, List.filter_cons_of_neg (by simpa using ha),
            List.filter_filter]
          have hsame : (firsts l).filter (· ∉ acc) =
              (firsts l).filter fun b => decide (b ∉ acc) && decide (b ≠ a) := by
            refine List.filter_congr fun b _ => ?_
            by_cases hb : b = a
            · simp [hb, ha]
            · simp [hb]
          rw [hsame]
        · have hlen : (acc ++ [a]).length ≤ max := by
            rw [List.length_append, List.length_singleton]
            omega
          rw [if_neg ha, ih _ hlen, firsts, List.filter_cons_of_pos (by simpa using ha),
            List.filter_filter, List.append_assoc, List.singleton_append]
          have hsame : (firsts l).filter (· ∉ acc ++ [a]) =
              (firsts l).filter fun b => decide (b ∉ acc) && decide (b ≠ a) := by
            refine List.filter_congr fun b _ => ?_
            simp [not_or]
          rw [hsame]

/-- **The loop collects the first distinct values of the walk.** -/
theorem collectDistinct_eq (max : Nat) (l : List α) :
    collectDistinct max [] l = (firsts l).take max := by
  rw [collectDistinct_append l [] (Nat.zero_le max)]
  simp

section LeaveOut

variable {F : List α} {x : α} {n : Nat}

omit [DecidableEq α] in
/-- A value that is among all `n + 1` values but not among the first
`min (n + 1) c` of them shows that `c` is at most `n`. -/
theorem le_of_notMem_take {c : Nat} (hx : x ∈ F) (hlen : F.length = n + 1)
    (hout : x ∉ F.take (min (n + 1) c)) : c ≤ n := by
  by_contra hc
  have hmin : min (n + 1) c = F.length := by omega
  rw [hmin, List.take_length] at hout
  exact hout hx

theorem length_filter_ne (hF : F.Nodup) (hx : x ∈ F) :
    (F.filter (· ≠ x)).length + 1 = F.length := by
  have hne : (fun b => decide (b ≠ x)) = fun b => b != x := by
    funext b
    by_cases hb : b = x <;> simp [hb]
  have herase := List.length_erase_add_one hx
  rw [hF.erase_eq_filter] at herase
  rw [hne]
  exact herase

/-- A value that is met once more moves to the end of the last occurrences. -/
theorem dedup_concat (l : List α) (x : α) : (l ++ [x]).dedup = l.dedup.filter (· ≠ x) ++ [x] := by
  induction l with
  | nil => simp
  | cons a l ih =>
      rw [List.cons_append, List.dedup_cons, List.dedup_cons, ih]
      by_cases ha : a ∈ l
      · rw [if_pos ha, if_pos (by simp [ha])]
      · rw [if_neg ha]
        by_cases heq : a = x
        · rw [if_pos (by simp [heq]), List.filter_cons_of_neg (by simp [heq])]
        · rw [if_neg (by simp [ha, heq]), List.filter_cons_of_pos (by simp [heq]), List.cons_append]

/-- The first values less `x` are the first values of the walk without `x`,
maybe fewer. -/
theorem prefix_filter_take (hF : F.Nodup) (hx : x ∈ F) (hlen : F.length = n + 1) (c : Nat) :
    (F.take (min (n + 1) c)).filter (· ≠ x) <+: (F.filter (· ≠ x)).take (min n c) := by
  have hpre : (F.take (min (n + 1) c)).filter (· ≠ x) <+: F.filter (· ≠ x) :=
    (List.take_prefix _ F).filter _
  rw [List.prefix_take_iff]
  refine ⟨hpre, ?_⟩
  by_cases hin : x ∈ F.take (min (n + 1) c)
  · have hcut := length_filter_ne (hF.sublist (List.take_sublist _ F)) hin
    rw [List.length_take] at hcut
    omega
  · have hc := le_of_notMem_take hx hlen hin
    have hle := List.length_filter_le (· ≠ x) (F.take (min (n + 1) c))
    rw [List.length_take] at hle
    omega

/-- First values without `x` among them are the first values of the walk without
`x`. -/
theorem take_eq_of_notMem (hF : F.Nodup) (hx : x ∈ F) (hlen : F.length = n + 1) {c : Nat}
    (hout : x ∉ F.take (min (n + 1) c)) :
    F.take (min (n + 1) c) = (F.filter (· ≠ x)).take (min n c) := by
  have hc := le_of_notMem_take hx hlen hout
  have hsame : (F.take (min (n + 1) c)).filter (· ≠ x) = F.take (min (n + 1) c) := by
    refine List.filter_eq_self.2 fun b hb => ?_
    have hne : b ≠ x := fun hbx => hout (hbx ▸ hb)
    simp [hne]
  have hpre := prefix_filter_take hF hx hlen c
  rw [hsame] at hpre
  refine hpre.eq_of_length ?_
  have hcount := length_filter_ne hF hx
  rw [List.length_take, List.length_take]
  omega

end LeaveOut

/-- The bit `n` of a number, with the kernel's own operations. -/
def bit (n x : Nat) : Bool := Nat.beq (Nat.land (Nat.shiftRight x n) 1) 1

/-- Splitting by one bit after the other, from bit `n - 1` down, leaves no two of
the numbers together. -/
def separates : Nat → List Nat → Bool
  | 0, l => l.length ≤ 1
  | n + 1, l =>
      match l with
      | [] => true
      | [_] => true
      | l => separates n (l.filter (bit n)) && separates n (l.filter fun x => !bit n x)

theorem nodup_of_separates (n : Nat) : ∀ l : List Nat, separates n l = true → l.Nodup := by
  induction n with
  | zero =>
      intro l h
      have hlen : l.length ≤ 1 := by simpa [separates] using h
      exact List.nodup_iff_count_le_one.2 fun _ => List.count_le_length.trans hlen
  | succ n ih =>
      intro l h
      unfold separates at h
      split at h
      · exact List.nodup_nil
      · exact List.nodup_singleton _
      · obtain ⟨hset, hclear⟩ := Bool.and_eq_true_iff.1 h
        rw [List.nodup_iff_count_le_one]
        intro x
        -- all occurrences of `x` are in the half with its bit `n`
        cases hx : bit n x with
        | true =>
            have hone := List.nodup_iff_count_le_one.1 (ih _ hset) x
            rwa [List.count_filter hx] at hone
        | false =>
            have hone := List.nodup_iff_count_le_one.1 (ih _ hclear) x
            rwa [List.count_filter (by simp [hx])] at hone

end MSearchDB.Lib
