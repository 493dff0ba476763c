import Mathlib.Tactic
import Std.Data.ExtTreeMap

/-!
# Zero-padded decimal numbers

`padded w n` is `n` in decimal, filled up with zeros from the left to `w` digits. Texts
of the same length are ordered as the numbers they write (`compare_map_digits`), so that
fixed-width decimal keys are in the order of their numbers (`compare_map_padded`).
-/

set_option autoImplicit false

namespace MSearchDB.Lib

universe u

/-- `n` in decimal, with zeros on the left up to `w` digits. -/
def padded (w n : Nat) : List Char :=
  List.replicate (w - (Nat.toDigits 10 n).length) '0' ++ Nat.toDigits 10 n

theorem isDigit_of_mem_padded {w n : Nat} {c : Char} (h : c ∈ padded w n) : c.isDigit = true := by
  rcases List.mem_append.1 h with h | h
  · rw [List.eq_of_mem_replicate h]
    rfl
  · exact Nat.isDigit_of_mem_toDigits (by decide) (by decide) h

theorem length_padded {w n : Nat} (hw : 0 < w) (h : n < 10 ^ w) : (padded w n).length = w := by
  have hle : (Nat.toDigits 10 n).length ≤ w := (Nat.length_toDigits_le_iff (by decide) hw).2 h
  rw [padded, List.length_append, List.length_replicate]
  omega

theorem padded_ne_nil (w n : Nat) : padded w n ≠ [] := by
  simp [padded, Nat.toDigits_ne_nil]

theorem ofDigitChars_padded (w n : Nat) : Nat.ofDigitChars 10 (padded w n) 0 = n := by
  rw [padded, Nat.ofDigitChars_append, Nat.ofDigitChars_replicate_zero, Nat.mul_zero,
    Nat.ofDigitChars_ten_toDigits]

/-- The number that a digit writes. -/
def digitValue (c : Char) : Nat := c.toNat - '0'.toNat

theorem digitValue_lt {c : Char} (h : c.isDigit = true) : digitValue c < 10 := by
  have hrange := Char.isDigit_iff_toNat.1 h
  simp only [digitValue, Char.reduceToNat] at *
  omega

theorem ofDigitChars_cons_eq (c : Char) (cs : List Char) :
    Nat.ofDigitChars 10 (c :: cs) 0 = 10 ^ cs.length * digitValue c + Nat.ofDigitChars 10 cs 0 := by
  rw [Nat.ofDigitChars_cons, Nat.ofDigitChars_eq_ofDigitChars_zero, digitValue]
  simp

theorem ofDigitChars_lt {cs : List Char} (h : ∀ c ∈ cs, c.isDigit = true) :
    Nat.ofDigitChars 10 cs 0 < 10 ^ cs.length := by
  induction cs with
  | nil => simp
  | cons c cs ih =>
      have hc := digitValue_lt (h c List.mem_cons_self)
      have hcs := ih fun d hd => h d (List.mem_cons_of_mem _ hd)
      rw [ofDigitChars_cons_eq, List.length_cons, Nat.pow_succ]
      calc 10 ^ cs.length * digitValue c + Nat.ofDigitChars 10 cs 0
          < 10 ^ cs.length * digitValue c + 10 ^ cs.length := by omega
        _ = 10 ^ cs.length * (digitValue c + 1) := by ring
        _ ≤ 10 ^ cs.length * 10 := Nat.mul_le_mul_left _ hc

/-- The first digit decides unless it is the same. -/
theorem compare_digits {b a a' r r' : Nat} (hr : r < b) (hr' : r' < b) :
    compare (b * a + r) (b * a' + r') = (compare a a').then (compare r r') := by
  rcases Nat.lt_trichotomy a a' with h | rfl | h
  · have hlt : b * a + r < b * a' + r' := by
      have hmul : b * (a + 1) ≤ b * a' := Nat.mul_le_mul_left b h
      rw [Nat.mul_add, Nat.mul_one] at hmul
      omega
    rw [Nat.compare_eq_lt.2 h, Nat.compare_eq_lt.2 hlt]
    rfl
  · have hself : compare a a = .eq := Nat.compare_eq_eq.2 rfl
    rw [hself, Ordering.eq_then]
    rcases Nat.lt_trichotomy r r' with h | rfl | h
    · rw [Nat.compare_eq_lt.2 h, Nat.compare_eq_lt.2 (by omega)]
    · rw [Nat.compare_eq_eq.2 rfl, Nat.compare_eq_eq.2 rfl]
    · rw [Nat.compare_eq_gt.2 h, Nat.compare_eq_gt.2 (by omega)]
  · have hlt : b * a' + r' < b * a + r := by
      have hmul : b * (a' + 1) ≤ b * a := Nat.mul_le_mul_left b h
      rw [Nat.mul_add, Nat.mul_one] at hmul
      omega
    rw [Nat.compare_eq_gt.2 h, Nat.compare_eq_gt.2 hlt]
    rfl

section Order

variable {β : Type u} [Ord β] {f : Char → β}
  (hf : ∀ c d : Char, c.isDigit = true → d.isDigit = true →
    compare (f c) (f d) = compare (digitValue c) (digitValue d))

include hf

/-- Digit texts of the same length are in the order of their numbers. -/
theorem compare_map_digits {cs : List Char} (hcs : ∀ c ∈ cs, c.isDigit = true) :
    ∀ {ds : List Char}, (∀ d ∈ ds, d.isDigit = true) → cs.length = ds.length →
      compare (cs.map f) (ds.map f) =
        compare (Nat.ofDigitChars 10 cs 0) (Nat.ofDigitChars 10 ds 0) := by
  induction cs with
  | nil =>
      intro ds _ hlen
      obtain rfl := List.length_eq_zero_iff.1 hlen.symm
      rfl
  | cons c cs ih =>
      intro ds hds hlen
      cases ds with
      | nil => simp at hlen
      | cons d ds =>
          have htail : cs.length = ds.length := by simpa using hlen
          have hcs' : ∀ c ∈ cs, c.isDigit = true := fun x hx => hcs x (List.mem_cons_of_mem _ hx)
          have hds' : ∀ d ∈ ds, d.isDigit = true := fun x hx => hds x (List.mem_cons_of_mem _ hx)
          rw [List.map_cons, List.map_cons, List.compare_cons_cons, ih hcs' hds' htail,
            hf c d (hcs c List.mem_cons_self) (hds d List.mem_cons_self), ofDigitChars_cons_eq,
            ofDigitChars_cons_eq, ← htail,
            compare_digits (ofDigitChars_lt hcs') (htail ▸ ofDigitChars_lt hds')]

theorem compare_map_padded {w n m : Nat} (hw : 0 < w) (hn : n < 10 ^ w) (hm : m < 10 ^ w) :
    compare ((padded w n).map f) ((padded w m).map f) = compare n m := by
  rw [compare_map_digits hf (fun _ => isDigit_of_mem_padded) (fun _ => isDigit_of_mem_padded)
    (by rw [length_padded hw hn, length_padded hw hm]), ofDigitChars_padded, ofDigitChars_padded]

end Order

end MSearchDB.Lib
