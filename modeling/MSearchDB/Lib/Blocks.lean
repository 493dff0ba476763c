import Mathlib.Tactic

/-!
# Prefixes of a concatenation of blocks

A stream is the concatenation of blocks, and only a prefix of it has arrived.
`wholeBlocks bs n` counts the blocks that lie wholly inside the first `n`
elements (`lt_wholeBlocks_iff`), and `tornLength bs n` is the number of elements
after the last of them. Every prefix is its whole blocks followed by a proper
prefix of the next block (`prefix_flatten`).
-/

set_option autoImplicit false

namespace MSearchDB.Lib

universe u

variable {α : Type u}

/-- The number of blocks inside the first `n` elements of the concatenation. -/
def wholeBlocks : List (List α) → Nat → Nat
  | [], _ => 0
  | b :: bs, n => if b.length ≤ n then wholeBlocks bs (n - b.length) + 1 else 0

/-- The number of the first `n` elements that follow the last whole block. -/
def tornLength (bs : List (List α)) (n : Nat) : Nat :=
  n - (bs.take (wholeBlocks bs n)).flatten.length

theorem wholeBlocks_le_length (bs : List (List α)) (n : Nat) :
    wholeBlocks bs n ≤ bs.length := by
  induction bs generalizing n with
  | nil => simp [wholeBlocks]
  | cons b bs ih =>
      rw [wholeBlocks]
      split
      · simpa using ih (n - b.length)
      · exact Nat.zero_le _

/-- Block `i` is whole exactly when it ends inside the first `n` elements. -/
theorem lt_wholeBlocks_iff (bs : List (List α)) (n i : Nat) :
    i < wholeBlocks bs n ↔ i < bs.length ∧ (bs.take (i + 1)).flatten.length ≤ n := by
  induction bs generalizing n i with
  | nil => simp [wholeBlocks]
  | cons b bs ih =>
      rw [wholeBlocks]
      by_cases hb : b.length ≤ n
      · -- `b` is whole: the other blocks are counted in what follows it
        rw [if_pos hb]
        cases i with
        | zero => simp [hb]
        | succ i =>
            have key := ih (n - b.length) i
            simp only [List.length_cons, List.take_succ_cons, List.flatten_cons,
              List.length_append]
            omega
      · -- `b` is cut already, and every later block ends behind it
        rw [if_neg hb]
        have hlen : b.length ≤ ((b :: bs).take (i + 1)).flatten.length := by
          simp [List.length_append]
        constructor
        · intro h
          omega
        · rintro ⟨-, h⟩
          omega

/-- **A prefix of a concatenation is its whole blocks and a proper prefix of the
next block.** -/
theorem prefix_flatten (bs : List (List α)) :
    ∀ p : List α, p <+: bs.flatten →
      ∃ r : List α, p = (bs.take (wholeBlocks bs p.length)).flatten ++ r ∧
        r.length = tornLength bs p.length ∧
        (r = [] ∨ ∃ b, bs[wholeBlocks bs p.length]? = some b ∧ r <+: b ∧
          r.length < b.length) := by
  induction bs with
  | nil =>
      intro p hp
      have hnil : p = [] := by simpa using hp
      subst hnil
      exact ⟨[], rfl, rfl, Or.inl rfl⟩
  | cons b bs ih =>
      intro p hp
      rw [List.flatten_cons] at hp
      by_cases hb : b.length ≤ p.length
      · -- the whole of `b` has arrived: recurse on what follows it
        obtain ⟨q, rfl⟩ : b <+: p :=
          List.prefix_of_prefix_length_le (List.prefix_append b bs.flatten) hp hb
        have hq : q <+: bs.flatten := (List.prefix_append_right_inj b).1 hp
        obtain ⟨r, hr, hlen, hcase⟩ := ih q hq
        have hk : wholeBlocks (b :: bs) (b ++ q).length = wholeBlocks bs q.length + 1 := by
          rw [wholeBlocks, if_pos hb, List.length_append, Nat.add_sub_cancel_left]
        refine ⟨r, ?_, ?_, ?_⟩
        · rw [hk, List.take_succ_cons, List.flatten_cons, List.append_assoc, ← hr]
        · rw [tornLength, hk, hlen, tornLength, List.take_succ_cons, List.flatten_cons,
            List.length_append, List.length_append, Nat.add_sub_add_left]
        · rw [hk, List.getElem?_cons_succ]
          exact hcase
      · -- the prefix ends inside `b`
        have hk : wholeBlocks (b :: bs) p.length = 0 := by
          rw [wholeBlocks, if_neg hb]
        have hpb : p <+: b :=
          List.prefix_of_prefix_length_le hp (List.prefix_append b bs.flatten) (by omega)
        refine ⟨p, ?_, ?_, Or.inr ⟨b, ?_, hpb, by omega⟩⟩
        · simp [hk]
        · simp [tornLength, hk]
        · simp [hk]

/-- A prefix that ends with a whole block is torn nowhere. -/
theorem prefix_eq_of_tornLength_eq_zero {bs : List (List α)} {p : List α}
    (hp : p <+: bs.flatten) (h : tornLength bs p.length = 0) :
    p = (bs.take (wholeBlocks bs p.length)).flatten := by
  obtain ⟨r, hr, hlen, -⟩ := prefix_flatten bs p hp
  have hnil : r = [] := List.length_eq_zero_iff.1 (by omega)
  rw [hnil, List.append_nil] at hr
  exact hr

end MSearchDB.Lib
