import Mathlib.Data.List.DropRight

/-!
# The end of a history

What happened since the last event of another kind: `trailing p` counts the events
satisfying `p` at the end of a history, and `lastOf p` is the last event that satisfies
it. Histories grow at the end, so that the lemmas are about `l ++ [x]`.

A window that drops its first event when it is full shows the end of the history
(`pushWindow_rtake`), and the gaps of a history are those between neighbours (`gaps_concat`).
-/

set_option autoImplicit false

namespace MSearchDB.Lib

universe u

variable {α : Type u} {p : α → Bool}

/-- How many events at the end of a history satisfy `p`. -/
def trailing (p : α → Bool) (l : List α) : Nat := (l.rtakeWhile p).length

/-- The last event that satisfies `p`. -/
def lastOf (p : α → Bool) (l : List α) : Option α := l.reverse.find? p

theorem trailing_concat_of_pos (l : List α) {x : α} (h : p x = true) :
    trailing p (l ++ [x]) = trailing p l + 1 := by
  rw [trailing, List.rtakeWhile_concat_pos p l x h, List.length_append, List.length_singleton, ← trailing]

theorem trailing_concat_of_neg (l : List α) {x : α} (h : p x = false) :
    trailing p (l ++ [x]) = 0 := by
  rw [trailing, List.rtakeWhile_concat_neg p l x (by simp [h])]
  rfl

theorem lastOf_concat_of_pos (l : List α) {x : α} (h : p x = true) : lastOf p (l ++ [x]) = some x := by
  rw [lastOf, List.reverse_append, List.reverse_singleton, List.singleton_append, List.find?_cons_of_pos h]

/-- A history that ends with such an event has a last one. -/
theorem isSome_lastOf {l : List α} (h : 0 < trailing p l) : (lastOf p l).isSome := by
  rcases List.eq_nil_or_concat' l with rfl | ⟨l, x, rfl⟩
  · exact absurd h (lt_irrefl 0)
  · cases hx : p x with
    | true =>
        rw [lastOf_concat_of_pos l hx]
        rfl
    | false =>
        rw [trailing_concat_of_neg l hx] at h
        exact absurd h (lt_irrefl 0)

/-! ## Windows -/

/-- An event is added to a window of at most `n` events, of which the first makes room. -/
def pushWindow (n : Nat) (window : List α) (x : α) : List α :=
  if n ≤ window.length then window.tail ++ [x] else window ++ [x]

theorem length_rtake (l : List α) (n : Nat) : (l.rtake n).length = min n l.length := by
  rw [List.rtake, List.length_drop]
  omega

theorem rtake_of_length_le {l : List α} {n : Nat} (h : l.length ≤ n) : l.rtake n = l := by
  rw [List.rtake, Nat.sub_eq_zero_of_le h]
  rfl

/-- **A window is the end of its history.** -/
theorem pushWindow_rtake (n : Nat) (l : List α) (x : α) :
    pushWindow (n + 1) (l.rtake (n + 1)) x = (l ++ [x]).rtake (n + 1) := by
  rw [List.rtake_concat_succ, pushWindow, length_rtake]
  by_cases hfull : n + 1 ≤ l.length
  · -- the window without its first event is the window that is one shorter
    have htail : (l.rtake (n + 1)).tail = l.rtake n := by
      rw [List.rtake, List.rtake, List.tail_drop]
      congr 1
      omega
    rw [if_pos (Nat.le_min.2 ⟨le_refl _, hfull⟩), htail]
  · have hle : l.length ≤ n := Nat.le_of_lt_succ (Nat.lt_of_not_le hfull)
    rw [if_neg (fun h => hfull (Nat.le_min.1 h).2), rtake_of_length_le hle,
      rtake_of_length_le (Nat.le_succ_of_le hle)]

/-! ## Gaps -/

section Gaps

universe v

variable {β : Type v}

/-- What a history measures between each event and the next one. -/
def gaps (gap : α → α → β) (l : List α) : List β := List.zipWith gap l l.tail

theorem gaps_cons_cons (gap : α → α → β) (x y : α) (l : List α) :
    gaps gap (x :: y :: l) = gap x y :: gaps gap (y :: l) := rfl

theorem gaps_concat (gap : α → α → β) (l : List α) (last x : α) :
    gaps gap (l ++ [last] ++ [x]) = gaps gap (l ++ [last]) ++ [gap last x] := by
  induction l with
  | nil => rfl
  | cons y l ih =>
      cases l with
      | nil => rfl
      | cons z l =>
          have hstep : ∀ rest : List α, gaps gap (y :: z :: l ++ rest) = gap y z :: gaps gap (z :: l ++ rest) :=
            fun rest => gaps_cons_cons gap y z (l ++ rest)
          rw [List.append_assoc, hstep, hstep, ← List.append_assoc, ih]
          rfl

end Gaps

end MSearchDB.Lib
