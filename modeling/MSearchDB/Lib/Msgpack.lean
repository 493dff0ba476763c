import MSearchDB.Lib.Bytes

/-!
# MessagePack codes

The parts of the MessagePack format for unsigned integers, short strings and
sequences of bytes, in the shortest form an encoder may choose. A decoder takes
the unread bytes and returns the value with what is left. Every decoder undoes
its encoder in front of any further bytes (`decUint_encUint`,
`decArrayLen_encArrayLen`, `decBytes_encBytes`).
-/

set_option autoImplicit false

namespace MSearchDB.Lib.Msgpack

open MSearchDB.Lib

/-- Read `n` bytes, most significant first. -/
def readBe (n : Nat) (rest : Bytes) : Option (Nat × Bytes) :=
  if n ≤ rest.length then some (ofBe (rest.take n), rest.drop n) else none

/-- Drop the given bytes, which must come next. -/
def expect (tag rest : Bytes) : Option Bytes :=
  if tag <+: rest then some (rest.drop tag.length) else none

/-- The shortest code of an unsigned integer: one byte below `2 ^ 7`, else a
format byte and 1, 2, 4 or 8 bytes. -/
def encUint (x : Nat) : Bytes :=
  if x < 2 ^ 7 then [UInt8.ofNat x]
  else if x < 2 ^ 8 then 0xcc :: beBytes 1 x
  else if x < 2 ^ 16 then 0xcd :: beBytes 2 x
  else if x < 2 ^ 32 then 0xce :: beBytes 4 x
  else 0xcf :: beBytes 8 x

/-- Decode an unsigned integer. -/
def decUint : Bytes → Option (Nat × Bytes)
  | [] => none
  | b :: rest =>
      if b.toNat < 2 ^ 7 then some (b.toNat, rest)
      else if b = 0xcc then readBe 1 rest
      else if b = 0xcd then readBe 2 rest
      else if b = 0xce then readBe 4 rest
      else if b = 0xcf then readBe 8 rest
      else none

/-- The shortest code of the length of an array. -/
def encArrayLen (n : Nat) : Bytes :=
  if n < 2 ^ 4 then [UInt8.ofNat (0x90 + n)]
  else if n < 2 ^ 16 then 0xdc :: beBytes 2 n
  else 0xdd :: beBytes 4 n

/-- Decode the length of an array. -/
def decArrayLen : Bytes → Option (Nat × Bytes)
  | [] => none
  | b :: rest =>
      if 0x90 ≤ b.toNat ∧ b.toNat < 0xa0 then some (b.toNat - 0x90, rest)
      else if b = 0xdc then readBe 2 rest
      else if b = 0xdd then readBe 4 rest
      else none

/-- A string of fewer than 32 bytes. -/
def encStr (s : Bytes) : Bytes := UInt8.ofNat (0xa0 + s.length) :: s

/-- The items of a sequence of bytes, each an unsigned integer. -/
def encItems (bs : Bytes) : Bytes := (bs.map fun b => encUint b.toNat).flatten

/-- Decode `n` items. -/
def decItems : Nat → Bytes → Option (Bytes × Bytes)
  | 0, rest => some ([], rest)
  | n + 1, rest => do
      let (x, rest) ← decUint rest
      let (bs, rest) ← decItems n rest
      some (UInt8.ofNat x :: bs, rest)

/-- A sequence of bytes as an array of unsigned integers. -/
def encBytes (bs : Bytes) : Bytes := encArrayLen bs.length ++ encItems bs

/-- Decode a sequence of bytes. -/
def decBytes (rest : Bytes) : Option (Bytes × Bytes) := do
  let (n, rest) ← decArrayLen rest
  decItems n rest

theorem readBe_append {n x : Nat} (hx : x < 256 ^ n) (rest : Bytes) :
    readBe n (beBytes n x ++ rest) = some (x, rest) := by
  have hlen : (beBytes n x).length = n := length_beBytes n x
  have htake : (beBytes n x ++ rest).take n = beBytes n x := by
    rw [List.take_append_of_le_length (by omega), List.take_of_length_le (by omega)]
  have hdrop : (beBytes n x ++ rest).drop n = rest := by
    rw [List.drop_append_of_le_length (by omega), List.drop_of_length_le (by omega),
      List.nil_append]
  have hle : n ≤ (beBytes n x ++ rest).length := by
    rw [List.length_append, hlen]
    omega
  rw [readBe, if_pos hle, htake, hdrop, ofBe_beBytes, Nat.mod_eq_of_lt hx]

@[simp] theorem expect_append (tag rest : Bytes) : expect tag (tag ++ rest) = some rest := by
  simp [expect]

theorem decUint_encUint {x : Nat} (hx : x < 2 ^ 64) (rest : Bytes) :
    decUint (encUint x ++ rest) = some (x, rest) := by
  rw [encUint]
  -- one case for each format byte, from the shortest code on
  by_cases h7 : x < 2 ^ 7
  · have hb : (UInt8.ofNat x).toNat = x := by
      rw [UInt8.toNat_ofNat']
      omega
    rw [if_pos h7, List.singleton_append, decUint, hb, if_pos h7]
  rw [if_neg h7]
  by_cases h8 : x < 2 ^ 8
  · rw [if_pos h8, List.cons_append, decUint, if_neg (by decide), if_pos rfl]
    exact readBe_append h8 rest
  rw [if_neg h8]
  by_cases h16 : x < 2 ^ 16
  · rw [if_pos h16, List.cons_append, decUint, if_neg (by decide), if_neg (by decide),
      if_pos rfl]
    exact readBe_append h16 rest
  rw [if_neg h16]
  by_cases h32 : x < 2 ^ 32
  · rw [if_pos h32, List.cons_append, decUint, if_neg (by decide), if_neg (by decide),
      if_neg (by decide), if_pos rfl]
    exact readBe_append h32 rest
  · rw [if_neg h32, List.cons_append, decUint, if_neg (by decide), if_neg (by decide),
      if_neg (by decide), if_neg (by decide), if_pos rfl]
    exact readBe_append hx rest

theorem decArrayLen_encArrayLen {n : Nat} (hn : n < 2 ^ 32) (rest : Bytes) :
    decArrayLen (encArrayLen n ++ rest) = some (n, rest) := by
  rw [encArrayLen]
  by_cases h4 : n < 2 ^ 4
  · have hb : (UInt8.ofNat (0x90 + n)).toNat = 0x90 + n := by
      rw [UInt8.toNat_ofNat']
      omega
    rw [if_pos h4, List.singleton_append, decArrayLen, hb, if_pos (by omega),
      Nat.add_sub_cancel_left]
  rw [if_neg h4]
  by_cases h16 : n < 2 ^ 16
  · rw [if_pos h16, List.cons_append, decArrayLen, if_neg (by decide), if_pos rfl]
    exact readBe_append h16 rest
  · rw [if_neg h16, List.cons_append, decArrayLen, if_neg (by decide), if_neg (by decide),
      if_pos rfl]
    exact readBe_append hn rest

theorem decItems_encItems (bs rest : Bytes) :
    decItems bs.length (encItems bs ++ rest) = some (bs, rest) := by
  induction bs with
  | nil => rfl
  | cons b bs ih =>
      have hb : b.toNat < 2 ^ 64 := Nat.lt_trans b.toNat_lt (by decide)
      have hsplit : encItems (b :: bs) ++ rest =
          encUint b.toNat ++ (encItems bs ++ rest) := by
        simp [encItems]
      -- the items are codes one after the other, each in front of further bytes
      rw [List.length_cons, hsplit]
      simp [decItems, decUint_encUint hb, ih]

theorem decBytes_encBytes {bs : Bytes} (h : bs.length < 2 ^ 32) (rest : Bytes) :
    decBytes (encBytes bs ++ rest) = some (bs, rest) := by
  rw [encBytes, List.append_assoc, decBytes, decArrayLen_encArrayLen h]
  exact decItems_encItems bs rest

theorem length_encUint_le (x : Nat) : (encUint x).length ≤ 9 := by
  rw [encUint]
  split_ifs <;> simp

end MSearchDB.Lib.Msgpack
