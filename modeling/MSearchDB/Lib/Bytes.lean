import Mathlib.Tactic

/-!
# Byte strings and fixed-width little-endian integers

`leBytes n x` is the `n`-byte little-endian code of `x` modulo `256 ^ n`, and
`ofLe` reads such a code back. The two are inverse to each other on codes of the
same width (`ofLe_leBytes`, `leBytes_ofLe`). `toLeBytes32`, `fromLeBytes32`,
`toLeBytes64` and `fromLeBytes64` are the instances for `u32` and `u64`.
`beBytes` and `ofBe` are the same with the most significant byte first. A `ByteVec` is a
byte string that memory can hold.
-/

set_option autoImplicit false

namespace MSearchDB.Lib

/-- A byte string. -/
abbrev Bytes := List UInt8

/-- The bytes of a vector or a slice, which are at most `isize::MAX`. -/
structure ByteVec where
  bytes : Bytes
  length_le : bytes.length ≤ 9223372036854775807

/-- `len`. -/
def ByteVec.len (v : ByteVec) : UInt64 := UInt64.ofNat v.bytes.length

/-- `&v[start..stop]`; `none` is the panic. -/
def ByteVec.slice (v : ByteVec) (start stop : UInt64) : Option Bytes :=
  if start ≤ stop ∧ stop ≤ v.len then some ((v.bytes.take stop.toNat).drop start.toNat) else none

theorem ByteVec.toNat_len (v : ByteVec) : v.len.toNat = v.bytes.length := by
  have := v.length_le
  rw [len, UInt64.toNat_ofNat_of_lt']
  exact lt_of_le_of_lt this (by decide)

/-- The `n` low-order bytes of `x`, least significant first. -/
def leBytes : Nat → Nat → Bytes
  | 0, _ => []
  | n + 1, x => UInt8.ofNat x :: leBytes n (x / 256)

/-- The value of a byte string read least significant byte first. -/
def ofLe : Bytes → Nat
  | [] => 0
  | b :: bs => b.toNat + 256 * ofLe bs

/-- The `n` low-order bytes of `x`, most significant first. -/
def beBytes (n x : Nat) : Bytes := (leBytes n x).reverse

/-- The value of a byte string read most significant byte first. -/
def ofBe (bs : Bytes) : Nat := ofLe bs.reverse

/-- `u32::to_le_bytes`. -/
def toLeBytes32 (x : UInt32) : Bytes := leBytes 4 x.toNat

/-- `u32::from_le_bytes`. -/
def fromLeBytes32 (bs : Bytes) : UInt32 := UInt32.ofNat (ofLe bs)

/-- `u64::to_le_bytes`. -/
def toLeBytes64 (x : UInt64) : Bytes := leBytes 8 x.toNat

/-- `u64::from_le_bytes`. -/
def fromLeBytes64 (bs : Bytes) : UInt64 := UInt64.ofNat (ofLe bs)

@[simp] theorem length_leBytes (n x : Nat) : (leBytes n x).length = n := by
  induction n generalizing x with
  | zero => rfl
  | succ n ih => simp [leBytes, ih]

@[simp] theorem length_toLeBytes32 (x : UInt32) : (toLeBytes32 x).length = 4 :=
  length_leBytes 4 x.toNat

@[simp] theorem length_toLeBytes64 (x : UInt64) : (toLeBytes64 x).length = 8 :=
  length_leBytes 8 x.toNat

theorem ofLe_lt (bs : Bytes) : ofLe bs < 256 ^ bs.length := by
  induction bs with
  | nil => simp [ofLe]
  | cons b bs ih =>
      have hb : b.toNat < 256 := b.toNat_lt
      simp only [ofLe, List.length_cons, Nat.pow_succ]
      omega

theorem ofLe_append (xs ys : Bytes) :
    ofLe (xs ++ ys) = ofLe xs + 256 ^ xs.length * ofLe ys := by
  induction xs with
  | nil => simp [ofLe]
  | cons x xs ih =>
      simp only [List.cons_append, ofLe, ih, List.length_cons, Nat.pow_succ]
      ring

theorem ofLe_leBytes (n x : Nat) : ofLe (leBytes n x) = x % 256 ^ n := by
  induction n generalizing x with
  | zero => simp [leBytes, ofLe, Nat.mod_one]
  | succ n ih =>
      -- the first byte is the remainder, the others code the quotient
      have hb : (UInt8.ofNat x).toNat = x % 256 := by simp
      simp only [leBytes, ofLe, ih, hb]
      rw [Nat.pow_succ, Nat.mul_comm (256 ^ n) 256, Nat.mod_mul]

theorem leBytes_ofLe (bs : Bytes) : leBytes bs.length (ofLe bs) = bs := by
  induction bs with
  | nil => rfl
  | cons b bs ih =>
      have hb : b.toNat < 256 := b.toNat_lt
      have hdiv : (b.toNat + 256 * ofLe bs) / 256 = ofLe bs := by omega
      have hmod : UInt8.ofNat (b.toNat + 256 * ofLe bs) = b := by
        apply UInt8.toNat_inj.1
        simp only [UInt8.toNat_ofNat']
        omega
      simp only [List.length_cons, leBytes, ofLe, hdiv, hmod, ih]

@[simp] theorem length_beBytes (n x : Nat) : (beBytes n x).length = n := by
  simp [beBytes]

theorem ofBe_beBytes (n x : Nat) : ofBe (beBytes n x) = x % 256 ^ n := by
  rw [ofBe, beBytes, List.reverse_reverse, ofLe_leBytes]

@[simp] theorem fromLeBytes32_toLeBytes32 (x : UInt32) : fromLeBytes32 (toLeBytes32 x) = x := by
  have hx : x.toNat < 256 ^ 4 := x.toNat_lt
  rw [fromLeBytes32, toLeBytes32, ofLe_leBytes, Nat.mod_eq_of_lt hx, UInt32.ofNat_toNat]

@[simp] theorem fromLeBytes64_toLeBytes64 (x : UInt64) : fromLeBytes64 (toLeBytes64 x) = x := by
  have hx : x.toNat < 256 ^ 8 := x.toNat_lt
  rw [fromLeBytes64, toLeBytes64, ofLe_leBytes, Nat.mod_eq_of_lt hx, UInt64.ofNat_toNat]

/-- Four bytes read as a `u32` have that value. -/
theorem toNat_fromLeBytes32 {bs : Bytes} (h : bs.length = 4) :
    (fromLeBytes32 bs).toNat = ofLe bs := by
  have hlt := ofLe_lt bs
  rw [h] at hlt
  exact UInt32.toNat_ofNat_of_lt hlt

/-- Four bytes are the code of the `u32` they are read as. -/
theorem toLeBytes32_fromLeBytes32 {bs : Bytes} (h : bs.length = 4) :
    toLeBytes32 (fromLeBytes32 bs) = bs := by
  rw [toLeBytes32, toNat_fromLeBytes32 h, ← h, leBytes_ofLe]

end MSearchDB.Lib
