import MSearchDB.Core.Document

/-!
# Comparing floating-point numbers

An `f64` and an `f32` are their bits. All bits but the first are the magnitude, and
the magnitudes of numbers are in the order of their absolute values, with those of NaNs
at the end; `partial_cmp` is therefore a comparison of signed magnitudes.
-/

set_option autoImplicit false

namespace MSearchDB.Core

/-- An IEEE 754 single, as its bits. -/
structure F32 where
  bits : UInt32
  deriving DecidableEq, Repr

/-- The magnitude of a number of `w + 1` bits, with the sign of its first bit. -/
def signedMagnitude (w bits : Nat) : Int :=
  if bits < 2 ^ w then (bits : Int) else -((bits - 2 ^ w : Nat) : Int)

namespace F64

/-- The magnitude of infinity. -/
def infinity : Nat := 0x7ff0000000000000

/-- The bits without the sign. -/
def magnitude (x : F64) : Nat := x.bits.toNat % 2 ^ 63

/-- `f64::is_nan`. -/
def isNan (x : F64) : Bool := infinity < x.magnitude

/-- `f64::is_finite`. -/
def isFinite (x : F64) : Bool := x.magnitude < infinity

/-- The place of a number among the numbers. -/
def rank (x : F64) : Int := signedMagnitude 63 x.bits.toNat

/-- `f64::partial_cmp`. -/
def partialCmp (x y : F64) : Option Ordering :=
  if x.isNan || y.isNan then none else some (compare x.rank y.rank)

/-- `0.0`. -/
def zero : F64 := ⟨0⟩

/-- `1.0`. -/
def one : F64 := ⟨0x3ff0000000000000⟩

theorem isNan_of_isFinite {x : F64} (h : x.isFinite = true) : x.isNan = false := by
  simp only [isFinite, isNan, decide_eq_true_eq, decide_eq_false_iff_not] at *
  omega

theorem partialCmp_of_not_nan {x y : F64} (hx : x.isNan = false) (hy : y.isNan = false) :
    x.partialCmp y = some (compare x.rank y.rank) := by
  simp [partialCmp, hx, hy]

end F64

namespace F32

/-- The magnitude of infinity. -/
def infinity : Nat := 0x7f800000

/-- The bits without the sign. -/
def magnitude (x : F32) : Nat := x.bits.toNat % 2 ^ 31

/-- `f32::is_nan`. -/
def isNan (x : F32) : Bool := infinity < x.magnitude

/-- The place of a number among the numbers. -/
def rank (x : F32) : Int := signedMagnitude 31 x.bits.toNat

/-- `f32::partial_cmp`. -/
def partialCmp (x y : F32) : Option Ordering :=
  if x.isNan || y.isNan then none else some (compare x.rank y.rank)

theorem partialCmp_of_not_nan {x y : F32} (hx : x.isNan = false) (hy : y.isNan = false) :
    x.partialCmp y = some (compare x.rank y.rank) := by
  simp [partialCmp, hx, hy]

/-- The cast of a magnitude to `f64`, which is exact: exponents get a new bias, and a
subnormal number becomes a normal one. -/
def widen (m : Nat) : Nat :=
  let exponent := m / 2 ^ 23
  let fraction := m % 2 ^ 23
  if exponent = 255 then 2047 * 2 ^ 52 + fraction * 2 ^ 29
  else if exponent ≠ 0 then (exponent + 896) * 2 ^ 52 + fraction * 2 ^ 29
  else if fraction = 0 then 0
  else
    let k := fraction.log2
    (874 + k) * 2 ^ 52 + (fraction - 2 ^ k) * 2 ^ (52 - k)

/-- `as f64`. -/
def toF64 (x : F32) : F64 :=
  ⟨UInt64.ofNat ((if x.bits.toNat < 2 ^ 31 then 0 else 2 ^ 63) + widen x.magnitude)⟩

end F32

example : (F32.mk 0x3fc00000).toF64 = ⟨0x3ff8000000000000⟩ := by decide

example : (F32.mk 0x80000001).toF64 = ⟨0xb6a0000000000000⟩ := by decide

end MSearchDB.Core
