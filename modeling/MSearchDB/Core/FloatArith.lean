import MSearchDB.Core.Float

/-!
# Arithmetic and printing of doubles

The operations of `f64` that the aggregations use: each is the exact result, rounded
to the nearest double with ties to even (`ofRatio`), with the rules for infinities and
NaNs in front. `display` is the `Display` of `f64`: the shortest decimal that rounds
back to the number, written without an exponent.
-/

set_option autoImplicit false

namespace MSearchDB.Core

namespace F64

/-- A quiet NaN. -/
def nan : F64 := ⟨0x7ff8000000000000⟩

/-- The sign bit. -/
def negative (x : F64) : Bool := 2 ^ 63 ≤ x.bits.toNat

/-- A magnitude with a sign. -/
def ofMagnitude (negative : Bool) (m : Nat) : F64 :=
  ⟨UInt64.ofNat ((if negative then 2 ^ 63 else 0) + m)⟩

/-- The absolute value of a finite number, as a fraction. -/
def toRatio (x : F64) : Nat × Nat :=
  let exponent := x.magnitude / 2 ^ 52
  let fraction := x.magnitude % 2 ^ 52
  if exponent = 0 then (fraction, 2 ^ 1074)
  else ((2 ^ 52 + fraction) * 2 ^ exponent, 2 ^ 1075)

/-- The quotient, rounded to the nearest with ties to even. -/
def roundQuotient (num den : Nat) : Nat :=
  let q := num / den
  let r := num % den
  if 2 * r < den then q else if den < 2 * r then q + 1 else q + q % 2

/-- The magnitude nearest to a fraction. The unit in the last place is `2 ^ (e - 1074)`;
a carry out of the fraction moves into the exponent by itself. -/
def ofRatio (num den : Nat) : Nat :=
  if num = 0 then 0
  else
    -- the fraction lies between two powers of two, of which this is the lower or the one below
    let low := num.log2 + 1074 - den.log2 - 53
    let e := if 2 ^ 53 ≤ num * 2 ^ 1074 / (den * 2 ^ low) then low + 1 else low
    min (e * 2 ^ 52 + roundQuotient (num * 2 ^ 1074) (den * 2 ^ e)) infinity

/-- The sum of finite numbers. -/
def addFinite (x y : F64) : F64 :=
  let (a, b) := x.toRatio
  let (c, d) := y.toRatio
  let left := a * d
  let right := c * b
  if x.negative = y.negative then ofMagnitude x.negative (ofRatio (left + right) (b * d))
  else if left = right then ofMagnitude false 0
  else if right < left then ofMagnitude x.negative (ofRatio (left - right) (b * d))
  else ofMagnitude y.negative (ofRatio (right - left) (b * d))

/-- `x + y`. -/
def add (x y : F64) : F64 :=
  if x.isNan || y.isNan then nan
  else if x.isFinite && y.isFinite then addFinite x y
  else if x.isFinite then y
  else if y.isFinite || x.negative = y.negative then x
  else nan

/-- `n as f64`. -/
def ofNat (n : Nat) : F64 := ofMagnitude false (ofRatio n 1)

/-- `x / n as f64` for a count that is not zero. -/
def divNat (x : F64) (n : Nat) : F64 :=
  if x.isFinite then
    let (a, b) := x.toRatio
    let (c, d) := (ofNat n).toRatio
    ofMagnitude x.negative (ofRatio (a * d) (b * c))
  else x

/-- `x < y`. -/
def lt (x y : F64) : Bool := x.partialCmp y = some .lt

/-- `x <= y`. -/
def le (x y : F64) : Bool := x.partialCmp y = some .lt || x.partialCmp y = some .eq

/-- `f64::min`. Of two zeros it is the second; the standard library leaves this open. -/
def min (x y : F64) : F64 := if x.isNan then y else if y.isNan || x.lt y then x else y

/-- `f64::max`, with the same choice. -/
def max (x y : F64) : F64 := if x.isNan then y else if y.isNan || y.lt x then x else y

/-- `x as u64`: towards zero, and to the nearest end of the range. -/
def toU64 (x : F64) : UInt64 :=
  if x.isNan || x.negative then 0
  else if x.isFinite then
    let (a, b) := x.toRatio
    UInt64.ofNat (Nat.min (a / b) (2 ^ 64 - 1))
  else UInt64.ofNat (2 ^ 64 - 1)

/-! ## Printing -/

/-- The least `j` with `den ≤ num * 10 ^ j`, in at most `n` steps. -/
def shiftUp (num den : Nat) : Nat → Nat
  | 0 => 0
  | n + 1 => if den ≤ num then 0 else shiftUp (num * 10) den n + 1

/-- A decimal of `n` digits that rounds to the magnitude, and how far its last digit
is from the point, where `num / den < 10 ^ whole` and `num / den * 10 ^ up` has a digit
before the point. -/
def decimalOf (m num den whole up n : Nat) : Option (Nat × Int) :=
  let scale : Int := n - whole + up
  let (a, b) := if 0 ≤ scale then (num * 10 ^ scale.toNat, den) else (num, den * 10 ^ (-scale).toNat)
  let low := a / b
  let back (c : Nat) : Bool :=
    (if 0 ≤ scale then ofRatio c (10 ^ scale.toNat) else ofRatio (c * 10 ^ (-scale).toNat) 1) = m
  let nearest := roundQuotient a b
  if back nearest then some (nearest, scale)
  else if back low then some (low, scale)
  else if back (low + 1) then some (low + 1, scale)
  else none

/-- The decimal `c / 10 ^ scale` without an exponent. -/
def plainDecimal (c : Nat) (scale : Int) : String :=
  if scale ≤ 0 then toString (c * 10 ^ (-scale).toNat)
  else
    let digits := toString c
    let point := scale.toNat
    let padded := "".pushn '0' (point + 1 - digits.length) ++ digits
    String.ofList (padded.toList.take (padded.length - point)) ++ "." ++
      String.ofList (padded.toList.drop (padded.length - point))

/-- `Display` of `f64`. -/
def display (x : F64) : String :=
  if x.isNan then "NaN"
  else
    let sign := if x.negative then "-" else ""
    if !x.isFinite then sign ++ "inf"
    else if x.magnitude = 0 then sign ++ "0"
    else
      let (num, den) := x.toRatio
      let up := shiftUp num den 400
      let whole := (toString (num * 10 ^ up / den)).length
      match (List.range 17).findSome? fun n => decimalOf x.magnitude num den whole up (n + 1) with
      | some (c, scale) => sign ++ plainDecimal c scale
      | none => sign

end F64

end MSearchDB.Core
