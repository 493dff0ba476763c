import MSearchDB.Lib.Bytes
import Std.Data.ExtTreeMap

/-!
# Documents

`DocumentId`, `FieldValue`, `VectorClock` and `Document` of
`crates/core/src/document.rs` and `crates/core/src/vector_clock.rs`.

`HashMap` and `BTreeMap` fields are extensional ordered maps: two of them are
equal when they have the same bindings, as in the source. An `f64` is its bit
pattern.
-/

set_option autoImplicit false

namespace MSearchDB.Core

open MSearchDB.Lib
open Std

/-- `str::as_bytes`: the UTF-8 code of a string. -/
def asBytes (s : String) : Bytes := s.toByteArray.data.toList

theorem asBytes_injective : Function.Injective asBytes := by
  intro s t h
  have hdata : s.toByteArray.data = t.toByteArray.data := Array.toList_inj.1 h
  exact String.toByteArray_inj.1 (ByteArray.ext hdata)

/-- A continuation byte of UTF-8. -/
def isCont (b : UInt8) : Bool := 0x80 ≤ b && b ≤ 0xbf

/-- One step of `slice::utf8_chunks` on a non-empty input: how many bytes it
takes, and whether they are a scalar value. A byte past the end counts as zero. -/
def utf8Step (bs : Bytes) : Nat × Bool :=
  let b0 := bs.getD 0 0
  let b1 := bs.getD 1 0
  if b0 < 0x80 then (1, true)
  else if 0xc2 ≤ b0 && b0 ≤ 0xdf then
    if isCont b1 then (2, true) else (1, false)
  else if 0xe0 ≤ b0 && b0 ≤ 0xef then
    -- the second byte rules out overlong forms and surrogates
    let second := (b0 == 0xe0 && 0xa0 ≤ b1 && b1 ≤ 0xbf) || (b0 == 0xed && 0x80 ≤ b1 && b1 ≤ 0x9f) ||
      (b0 != 0xe0 && b0 != 0xed && isCont b1)
    if !second then (1, false) else if isCont (bs.getD 2 0) then (3, true) else (2, false)
  else if 0xf0 ≤ b0 && b0 ≤ 0xf4 then
    -- the second byte rules out overlong forms and values past U+10FFFF
    let second := (b0 == 0xf0 && 0x90 ≤ b1 && b1 ≤ 0xbf) || (b0 == 0xf4 && 0x80 ≤ b1 && b1 ≤ 0x8f) ||
      (b0 != 0xf0 && b0 != 0xf4 && isCont b1)
    if !second then (1, false)
    else if !isCont (bs.getD 2 0) then (2, false)
    else if isCont (bs.getD 3 0) then (4, true) else (3, false)
  else (1, false)

/-- Replace every maximal ill-formed piece by U+FFFD, in at most `n` steps. -/
def replaceInvalid : Nat → Bytes → Bytes
  | 0, _ => []
  | _ + 1, [] => []
  | n + 1, b :: bs =>
      let (k, valid) := utf8Step (b :: bs)
      (if valid then (b :: bs).take k else [0xef, 0xbf, 0xbd]) ++
        replaceInvalid n ((b :: bs).drop k)

/-- The bytes of `String::from_utf8_lossy`. -/
def fromUtf8Lossy (bs : Bytes) : Bytes :=
  if (ByteArray.mk bs.toArray).IsValidUTF8 then bs else replaceInvalid bs.length bs

theorem fromUtf8Lossy_asBytes (s : String) : fromUtf8Lossy (asBytes s) = asBytes s :=
  if_pos (by simpa [asBytes] using s.isValidUTF8)

/-- A document identifier: a newtype over `String`. -/
structure DocumentId where
  val : String
  deriving DecidableEq, Repr

/-- The key bytes of a document identifier. -/
def DocumentId.key (id : DocumentId) : Bytes := asBytes id.val

theorem DocumentId.key_injective : Function.Injective DocumentId.key := by
  rintro ⟨s⟩ ⟨t⟩ h
  exact congrArg DocumentId.mk (asBytes_injective h)

/-- An IEEE 754 double, as its bits. -/
structure F64 where
  bits : UInt64
  deriving DecidableEq, Repr

/-- `FieldValue`. -/
inductive FieldValue where
  | text (s : String)
  | number (x : F64)
  | boolean (b : Bool)
  | array (vs : List FieldValue)
  deriving Repr

mutual
/-- Equality of field values is decidable. -/
def FieldValue.decEq : (v w : FieldValue) → Decidable (v = w)
  | .text s, .text t => decidable_of_iff (s = t) (by simp)
  | .number x, .number y => decidable_of_iff (x = y) (by simp)
  | .boolean b, .boolean c => decidable_of_iff (b = c) (by simp)
  | .array vs, .array ws =>
      match FieldValue.decEqList vs ws with
      | .isTrue h => .isTrue (congrArg FieldValue.array h)
      | .isFalse h => .isFalse fun e => h (FieldValue.array.inj e)
  | .text _, .number _ => .isFalse nofun
  | .text _, .boolean _ => .isFalse nofun
  | .text _, .array _ => .isFalse nofun
  | .number _, .text _ => .isFalse nofun
  | .number _, .boolean _ => .isFalse nofun
  | .number _, .array _ => .isFalse nofun
  | .boolean _, .text _ => .isFalse nofun
  | .boolean _, .number _ => .isFalse nofun
  | .boolean _, .array _ => .isFalse nofun
  | .array _, .text _ => .isFalse nofun
  | .array _, .number _ => .isFalse nofun
  | .array _, .boolean _ => .isFalse nofun
/-- Equality of lists of field values is decidable. -/
def FieldValue.decEqList : (vs ws : List FieldValue) → Decidable (vs = ws)
  | [], [] => .isTrue rfl
  | [], _ :: _ => .isFalse nofun
  | _ :: _, [] => .isFalse nofun
  | v :: vs, w :: ws =>
      match FieldValue.decEq v w, FieldValue.decEqList vs ws with
      | .isTrue h, .isTrue hs => .isTrue (by rw [h, hs])
      | .isFalse h, _ => .isFalse fun e => h (List.cons.inj e).1
      | _, .isFalse hs => .isFalse fun e => hs (List.cons.inj e).2
end

instance : DecidableEq FieldValue := FieldValue.decEq

/-- `VectorClock`: per-node counters. -/
structure VectorClock where
  clocks : ExtTreeMap UInt64 UInt64
  deriving DecidableEq

/-- `VectorClock::new`. -/
def VectorClock.new : VectorClock := ⟨∅⟩

/-- `Document`. -/
structure Document where
  id : DocumentId
  fields : ExtTreeMap String FieldValue
  version : VectorClock
  deriving DecidableEq

/-- `Document::new`. -/
def Document.new (id : DocumentId) : Document := ⟨id, ∅, VectorClock.new⟩

/-- `Document::with_field`. -/
def Document.withField (doc : Document) (name : String) (value : FieldValue) : Document :=
  { doc with fields := doc.fields.insert name value }

end MSearchDB.Core
