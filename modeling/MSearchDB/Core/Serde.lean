import MSearchDB.Lib.Bytes

/-!
# Serialisation formats

The source serialises through `rmp_serde` (MessagePack) and `serde_json`, two
libraries outside the repository. Each format is an interface with the two
functions the source calls; the error texts are the libraries' own.

MessagePack has one law: a value that was written is read back. JSON has none. The
reader of `serde_json` refuses more than 127 nested arrays and objects, which the
writer does not; a number may come back with another last bit, and what is not finite
is written as `null`. So results about JSON say of which values they need that they
are read back (`SerdeJson.ReadsBack`).
-/

set_option autoImplicit false

namespace MSearchDB.Core

open MSearchDB.Lib

/-- `rmp_serde::to_vec` and `rmp_serde::from_slice` at the type `α`. -/
class RmpSerde (α : Type) where
  toVec : α → Except String Bytes
  fromSlice : Bytes → Except String α
  fromSlice_toVec : ∀ {a : α} {bs : Bytes}, toVec a = .ok bs → fromSlice bs = .ok a

/-- `serde_json::to_vec` and `serde_json::from_slice` at the type `α`. -/
class SerdeJson (α : Type) where
  toVec : α → Except String Bytes
  fromSlice : Bytes → Except String α

namespace SerdeJson

variable {α : Type} [SerdeJson α]

/-- The value has the code, and the code is read back as the value. -/
def Codes (a : α) (bs : Bytes) : Prop := toVec a = .ok bs ∧ fromSlice bs = .ok a

/-- The value is written, and what is written is read as `b`. -/
def ReadsAs (a b : α) : Prop := ∃ bs, toVec a = .ok bs ∧ fromSlice bs = .ok b

/-- The value is written, and read back as it was. -/
def ReadsBack (a : α) : Prop := ∃ bs, Codes a bs

theorem readsAs_iff {a b : α} {bs : Bytes} (h : toVec a = .ok bs) : ReadsAs a b ↔ fromSlice bs = .ok b := by
  constructor
  · rintro ⟨bs', hbs', hread⟩
    rwa [← Except.ok.inj (h.symm.trans hbs')] at hread
  · exact fun hread => ⟨bs, h, hread⟩

theorem ReadsAs.unique {a b c : α} (h : ReadsAs a b) (h' : ReadsAs a c) : b = c := by
  obtain ⟨bs, hwrite, hread⟩ := h
  have hread' := (readsAs_iff hwrite).1 h'
  exact Except.ok.inj (hread.symm.trans hread')

theorem ReadsBack.eq_of_readsAs {a b : α} (h : ReadsBack a) (h' : ReadsAs a b) : b = a :=
  ReadsAs.unique h' h

end SerdeJson

/-- A format in which one value has a code, with what is read of the code. -/
@[reducible] def oneCodeJson {α : Type} [DecidableEq α] (a : α) (code : Bytes) (read : Except String α) :
    SerdeJson α where
  toVec x := if x = a then .ok code else .error "not covered"
  fromSlice bytes := if bytes = code then read else .error "not covered"

/-- A format in which one value has a code, and is read back. -/
@[reducible] def oneValueJson {α : Type} [DecidableEq α] (a : α) (code : Bytes) : SerdeJson α :=
  oneCodeJson a code (.ok a)

theorem readsBack_oneValueJson {α : Type} [DecidableEq α] (a : α) (code : Bytes) :
    @SerdeJson.ReadsBack α (oneValueJson a code) a :=
  ⟨code, if_pos rfl, if_pos rfl⟩

end MSearchDB.Core
