import MSearchDB.Core.Document
import MSearchDB.Core.Serde

/-!
# Codes of bare documents

The two formats on the documents that examples use. `rmpDocument` is MessagePack
on the documents that `Document::new` makes with identifiers shorter than 32
bytes, and `jsonDocuments` is JSON on the empty list of documents. Both refuse
what they do not cover, so that what they write is read back.
-/

set_option autoImplicit false

namespace MSearchDB.Core

open MSearchDB.Lib

/-- MessagePack writes a document as an array of three: the identifier, a map of
fields, and a vector clock, itself an array of one map. -/
def encBare (id : String) : Bytes :=
  0x93 :: UInt8.ofNat (0xa0 + (asBytes id).length) :: (asBytes id ++ [0x80, 0x91, 0x80])

/-- Decode a bare document. -/
def decBare (bs : Bytes) : Option Document :=
  match String.fromUTF8? ⟨((bs.drop 2).take (bs.length - 5)).toArray⟩ with
  | some id => if encBare id = bs then some (Document.new ⟨id⟩) else none
  | none => none

theorem fromUTF8?_asBytes (s : String) : String.fromUTF8? ⟨(asBytes s).toArray⟩ = some s := by
  have hbytes : (⟨(asBytes s).toArray⟩ : ByteArray) = s.toByteArray := by simp [asBytes]
  rw [hbytes, String.fromUTF8?, dif_pos s.isValidUTF8]
  rfl

theorem decBare_encBare (id : String) : decBare (encBare id) = some (Document.new ⟨id⟩) := by
  have hbody : ((encBare id).drop 2).take ((encBare id).length - 5) = asBytes id := by
    have hlen : (encBare id).length - 5 = (asBytes id).length := by
      simp [encBare]
    rw [hlen, encBare]
    simp
  rw [decBare, hbody, fromUTF8?_asBytes]
  simp

/-- `rmp_serde` on bare documents. -/
instance rmpDocument : RmpSerde Document where
  toVec doc :=
    if doc = Document.new doc.id ∧ (asBytes doc.id.val).length < 32 then .ok (encBare doc.id.val)
    else .error "not a bare document"
  fromSlice bs :=
    match decBare bs with
    | some doc => .ok doc
    | none => .error "not a bare document"
  fromSlice_toVec := by
    intro doc bs h
    split at h
    · next hbare =>
        rw [← Except.ok.inj h, decBare_encBare]
        exact congrArg Except.ok hbare.1.symm
    · cases h

/-- `serde_json` on the empty list of documents, which it writes as `[]`. -/
instance jsonDocuments : SerdeJson (List Document) where
  toVec docs := if docs = [] then .ok [0x5b, 0x5d] else .error "not the empty list"
  fromSlice bs := if bs = [0x5b, 0x5d] then .ok [] else .error "not the empty list"

end MSearchDB.Core
