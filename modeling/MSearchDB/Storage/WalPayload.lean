import MSearchDB.Lib.Msgpack
import MSearchDB.Core.Document
import MSearchDB.Storage.Wal

/-!
# The payload of a log entry

Instances of the two parameters of the write-ahead log. `WalEntry` in the form
`rmp_serde` gives a structure and an enumeration: a structure is the array of its
fields, a unit variant is its name, and a variant with fields is a map from its
name to the array of them. `fromSlice_toVec` is the law the log relies on. The
checksum is CRC-32 with the reflected polynomial of IEEE 802.3, which is what
`crc32fast` computes.
-/

set_option autoImplicit false

namespace MSearchDB.Storage.Wal

open MSearchDB.Lib
open MSearchDB.Lib.Msgpack
open MSearchDB.Core

/-! ## Entries in MessagePack -/

/-- The name of the variant `Checkpoint`. -/
def checkpointTag : Bytes :=
  -- the bytes of `Checkpoint`
  encStr [0x43, 0x68, 0x65, 0x63, 0x6b, 0x70, 0x6f, 0x69, 0x6e, 0x74]

/-- A one-entry map from the name `Put` to an array of two fields. -/
def putTag : Bytes := 0x81 :: (encStr [0x50, 0x75, 0x74] ++ encArrayLen 2)

/-- A one-entry map from the name `Delete` to an array of one field. -/
def deleteTag : Bytes :=
  0x81 :: (encStr [0x44, 0x65, 0x6c, 0x65, 0x74, 0x65] ++ encArrayLen 1)

/-- The byte strings of an operation fit an array header. -/
def WalOperation.encodable : WalOperation → Bool
  | .put key value => decide (key.length < 2 ^ 32 ∧ value.length < 2 ^ 32)
  | .delete key => decide (key.length < 2 ^ 32)
  | .checkpoint => true

/-- The code of an operation. -/
def encOperation : WalOperation → Bytes
  | .put key value => putTag ++ (encBytes key ++ encBytes value)
  | .delete key => deleteTag ++ encBytes key
  | .checkpoint => checkpointTag

/-- Decode an operation. -/
def decOperation (rest : Bytes) : Option (WalOperation × Bytes) :=
  match expect checkpointTag rest with
  | some rest => some (.checkpoint, rest)
  | none =>
      match expect putTag rest with
      | some rest => do
          let (key, rest) ← decBytes rest
          let (value, rest) ← decBytes rest
          some (.put key value, rest)
      | none => do
          let rest ← expect deleteTag rest
          let (key, rest) ← decBytes rest
          some (.delete key, rest)

/-- The code of an entry. -/
def encEntry (e : WalEntry) : Bytes :=
  encArrayLen 3 ++ (encUint e.sequence.toNat ++
    (encOperation e.operation ++ encUint e.timestamp.toNat))

/-- Decode an entry. -/
def decEntry (rest : Bytes) : Option WalEntry := do
  let rest ← expect (encArrayLen 3) rest
  let (sequence, rest) ← decUint rest
  let (operation, rest) ← decOperation rest
  let (timestamp, _) ← decUint rest
  some ⟨UInt64.ofNat sequence, operation, UInt64.ofNat timestamp⟩

theorem decOperation_encOperation {op : WalOperation} (h : op.encodable = true) (rest : Bytes) :
    decOperation (encOperation op ++ rest) = some (op, rest) := by
  cases op with
  | checkpoint => simp [encOperation, decOperation]
  | put key value =>
      obtain ⟨hkey, hvalue⟩ := of_decide_eq_true h
      -- the first byte tells the map header of a variant with fields from a name
      have hno : expect checkpointTag
          (putTag ++ (encBytes key ++ encBytes value) ++ rest) = none := rfl
      rw [encOperation, decOperation, hno]
      simp [List.append_assoc, decBytes_encBytes hkey, decBytes_encBytes hvalue]
  | delete key =>
      have hkey := of_decide_eq_true h
      have hno : expect checkpointTag (deleteTag ++ encBytes key ++ rest) = none := rfl
      have hno' : expect putTag (deleteTag ++ encBytes key ++ rest) = none := rfl
      rw [encOperation, decOperation, hno, hno']
      simp [List.append_assoc, decBytes_encBytes hkey]

theorem decEntry_encEntry {e : WalEntry} (h : e.operation.encodable = true) :
    decEntry (encEntry e) = some e := by
  have hseq : e.sequence.toNat < 2 ^ 64 := e.sequence.toNat_lt
  have htime : e.timestamp.toNat < 2 ^ 64 := e.timestamp.toNat_lt
  -- the timestamp ends the entry
  have hlast := decUint_encUint htime []
  rw [List.append_nil] at hlast
  simp [encEntry, decEntry, decUint_encUint hseq, decOperation_encOperation h, hlast]

/-- `rmp_serde` on log entries. -/
instance rmpWalEntry : RmpSerde WalEntry where
  toVec e := if e.operation.encodable then .ok (encEntry e) else .error "array too long"
  fromSlice bs :=
    match decEntry bs with
    | some e => .ok e
    | none => .error "invalid entry"
  fromSlice_toVec := by
    intro e bs h
    by_cases he : e.operation.encodable = true
    · rw [if_pos he] at h
      rw [← Except.ok.inj h, decEntry_encEntry he]
    · rw [if_neg he] at h
      cases h

/-- A checkpoint entry takes at most 30 bytes. -/
theorem toVec_checkpoint (sequence timestamp : UInt64) :
    ∃ payload : Bytes, RmpSerde.toVec (⟨sequence, .checkpoint, timestamp⟩ : WalEntry) = .ok payload ∧
      0 < payload.length ∧ payload.length < 256 := by
  have hseq := length_encUint_le sequence.toNat
  have htime := length_encUint_le timestamp.toNat
  have hlen : (encEntry ⟨sequence, .checkpoint, timestamp⟩).length =
      1 + ((encUint sequence.toNat).length + (11 + (encUint timestamp.toNat).length)) := by
    simp only [encEntry, encOperation, List.length_append]
    rfl
  refine ⟨_, rfl, ?_, ?_⟩
  · rw [hlen]
    omega
  · rw [hlen]
    omega

/-! ## The checksum -/

/-- One bit of the reflected division. -/
def crcBit (crc : UInt32) : UInt32 :=
  if crc &&& 1 = 1 then (crc >>> 1) ^^^ 0xEDB88320 else crc >>> 1

/-- One byte. -/
def crcByte (crc : UInt32) (b : UInt8) : UInt32 :=
  crcBit (crcBit (crcBit (crcBit (crcBit (crcBit (crcBit (crcBit (crc ^^^ b.toUInt32))))))))

/-- CRC-32 of a byte string. -/
instance ieeeCrc32 : Crc32Fast where
  hash bs := bs.foldl crcByte 0xFFFFFFFF ^^^ 0xFFFFFFFF

/-- The check value of CRC-32: the checksum of the digits `1` to `9`. -/
example : Crc32Fast.hash [0x31, 0x32, 0x33, 0x34, 0x35, 0x36, 0x37, 0x38, 0x39] = 0xCBF43926 := by
  decide +kernel

end MSearchDB.Storage.Wal
