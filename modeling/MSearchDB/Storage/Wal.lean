import MSearchDB.Lib.Loop
import MSearchDB.Lib.Bytes
import MSearchDB.Core.Error
import MSearchDB.Core.Serde

/-!
# The write-ahead log

`WalWriter` and `WalReader` of `crates/storage/src/wal.rs`. An entry is framed as

  len (4 bytes, little endian) | CRC (4 bytes, little endian) | payload (len bytes)

with the MessagePack code of the entry as payload.

A file is its bytes, and `none` is a path with no file. `SystemTime::now` is an
argument of `append`. Bytes that `BufWriter` holds back are the field `buffer`;
`sync` moves them to the file. `std::fs` addresses a file with signed 64-bit
offsets, so a file never outgrows `maxFileLen` and a `sync` that would make it
do so fails. Sequence numbers are `u64` and wrap.
-/

set_option autoImplicit false

namespace MSearchDB.Storage.Wal

open MSearchDB.Lib
open MSearchDB.Lib.Loop (Pass loop)
open MSearchDB.Core

/-- `crc32fast::hash`. -/
class Crc32Fast where
  hash : Bytes → UInt32

/-- `WalOperation`. -/
inductive WalOperation where
  | put (key value : Bytes)
  | delete (key : Bytes)
  | checkpoint
  deriving DecidableEq, Repr

/-- `WalEntry`. -/
structure WalEntry where
  sequence : UInt64
  operation : WalOperation
  timestamp : UInt64
  deriving DecidableEq, Repr

/-- `WalEntry::new`, with the clock reading `now`. -/
def WalEntry.new (now sequence : UInt64) (operation : WalOperation) : WalEntry :=
  ⟨sequence, operation, now⟩

/-- The largest file: `i64::MAX` bytes. -/
def maxFileLen : Nat := 2 ^ 63 - 1

/-- `Read::read_exact` with `n` bytes on the unread bytes `rest`: the bytes read
and what is left. -/
def readExact (n : Nat) (rest : Bytes) : Except IoError (Bytes × Bytes) :=
  if n ≤ rest.length then .ok (rest.take n, rest.drop n) else .error .unexpectedEof

theorem readExact_append {xs : Bytes} {n : Nat} (h : xs.length = n) (ys : Bytes) :
    readExact n (xs ++ ys) = .ok (xs, ys) := by
  subst h
  simp [readExact]

theorem readExact_short {n : Nat} {rest : Bytes} (h : rest.length < n) :
    readExact n rest = .error .unexpectedEof :=
  if_neg (by omega)

theorem readExact_ok {n : Nat} {rest xs ys : Bytes} (h : readExact n rest = .ok (xs, ys)) :
    rest = xs ++ ys ∧ xs.length = n := by
  by_cases hn : n ≤ rest.length
  · rw [readExact, if_pos hn] at h
    obtain ⟨rfl, rfl⟩ := Prod.mk.inj (Except.ok.inj h)
    exact ⟨(List.take_append_drop n rest).symm, by simp [hn]⟩
  · rw [readExact, if_neg hn] at h
    cases h

/-- The `#010x` format of a `u32`. -/
def hex010 (x : UInt32) : String :=
  let digits := Nat.toDigits 16 x.toNat
  "0x" ++ String.ofList (List.replicate (8 - digits.length) '0' ++ digits)

/-! ## Reading -/

namespace WalReader

variable [Crc32Fast] [RmpSerde WalEntry]

/-- The state at the head of the loop of `read_all`. -/
structure State where
  rest : Bytes
  entries : List WalEntry

/-- The message of a frame whose payload does not have the stored checksum. -/
def crcMismatch (storedCrc computedCrc : UInt32) : DbError :=
  .storageError ("WAL entry CRC mismatch: stored=" ++ hex010 storedCrc ++
    ", computed=" ++ hex010 computedCrc)

/-- One pass of the loop of `read_all`. Only the read of the length prefix treats
the end of the file as the end of the log. -/
def readFrame (s : State) : Pass State (DbResult (List WalEntry)) :=
  match readExact 4 s.rest with
  -- the end of the file, or up to three bytes in front of it
  | .error .unexpectedEof => .leave (.ok s.entries)
  | .error e => .leave (.error (.ofIo e))
  | .ok (lenBuf, rest) =>
      let len := (fromLeBytes32 lenBuf).toNat
      -- from here on the end of the file is an error like any other
      match readExact 4 rest with
      | .error e => .leave (.error (.ofIo e))
      | .ok (crcBuf, rest) =>
          let storedCrc := fromLeBytes32 crcBuf
          match readExact len rest with
          | .error e => .leave (.error (.ofIo e))
          | .ok (payload, rest) =>
              let computedCrc := Crc32Fast.hash payload
              if computedCrc ≠ storedCrc then
                .leave (.error (crcMismatch storedCrc computedCrc))
              else
                match RmpSerde.fromSlice payload with
                | .error e => .leave (.error (.serializationError e))
                | .ok entry => .again ⟨rest, s.entries ++ [entry]⟩

/-- What a pass that goes round has read: a length, the checksum of the payload,
and a payload of that length that decodes to the new entry. -/
theorem readFrame_again {s t : State} (h : readFrame s = .again t) :
    ∃ (payload : Bytes) (entry : WalEntry), payload.length < 2 ^ 32 ∧
      s.rest = toLeBytes32 (UInt32.ofNat payload.length) ++
        (toLeBytes32 (Crc32Fast.hash payload) ++ (payload ++ t.rest)) ∧
      RmpSerde.fromSlice payload = .ok entry ∧ t.entries = s.entries ++ [entry] := by
  simp only [readFrame] at h
  -- every branch but the innermost leaves the loop
  cases hlen : readExact 4 s.rest with
  | error e => cases e <;> simp [hlen] at h
  | ok q =>
      obtain ⟨lenBuf, rest1⟩ := q
      simp only [hlen] at h
      cases hcrc : readExact 4 rest1 with
      | error e => simp [hcrc] at h
      | ok q =>
          obtain ⟨crcBuf, rest2⟩ := q
          simp only [hcrc] at h
          cases hpay : readExact (fromLeBytes32 lenBuf).toNat rest2 with
          | error e => simp [hpay] at h
          | ok q =>
              obtain ⟨payload, rest3⟩ := q
              simp only [hpay] at h
              by_cases hne : Crc32Fast.hash payload ≠ fromLeBytes32 crcBuf
              · simp [hne] at h
              · rw [if_neg hne] at h
                cases hdec : RmpSerde.fromSlice (α := WalEntry) payload with
                | error e => simp [hdec] at h
                | ok entry =>
                    simp only [hdec] at h
                    obtain ⟨e1, l1⟩ := readExact_ok hlen
                    obtain ⟨e2, l2⟩ := readExact_ok hcrc
                    obtain ⟨e3, l3⟩ := readExact_ok hpay
                    have hs := Pass.again.inj h
                    subst hs
                    -- the two numbers that were read are those of the payload
                    have hcode : toLeBytes32 (UInt32.ofNat payload.length) = lenBuf := by
                      rw [l3, UInt32.ofNat_toNat, toLeBytes32_fromLeBytes32 l1]
                    have hsum : toLeBytes32 (Crc32Fast.hash payload) = crcBuf := by
                      rw [not_not.1 hne, toLeBytes32_fromLeBytes32 l2]
                    refine ⟨payload, entry, ?_, ?_, hdec, rfl⟩
                    · rw [l3]
                      exact UInt32.toNat_lt _
                    · rw [hcode, hsum, ← e3, ← e2, ← e1]

/-- The loop returns entries only at the end of the file, and all it has read. -/
theorem readFrame_leave_ok {s : State} {es : List WalEntry} (h : readFrame s = .leave (.ok es)) :
    es = s.entries := by
  simp only [readFrame] at h
  repeat' split at h
  all_goals cases h
  rfl

/-- Each pass that goes round consumes a frame. -/
theorem rest_length_lt (s t : State) (h : readFrame s = .again t) :
    t.rest.length < s.rest.length := by
  obtain ⟨payload, entry, -, hrest, -, -⟩ := readFrame_again h
  rw [hrest]
  simp only [List.length_append, length_toLeBytes32]
  omega

/-- `WalReader::read_all` on the file at a path. -/
def readAll : Option Bytes → DbResult (List WalEntry)
  | none => .error (.ofIo .notFound)
  | some bytes => loop readFrame (fun s => s.rest.length) rest_length_lt ⟨bytes, []⟩

/-- `Iterator::rposition`: the index of the last element with the property. -/
def rposition (p : WalEntry → Bool) (entries : List WalEntry) : Option Nat :=
  (entries.reverse.findIdx? p).map fun i => entries.length - 1 - i

/-- `matches!(e.operation, WalOperation::Checkpoint)`. -/
def isCheckpoint (e : WalEntry) : Bool :=
  match e.operation with
  | .checkpoint => true
  | _ => false

/-- The body of the loop of `replay` over the replayed entries. -/
def collect (acc : List (Bytes × Bytes) × List Bytes) (e : WalEntry) :
    List (Bytes × Bytes) × List Bytes :=
  match e.operation with
  | .put key value => (acc.1 ++ [(key, value)], acc.2)
  | .delete key => (acc.1, acc.2 ++ [key])
  | .checkpoint => acc

/-- `WalReader::replay`: the puts and the deletes of the replayed entries. -/
def replay (file : Option Bytes) : DbResult (List (Bytes × Bytes) × List Bytes) := do
  let entries ← readAll file
  let replayEntries :=
    match rposition isCheckpoint entries with
    -- the slice `[..=idx]`, with the checkpoint itself
    | some idx => entries.take (idx + 1)
    | none => entries
  pure (replayEntries.foldl collect ([], []))

end WalReader

/-! ## Writing -/

/-- `WalWriter`: the file as it is on disk, the bytes `BufWriter` holds back, and
the next sequence number. -/
structure WalWriter where
  file : Bytes
  buffer : Bytes
  nextSequence : UInt64
  deriving DecidableEq, Repr

namespace WalWriter

/-- `Write::write_all` on the `BufWriter`. -/
def writeAll (w : WalWriter) (bs : Bytes) : WalWriter :=
  { w with buffer := w.buffer ++ bs }

/-- `WalWriter::sync`. -/
def sync (w : WalWriter) : DbResult Unit × WalWriter :=
  if w.file.length + w.buffer.length ≤ maxFileLen then
    (.ok (), { w with file := w.file ++ w.buffer, buffer := [] })
  else
    (.error (.ofIo .fileTooLarge), w)

variable [Crc32Fast] [RmpSerde WalEntry]

/-- `WalWriter::new` on the file at a path. -/
def new (file : Option Bytes) : DbResult WalWriter := do
  let nextSequence ←
    match file with
    -- an existing file is read to its end, and opened for appending as it is
    | some bytes => do
        let entries ← WalReader.readAll (some bytes)
        pure ((entries.getLast?.map fun e => e.sequence + 1).getD 0)
    | none => pure 0
  pure ⟨file.getD [], [], nextSequence⟩

/-- `WalWriter::write_entry`. -/
def writeEntry (w : WalWriter) (entry : WalEntry) : DbResult Unit × WalWriter :=
  match RmpSerde.toVec entry with
  | .error e => (.error (.serializationError e), w)
  | .ok payload =>
      let crc := Crc32Fast.hash payload
      let len := UInt32.ofNat payload.length
      (.ok (), ((w.writeAll (toLeBytes32 len)).writeAll (toLeBytes32 crc)).writeAll payload)

/-- `WalWriter::append`. The sequence number is spent before the write, so that
also an append that fails advances it. -/
def append (w : WalWriter) (now : UInt64) (operation : WalOperation) :
    DbResult UInt64 × WalWriter :=
  let seq := w.nextSequence
  let entry := WalEntry.new now seq operation
  let w := { w with nextSequence := w.nextSequence + 1 }
  match w.writeEntry entry with
  | (.error e, w) => (.error e, w)
  | (.ok (), w) => (.ok seq, w)

end WalWriter

end MSearchDB.Storage.Wal
