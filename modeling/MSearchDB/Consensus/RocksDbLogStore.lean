import MSearchDB.Lib.Decimal
import MSearchDB.Core.Serde
import MSearchDB.Storage.RocksDb
import MSearchDB.Consensus.LogStore
import MSearchDB.Node.Session

/-!
# The Raft log store on RocksDB

`RocksDbLogStore` of `crates/consensus/src/rocksdb_log_store.rs`. Log entries and
metadata share one ordered map of bytes: an entry is stored under `log:` and its index
with twenty digits, the vote, the committed log id and the last purged one under names
with underscores. JSON is a parameter (`SerdeJson`).

The keys of entries are in the order of their indices (`compare_logKey`) and after all
metadata keys (`metaKey_lt_logKey`), so that an iteration from a log key meets no
metadata.
-/

set_option autoImplicit false

namespace MSearchDB.Consensus

open MSearchDB.Lib
open MSearchDB.Core
open MSearchDB.Storage.RocksDb
open MSearchDB.Node (parseU64)
open Std

/-! ## Keys -/

/-- `VOTE_KEY`. -/
def voteKey : Bytes := asBytes "__vote__"

/-- `COMMITTED_KEY`. -/
def committedKey : Bytes := asBytes "__committed__"

/-- `LAST_PURGED_KEY`. -/
def lastPurgedKey : Bytes := asBytes "__last_purged__"

/-- The text of a log key: `format!("log:{:020}", index)`. -/
def logKeyText (index : UInt64) : String := String.ofList ("log:".toList ++ padded 20 index.toNat)

/-- `log_key`. -/
def logKey (index : UInt64) : Bytes := asBytes (logKeyText index)

/-- `parse_log_key`. -/
def parseLogKey (key : Bytes) : Option UInt64 :=
  (String.fromUTF8? ⟨key.toArray⟩).bind fun s =>
    (s.toList.dropPrefix? "log:".toList).bind parseU64

theorem fromUTF8?_asBytes (s : String) : String.fromUTF8? ⟨(asBytes s).toArray⟩ = some s := by
  have harray : (⟨(asBytes s).toArray⟩ : ByteArray) = s.toByteArray := by
    rw [asBytes, Array.toArray_toList]
  rw [harray, String.fromUTF8?, dif_pos s.isValidUTF8]
  rfl

theorem parseLogKey_asBytes (s : String) :
    parseLogKey (asBytes s) = (s.toList.dropPrefix? "log:".toList).bind parseU64 := by
  rw [parseLogKey, fromUTF8?_asBytes, Option.bind_some]

theorem parseU64_padded (n : UInt64) : parseU64 (padded 20 n.toNat) = some n := by
  have hlt := n.toNat_lt
  rw [parseU64]
  · have hdigits : (padded 20 n.toNat).all Char.isDigit = true :=
      List.all_eq_true.2 fun c hc => isDigit_of_mem_padded hc
    simp [padded_ne_nil, hdigits, ofDigitChars_padded, hlt]
  · -- the first digit is not a plus sign
    intro cs hcs
    have hplus : '+'.isDigit = true := isDigit_of_mem_padded (w := 20) (n := n.toNat)
      (by rw [hcs]; exact List.mem_cons_self)
    exact absurd hplus (by decide)

theorem parseLogKey_logKey (i : UInt64) : parseLogKey (logKey i) = some i := by
  have htext : (logKeyText i).toList = "log:".toList ++ padded 20 i.toNat := String.toList_ofList
  have hdrop : (logKeyText i).toList.dropPrefix? "log:".toList = some (padded 20 i.toNat) :=
    List.dropPrefix?_eq_some_iff.2 ⟨"log:".toList, htext, beq_self_eq_true _⟩
  rw [logKey, parseLogKey_asBytes, hdrop, Option.bind_some]
  exact parseU64_padded i

theorem logKey_injective : Function.Injective logKey := by
  intro i j h
  have hparse := congrArg parseLogKey h
  rw [parseLogKey_logKey, parseLogKey_logKey] at hparse
  exact Option.some_inj.1 hparse

/-- The bytes of an ASCII text are its characters. -/
theorem asBytes_ofList {cs : List Char} (h : ∀ c ∈ cs, c.utf8Size = 1) :
    asBytes (String.ofList cs) = cs.map fun c => c.val.toUInt8 := by
  rw [asBytes, String.toByteArray_ofList]
  induction cs with
  | nil => rfl
  | cons c cs ih =>
      rw [List.utf8Encode_cons, List.utf8Encode_singleton,
        String.utf8EncodeChar_eq_singleton (h c List.mem_cons_self)]
      have hcs := ih fun d hd => h d (List.mem_cons_of_mem _ hd)
      simp [hcs]

theorem utf8Size_of_isDigit {c : Char} (h : c.isDigit = true) : c.utf8Size = 1 := by
  have hrange := Char.isDigit_iff_toNat.1 h
  rw [Char.utf8Size_eq_one_iff, UInt32.le_iff_toNat_le]
  exact hrange.2.trans (by decide)

theorem compare_digit_bytes {c d : Char} (hc : c.isDigit = true) (hd : d.isDigit = true) :
    compare c.val.toUInt8 d.val.toUInt8 = compare (digitValue c) (digitValue d) := by
  have hbyte : ∀ e : Char, e.isDigit = true → e.val.toUInt8.toNat = 48 + digitValue e := by
    intro e he
    have hrange := Char.isDigit_iff_toNat.1 he
    have hmod : e.val.toUInt8.toNat = e.toNat % 256 := UInt32.toNat_toUInt8 e.val
    simp only [digitValue, Char.reduceToNat] at *
    omega
  rcases Nat.lt_trichotomy (digitValue c) (digitValue d) with h | h | h
  · rw [Nat.compare_eq_lt.2 h, compare_eq_lt, UInt8.lt_iff_toNat_lt, hbyte c hc, hbyte d hd]
    omega
  · rw [Nat.compare_eq_eq.2 h, Std.compare_eq_iff_eq, ← UInt8.toNat_inj, hbyte c hc, hbyte d hd, h]
  · rw [Nat.compare_eq_gt.2 h, compare_eq_gt, UInt8.lt_iff_toNat_lt, hbyte c hc, hbyte d hd]
    omega

theorem compare_append_left {α : Type} [Ord α] [ReflOrd α] (xs ys zs : List α) :
    compare (xs ++ ys) (xs ++ zs) = compare ys zs := by
  induction xs with
  | nil => rfl
  | cons x xs ih => rw [List.cons_append, List.cons_append, List.compare_cons_cons, compare_self, ih]; rfl

theorem logKey_eq (i : UInt64) :
    logKey i = asBytes "log:" ++ (padded 20 i.toNat).map fun c => c.val.toUInt8 := by
  have hascii : ∀ c ∈ "log:".toList ++ padded 20 i.toNat, c.utf8Size = 1 := by
    intro c hc
    rcases List.mem_append.1 hc with hc | hc
    · have hlog : ("log:".toList.all fun c => c.utf8Size == 1) = true := by decide
      exact beq_iff_eq.1 (List.all_eq_true.1 hlog c hc)
    · exact utf8Size_of_isDigit (isDigit_of_mem_padded hc)
  have hlog : "log:".toList.map (fun c => c.val.toUInt8) = asBytes "log:" := by decide
  rw [← hlog, ← List.map_append]
  exact asBytes_ofList hascii

theorem compare_logKey (i j : UInt64) : compare (logKey i) (logKey j) = compare i.toNat j.toNat := by
  rw [logKey_eq, logKey_eq, compare_append_left]
  refine compare_map_padded (fun c d => compare_digit_bytes) (by decide) ?_ ?_
  · exact i.toNat_lt.trans (by decide)
  · exact j.toNat_lt.trans (by decide)

theorem logKey_lt_iff {i j : UInt64} : compare (logKey i) (logKey j) = .lt ↔ i < j := by
  rw [compare_logKey, Nat.compare_eq_lt, UInt64.lt_iff_toNat_lt]

theorem logKey_le_iff {i j : UInt64} : (compare (logKey i) (logKey j)).isLE = true ↔ i ≤ j := by
  rw [compare_logKey, Nat.isLE_compare, UInt64.le_iff_toNat_le]

/-- A key of the metadata. -/
def IsMetaKey (key : Bytes) : Prop := key = voteKey ∨ key = committedKey ∨ key = lastPurgedKey

/-- An underscore comes before the first letter of a log key. -/
theorem metaKey_lt_logKey {key : Bytes} (h : IsMetaKey key) (i : UInt64) :
    compare key (logKey i) = .lt := by
  rw [logKey_eq]
  rcases h with rfl | rfl | rfl
  · rfl
  · rfl
  · rfl

theorem parseLogKey_metaKey {key : Bytes} (h : IsMetaKey key) : parseLogKey key = none := by
  rcases h with rfl | rfl | rfl
  · rw [voteKey, parseLogKey_asBytes]; rfl
  · rw [committedKey, parseLogKey_asBytes]; rfl
  · rw [lastPurgedKey, parseLogKey_asBytes]; rfl

theorem logKey_ne_metaKey {key : Bytes} (h : IsMetaKey key) (i : UInt64) : logKey i ≠ key := by
  rintro rfl
  have hparse := parseLogKey_metaKey h
  rw [parseLogKey_logKey] at hparse
  simp at hparse

/-! ## The store -/

/-- `RocksDbLogStore`: the one column family of its database. -/
structure RocksDbLogStore where
  db : ColumnFamily

namespace RocksDbLogStore

/-- `RocksDbLogStore::new` at a path with no database. -/
def new : RocksDbLogStore := ⟨∅⟩

/-- One record of a batch. -/
def writeOne (db : ColumnFamily) : Write Bytes Bytes → ColumnFamily
  | .put key value => db.insert key value
  | .delete key => db.erase key

/-- `DB::write`. -/
def write (db : ColumnFamily) (batch : List (Write Bytes Bytes)) : ColumnFamily := batch.foldl writeOne db

section Operations

variable [SerdeJson Entry] [SerdeJson Vote] [SerdeJson LogId]

/-- The loop of `try_get_log_entries`. -/
def collectLoop (start : UInt64) (stop : Option UInt64) :
    List (Bytes × Bytes) → Except LogStoreError (List Entry)
  | [] => .ok []
  | (key, value) :: rest =>
      match parseLogKey key with
      | none => .ok []
      | some idx =>
          if stop.any fun e => e ≤ idx then .ok []
          else if idx < start then collectLoop start stop rest
          else
            match SerdeJson.fromSlice value with
            | .error e =>
                .error (.readLogs ("failed to deserialize log entry " ++ toString idx.toNat ++ ": " ++ e))
            | .ok entry => (collectLoop start stop rest).map (entry :: ·)

/-- The first index of a range. The sum wraps, as in a release build. -/
def startOf : Bound → UInt64
  | .included s => s
  | .excluded s => s + 1
  | .unbounded => 0

/-- The index after a range. The sum wraps, as in a release build. -/
def stopOf : Bound → Option UInt64
  | .included e => some (e + 1)
  | .excluded e => some e
  | .unbounded => none

/-- `try_get_log_entries`. -/
def tryGetLogEntries (st : RocksDbLogStore) (lo hi : Bound) : Except LogStoreError (List Entry) :=
  collectLoop (startOf lo) (stopOf hi) (DB.iteratorFrom st.db (logKey (startOf lo)))

/-- A value of the metadata: what `read_vote`, `read_committed` and `get_log_state` do
with their keys. -/
def readMeta {α : Type} [SerdeJson α] (st : RocksDbLogStore) (key : Bytes)
    (failed : String → LogStoreError) : Except LogStoreError (Option α) :=
  match st.db[key]? with
  | none => .ok none
  | some v =>
      match SerdeJson.fromSlice v with
      | .ok x => .ok (some x)
      | .error e => .error (failed e)

/-- The loop of `get_log_state`, from the last key back. -/
def lastLoop : List (Bytes × Bytes) → Except LogStoreError (Option LogId)
  | [] => .ok none
  | (key, value) :: rest =>
      match parseLogKey key with
      | none => lastLoop rest
      | some _ =>
          match SerdeJson.fromSlice (α := Entry) value with
          | .error e => .error (.readLogs ("failed to deserialize last log entry: " ++ e))
          | .ok entry => .ok (some entry.logId)

/-- `get_log_state`. -/
def getLogState (st : RocksDbLogStore) : Except LogStoreError LogState := do
  let lastPurged ← st.readMeta lastPurgedKey
    fun e => .readLogs ("failed to deserialize last_purged: " ++ e)
  let lastLogId ← lastLoop st.db.toList.reverse
  return ⟨lastPurged, lastLogId.or lastPurged⟩

/-- The batch of `append`. -/
def appendBatch : List Entry → Except LogStoreError (List (Write Bytes Bytes))
  | [] => .ok []
  | entry :: entries =>
      match SerdeJson.toVec entry with
      | .error e => .error (.writeLogs ("failed to serialize log entry: " ++ e))
      | .ok value => (appendBatch entries).map (.put (logKey entry.logId.index) value :: ·)

/-- The deletions of `truncate` and `purge`, up to a last key. -/
def deleteLoop (endKey : Bytes) : List (Bytes × Bytes) → List (Write Bytes Bytes)
  | [] => []
  | (key, _) :: rest =>
      if compare key endKey = .gt then []
      else
        match parseLogKey key with
        | some _ => .delete key :: deleteLoop endKey rest
        | none => []

/-- A change of the store that may fail before it is written. -/
def commit (st : RocksDbLogStore) (batch : Except LogStoreError (List (Write Bytes Bytes))) :
    RocksDbLogStore × LogAnswer :=
  match batch with
  | .ok batch => (⟨write st.db batch⟩, .done (.ok ()))
  | .error e => (st, .done (.error e))

/-- A value written under a key of the metadata. -/
def putMeta {α : Type} [SerdeJson α] (key : Bytes) (failed : String → LogStoreError) (x : α) :
    Except LogStoreError (List (Write Bytes Bytes)) :=
  match SerdeJson.toVec x with
  | .error e => .error (failed e)
  | .ok value => .ok [.put key value]

/-- `u64::MAX`. -/
def u64Max : UInt64 := 18446744073709551615

/-- A call, with its answer. -/
def exec (st : RocksDbLogStore) : LogOp → RocksDbLogStore × LogAnswer
  | .append entries => st.commit (appendBatch entries)
  | .truncate logId =>
      st.commit (.ok (deleteLoop (logKey u64Max) (DB.iteratorFrom st.db (logKey logId.index))))
  | .purge logId =>
      st.commit ((putMeta lastPurgedKey
        (fun e => .writeLogs ("failed to serialize last_purged: " ++ e)) logId).map
          (deleteLoop (logKey logId.index) (DB.iteratorFrom st.db (logKey 0)) ++ ·))
  | .saveVote vote =>
      st.commit (putMeta voteKey (fun e => .writeVote ("failed to serialize vote: " ++ e)) vote)
  | .readVote =>
      (st, .vote (st.readMeta voteKey fun e => .readVote ("failed to deserialize vote: " ++ e)))
  | .saveCommitted (some logId) =>
      st.commit (putMeta committedKey (fun e => .writeLogs ("failed to serialize committed: " ++ e)) logId)
  | .saveCommitted none => st.commit (.ok [.delete committedKey])
  | .readCommitted =>
      (st, .committed (st.readMeta committedKey
        fun e => .readLogs ("failed to deserialize committed: " ++ e)))
  | .getLogState => (st, .state st.getLogState)
  | .tryGetLogEntries lo hi => (st, .entries (st.tryGetLogEntries lo hi))

/-- The store after a call. -/
def step (st : RocksDbLogStore) (op : LogOp) : RocksDbLogStore := (st.exec op).1

end Operations

end RocksDbLogStore

end MSearchDB.Consensus
