import MSearchDB.Lib.OrderCode
import MSearchDB.Lib.Run
import MSearchDB.Consensus.RocksDbLogStore

/-!
# Log keys in order

The keys of `RocksDbLogStore` are those of three values of metadata and the log keys, and
the log keys are an order preserving code of the indices (`logKeys`). No call of the store
writes another key. So in every store that calls can lead to, `try_get_log_entries`,
`truncate` and `purge`, which iterate from a log key on, meet the stored indices from there
on in their order, and `get_log_state`, which goes back from the last key, stops at the
greatest index.
-/

set_option autoImplicit false

namespace MSearchDB.Consensus

open MSearchDB.Lib
open MSearchDB.Core
open MSearchDB.Storage.RocksDb
open Std

namespace RocksDbLogStore

/-! ## The code of the indices -/

theorem compare_toNat (i j : UInt64) : compare i.toNat j.toNat = compare i j := by
  rcases Nat.lt_trichotomy i.toNat j.toNat with h | h | h
  · rw [Nat.compare_eq_lt.2 h, eq_comm, compare_eq_lt]
    exact UInt64.lt_iff_toNat_lt.2 h
  · rw [Nat.compare_eq_eq.2 h, eq_comm, Std.compare_eq_iff_eq]
    exact UInt64.toNat_inj.1 h
  · rw [Nat.compare_eq_gt.2 h, eq_comm, compare_eq_gt]
    exact UInt64.lt_iff_toNat_lt.2 h

/-- `log_key` and `parse_log_key`. -/
def logKeys : OrderCode UInt64 Bytes where
  code := logKey
  parse := parseLogKey
  parse_code := parseLogKey_logKey
  compare_code i j := (compare_logKey i j).trans (compare_toNat i j)

theorem outside_metaKey {key : Bytes} (h : IsMetaKey key) : logKeys.Outside key :=
  ⟨parseLogKey_metaKey h, metaKey_lt_logKey h⟩

/-- The log keys are an order preserving code, apart from the metadata. -/
structure CodesIndices : Prop where
  lt_iff : ∀ i j : UInt64, compare (logKey i) (logKey j) = .lt ↔ i < j
  parse_logKey : ∀ i : UInt64, parseLogKey (logKey i) = some i
  meta_lt : ∀ key ∈ [voteKey, committedKey, lastPurgedKey], ∀ i : UInt64, compare key (logKey i) = .lt
  parse_meta : ∀ key ∈ [voteKey, committedKey, lastPurgedKey], parseLogKey key = none

theorem isMetaKey_iff {key : Bytes} : IsMetaKey key ↔ key ∈ [voteKey, committedKey, lastPurgedKey] := by
  simp only [IsMetaKey, List.mem_cons, List.not_mem_nil, or_false]

theorem codesIndices : CodesIndices where
  lt_iff _ _ := logKey_lt_iff
  parse_logKey := parseLogKey_logKey
  meta_lt _ h := metaKey_lt_logKey (isMetaKey_iff.2 h)
  parse_meta _ h := parseLogKey_metaKey (isMetaKey_iff.2 h)

/-! ## The keys of a store -/

/-- A key that the store writes. -/
def IsStoreKey (key : Bytes) : Prop := IsMetaKey key ∨ ∃ i, key = logKey i

/-- All keys are keys that the store writes. -/
def StoreKeys (db : ColumnFamily) : Prop := ∀ key ∈ db, IsStoreKey key

/-- All records of a batch are written under such keys. -/
def BatchKeys (batch : List (Write Bytes Bytes)) : Prop :=
  ∀ key value, Write.put key value ∈ batch → IsStoreKey key

theorem BatchKeys.append {xs ys : List (Write Bytes Bytes)} (hx : BatchKeys xs) (hy : BatchKeys ys) :
    BatchKeys (xs ++ ys) := by
  intro key value h
  rcases List.mem_append.1 h with h | h
  · exact hx key value h
  · exact hy key value h

theorem StoreKeys.writeOne {db : ColumnFamily} (h : StoreKeys db) {w : Write Bytes Bytes}
    (hw : BatchKeys [w]) : StoreKeys (writeOne db w) := by
  intro key hkey
  cases w with
  | put k value =>
      rcases ExtTreeMap.mem_insert.1 hkey with heq | hmem
      · rw [← Std.compare_eq_iff_eq.1 heq]
        exact hw k value List.mem_cons_self
      · exact h key hmem
  | delete k => exact h key (ExtTreeMap.mem_erase.1 hkey).2

theorem StoreKeys.write {db : ColumnFamily} (h : StoreKeys db) {batch : List (Write Bytes Bytes)}
    (hbatch : BatchKeys batch) : StoreKeys (write db batch) := by
  induction batch generalizing db with
  | nil => exact h
  | cons w batch ih =>
      apply ih
      · apply h.writeOne
        intro key value hmem
        obtain rfl := List.mem_singleton.1 hmem
        exact hbatch key value List.mem_cons_self
      · exact fun key value hmem => hbatch key value (List.mem_cons_of_mem _ hmem)

theorem batchKeys_deleteLoop (endKey : Bytes) (l : List (Bytes × Bytes)) : BatchKeys (deleteLoop endKey l) := by
  induction l with
  | nil => exact fun key value h => absurd h List.not_mem_nil
  | cons kv l ih =>
      intro key value h
      rw [deleteLoop] at h
      split at h
      · cases h
      · split at h
        · -- a deletion writes nothing
          rcases List.mem_cons.1 h with h | h
          · cases h
          · exact ih key value h
        · cases h

section Calls

variable [SerdeJson Entry] [SerdeJson Vote] [SerdeJson LogId]

omit [SerdeJson Vote] [SerdeJson LogId] in
theorem batchKeys_appendBatch (entries : List Entry) :
    ∀ batch, appendBatch entries = .ok batch → BatchKeys batch := by
  induction entries with
  | nil =>
      intro batch h
      obtain rfl := Except.ok.inj h
      exact fun key value h => absurd h List.not_mem_nil
  | cons entry entries ih =>
      intro batch h
      rw [appendBatch] at h
      split at h
      · cases h
      next v hv =>
        cases hrest : appendBatch entries with
        | error e =>
            rw [hrest] at h
            cases h
        | ok rest =>
            rw [hrest] at h
            obtain rfl := Except.ok.inj h
            intro key value hmem
            rcases List.mem_cons.1 hmem with hmem | hmem
            · obtain ⟨rfl, -⟩ := Write.put.inj hmem
              exact Or.inr ⟨entry.logId.index, rfl⟩
            · exact ih rest hrest key value hmem

omit [SerdeJson Entry] [SerdeJson Vote] [SerdeJson LogId] in
theorem batchKeys_putMeta {α : Type} [SerdeJson α] {key : Bytes} (hkey : IsMetaKey key)
    (failed : String → LogStoreError) (x : α) :
    ∀ batch, putMeta key failed x = .ok batch → BatchKeys batch := by
  intro batch h
  unfold putMeta at h
  split at h
  · cases h
  · obtain rfl := Except.ok.inj h
    intro k value hmem
    obtain ⟨rfl, -⟩ := Write.put.inj (List.mem_singleton.1 hmem)
    exact Or.inl hkey

omit [SerdeJson Entry] [SerdeJson Vote] [SerdeJson LogId] in
theorem StoreKeys.commit {st : RocksDbLogStore} (h : StoreKeys st.db)
    {batch : Except LogStoreError (List (Write Bytes Bytes))}
    (hbatch : ∀ b, batch = .ok b → BatchKeys b) : StoreKeys (st.commit batch).1.db := by
  cases batch with
  | error e => exact h
  | ok b => exact h.write (hbatch b rfl)

theorem StoreKeys.step {st : RocksDbLogStore} (h : StoreKeys st.db) (op : LogOp) :
    StoreKeys (st.step op).db := by
  cases op with
  | append entries => exact h.commit (batchKeys_appendBatch entries)
  | truncate logId =>
      apply h.commit
      rintro b heq
      obtain rfl := Except.ok.inj heq
      exact batchKeys_deleteLoop _ _
  | purge logId =>
      apply h.commit
      intro b heq
      cases hput : putMeta lastPurgedKey
          (fun e => .writeLogs ("failed to serialize last_purged: " ++ e)) logId with
      | error e =>
          rw [hput] at heq
          cases heq
      | ok rest =>
          rw [hput] at heq
          obtain rfl := Except.ok.inj heq
          apply (batchKeys_deleteLoop _ _).append
          exact batchKeys_putMeta (Or.inr (Or.inr rfl)) _ _ rest hput
  | saveVote vote => exact h.commit (batchKeys_putMeta (Or.inl rfl) _ vote)
  | readVote => exact h
  | saveCommitted committed =>
      cases committed with
      | some logId => exact h.commit (batchKeys_putMeta (Or.inr (Or.inl rfl)) _ logId)
      | none =>
          apply h.commit
          intro b heq
          obtain rfl := Except.ok.inj heq
          intro key value hmem
          cases List.mem_singleton.1 hmem
  | readCommitted => exact h
  | getLogState => exact h
  | tryGetLogEntries lo hi => exact h

theorem storeKeys_run (ops : List LogOp) : StoreKeys (ops.foldl step new).db := by
  apply (along_true ops new).invariant (I := fun st => StoreKeys st.db)
  · exact fun st op h _ => h.step op
  · intro key hkey
    exact absurd hkey ExtTreeMap.not_mem_empty

end Calls

/-! ## Walks -/

/-- An entry is stored for the index. -/
def Stores (st : RocksDbLogStore) (i : UInt64) : Prop := logKey i ∈ st.db

/-- An iteration from a log key meets exactly the stored indices from there on, in their
order. The search back from the last key meets the greatest stored index before any other,
and the loop of `get_log_state` answers with its entry. -/
structure WalksInOrder [SerdeJson Entry] (st : RocksDbLogStore) : Prop where
  forward : ∀ i : UInt64, ∃ is : List UInt64,
    (DB.iteratorFrom st.db (logKey i)).map (fun kv => parseLogKey kv.1) = is.map some ∧
      is.Pairwise (fun j j' => j < j') ∧ ∀ j, j ∈ is ↔ i ≤ j ∧ st.Stores j
  backward : ∀ i : UInt64, st.db.toList.reverse.findSome? (fun kv => parseLogKey kv.1) = some i ↔
    st.Stores i ∧ ∀ j, st.Stores j → j ≤ i
  last : ∀ (i : UInt64) (value : Bytes), st.db[logKey i]? = some value → (∀ j, st.Stores j → j ≤ i) →
    lastLoop st.db.toList.reverse = lastLoop [(logKey i, value)]

theorem stores_iff {st : RocksDbLogStore} {i : UInt64} : st.Stores i ↔ logKeys.Stores st.db.toList i := by
  constructor
  · intro h
    obtain ⟨value, hvalue⟩ := Option.isSome_iff_exists.1 (ExtTreeMap.mem_iff_isSome_getElem?.1 h)
    exact ⟨value, ExtTreeMap.mem_toList_iff_getElem?_eq_some.2 hvalue⟩
  · rintro ⟨value, hvalue⟩
    exact mem_of_mem_toList hvalue

theorem StoreKeys.covers {db : ColumnFamily} (h : StoreKeys db) : logKeys.Covers db.toList := fun e he =>
  (h e.1 (mem_of_mem_toList he)).imp_left outside_metaKey

theorem greatest_iff {st : RocksDbLogStore} {i : UInt64} :
    (∀ j, logKeys.Stores st.db.toList j → j = i ∨ compare j i = .lt) ↔ ∀ j, st.Stores j → j ≤ i := by
  refine forall_congr' fun j => ?_
  rw [stores_iff, compare_eq_lt, UInt64.le_iff_lt_or_eq, or_comm]

section Search

variable [SerdeJson Entry]

/-- Keys that are not log keys are passed over. -/
theorem lastLoop_append {skipped : List (Bytes × Bytes)} (h : ∀ kv ∈ skipped, parseLogKey kv.1 = none)
    (rest : List (Bytes × Bytes)) : lastLoop (skipped ++ rest) = lastLoop rest := by
  induction skipped with
  | nil => rfl
  | cons kv skipped ih =>
      rw [List.forall_mem_cons] at h
      rw [List.cons_append, lastLoop, h.1]
      exact ih h.2

/-- The loop stops at a log key. -/
theorem lastLoop_logKey (i : UInt64) (value : Bytes) (rest : List (Bytes × Bytes)) :
    lastLoop ((logKey i, value) :: rest) = lastLoop [(logKey i, value)] := by
  rw [lastLoop, lastLoop, parseLogKey_logKey]

theorem StoreKeys.walksInOrder {st : RocksDbLogStore} (h : StoreKeys st.db) : st.WalksInOrder := by
  have hascending : Ascending st.db.toList := ascending_toList st.db
  have hbackward : ∀ i : UInt64, st.db.toList.reverse.findSome? (fun kv => parseLogKey kv.1) = some i ↔
      st.Stores i ∧ ∀ j, st.Stores j → j ≤ i := by
    intro i
    rw [← greatest_iff, stores_iff]
    exact h.covers.findSome?_reverse_eq_some_iff hascending
  refine ⟨fun i => ?_, hbackward, fun i value hvalue hgreatest => ?_⟩
  · obtain ⟨is, hparsed, hsorted, hmem⟩ := h.covers.map_parse_filter hascending i
    refine ⟨is, hparsed, hsorted.imp compare_eq_lt.1, fun j => ?_⟩
    rw [hmem, isLE_compare, stores_iff]
  · have hstored : st.Stores i := by
      rw [Stores, ExtTreeMap.mem_iff_isSome_getElem?, hvalue]
      rfl
    have hfind := (hbackward i).2 ⟨hstored, hgreatest⟩
    obtain ⟨skipped, v, rest, hsplit, hskipped, -⟩ := h.covers.split_of_findSome? hascending hfind
    -- the entry at which the search stops is the one stored for the index
    have hmem : (logKey i, v) ∈ st.db.toList := by
      rw [← List.mem_reverse, hsplit]
      exact List.mem_append_right _ List.mem_cons_self
    have hsame : st.db[logKey i]? = some v := ExtTreeMap.mem_toList_iff_getElem?_eq_some.1 hmem
    obtain rfl := Option.some.inj (hvalue.symm.trans hsame)
    rw [hsplit, lastLoop_append hskipped]
    exact lastLoop_logKey i value rest

end Search

theorem log_keys_ordered [SerdeJson Entry] [SerdeJson Vote] [SerdeJson LogId] :
    CodesIndices ∧ ∀ ops : List LogOp, (ops.foldl step new).WalksInOrder :=
  ⟨codesIndices, fun ops => (storeKeys_run ops).walksInOrder⟩

end RocksDbLogStore

end MSearchDB.Consensus
