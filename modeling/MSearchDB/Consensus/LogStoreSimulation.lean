import MSearchDB.Lib.OrderedMap
import MSearchDB.Lib.Run
import MSearchDB.Consensus.RocksDbLogStore
import Mathlib.Data.List.TakeWhile

/-!
# The two log stores are equivalent

`Matches m st` says that the database of `st` holds the JSON codes of what the store `m`
in memory holds, each under its key, and nothing else. The iterations of matching stores
go over the same entries (`Matches.iteratorFrom_logKey`), and every operation returns
the same and leaves matching stores (`matches_exec`). The answers of the two stores to
any sequence of calls are therefore equal (`log_stores_equivalent`).
-/

set_option autoImplicit false

namespace MSearchDB.Consensus

open MSearchDB.Lib
open MSearchDB.Core
open MSearchDB.Storage.RocksDb
open Std

namespace RocksDbLogStore

/-! ## Stores that hold the same -/

/-- A cell of the database holds the code of a value, which is read back, or is empty when there is
none. -/
def Holds {α : Type} [SerdeJson α] (cell : Option Bytes) (x : Option α) : Prop :=
  match cell, x with
  | none, none => True
  | some v, some x => SerdeJson.Codes x v
  | _, _ => False

theorem Holds.some_iff {α : Type} [SerdeJson α] {cell : Option Bytes} {x : Option α}
    (h : Holds cell x) {v : Bytes} : cell = some v ↔ ∃ a, x = some a ∧ SerdeJson.Codes a v := by
  cases cell with
  | none =>
      cases x with
      | none => simp
      | some a => exact h.elim
  | some w =>
      cases x with
      | none => exact h.elim
      | some a =>
          have henc : SerdeJson.Codes a w := h
          constructor
          · rintro ⟨⟩
            exact ⟨a, rfl, henc⟩
          · rintro ⟨a', ha', henc'⟩
            rw [← Option.some.inj ha'] at henc'
            exact congrArg some (Except.ok.inj (henc.1.symm.trans henc'.1))

/-- What is held can be read. -/
theorem readMeta_eq {α : Type} [SerdeJson α] {st : RocksDbLogStore} {key : Bytes} {x : Option α}
    (h : Holds st.db[key]? x) (failed : String → LogStoreError) : st.readMeta key failed = .ok x := by
  rw [readMeta]
  cases hcell : st.db[key]? with
  | none =>
      rw [hcell] at h
      cases x with
      | none => rfl
      | some a => exact h.elim
  | some v =>
      rw [hcell] at h
      cases x with
      | none => exact h.elim
      | some a =>
          have henc : SerdeJson.Codes a v := h
          simp [henc.2]

/-! ## Loops over coded entries -/

theorem startsAt_iff {lo : Bound} (hlo : lo.Below) (i : UInt64) :
    lo.startsAt i = decide (startOf lo ≤ i) := by
  cases lo with
  | included s => rfl
  | unbounded => simp [Bound.startsAt, startOf, UInt64.zero_le]
  | excluded s =>
      have hsum : (s + 1).toNat = s.toNat + 1 := by
        rw [UInt64.toNat_add]
        exact Nat.mod_eq_of_lt hlo
      simp only [Bound.startsAt, startOf, UInt64.lt_iff_toNat_lt, UInt64.le_iff_toNat_le, hsum]
      exact decide_eq_decide.2 Nat.lt_iff_add_one_le

theorem endsAt_iff {hi : Bound} (hhi : hi.Below) (i : UInt64) :
    hi.endsAt i = !((stopOf hi).any fun e => e ≤ i) := by
  cases hi with
  | unbounded => rfl
  | excluded e =>
      simp only [Bound.endsAt, stopOf, Option.any_some]
      rw [← decide_not, decide_eq_decide, UInt64.not_le]
  | included e =>
      have hsum : (e + 1).toNat = e.toNat + 1 := by
        rw [UInt64.toNat_add]
        exact Nat.mod_eq_of_lt hhi
      simp only [Bound.endsAt, stopOf, Option.any_some, UInt64.le_iff_toNat_le, hsum]
      rw [← decide_not, decide_eq_decide]
      omega

theorem write_deletes (db : ColumnFamily) (ks : List Bytes) :
    write db (ks.map .delete) = ks.foldl ExtTreeMap.erase db := by
  rw [write, List.foldl_map]
  rfl

theorem write_append (db : ColumnFamily) (xs ys : List (Write Bytes Bytes)) :
    write db (xs ++ ys) = write (write db xs) ys :=
  List.foldl_append

theorem le_u64Max (i : UInt64) : i ≤ u64Max := by
  rw [UInt64.le_iff_toNat_le]
  exact Nat.le_of_lt_succ i.toNat_lt

/-- A value saved under a key of the metadata. -/
theorem commit_putMeta {α : Type} [SerdeJson α] {st : RocksDbLogStore} {key v : Bytes} {x : α}
    (henc : SerdeJson.toVec x = .ok v) (failed : String → LogStoreError) :
    st.commit (putMeta key failed x) = (⟨st.db.insert key v⟩, .done (.ok ())) := by
  rw [putMeta, henc]
  rfl

theorem getElem?_insert_of_ne {db : ColumnFamily} {key k v : Bytes} (h : k ≠ key) :
    (db.insert key v)[k]? = db[k]? := by
  simp [ExtTreeMap.getElem?_insert, Ne.symm h]

section Codes

variable [SerdeJson Entry]

/-- The code of an entry. -/
def bytesOf (e : Entry) : Bytes :=
  match SerdeJson.toVec e with
  | .ok v => v
  | .error _ => []

/-- An entry of the log as an entry of the database. -/
def codeEntry (ie : UInt64 × Entry) : Bytes × Bytes := (logKey ie.1, bytesOf ie.2)

theorem bytesOf_eq {e : Entry} {v : Bytes} (h : SerdeJson.toVec e = .ok v) : bytesOf e = v := by
  rw [bytesOf, h]

theorem ascending_codeEntry {l : List (UInt64 × Entry)} (h : Ascending l) :
    Ascending (l.map codeEntry) :=
  h.map fun _ _ hab => logKey_lt_iff.2 (compare_eq_lt.1 hab)

/-- The loop reads the entries up to the end of the range. -/
theorem collectLoop_codeEntry {start : UInt64} {stop : Option UInt64} (l : List (UInt64 × Entry))
    (hstart : ∀ ie ∈ l, start ≤ ie.1) (henc : ∀ ie ∈ l, SerdeJson.Codes ie.2 (bytesOf ie.2)) :
    collectLoop start stop (l.map codeEntry) =
      .ok ((l.takeWhile fun ie => !(stop.any fun e => e ≤ ie.1)).map Prod.snd) := by
  induction l with
  | nil => rfl
  | cons ie l ih =>
      have hrest := ih (fun je hje => hstart je (List.mem_cons_of_mem _ hje))
        (fun je hje => henc je (List.mem_cons_of_mem _ hje))
      have hge := UInt64.not_lt.2 (hstart ie List.mem_cons_self)
      have hdecode := (henc ie List.mem_cons_self).2
      rw [List.map_cons, codeEntry, collectLoop, parseLogKey_logKey]
      cases hstop : stop.any fun e => e ≤ ie.1 with
      | true => simp [hstop]
      | false => simp [hstop, hge, hdecode, hrest, Except.map]

/-- The loop passes over keys that are not log keys. -/
theorem lastLoop_filter (l : List (Bytes × Bytes)) :
    lastLoop (l.filter fun kv => (parseLogKey kv.1).isSome) = lastLoop l := by
  induction l with
  | nil => rfl
  | cons kv l ih =>
      obtain ⟨key, value⟩ := kv
      cases hparse : parseLogKey key with
      | none => simp [hparse, lastLoop, ih]
      | some i => simp [hparse, lastLoop]

/-- The loop deletes the entries up to the last key. -/
theorem deleteLoop_codeEntry (j : UInt64) (l : List (UInt64 × Entry)) :
    deleteLoop (logKey j) (l.map codeEntry) =
      (((l.takeWhile fun ie => ie.1 ≤ j).map Prod.fst).map logKey).map .delete := by
  induction l with
  | nil => rfl
  | cons ie l ih =>
      have hgt : compare (logKey ie.1) (logKey j) = .gt ↔ ¬ ie.1 ≤ j := by
        rw [compare_logKey, Nat.compare_eq_gt, UInt64.not_le, UInt64.lt_iff_toNat_lt]
      rw [List.map_cons, codeEntry, deleteLoop, parseLogKey_logKey]
      by_cases hle : ie.1 ≤ j
      · rw [if_neg (by simpa [hgt] using hle), List.takeWhile_cons_of_pos (by simpa using hle), ih]
        rfl
      · rw [if_pos (hgt.2 hle), List.takeWhile_cons_of_neg (by simpa using hle)]
        rfl

end Codes

section Simulation

variable [SerdeJson Entry] [SerdeJson Vote] [SerdeJson LogId]

/-- The database holds what the store in memory does, and nothing else. -/
structure Matches (m : MemLogStore) (st : RocksDbLogStore) : Prop where
  log : ∀ i : UInt64, Holds st.db[logKey i]? m.log[i]?
  vote : Holds st.db[voteKey]? m.vote
  committed : Holds st.db[committedKey]? m.committed
  lastPurged : Holds st.db[lastPurgedKey]? m.lastPurged
  keys : ∀ k ∈ st.db, IsMetaKey k ∨ ∃ i, k = logKey i

variable {m : MemLogStore} {st : RocksDbLogStore}

theorem matches_new : Matches MemLogStore.new new where
  log i := by simp [new, MemLogStore.new, Holds]
  vote := by simp [new, MemLogStore.new, Holds]
  committed := by simp [new, MemLogStore.new, Holds]
  lastPurged := by simp [new, MemLogStore.new, Holds]
  keys k hk := by simp [new] at hk

theorem Matches.codes_bytesOf (h : Matches m st) {i : UInt64} {e : Entry} (he : m.log[i]? = some e) :
    SerdeJson.Codes e (bytesOf e) := by
  have hcell := h.log i
  rw [he] at hcell
  cases hdb : st.db[logKey i]? with
  | none =>
      rw [hdb] at hcell
      exact hcell.elim
  | some v =>
      rw [hdb] at hcell
      have henc : SerdeJson.Codes e v := hcell
      rwa [bytesOf_eq henc.1]

/-- The entries of the database under log keys are those of the log. -/
theorem Matches.mem_toList_iff (h : Matches m st) (i : UInt64) (v : Bytes) :
    (logKey i, v) ∈ st.db.toList ↔ (logKey i, v) ∈ m.log.toList.map codeEntry := by
  rw [ExtTreeMap.mem_toList_iff_getElem?_eq_some, (h.log i).some_iff, List.mem_map]
  constructor
  · rintro ⟨e, he, henc⟩
    refine ⟨(i, e), ExtTreeMap.mem_toList_iff_getElem?_eq_some.2 he, ?_⟩
    rw [codeEntry, bytesOf_eq henc.1]
  · rintro ⟨⟨j, e⟩, hmem, heq⟩
    obtain ⟨hkey, rfl⟩ := Prod.mk.inj heq
    obtain rfl := logKey_injective hkey
    have he := ExtTreeMap.mem_toList_iff_getElem?_eq_some.1 hmem
    exact ⟨e, he, h.codes_bytesOf he⟩

/-- The iteration from a log key on. -/
theorem Matches.iteratorFrom_logKey (h : Matches m st) (s : UInt64) :
    DB.iteratorFrom st.db (logKey s) = (m.log.toList.filter fun ie => s ≤ ie.1).map codeEntry := by
  refine Ascending.eq_of_mem_iff ((ascending_toList _).filter _)
    (ascending_codeEntry ((ascending_toList _).filter _)) ?_
  rintro ⟨k, v⟩
  rw [DB.iteratorFrom, List.mem_filter]
  constructor
  · rintro ⟨hmem, hle⟩
    rcases h.keys k (mem_of_mem_toList hmem) with hmeta | ⟨i, rfl⟩
    · -- the iteration starts after all metadata
      have hlt := OrientedOrd.eq_swap (a := logKey s) (b := k)
      rw [metaKey_lt_logKey hmeta s] at hlt
      rw [hlt] at hle
      simp at hle
    · obtain ⟨⟨j, e⟩, hmem', heq⟩ := List.mem_map.1 ((h.mem_toList_iff i v).1 hmem)
      obtain ⟨hkey, -⟩ := Prod.mk.inj heq
      obtain rfl := logKey_injective hkey
      refine List.mem_map.2 ⟨(j, e), List.mem_filter.2 ⟨hmem', ?_⟩, heq⟩
      simpa using logKey_le_iff.1 hle
  · intro hmem
    obtain ⟨⟨i, e⟩, hfilter, heq⟩ := List.mem_map.1 hmem
    obtain ⟨hmem', hle⟩ := List.mem_filter.1 hfilter
    obtain ⟨rfl, rfl⟩ := Prod.mk.inj heq
    refine ⟨(h.mem_toList_iff i _).2 (List.mem_map.2 ⟨(i, e), hmem', rfl⟩), ?_⟩
    exact logKey_le_iff.2 (by simpa using hle)

/-- The entries whose key can be parsed. -/
theorem Matches.filter_parseLogKey (h : Matches m st) :
    (st.db.toList.filter fun kv => (parseLogKey kv.1).isSome) = m.log.toList.map codeEntry := by
  refine Ascending.eq_of_mem_iff ((ascending_toList _).filter _)
    (ascending_codeEntry (ascending_toList _)) ?_
  rintro ⟨k, v⟩
  rw [List.mem_filter]
  constructor
  · rintro ⟨hmem, hparse⟩
    rcases h.keys k (mem_of_mem_toList hmem) with hmeta | ⟨i, rfl⟩
    · simp [parseLogKey_metaKey hmeta] at hparse
    · exact (h.mem_toList_iff i v).1 hmem
  · intro hmem
    obtain ⟨⟨i, e⟩, -, heq⟩ := List.mem_map.1 hmem
    obtain ⟨rfl, rfl⟩ := Prod.mk.inj heq
    exact ⟨(h.mem_toList_iff i _).2 hmem, by simp [parseLogKey_logKey]⟩

theorem Matches.tryGetLogEntries (h : Matches m st) {lo hi : Bound} (hlo : lo.Below) (hhi : hi.Below) :
    st.tryGetLogEntries lo hi = .ok (m.tryGetLogEntries lo hi) := by
  have hmem : ∀ ie ∈ m.log.toList.filter (fun ie => startOf lo ≤ ie.1), m.log[ie.1]? = some ie.2 :=
    fun ie hie => ExtTreeMap.mem_toList_iff_getElem?_eq_some.1 (List.mem_filter.1 hie).1
  rw [RocksDbLogStore.tryGetLogEntries, h.iteratorFrom_logKey,
    collectLoop_codeEntry _ (fun ie hie => by simpa using (List.mem_filter.1 hie).2)
      (fun ie hie => h.codes_bytesOf (hmem ie hie)), MemLogStore.tryGetLogEntries]
  rw [Ascending.takeWhile_eq_filter ((ascending_toList m.log).filter _), List.filter_filter]
  · simp only [startsAt_iff hlo, endsAt_iff hhi, Bool.and_comm]
  · -- an index after one past the end is past the end
    intro a _ b _ hab hb
    have hlt := compare_eq_lt.1 hab
    cases hstop : stopOf hi with
    | none => rfl
    | some e =>
        simp only [hstop, Option.any_some, Bool.not_eq_true', decide_eq_false_iff_not, UInt64.not_le] at hb ⊢
        exact UInt64.lt_trans hlt hb

theorem Matches.getLogState (h : Matches m st) : st.getLogState = .ok m.getLogState := by
  have hlast : lastLoop st.db.toList.reverse =
      .ok (m.log.toList.getLast?.map fun ie => ie.2.logId) := by
    -- without the metadata, the last key back is the last entry of the log
    rw [← lastLoop_filter, List.filter_reverse, h.filter_parseLogKey, ← List.map_reverse,
      ← List.head?_reverse]
    cases hrev : m.log.toList.reverse with
    | nil => rfl
    | cons ie l =>
        have hmem : ie ∈ m.log.toList := by
          rw [← List.mem_reverse, hrev]
          exact List.mem_cons_self
        have henc := h.codes_bytesOf (ExtTreeMap.mem_toList_iff_getElem?_eq_some.1 hmem)
        simp [codeEntry, lastLoop, parseLogKey_logKey, henc.2]
  rw [RocksDbLogStore.getLogState, readMeta_eq h.lastPurged, hlast]
  rfl

/-! ## Writing -/

/-- A change of one cell of the metadata. -/
theorem Matches.of_frame (h : Matches m st) {m' : MemLogStore} {st' : RocksDbLogStore} {key : Bytes}
    (hkey : IsMetaKey key) (hframe : ∀ k ≠ key, st'.db[k]? = st.db[k]?) (hlog : m'.log = m.log)
    (hvote : Holds st'.db[voteKey]? m'.vote) (hcommitted : Holds st'.db[committedKey]? m'.committed)
    (hpurged : Holds st'.db[lastPurgedKey]? m'.lastPurged) : Matches m' st' where
  log i := by
    rw [hframe _ (logKey_ne_metaKey hkey i), hlog]
    exact h.log i
  vote := hvote
  committed := hcommitted
  lastPurged := hpurged
  keys k hk := by
    by_cases hne : k = key
    · exact .inl (hne ▸ hkey)
    · rw [ExtTreeMap.mem_iff_isSome_getElem?, hframe k hne, ← ExtTreeMap.mem_iff_isSome_getElem?] at hk
      exact h.keys k hk

/-- A change of the log alone. -/
theorem Matches.of_log (h : Matches m st) {log : ExtTreeMap UInt64 Entry} {db : ColumnFamily}
    (hmeta : ∀ k, IsMetaKey k → db[k]? = st.db[k]?) (hlog : ∀ i : UInt64, Holds db[logKey i]? log[i]?)
    (hkeys : ∀ k ∈ db, IsMetaKey k ∨ ∃ i, k = logKey i) : Matches { m with log := log } ⟨db⟩ where
  log := hlog
  vote := by
    rw [hmeta _ (.inl rfl)]
    exact h.vote
  committed := by
    rw [hmeta _ (.inr (.inl rfl))]
    exact h.committed
  lastPurged := by
    rw [hmeta _ (.inr (.inr rfl))]
    exact h.lastPurged
  keys := hkeys

theorem Matches.insert (h : Matches m st) {e : Entry} {v : Bytes} (henc : SerdeJson.Codes e v)
    (i : UInt64) : Matches { m with log := m.log.insert i e } ⟨st.db.insert (logKey i) v⟩ := by
  refine h.of_log (fun k hk => ?_) (fun j => ?_) (fun k hk => ?_)
  · rw [ExtTreeMap.getElem?_insert, if_neg (by simpa using logKey_ne_metaKey hk i)]
  · by_cases hij : i = j
    · subst hij
      simp [Holds, henc]
    · have hkey : logKey i ≠ logKey j := fun heq => hij (logKey_injective heq)
      simpa [ExtTreeMap.getElem?_insert, hij, hkey] using h.log j
  · rcases ExtTreeMap.mem_insert.1 hk with hk | hk
    · exact .inr ⟨i, (Std.compare_eq_iff_eq.1 hk).symm⟩
    · exact h.keys k hk

theorem Matches.eraseAll (h : Matches m st) (is : List UInt64) :
    Matches { m with log := is.foldl ExtTreeMap.erase m.log }
      ⟨(is.map logKey).foldl ExtTreeMap.erase st.db⟩ := by
  refine h.of_log (fun k hk => ?_) (fun j => ?_) (fun k hk => ?_)
  · rw [getElem?_eraseAll, if_neg]
    rintro hmem
    obtain ⟨i, -, heq⟩ := List.mem_map.1 hmem
    exact logKey_ne_metaKey hk i heq
  · rw [getElem?_eraseAll, getElem?_eraseAll]
    by_cases hj : j ∈ is
    · rw [if_pos (List.mem_map_of_mem hj), if_pos hj]
      trivial
    · have hkey : logKey j ∉ is.map logKey := by
        intro hmem
        obtain ⟨i, hi, heq⟩ := List.mem_map.1 hmem
        exact hj (logKey_injective heq ▸ hi)
      rw [if_neg hkey, if_neg hj]
      exact h.log j
  · rw [ExtTreeMap.mem_iff_isSome_getElem?, getElem?_eraseAll] at hk
    split at hk
    · simp at hk
    · exact h.keys k (ExtTreeMap.mem_iff_isSome_getElem?.2 hk)

theorem Matches.truncate (h : Matches m st) (logId : LogId) :
    Matches (m.truncate logId) (st.exec (.truncate logId)).1 := by
  have hall : ∀ l : List (UInt64 × Entry), (l.takeWhile fun ie => ie.1 ≤ u64Max) = l :=
    fun l => List.takeWhile_eq_self_iff.2 fun ie _ => by simpa using le_u64Max ie.1
  -- no index is beyond the end key, so the loop deletes all it meets
  rw [exec, commit, h.iteratorFrom_logKey, deleteLoop_codeEntry, hall, write_deletes]
  exact h.eraseAll _

theorem Matches.deletePurged (h : Matches m st) (j : UInt64) :
    deleteLoop (logKey j) (DB.iteratorFrom st.db (logKey 0)) =
      (((m.log.toList.filter fun ie => ie.1 ≤ j).map Prod.fst).map logKey).map .delete := by
  have hall : (m.log.toList.filter fun ie => 0 ≤ ie.1) = m.log.toList :=
    List.filter_eq_self.2 fun ie _ => by simp
  rw [h.iteratorFrom_logKey, hall, deleteLoop_codeEntry,
    Ascending.takeWhile_eq_filter (ascending_toList m.log)]
  intro a _ b _ hab hb
  simp only [decide_eq_true_eq] at hb ⊢
  exact UInt64.le_trans (UInt64.le_of_lt (compare_eq_lt.1 hab)) hb

theorem Matches.purge (h : Matches m st) {logId : LogId} {v : Bytes}
    (henc : SerdeJson.Codes logId v) :
    (st.exec (.purge logId)).2 = .done (.ok ()) ∧
      Matches (m.purge logId) (st.exec (.purge logId)).1 := by
  have herased := h.eraseAll ((m.log.toList.filter fun ie => ie.1 ≤ logId.index).map Prod.fst)
  have hexec : st.exec (.purge logId) = (⟨((((m.log.toList.filter fun ie => ie.1 ≤ logId.index).map
      Prod.fst).map logKey).foldl ExtTreeMap.erase st.db).insert lastPurgedKey v⟩, .done (.ok ())) := by
    rw [exec, putMeta, henc.1, h.deletePurged]
    simp only [Except.map, commit]
    rw [write_append, write_deletes]
    rfl
  rw [hexec]
  have hpurged : IsMetaKey lastPurgedKey := .inr (.inr rfl)
  refine ⟨rfl, herased.of_frame hpurged (fun k hk => ?_) rfl ?_ ?_ ?_⟩
  · simp [ExtTreeMap.getElem?_insert, Ne.symm hk]
  · rw [ExtTreeMap.getElem?_insert, if_neg (by decide)]
    exact herased.vote
  · rw [ExtTreeMap.getElem?_insert, if_neg (by decide)]
    exact herased.committed
  · simp [MemLogStore.purge, Holds, henc]

theorem Matches.append (h : Matches m st) {entries : List Entry}
    (henc : ∀ e ∈ entries, SerdeJson.ReadsBack e) :
    ∃ batch, appendBatch entries = .ok batch ∧ Matches (m.append entries) ⟨write st.db batch⟩ := by
  -- both stores take the first entry before the others, so they vary in the induction
  induction entries generalizing m st with
  | nil => exact ⟨[], rfl, h⟩
  | cons e entries ih =>
      obtain ⟨v, hv⟩ := henc e List.mem_cons_self
      obtain ⟨batch, hbatch, hmatch⟩ := ih (h.insert hv e.logId.index)
        fun e' he' => henc e' (List.mem_cons_of_mem _ he')
      refine ⟨.put (logKey e.logId.index) v :: batch, ?_, hmatch⟩
      rw [appendBatch, hv.1, hbatch]
      rfl

/-! ## Equal answers -/

/-- The values of a call can be written and are read back, and its range is one that
`BTreeMap::range` accepts, with bounds below `u64::MAX`. -/
def Supported : LogOp → Prop
  | .append entries => ∀ e ∈ entries, SerdeJson.ReadsBack e
  | .truncate _ => True
  | .purge logId => SerdeJson.ReadsBack logId
  | .saveVote vote => SerdeJson.ReadsBack vote
  | .readVote => True
  | .saveCommitted committed => ∀ logId, committed = some logId → SerdeJson.ReadsBack logId
  | .readCommitted => True
  | .getLogState => True
  | .tryGetLogEntries lo hi => Bound.Accepted lo hi ∧ lo.Below ∧ hi.Below

/-- **Every call returns the same** and leaves stores that hold the same. -/
theorem matches_exec (h : Matches m st) {op : LogOp} (hop : Supported op) :
    (st.exec op).2 = (m.exec op).2 ∧ Matches (m.exec op).1 (st.exec op).1 := by
  cases op with
  | append entries =>
      obtain ⟨batch, hbatch, hmatch⟩ := h.append hop
      rw [exec, hbatch]
      exact ⟨rfl, hmatch⟩
  | truncate logId => exact ⟨rfl, h.truncate logId⟩
  | purge logId =>
      obtain ⟨v, hv⟩ := hop
      exact h.purge hv
  | saveVote vote =>
      obtain ⟨v, hv⟩ := hop
      rw [exec, commit_putMeta hv.1]
      refine ⟨rfl, h.of_frame (.inl rfl) (fun k hk => getElem?_insert_of_ne hk) rfl ?_ ?_ ?_⟩
      · simpa [MemLogStore.exec, Holds] using hv
      · rw [getElem?_insert_of_ne (by decide)]
        exact h.committed
      · rw [getElem?_insert_of_ne (by decide)]
        exact h.lastPurged
  | readVote => exact ⟨congrArg LogAnswer.vote (readMeta_eq h.vote _), h⟩
  | saveCommitted committed =>
      cases committed with
      | none =>
          have hframe : ∀ k ≠ committedKey, (st.db.erase committedKey)[k]? = st.db[k]? :=
            fun k hk => by simp [ExtTreeMap.getElem?_erase, Ne.symm hk]
          refine ⟨rfl, h.of_frame (.inr (.inl rfl)) hframe rfl ?_ ?_ ?_⟩
          · rw [exec, commit, write, List.foldl_cons, List.foldl_nil, writeOne, hframe _ (by decide)]
            exact h.vote
          · simp [exec, commit, write, writeOne, MemLogStore.exec, Holds]
          · rw [exec, commit, write, List.foldl_cons, List.foldl_nil, writeOne, hframe _ (by decide)]
            exact h.lastPurged
      | some logId =>
          obtain ⟨v, hv⟩ := hop logId rfl
          rw [exec, commit_putMeta hv.1]
          refine ⟨rfl, h.of_frame (.inr (.inl rfl)) (fun k hk => getElem?_insert_of_ne hk) rfl ?_ ?_ ?_⟩
          · rw [getElem?_insert_of_ne (by decide)]
            exact h.vote
          · simpa [MemLogStore.exec, Holds] using hv
          · rw [getElem?_insert_of_ne (by decide)]
            exact h.lastPurged
  | readCommitted => exact ⟨congrArg LogAnswer.committed (readMeta_eq h.committed _), h⟩
  | getLogState => exact ⟨congrArg LogAnswer.state h.getLogState, h⟩
  | tryGetLogEntries lo hi =>
      exact ⟨congrArg LogAnswer.entries (h.tryGetLogEntries hop.2.1 hop.2.2), h⟩

end Simulation

section Runs

variable [SerdeJson Entry] [SerdeJson Vote] [SerdeJson LogId]

/-- **The two stores are equivalent.** -/
theorem log_stores_equivalent (ops : List LogOp) (hops : ∀ op ∈ ops, Supported op) :
    answers exec new ops = answers MemLogStore.exec .new ops := by
  have hstep : ∀ (st : RocksDbLogStore) (m : MemLogStore) (op : LogOp), Matches m st → Supported op →
      (st.exec op).2 = (m.exec op).2 ∧ Matches (m.exec op).1 (st.exec op).1 :=
    fun _ _ _ h hop => matches_exec h hop
  exact answers_eq_of_simulation hstep ops matches_new hops

end Runs

end RocksDbLogStore

/-- The first log id of the first term. -/
def firstLogId : LogId := ⟨⟨1, 1⟩, 0⟩

/-- The entry with which the leader of the first term starts its log. -/
def firstEntry : Entry := ⟨firstLogId, .blank⟩

/-- `serde_json` on one log id. -/
instance jsonLogId : SerdeJson LogId := oneValueJson firstLogId
  (asBytes "\x7b\"leader_id\":\x7b\"term\":1,\"node_id\":1\x7d,\"index\":0\x7d")

/-- `serde_json` on one log entry. -/
instance jsonEntry : SerdeJson Entry := oneValueJson firstEntry
  (asBytes ("\x7b\"log_id\":\x7b\"leader_id\":\x7b\"term\":1,\"node_id\":1\x7d,\"index\":0\x7d," ++
    "\"payload\":\"Blank\"\x7d"))

/-- `serde_json` on one vote. -/
instance jsonVote : SerdeJson Vote := oneValueJson ⟨⟨1, 1⟩, true⟩
  (asBytes "\x7b\"leader_id\":\x7b\"term\":1,\"node_id\":1\x7d,\"committed\":true\x7d")

/-- A log that is written, read, purged and read again. -/
def shortRun : List LogOp :=
  [.saveVote ⟨⟨1, 1⟩, true⟩, .append [firstEntry], .tryGetLogEntries (.included 0) (.excluded 1),
    .getLogState, .saveCommitted (some firstLogId), .purge firstLogId, .getLogState, .readVote,
    .tryGetLogEntries .unbounded .unbounded]

theorem supported_shortRun : ∀ op ∈ shortRun, RocksDbLogStore.Supported op := by
  have hentry : SerdeJson.ReadsBack firstEntry := readsBack_oneValueJson _ _
  have hlogId : SerdeJson.ReadsBack firstLogId := readsBack_oneValueJson _ _
  have hvote : SerdeJson.ReadsBack (⟨⟨1, 1⟩, true⟩ : Vote) := readsBack_oneValueJson _ _
  simp only [shortRun, List.forall_mem_cons, List.not_mem_nil, false_imp_iff, implies_true, and_true]
  refine ⟨hvote, ?_, ?_, trivial, ?_, hlogId, trivial, trivial, trivial, trivial, trivial⟩
  · intro e he
    rw [List.mem_singleton.1 he]
    exact hentry
  · exact ⟨by simp [Bound.Accepted], by simp [Bound.Below], by simp [Bound.Below]⟩
  · rintro logId ⟨⟩
    exact hlogId

theorem RocksDbLogStore.log_stores_equivalent_shortRun :
    answers exec new shortRun = answers MemLogStore.exec .new shortRun :=
  log_stores_equivalent shortRun supported_shortRun

end MSearchDB.Consensus
