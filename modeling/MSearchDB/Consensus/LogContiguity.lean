import MSearchDB.Consensus.LogStoreSimulation

/-!
# The stored log is an interval

openraft's view of a log store is the last purged log id and the index at which it
appends next (`LogView`). Its contract is about this view: entries are appended at the
next index and after each other, the log is truncated above what was purged, and purged
no less than before. Under the contract the indices in the store in memory are those from
after the last purged one up to the next, each with its own entry (`IsInterval`,
`IsInterval.step`), and what the store reports follows (`IsInterval.reports`). The store
on RocksDB reports the same, since the two match, as long as the values that it writes are
read back (`log_contiguous`). It takes entries that are not (`deepEntry_unread`).
-/

set_option autoImplicit false

namespace MSearchDB.Consensus

open MSearchDB.Lib
open MSearchDB.Core
open MSearchDB.Storage.RocksDb
open Std

/-- What openraft knows of a log: the last purged id and the next index. -/
structure LogView where
  purged : Option LogId
  next : Nat

namespace LogView

/-- Nothing purged, and the first index next. -/
def new : LogView := ⟨none, 0⟩

/-- The index after the last purged one. -/
def first (v : LogView) : Nat :=
  match v.purged with
  | none => 0
  | some p => p.index.toNat + 1

/-- The view after a call. -/
def step (v : LogView) : LogOp → LogView
  | .append entries => { v with next := v.next + entries.length }
  | .truncate logId => { v with next := min v.next logId.index.toNat }
  -- a purge may go beyond the last entry
  | .purge logId => ⟨some logId, max v.next (logId.index.toNat + 1)⟩
  | _ => v

/-- openraft's contract. -/
def Contract (v : LogView) : LogOp → Prop
  | .append entries =>
      entries.map (fun e => e.logId.index.toNat) = List.range' v.next entries.length
  | .truncate logId => ∀ p, v.purged = some p → p.index < logId.index
  | .purge logId => ∀ p, v.purged = some p → p.index ≤ logId.index
  | _ => True

end LogView

/-- A store reports the interval of a view: the entries under its indices, as far as they
can be read back, its state, and the ranges that may be asked for. -/
structure Reports (v : LogView) (stored : UInt64 → Option (Except String Entry))
    (state : Except LogStoreError LogState) (asks : Bound → Bound → Prop)
    (read : Bound → Bound → Except LogStoreError (List Entry)) : Prop where
  indices : ∀ i : UInt64, (stored i).isSome ↔ v.first ≤ i.toNat ∧ i.toNat < v.next
  state_empty : v.next = v.first → state = .ok ⟨v.purged, v.purged⟩
  state_last : v.first < v.next → ∃ e, stored (UInt64.ofNat (v.next - 1)) = some (.ok e) ∧
    e.logId.index.toNat = v.next - 1 ∧ state = .ok ⟨v.purged, some e.logId⟩
  ranges : ∀ lo hi : Bound, asks lo hi →
    ∃ es, read lo hi = .ok es ∧ (∀ e ∈ es, stored e.logId.index = some (.ok e)) ∧
      es.map (fun e => e.logId.index.toNat) = (List.range' v.first (v.next - v.first)).filter
        fun i => lo.startsAt (UInt64.ofNat i) && hi.endsAt (UInt64.ofNat i)

namespace MemLogStore

/-- The log is the interval of the view, and every entry is at its index. -/
structure IsInterval (m : MemLogStore) (v : LogView) : Prop where
  purged : m.lastPurged = v.purged
  stored : ∀ i : UInt64, i ∈ m.log ↔ v.first ≤ i.toNat ∧ i.toNat < v.next
  index : ∀ (i : UInt64) (e : Entry), m.log[i]? = some e → e.logId.index = i
  le : v.first ≤ v.next
  next_le : v.next ≤ 2 ^ 64

variable {m : MemLogStore} {v : LogView}

theorem isInterval_new : IsInterval new LogView.new where
  purged := rfl
  stored i := by simp [new, LogView.new]
  index i e h := by simp [new] at h
  le := by simp [LogView.new, LogView.first]
  next_le := by simp [LogView.new]

/-! ## The calls that change the log -/

theorem IsInterval.insert (h : IsInterval m v) {e : Entry} (he : e.logId.index.toNat = v.next) :
    IsInterval { m with log := m.log.insert e.logId.index e } { v with next := v.next + 1 } where
  purged := h.purged
  stored i := by
    have hle := h.le
    change _ ↔ v.first ≤ i.toNat ∧ i.toNat < v.next + 1
    rw [ExtTreeMap.mem_insert, Std.compare_eq_iff_eq, h.stored, ← UInt64.toNat_inj, he]
    omega
  index i e' he' := by
    rw [ExtTreeMap.getElem?_insert] at he'
    split at he'
    case isTrue hi =>
        cases he'
        exact Std.compare_eq_iff_eq.1 hi
    case isFalse => exact h.index i e' he'
  le := Nat.le_succ_of_le h.le
  next_le := by
    have hlt := e.logId.index.toNat_lt
    rw [he] at hlt
    exact hlt

theorem IsInterval.append (h : IsInterval m v) {entries : List Entry}
    (hentries : entries.map (fun e => e.logId.index.toNat) = List.range' v.next entries.length) :
    IsInterval (m.append entries) { v with next := v.next + entries.length } := by
  induction entries generalizing m v with
  | nil => exact h
  | cons e entries ih =>
      -- the first entry is at the next index, and the others follow it
      rw [List.map_cons, List.length_cons, List.range'_succ] at hentries
      obtain ⟨he, hrest⟩ := List.cons_eq_cons.1 hentries
      have hnext := ih (h.insert he) hrest
      rwa [Nat.add_assoc, Nat.add_comm 1] at hnext

/-- The indices after a loop that removes those that meet a condition. -/
theorem mem_removed {log : ExtTreeMap UInt64 Entry} {p : UInt64 → Bool} {i : UInt64} :
    i ∈ ((log.toList.filter fun ie => p ie.1).map Prod.fst).foldl ExtTreeMap.erase log ↔
      i ∈ log ∧ p i = false := by
  rw [ExtTreeMap.mem_iff_isSome_getElem?, getElem?_eraseAll]
  split
  case isTrue h =>
      -- an index that was removed met the condition
      obtain ⟨ie, hie, rfl⟩ := List.mem_map.1 h
      have hp := (List.mem_filter.1 hie).2
      simp [hp]
  case isFalse h =>
      rw [← ExtTreeMap.mem_iff_isSome_getElem?]
      refine ⟨fun hi => ⟨hi, Bool.eq_false_iff.2 fun hp => h ?_⟩, fun hi => hi.1⟩
      obtain ⟨e, he⟩ := Option.isSome_iff_exists.1 (ExtTreeMap.mem_iff_isSome_getElem?.1 hi)
      have hmem := ExtTreeMap.mem_toList_iff_getElem?_eq_some.2 he
      exact List.mem_map.2 ⟨(i, e), List.mem_filter.2 ⟨hmem, hp⟩, rfl⟩

theorem getElem?_removed {log : ExtTreeMap UInt64 Entry} {ks : List UInt64} {i : UInt64} {e : Entry}
    (h : (ks.foldl ExtTreeMap.erase log)[i]? = some e) : log[i]? = some e := by
  rw [getElem?_eraseAll] at h
  split at h
  · simp at h
  · exact h

theorem IsInterval.truncate (h : IsInterval m v) {logId : LogId}
    (hlogId : ∀ p, v.purged = some p → p.index < logId.index) :
    IsInterval (m.truncate logId) { v with next := min v.next logId.index.toNat } where
  purged := h.purged
  stored i := by
    change _ ↔ v.first ≤ i.toNat ∧ i.toNat < min v.next logId.index.toNat
    refine (mem_removed (p := fun j => logId.index ≤ j)).trans ?_
    rw [h.stored, decide_eq_false_iff_not, UInt64.not_le, UInt64.lt_iff_toNat_lt]
    omega
  index i e he := h.index i e (getElem?_removed he)
  le := by
    have hfirst : v.first ≤ logId.index.toNat := by
      rw [LogView.first]
      split
      · exact Nat.zero_le _
      · exact UInt64.lt_iff_toNat_lt.1 (hlogId _ ‹_›)
    exact le_min h.le hfirst
  next_le := (min_le_left _ _).trans h.next_le

theorem IsInterval.purge (h : IsInterval m v) {logId : LogId}
    (hlogId : ∀ p, v.purged = some p → p.index ≤ logId.index) :
    IsInterval (m.purge logId) ⟨some logId, max v.next (logId.index.toNat + 1)⟩ where
  purged := rfl
  stored i := by
    have hfirst : v.first ≤ logId.index.toNat + 1 := by
      rw [LogView.first]
      split
      · exact Nat.zero_le _
      · exact Nat.succ_le_succ (UInt64.le_iff_toNat_le.1 (hlogId _ ‹_›))
    change _ ↔ logId.index.toNat + 1 ≤ i.toNat ∧ i.toNat < max v.next (logId.index.toNat + 1)
    refine (mem_removed (p := fun j => j ≤ logId.index)).trans ?_
    rw [h.stored, decide_eq_false_iff_not, UInt64.not_le, UInt64.lt_iff_toNat_lt]
    omega
  index i e he := h.index i e (getElem?_removed he)
  le := le_max_right _ _
  next_le := max_le h.next_le logId.index.toNat_lt

/-- The contract keeps the interval. -/
theorem IsInterval.step (h : IsInterval m v) {op : LogOp} (hop : v.Contract op) :
    IsInterval (m.step op) (v.step op) := by
  cases op with
  | append entries => exact h.append hop
  | truncate logId => exact h.truncate hop
  | purge logId => exact h.purge hop
  | saveVote vote => exact ⟨h.purged, h.stored, h.index, h.le, h.next_le⟩
  | readVote => exact h
  | saveCommitted committed => exact ⟨h.purged, h.stored, h.index, h.le, h.next_le⟩
  | readCommitted => exact h
  | getLogState => exact h
  | tryGetLogEntries lo hi => exact h

/-! ## What the store reports -/

theorem IsInterval.mem_toList (h : IsInterval m v) {ie : UInt64 × Entry} (hie : ie ∈ m.log.toList) :
    m.log[ie.1]? = some ie.2 ∧ ie.2.logId.index = ie.1 := by
  have hget := ExtTreeMap.mem_toList_iff_getElem?_eq_some.1 hie
  exact ⟨hget, h.index _ _ hget⟩

/-- An iteration goes over the indices of the interval. -/
theorem IsInterval.toList_index (h : IsInterval m v) :
    m.log.toList.map (fun ie => ie.1.toNat) = List.range' v.first (v.next - v.first) := by
  have hsorted : (m.log.toList.map fun ie => ie.1.toNat).Pairwise (· < ·) :=
    List.Pairwise.map _ (fun a b hab => UInt64.lt_iff_toNat_lt.1 (compare_eq_lt.1 hab))
      (ascending_toList m.log)
  -- two increasing lists of numbers with the same members
  refine List.Perm.eq_of_pairwise (fun a b _ _ hab hba => absurd hab (Nat.lt_asymm hba)) hsorted
    List.pairwise_lt_range' ((List.perm_ext_iff_of_nodup hsorted.nodup List.nodup_range').2 fun n => ?_)
  rw [List.mem_map, List.mem_range'_1, Nat.add_sub_cancel' h.le]
  constructor
  · rintro ⟨ie, hie, rfl⟩
    exact (h.stored ie.1).1 (mem_of_mem_toList hie)
  · intro hn
    have htoNat : (UInt64.ofNat n).toNat = n :=
      UInt64.toNat_ofNat_of_lt (hn.2.trans_le h.next_le)
    have hmem : UInt64.ofNat n ∈ m.log := by
      rw [h.stored, htoNat]
      exact hn
    obtain ⟨e, he⟩ := Option.isSome_iff_exists.1 (ExtTreeMap.mem_iff_isSome_getElem?.1 hmem)
    exact ⟨(UInt64.ofNat n, e), ExtTreeMap.mem_toList_iff_getElem?_eq_some.2 he, htoNat⟩

/-- The last entry of an iteration. -/
theorem IsInterval.getLast?_toList (h : IsInterval m v) :
    m.log.toList.getLast?.map (fun ie => ie.1.toNat) =
      if v.next = v.first then none else some (v.next - 1) := by
  have hle := h.le
  rw [← List.getLast?_map, h.toList_index, List.getLast?_range']
  by_cases heq : v.next = v.first
  · rw [if_pos heq, if_pos (by omega)]
  · rw [if_neg heq, if_neg (by omega)]
    congr 1
    omega

theorem IsInterval.getLogState_of_empty (h : IsInterval m v) (hempty : v.next = v.first) :
    m.getLogState = ⟨v.purged, v.purged⟩ := by
  have hlast := h.getLast?_toList
  rw [if_pos hempty, Option.map_eq_none_iff] at hlast
  rw [getLogState, hlast, h.purged]
  rfl

theorem IsInterval.getLogState_of_lt (h : IsInterval m v) (hlt : v.first < v.next) :
    ∃ e, m.log[UInt64.ofNat (v.next - 1)]? = some e ∧ e.logId.index.toNat = v.next - 1 ∧
      m.getLogState = ⟨v.purged, some e.logId⟩ := by
  have hlast := h.getLast?_toList
  rw [if_neg hlt.ne', Option.map_eq_some_iff] at hlast
  -- the last entry of the iteration is the one at the index before the next
  obtain ⟨⟨i, e⟩, hget, hi⟩ := hlast
  obtain ⟨hie, hindex⟩ := h.mem_toList (List.mem_of_getLast? hget)
  have hofNat : UInt64.ofNat (v.next - 1) = i := by rw [← hi, UInt64.ofNat_toNat]
  refine ⟨e, hofNat ▸ hie, by rw [hindex, hi], ?_⟩
  rw [getLogState, hget, h.purged]
  rfl

/-- A read returns the part of the interval that is in the range. -/
theorem IsInterval.tryGetLogEntries (h : IsInterval m v) (lo hi : Bound) :
    (∀ e ∈ m.tryGetLogEntries lo hi, m.log[e.logId.index]? = some e) ∧
      (m.tryGetLogEntries lo hi).map (fun e => e.logId.index.toNat) =
        (List.range' v.first (v.next - v.first)).filter
          fun i => lo.startsAt (UInt64.ofNat i) && hi.endsAt (UInt64.ofNat i) := by
  constructor
  · intro e he
    obtain ⟨ie, hie, rfl⟩ := List.mem_map.1 he
    obtain ⟨hget, hindex⟩ := h.mem_toList (List.mem_filter.1 hie).1
    rw [hindex, hget]
  · rw [← h.toList_index, List.filter_map, MemLogStore.tryGetLogEntries, List.map_map]
    have hrange : ((fun i => lo.startsAt (UInt64.ofNat i) && hi.endsAt (UInt64.ofNat i)) ∘
        fun ie : UInt64 × Entry => ie.1.toNat) = fun ie => lo.startsAt ie.1 && hi.endsAt ie.1 := by
      funext ie
      simp only [Function.comp_apply, UInt64.ofNat_toNat]
    rw [hrange]
    refine List.map_congr_left fun ie hie => ?_
    exact congrArg UInt64.toNat (h.mem_toList (List.mem_filter.1 hie).1).2

/-- The entry under an index. -/
def stored (m : MemLogStore) (i : UInt64) : Option (Except String Entry) := m.log[i]?.map .ok

/-- The store in memory reports the interval of a view. -/
def ReportsView (m : MemLogStore) (v : LogView) : Prop :=
  Reports v m.stored (.ok m.getLogState) Bound.Accepted fun lo hi => .ok (m.tryGetLogEntries lo hi)

/-- **What the store reports of an interval.** -/
theorem IsInterval.reports (h : IsInterval m v) : m.ReportsView v where
  indices i := by
    rw [MemLogStore.stored, Option.isSome_map, ← ExtTreeMap.mem_iff_isSome_getElem?]
    exact h.stored i
  state_empty hempty := congrArg Except.ok (h.getLogState_of_empty hempty)
  state_last hlt := by
    obtain ⟨e, he, hindex, hstate⟩ := h.getLogState_of_lt hlt
    exact ⟨e, by rw [MemLogStore.stored, he]; rfl, hindex, congrArg Except.ok hstate⟩
  ranges lo hi _ := by
    obtain ⟨hmem, hindices⟩ := h.tryGetLogEntries lo hi
    exact ⟨_, rfl, fun e he => by rw [MemLogStore.stored, hmem e he]; rfl, hindices⟩

end MemLogStore

/-! ## The store on RocksDB -/

namespace RocksDbLogStore

variable [SerdeJson Entry]

/-- The entry under the key of an index, read back. -/
def stored (st : RocksDbLogStore) (i : UInt64) : Option (Except String Entry) :=
  st.db[logKey i]?.map SerdeJson.fromSlice

variable [SerdeJson Vote] [SerdeJson LogId] {m : MemLogStore} {st : RocksDbLogStore}

theorem Matches.stored_eq (h : Matches m st) : st.stored = m.stored := by
  funext i
  rw [stored, MemLogStore.stored]
  have hcell := h.log i
  cases hdb : st.db[logKey i]? with
  | none =>
      rw [hdb] at hcell
      cases hlog : m.log[i]? with
      | none => rfl
      | some e => rw [hlog] at hcell; exact hcell.elim
  | some bytes =>
      obtain ⟨e, he, henc⟩ := hcell.some_iff.1 hdb
      rw [he, Option.map_some, Option.map_some, henc.2]

/-- The ranges that the arithmetic of the bounds allows. -/
def Asks (lo hi : Bound) : Prop := Bound.Accepted lo hi ∧ lo.Below ∧ hi.Below

/-- The store on RocksDB reports the interval of a view. -/
def ReportsView (st : RocksDbLogStore) (v : LogView) : Prop :=
  Reports v st.stored st.getLogState Asks st.tryGetLogEntries

theorem Matches.reports (h : Matches m st) {v : LogView} (hm : m.IsInterval v) :
    st.ReportsView v where
  indices := by
    rw [h.stored_eq]
    exact hm.reports.indices
  state_empty := by
    rw [h.getLogState]
    exact hm.reports.state_empty
  state_last := by
    rw [h.stored_eq, h.getLogState]
    exact hm.reports.state_last
  ranges lo hi hasks := by
    rw [h.stored_eq, h.tryGetLogEntries hasks.2.1 hasks.2.2]
    exact hm.reports.ranges lo hi hasks.1

end RocksDbLogStore

theorem isInterval_run (ops : List LogOp) :
    ∀ {m : MemLogStore} {v : LogView}, m.IsInterval v → Along LogView.step LogView.Contract v ops →
      (ops.foldl MemLogStore.step m).IsInterval (ops.foldl LogView.step v) := by
  induction ops with
  | nil => exact fun h _ => h
  | cons op ops ih => exact fun h hops => ih (h.step hops.1) hops.2

/-- **The log is contiguous.** After every step of a run that keeps the contract, the store in memory
reports the interval from after the last purged index up to the next. So does the store on RocksDB, if
the JSON of every value that the run writes is read back and the ranges that it reads are below
`u64::MAX`. -/
theorem log_contiguous [SerdeJson Entry] [SerdeJson Vote] [SerdeJson LogId] {ops : List LogOp}
    (hops : Along LogView.step LogView.Contract LogView.new ops) :
    ∀ pre, pre <+: ops →
      (pre.foldl MemLogStore.step .new).ReportsView (pre.foldl LogView.step .new) ∧
      ((∀ op ∈ ops, RocksDbLogStore.Supported op) →
        (pre.foldl RocksDbLogStore.step .new).ReportsView (pre.foldl LogView.step .new)) := by
  intro pre hpre
  have hinterval := isInterval_run pre MemLogStore.isInterval_new (hops.of_prefix hpre)
  refine ⟨hinterval.reports, fun hsupported => ?_⟩
  have hstep : ∀ (m : MemLogStore) (st : RocksDbLogStore) (op : LogOp), RocksDbLogStore.Matches m st →
      RocksDbLogStore.Supported op → RocksDbLogStore.Matches (m.step op) (st.step op) :=
    fun _ _ _ h hop => (RocksDbLogStore.matches_exec h hop).2
  have hmatches := related_of_simulation hstep pre RocksDbLogStore.matches_new
    fun op hop => hsupported op (hpre.subset hop)
  exact hmatches.reports hinterval

/-- The run of a log of one entry keeps the contract. -/
theorem contract_shortRun : Along LogView.step LogView.Contract LogView.new shortRun := by
  refine ⟨trivial, rfl, trivial, trivial, trivial, ?_, trivial, trivial, trivial, trivial⟩
  exact fun p hp => absurd hp (by simp [LogView.step, LogView.new])

theorem log_contiguous_shortRun :
    RocksDbLogStore.getLogState (shortRun.foldl RocksDbLogStore.step .new) =
      .ok ⟨some firstLogId, some firstLogId⟩ :=
  ((log_contiguous contract_shortRun shortRun List.prefix_rfl).2 supported_shortRun).state_empty rfl

/-! ## An entry that is not read back -/

/-- Arrays in arrays, `n` of them around an empty one. -/
def nestedArray : Nat → FieldValue
  | 0 => .array []
  | n + 1 => .array [nestedArray n]

/-- The JSON text of these arrays: two levels for each. -/
def nestedArrayJson : Nat → String
  | 0 => "\x7b\"Array\":[]\x7d"
  | n + 1 => "\x7b\"Array\":[" ++ nestedArrayJson n ++ "]\x7d"

/-- The insertion of a document with sixty-one arrays in each other. -/
def deepEntry : Entry :=
  ⟨firstLogId, .normal (.insertDocument "c" ((Document.new ⟨"d"⟩).withField "f" (nestedArray 60)))⟩

/-- Its JSON text. -/
def deepEntryJson : String :=
  "\x7b\"log_id\":\x7b\"leader_id\":\x7b\"term\":1,\"node_id\":1\x7d,\"index\":0\x7d," ++
    "\"payload\":\x7b\"Normal\":\x7b\"InsertDocument\":\x7b\"collection\":\"c\"," ++
    "\"document\":\x7b\"id\":\"d\",\"fields\":\x7b\"f\":" ++ nestedArrayJson 60 ++ "\x7d," ++
    "\"version\":\x7b\"clocks\":\x7b\x7d\x7d\x7d\x7d\x7d\x7d\x7d"

/-- What the reader of `serde_json` says of the innermost array, at the level 128. -/
def tooDeep : String := "recursion limit exceeded at line 1 column 758"

/-- `serde_json` on this entry: it is written, and not read. -/
@[reducible] def deepEntryFormat : SerdeJson Entry :=
  oneCodeJson deepEntry (asBytes deepEntryJson) (.error tooDeep)

theorem toList_insert_logKey (code : Bytes) :
    ((∅ : ColumnFamily).insert (logKey 0) code).toList = [(logKey 0, code)] := rfl

/-- The store takes an entry with sixty-one arrays in each other, and then it can report neither the
state of its log nor the entry. -/
theorem deepEntry_unread :
    letI : SerdeJson Entry := deepEntryFormat
    Along LogView.step LogView.Contract LogView.new [.append [deepEntry]] ∧
      (RocksDbLogStore.exec .new (.append [deepEntry])).2 = .done (.ok ()) ∧
      (RocksDbLogStore.step .new (.append [deepEntry])).getLogState =
        .error (.readLogs ("failed to deserialize last log entry: " ++ tooDeep)) ∧
      (RocksDbLogStore.step .new (.append [deepEntry])).tryGetLogEntries .unbounded .unbounded =
        .error (.readLogs ("failed to deserialize log entry 0: " ++ tooDeep)) ∧
      ¬ (RocksDbLogStore.step .new (.append [deepEntry])).ReportsView (LogView.new.step (.append [deepEntry])) := by
  let _ : SerdeJson Entry := deepEntryFormat
  have hexec : RocksDbLogStore.exec .new (.append [deepEntry]) =
      (⟨(∅ : ColumnFamily).insert (logKey 0) (asBytes deepEntryJson)⟩, .done (.ok ())) := by
    have hcode : SerdeJson.toVec deepEntry = .ok (asBytes deepEntryJson) := if_pos rfl
    rw [RocksDbLogStore.exec, RocksDbLogStore.appendBatch, hcode]
    rfl
  have hread : (SerdeJson.fromSlice (asBytes deepEntryJson) : Except String Entry) = .error tooDeep := if_pos rfl
  have hstep : RocksDbLogStore.step .new (.append [deepEntry]) =
      ⟨(∅ : ColumnFamily).insert (logKey 0) (asBytes deepEntryJson)⟩ := congrArg Prod.fst hexec
  have hstate : (RocksDbLogStore.step .new (.append [deepEntry])).getLogState =
      .error (.readLogs ("failed to deserialize last log entry: " ++ tooDeep)) := by
    rw [hstep]
    have hnone : ((∅ : ColumnFamily).insert (logKey 0) (asBytes deepEntryJson))[lastPurgedKey]? = none := by
      rw [ExtTreeMap.getElem?_insert, if_neg (by decide)]
      rfl
    rw [RocksDbLogStore.getLogState, RocksDbLogStore.readMeta, hnone, toList_insert_logKey, List.reverse_singleton,
      RocksDbLogStore.lastLoop, parseLogKey_logKey, hread]
    rfl
  refine ⟨⟨rfl, trivial⟩, congrArg Prod.snd hexec, hstate, ?_, fun hreports => ?_⟩
  · have hall : DB.iteratorFrom ((∅ : ColumnFamily).insert (logKey 0) (asBytes deepEntryJson)) (logKey 0) =
        [(logKey 0, asBytes deepEntryJson)] := by
      rw [DB.iteratorFrom, toList_insert_logKey]
      rfl
    rw [hstep, RocksDbLogStore.tryGetLogEntries, RocksDbLogStore.startOf, hall, RocksDbLogStore.collectLoop,
      parseLogKey_logKey, hread]
    rfl
  · -- the view has one entry
    obtain ⟨e, -, -, hlast⟩ := hreports.state_last (by decide)
    rw [hstate] at hlast
    cases hlast

end MSearchDB.Consensus
