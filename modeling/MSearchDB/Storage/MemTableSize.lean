import MSearchDB.Lib.Run
import MSearchDB.Storage.MemTable

/-!
# The size of a memtable

`MemTable::put`, `delete`, `clear` and `flush` of `crates/storage/src/memtable.rs`, one call
after the other. `put` raises the size counter by the entry it inserts, also where it replaces
one, and `delete` lowers it by the entry it removes, so the counter is never less than what is
held. This rests on the counter not wrapping: an atomic `usize` does not saturate.

`accounts_run` is for the runs in which no put carries the counter past its range.
-/

set_option autoImplicit false

namespace MSearchDB.Storage.RocksDb

open MSearchDB.Lib
open MSearchDB.Core
open Std

/-! ## The calls -/

namespace MemTable

/-- `key.len() + value.len()`. -/
def entrySize (key value : Bytes) : UInt64 := key.length.toUInt64 + value.length.toUInt64

/-- `MemTable::put`. -/
def put (t : MemTable) (key value : Bytes) : MemTable :=
  { t with map := t.map.insert key value, sizeBytes := t.sizeBytes + entrySize key value }

/-- `MemTable::delete`. -/
def delete (t : MemTable) (key : Bytes) : Bool × MemTable :=
  match t.map[key]? with
  | some value => (true, { t with map := t.map.erase key, sizeBytes := t.sizeBytes - entrySize key value })
  | none => (false, t)

/-- `pop_front`, this many times or until nothing is left. -/
def popAll : Nat → ExtTreeMap Bytes Bytes → ExtTreeMap Bytes Bytes
  | 0, map => map
  | n + 1, map =>
      match map.toList with
      | [] => map
      | (key, _) :: _ => popAll n (map.erase key)

/-- `MemTable::clear`. -/
def clear (t : MemTable) : MemTable := { t with map := popAll t.map.size t.map, sizeBytes := 0 }

/-- The puts of a flush. The storage may fail any of them: `faults` are the errors of the puts to
come, and a put that has none goes to the storage. -/
def storeAll (cfName : String) :
    List (Bytes × Bytes) → List (Option DbError) → RocksDbStorage → DbResult Unit × RocksDbStorage
  | [], _, storage => (.ok (), storage)
  | (key, value) :: entries, faults, storage =>
      match faults.head?.join with
      -- the sequence number is spent before the write fails
      | some e => (.error e, storage.fetchAdd.2)
      | none =>
          match storage.put cfName key value with
          | (.error e, storage) => (.error e, storage)
          | (.ok _, storage) => storeAll cfName entries faults.tail storage

/-- `MemTable::flush`. -/
def flush (t : MemTable) (cfName : String) (faults : List (Option DbError)) (storage : RocksDbStorage) :
    DbResult Unit × MemTable × RocksDbStorage :=
  match storeAll cfName t.map.toList faults storage with
  | (.error e, storage) => (.error e, t, storage)
  | (.ok _, storage) => (.ok (), t.clear, storage)

/-- The total length of the keys and values held. -/
def held (t : MemTable) : Nat := weight (fun entry => entry.1.length + entry.2.length) t.map

end MemTable

/-- A call on a memtable. -/
inductive MemTableCall where
  | put (key value : Bytes)
  | delete (key : Bytes)
  | clear
  | flush (cfName : String) (faults : List (Option DbError))

/-- A memtable and the storage it is flushed to. -/
structure Buffered where
  table : MemTable
  storage : RocksDbStorage

namespace Buffered

/-- A new memtable beside a storage. -/
def start (capacity : UInt64) (storage : RocksDbStorage) : Buffered := ⟨.new capacity, storage⟩

/-- One call. -/
def step (s : Buffered) : MemTableCall → Buffered
  | .put key value => { s with table := s.table.put key value }
  | .delete key => { s with table := (s.table.delete key).2 }
  | .clear => { s with table := s.table.clear }
  | .flush cfName faults =>
      let (_, table, storage) := s.table.flush cfName faults s.storage
      ⟨table, storage⟩

/-- The put does not carry the counter past its range. -/
def Fits (s : Buffered) : MemTableCall → Prop
  | .put key value => s.table.sizeBytes.toNat + (key.length + value.length) < 18446744073709551616
  | _ => True

/-- The call ends what a put has left at a key: another put, a deletion, or the memtable is
emptied. -/
def Ends (k : Bytes) (s : Buffered) : MemTableCall → Prop
  | .put key _ => key = k
  | .delete key => key = k
  | .clear => True
  | .flush cfName faults => (s.table.flush cfName faults s.storage).1 = .ok ()

/-- The value is that of a put at the key, and no later call has ended it. -/
def LastPut (s : Buffered) (calls : List MemTableCall) (k v : Bytes) : Prop :=
  ∃ pre post, calls = pre ++ .put k v :: post ∧
    Along step (fun s call => ¬ Ends k s call) ((pre ++ [.put k v]).foldl step s) post

/-- The account of a memtable after some calls. -/
structure Accounts (s₀ : Buffered) (calls : List MemTableCall) (s : Buffered) : Prop where
  size : s.table.held ≤ s.table.sizeBytes.toNat
  /-- Whatever is deleted next, the counter does not underflow. -/
  noUnderflow : ∀ k v, s.table.get k = some v → (MemTable.entrySize k v).toNat ≤ s.table.sizeBytes.toNat
  value : ∀ k v, s.table.get k = some v ↔ LastPut s₀ calls k v
  cleared : (s.step .clear).table.sizeBytes = 0 ∧ (s.step .clear).table.map = ∅
  failed : ∀ cfName faults e, (s.table.flush cfName faults s.storage).1 = .error e →
    (s.step (.flush cfName faults)).table = s.table
  /-- The store holds every entry, its own key for the sequence number apart. -/
  flushed : ∀ cfName faults, (s.table.flush cfName faults s.storage).1 = .ok () →
    (s.step (.flush cfName faults)).table.sizeBytes = 0 ∧ (s.step (.flush cfName faults)).table.map = ∅ ∧
      ∀ k v, s.table.get k = some v → Flushing.Spared cfName k →
        Flushing.stored cfName (s.step (.flush cfName faults)).storage k = some v

end Buffered

/-! ## Emptying -/

namespace MemTable

theorem popAll_size (n : Nat) (map : ExtTreeMap Bytes Bytes) (h : map.size ≤ n) : popAll n map = ∅ := by
  induction n generalizing map with
  | zero =>
      rw [popAll]
      exact ExtTreeMap.eq_empty_iff_size_eq_zero.2 (Nat.le_zero.1 h)
  | succ n ih =>
      rw [popAll]
      cases hlist : map.toList with
      | nil =>
          have hsize := ExtTreeMap.length_toList (t := map)
          rw [hlist] at hsize
          exact ExtTreeMap.eq_empty_iff_size_eq_zero.2 hsize.symm
      | cons entry rest =>
          have hmem : entry.1 ∈ map := mem_of_mem_toList (by rw [hlist]; exact List.mem_cons_self)
          refine ih _ ?_
          rw [ExtTreeMap.size_erase, if_pos (ExtTreeMap.contains_iff_mem.2 hmem)]
          omega

@[simp] theorem clear_map (t : MemTable) : t.clear.map = ∅ := popAll_size _ _ (Nat.le_refl _)

@[simp] theorem clear_sizeBytes (t : MemTable) : t.clear.sizeBytes = 0 := rfl

/-! ## Flushing -/

/-- Entries with keys of their own are all there when every put has gone well. -/
theorem stored_of_storeAll {cfName : String} {entries : List (Bytes × Bytes)} {faults : List (Option DbError)}
    {storage : RocksDbStorage} (hkeys : (entries.map Prod.fst).Nodup)
    (h : (storeAll cfName entries faults storage).1 = .ok ()) :
    (∀ entry ∈ entries, Flushing.Spared cfName entry.1 →
      Flushing.stored cfName (storeAll cfName entries faults storage).2 entry.1 = some entry.2) ∧
    ∀ k, k ∉ entries.map Prod.fst → Flushing.Spared cfName k →
      Flushing.stored cfName (storeAll cfName entries faults storage).2 k = Flushing.stored cfName storage k := by
  induction entries generalizing faults storage with
  | nil => exact ⟨fun entry hmem => absurd hmem List.not_mem_nil, fun k _ _ => rfl⟩
  | cons entry entries ih =>
      obtain ⟨key, value⟩ := entry
      rw [List.map_cons, List.nodup_cons] at hkeys
      rw [storeAll] at h ⊢
      cases hfault : faults.head?.join with
      | some e =>
          simp only [hfault] at h
          cases h
      | none =>
          simp only [hfault] at h ⊢
          cases hput : storage.put cfName key value with
          | mk result storage' =>
              cases result with
              | error e =>
                  rw [hput] at h
                  cases h
              | ok u =>
                  rw [hput] at h
                  simp only at h ⊢
                  obtain ⟨hthere, hother⟩ := ih hkeys.2 h
                  refine ⟨fun entry hmem hspared => ?_, fun k hk hspared => ?_⟩
                  · rcases List.mem_cons.1 hmem with rfl | hmem
                    · -- the later puts are at other keys
                      rw [hother key hkeys.1 hspared, (Flushing.of_put_ok hput).2.2 _ hspared, if_pos rfl]
                    · exact hthere entry hmem hspared
                  · have hne : k ≠ key := fun heq => hk (by rw [heq]; exact List.mem_cons_self)
                    rw [hother k (fun hmem => hk (List.mem_cons_of_mem _ hmem)) hspared,
                      (Flushing.of_put_ok hput).2.2 k hspared, if_neg hne]

theorem flush_error {t : MemTable} {cfName : String} {faults : List (Option DbError)} {storage : RocksDbStorage}
    {e : DbError} (h : (t.flush cfName faults storage).1 = .error e) : (t.flush cfName faults storage).2.1 = t := by
  rw [flush] at h ⊢
  cases hstore : storeAll cfName t.map.toList faults storage with
  | mk result storage' =>
      cases result with
      | error e' => rfl
      | ok u =>
          rw [hstore] at h
          cases h

/-- A flush that goes well has stored every entry and emptied the memtable. -/
theorem flush_ok {t : MemTable} {cfName : String} {faults : List (Option DbError)} {storage : RocksDbStorage}
    (h : (t.flush cfName faults storage).1 = .ok ()) :
    (t.flush cfName faults storage).2.1 = t.clear ∧ ∀ k v, t.get k = some v → Flushing.Spared cfName k →
      Flushing.stored cfName (t.flush cfName faults storage).2.2 k = some v := by
  have hkeys : (t.map.toList.map Prod.fst).Nodup := nodup_fst_of_perm (List.Perm.refl _)
  rw [flush] at h ⊢
  cases hstore : storeAll cfName t.map.toList faults storage with
  | mk result storage' =>
      cases result with
      | error e =>
          rw [hstore] at h
          cases h
      | ok u =>
          have hok : (storeAll cfName t.map.toList faults storage).1 = .ok () := by rw [hstore]
          have hall := (stored_of_storeAll hkeys hok).1
          rw [hstore] at hall
          exact ⟨rfl, fun k v hget hspared => hall (k, v) (ExtTreeMap.mem_toList_iff_getElem?_eq_some.2 hget) hspared⟩

/-! ## The counter -/

section Counter

variable {t : MemTable} {key value : Bytes}

theorem toNat_entrySize (h : key.length + value.length < 18446744073709551616) :
    (entrySize key value).toNat = key.length + value.length := by
  have hsum : entrySize key value = UInt64.ofNat key.length + UInt64.ofNat value.length := rfl
  rw [hsum, UInt64.toNat_add, UInt64.toNat_ofNat_of_lt', UInt64.toNat_ofNat_of_lt', Nat.mod_eq_of_lt h]
  · exact Nat.lt_of_le_of_lt (Nat.le_add_left _ _) h
  · exact Nat.lt_of_le_of_lt (Nat.le_add_right _ _) h

theorem held_of_get (h : t.get key = some value) :
    t.held = key.length + value.length + weight (fun entry => entry.1.length + entry.2.length) (t.map.erase key) :=
  weight_erase _ h

theorem held_put_le (t : MemTable) (key value : Bytes) :
    (t.put key value).held ≤ t.held + (key.length + value.length) := by
  have hle := weight_erase_le (fun entry : Bytes × Bytes => entry.1.length + entry.2.length) t.map key
  have hinsert : (t.put key value).held = key.length + value.length + weight _ (t.map.erase key) :=
    weight_insert _ t.map key value
  rw [hinsert, held]
  omega

/-- An entry that is held fits the counter. -/
theorem toNat_entrySize_of_get (h : t.get key = some value) (hsize : t.held ≤ t.sizeBytes.toNat) :
    (entrySize key value).toNat = key.length + value.length ∧ key.length + value.length ≤ t.sizeBytes.toNat := by
  have hheld := held_of_get h
  have hlt := t.sizeBytes.toNat_lt
  exact ⟨toNat_entrySize (by omega), by omega⟩

theorem held_put (hsize : t.held ≤ t.sizeBytes.toNat)
    (hfits : t.sizeBytes.toNat + (key.length + value.length) < 18446744073709551616) :
    (t.put key value).held ≤ (t.put key value).sizeBytes.toNat := by
  have hle := held_put_le t key value
  have hentry : (entrySize key value).toNat = key.length + value.length := toNat_entrySize (by omega)
  have hsum : (t.put key value).sizeBytes.toNat = t.sizeBytes.toNat + (key.length + value.length) := by
    rw [put, UInt64.toNat_add, hentry, Nat.mod_eq_of_lt hfits]
  omega

theorem held_delete (hsize : t.held ≤ t.sizeBytes.toNat) (key : Bytes) :
    (t.delete key).2.held ≤ (t.delete key).2.sizeBytes.toNat := by
  cases hget : t.map[key]? with
  | none =>
      have hsame : (t.delete key).2 = t := by rw [delete, hget]
      rw [hsame]
      exact hsize
  | some value =>
      have hheld : t.held = _ := held_of_get hget
      obtain ⟨hentry, hle⟩ := toNat_entrySize_of_get hget hsize
      have hdelete : (t.delete key).2 =
          { t with map := t.map.erase key, sizeBytes := t.sizeBytes - entrySize key value } := by
        rw [delete, hget]
      have hdiff : (t.sizeBytes - entrySize key value).toNat = t.sizeBytes.toNat - (key.length + value.length) := by
        rw [UInt64.toNat_sub_of_le _ _ (UInt64.le_iff_toNat_le.2 (by omega)), hentry]
      rw [hdelete]
      show weight _ (t.map.erase key) ≤ (t.sizeBytes - entrySize key value).toNat
      rw [hdiff]
      omega

theorem held_clear (t : MemTable) : t.clear.held = 0 := by
  rw [held, clear_map]
  rfl

end Counter

end MemTable

/-! ## Runs -/

namespace Buffered

variable {s : Buffered} {call : MemTableCall} {k v : Bytes}

/-- The counter stays above what is held. -/
theorem held_step (hsize : s.table.held ≤ s.table.sizeBytes.toNat) (hfits : s.Fits call) :
    (s.step call).table.held ≤ (s.step call).table.sizeBytes.toNat := by
  cases call with
  | put key value => exact MemTable.held_put hsize hfits
  | delete key => exact MemTable.held_delete hsize key
  | clear => exact le_of_eq_of_le (MemTable.held_clear s.table) (Nat.zero_le _)
  | flush cfName faults =>
      show (s.table.flush cfName faults s.storage).2.1.held ≤
        (s.table.flush cfName faults s.storage).2.1.sizeBytes.toNat
      cases hresult : (s.table.flush cfName faults s.storage).1 with
      | error e =>
          rw [MemTable.flush_error hresult]
          exact hsize
      | ok u =>
          rw [(MemTable.flush_ok hresult).1, MemTable.held_clear]
          exact Nat.zero_le _

theorem get_step_put (k key value : Bytes) :
    (s.step (.put key value)).table.get k = if key = k then some value else s.table.get k := by
  show (s.table.map.insert key value)[k]? = _
  rw [ExtTreeMap.getElem?_insert]
  simp only [Std.compare_eq_iff_eq]
  rfl

theorem get_step_delete (k key : Bytes) :
    (s.step (.delete key)).table.get k = if key = k then none else s.table.get k := by
  show (s.table.delete key).2.map[k]? = _
  cases hold : s.table.map[key]? with
  | some value =>
      rw [MemTable.delete, hold]
      show (s.table.map.erase key)[k]? = _
      rw [ExtTreeMap.getElem?_erase]
      simp only [Std.compare_eq_iff_eq]
      rfl
  | none =>
      rw [MemTable.delete, hold]
      by_cases hkey : key = k
      · rw [if_pos hkey, ← hkey]
        exact hold
      · rw [if_neg hkey]
        rfl

/-- What a call leaves at a key. -/
theorem get_step (k : Bytes) (call : MemTableCall) :
    (Ends k s call → (s.step call).table.get k =
      match call with
      | .put _ value => some value
      | _ => none) ∧
    (¬ Ends k s call → (s.step call).table.get k = s.table.get k) := by
  cases call with
  | put key value =>
      rw [get_step_put]
      exact ⟨fun hkey => if_pos hkey, fun hkey => if_neg hkey⟩
  | delete key =>
      rw [get_step_delete]
      exact ⟨fun hkey => if_pos hkey, fun hkey => if_neg hkey⟩
  | clear =>
      refine ⟨fun _ => ?_, fun hnot => absurd trivial hnot⟩
      show s.table.clear.map[k]? = none
      rw [MemTable.clear_map]
      exact ExtTreeMap.getElem?_empty
  | flush cfName faults =>
      constructor
      · intro hok
        show (s.table.flush cfName faults s.storage).2.1.map[k]? = none
        rw [(MemTable.flush_ok hok).1, MemTable.clear_map]
        exact ExtTreeMap.getElem?_empty
      · intro hfail
        show (s.table.flush cfName faults s.storage).2.1.get k = _
        cases hresult : (s.table.flush cfName faults s.storage).1 with
        | error e => rw [MemTable.flush_error hresult]
        | ok u => exact absurd hresult hfail

/-- The last put is this call, or an earlier one that it does not end. -/
theorem lastPut_concat (calls : List MemTableCall) :
    LastPut s (calls ++ [call]) k v ↔
      call = .put k v ∨ ¬ Ends k (calls.foldl step s) call ∧ LastPut s calls k v := by
  constructor
  · rintro ⟨pre, post, hsplit, halong⟩
    rcases List.eq_nil_or_concat' post with rfl | ⟨post, last, rfl⟩
    · exact Or.inl (List.append_inj_right' hsplit rfl |> List.singleton_inj.1)
    · rw [show pre ++ MemTableCall.put k v :: (post ++ [last]) = (pre ++ .put k v :: post) ++ [last] by simp] at hsplit
      obtain ⟨rfl, hlast⟩ := List.append_inj' hsplit rfl
      obtain ⟨hbefore, hend, -⟩ := (along_append post [last] _).1 halong
      refine Or.inr ⟨?_, pre, post, rfl, hbefore⟩
      rw [List.singleton_inj.1 hlast]
      rwa [← List.foldl_append, List.append_assoc] at hend
  · rintro (rfl | ⟨hend, pre, post, rfl, halong⟩)
    · exact ⟨calls, [], rfl, trivial⟩
    · refine ⟨pre, post ++ [call], by simp, (along_append post [call] _).2 ⟨halong, ?_, trivial⟩⟩
      rwa [← List.foldl_append, List.append_assoc]

/-- The memtable holds the last value put for each key that nothing has ended since. -/
theorem get_run_iff (hstart : ∀ k, s.table.get k = none) (calls : List MemTableCall) (k v : Bytes) :
    (calls.foldl step s).table.get k = some v ↔ LastPut s calls k v := by
  -- induction on the run from its end
  induction calls using List.reverseRecOn generalizing k v with
  | nil =>
      refine iff_of_false (fun h => by rw [List.foldl_nil, hstart] at h; cases h) ?_
      rintro ⟨pre, post, hsplit, -⟩
      simp at hsplit
  | append_singleton calls call ih =>
      rw [List.foldl_concat, lastPut_concat, ← ih]
      obtain ⟨hends, hkeeps⟩ := get_step (s := calls.foldl step s) k call
      by_cases h : Ends k (calls.foldl step s) call
      · rw [hends h]
        rw [or_iff_left fun hlater => hlater.1 h]
        cases call with
        | put key value =>
            obtain rfl : key = k := h
            simp
        | delete key => simp
        | clear => simp
        | flush cfName faults => simp
      · rw [hkeeps h]
        have hother : call ≠ .put k v := fun heq => h (by rw [heq]; rfl)
        simp [h, hother]

/-- **The account of a memtable.** In every run of puts, deletions, clearings and flushes, whose
storage may fail at any put, and in which no put carries the counter past its range: the counter is at
least what is held and does not underflow, the memtable holds the last value put for each
key, and a flush leaves everything where it was or has stored it. -/
theorem accounts_run (capacity : UInt64) (storage : RocksDbStorage) (calls : List MemTableCall)
    (hfits : Along step Fits (start capacity storage) calls) :
    Accounts (start capacity storage) calls (calls.foldl step (start capacity storage)) := by
  have hsize : (calls.foldl step (start capacity storage)).table.held ≤
      (calls.foldl step (start capacity storage)).table.sizeBytes.toNat :=
    hfits.invariant (I := fun s => s.table.held ≤ s.table.sizeBytes.toNat) (fun _ _ hs hf => held_step hs hf)
      (Nat.zero_le _)
  refine ⟨hsize, fun k v hget => ?_, fun k v => ?_, ⟨rfl, MemTable.clear_map _⟩, fun cfName faults e herror => ?_,
    fun cfName faults hok => ?_⟩
  · obtain ⟨hentry, hle⟩ := MemTable.toNat_entrySize_of_get hget hsize
    rw [hentry]
    exact hle
  · exact get_run_iff (fun k => ExtTreeMap.getElem?_empty) calls k v
  · exact MemTable.flush_error herror
  · obtain ⟨hclear, hstored⟩ := MemTable.flush_ok hok
    refine ⟨?_, ?_, hstored⟩
    · show (MemTable.flush _ cfName faults _).2.1.sizeBytes = 0
      rw [hclear]
      rfl
    · show (MemTable.flush _ cfName faults _).2.1.map = ∅
      rw [hclear]
      exact MemTable.clear_map _

/-- A longer value, a shorter one, and a flush whose first put fails. -/
def overwrites : List MemTableCall :=
  [.put (asBytes "k") (asBytes "long"), .put (asBytes "k") (asBytes "s"),
    .flush cfDocuments [some (.storageError "disk full")]]

theorem accounts_overwrites :
    Along step Fits (start 64 .fresh) overwrites ∧
      Accounts (start 64 .fresh) overwrites (overwrites.foldl step (start 64 .fresh)) := by
  have hfits : Along step Fits (start 64 .fresh) overwrites :=
    ⟨(by decide : 0 + (1 + 4) < 18446744073709551616), (by decide : 5 + (1 + 1) < 18446744073709551616),
      trivial, trivial⟩
  exact ⟨hfits, accounts_run 64 .fresh overwrites hfits⟩

/-- Three puts of one key, each with as much as a slice can hold, carry the counter past its
range. -/
theorem sizeBytes_lt_held (value : Bytes) (hlength : value.length = 9223372036854775807)
    (capacity : UInt64) (storage : RocksDbStorage) :
    ([.put [] value, .put [] value, .put [] value].foldl step (start capacity storage)).table.sizeBytes.toNat <
      ([.put [] value, .put [] value, .put [] value].foldl step (start capacity storage)).table.held := by
  have hheld : 9223372036854775807 ≤
      ([.put [] value, .put [] value, .put [] value].foldl step (start capacity storage)).table.held := by
    have hget : ([.put [] value, .put [] value, .put [] value].foldl step
        (start capacity storage)).table.get [] = some value := ExtTreeMap.getElem?_insert_self
    have := MemTable.held_of_get hget
    omega
  have hentry : MemTable.entrySize [] value = 9223372036854775807 := by
    rw [MemTable.entrySize, hlength]
    rfl
  have hsize : ([.put [] value, .put [] value, .put [] value].foldl step (start capacity storage)).table.sizeBytes =
      0 + MemTable.entrySize [] value + MemTable.entrySize [] value + MemTable.entrySize [] value := rfl
  rw [hsize, hentry]
  exact Nat.lt_of_lt_of_le (by decide) hheld

/-- The counter falls below what is held when it wraps, and a flush to the store's own column family
does not leave an entry at the key of the sequence number. -/
theorem not_accounts :
    (∃ value : Bytes, value.length = 9223372036854775807 ∧
      let table := ([MemTableCall.put [] value, .put [] value, .put [] value].foldl step (start 64 .fresh)).table
      table.sizeBytes.toNat < table.held) ∧
    (MemTable.flush ((start 64 .fresh).step (.put currentSeqKey [120])).table cfSequence [] .fresh).1 = .ok () ∧
    Flushing.stored cfSequence ((((start 64 .fresh).step (.put currentSeqKey [120])).step
      (.flush cfSequence [])).storage) currentSeqKey ≠ some [120] := by
  refine ⟨?_, rfl, ?_⟩
  · obtain ⟨value, hlength⟩ : ∃ value : Bytes, value.length = 9223372036854775807 :=
      ⟨List.replicate 9223372036854775807 0, List.length_replicate⟩
    exact ⟨value, hlength, sizeBytes_lt_held value hlength 64 .fresh⟩
  · decide +kernel

end Buffered

end MSearchDB.Storage.RocksDb
