import MSearchDB.Lib.OrderedMap
import MSearchDB.Storage.RocksDbSlots

/-!
# Flushing the memtable

`MemTable` of `crates/storage/src/memtable.rs`, as a machine whose steps are those that
threads interleave: the insertion of a put and the update of the size after it, and the
steps of a flush, which iterates over the skip list, stores what it has collected, pops
the list until it is empty and resets the size. The skip list is an ordered map whose
operations are atomic; its iteration goes from each entry to the next one there is then.

A put is safe (`Safe`) when the flush in progress has not come past its key, when it will
not clear the list, or when it leaves that very value in RocksDB. For each key it is the
last put that counts: it is kept exactly when it was safe (`flush_keeps_iff`).
-/

set_option autoImplicit false

namespace MSearchDB.Storage.RocksDb

open MSearchDB.Lib
open MSearchDB.Core
open Std

/-- `MemTable`. -/
structure MemTable where
  map : ExtTreeMap Bytes Bytes
  sizeBytes : UInt64
  capacity : UInt64

namespace MemTable

/-- `MemTable::new`. -/
def new (capacity : UInt64) : MemTable := ⟨∅, 0, capacity⟩

/-- `MemTable::get`. -/
def get (t : MemTable) (key : Bytes) : Option Bytes := t.map[key]?

end MemTable

/-- Where a flush stands. -/
inductive FlushPhase where
  | idle
  | collecting (entries : List (Bytes × Bytes))
  | storing (rest : List (Bytes × Bytes))
  | clearing
  | resetting
  deriving DecidableEq

/-- A memtable, the puts that have inserted their entry and not yet added its size, the
flush, and the store it flushes to. -/
structure Flushing where
  table : MemTable
  sizes : List UInt64
  phase : FlushPhase
  storage : RocksDbStorage

/-- A step of a put or of a flush. -/
inductive FlushStep where
  | insert (key value : Bytes)
  | addSize (i : Nat)
  | flush
  | collect
  | store
  | pop
  | reset
  deriving DecidableEq

namespace Flushing

/-- A new memtable beside a store. -/
def start (capacity : UInt64) (storage : RocksDbStorage) : Flushing :=
  ⟨.new capacity, [], .idle, storage⟩

/-- The key comes after the entries collected so far. -/
def beyond (entries : List (Bytes × Bytes)) (key : Bytes) : Bool :=
  entries.getLast?.all fun last => compare last.1 key = .lt

/-- The next entry of the iteration. -/
def nextEntry (map : ExtTreeMap Bytes Bytes) (entries : List (Bytes × Bytes)) :
    Option (Bytes × Bytes) :=
  -- an entry that is inserted behind the last one collected is not met any more
  map.toList.find? fun kv => beyond entries kv.1

/-- The insertion of `put`. -/
def insert (s : Flushing) (key value : Bytes) : Flushing :=
  let entrySize := key.length.toUInt64 + value.length.toUInt64
  { s with table.map := s.table.map.insert key value, sizes := entrySize :: s.sizes }

/-- The addition of the put at a place. -/
def addSize (s : Flushing) (i : Nat) : Flushing :=
  match s.sizes[i]? with
  | some size => { s with table.sizeBytes := s.table.sizeBytes + size, sizes := s.sizes.eraseIdx i }
  | none => s

/-- One round of the loop that collects. -/
def collect (s : Flushing) : Flushing :=
  match s.phase with
  | .collecting entries =>
      match nextEntry s.table.map entries with
      | some entry => { s with phase := .collecting (entries ++ [entry]) }
      | none => { s with phase := .storing entries }
  | _ => s

/-- One round of the loop that stores. A put that fails ends the flush. -/
def store (cfName : String) (s : Flushing) : Flushing :=
  match s.phase with
  | .storing [] => { s with phase := .clearing }
  | .storing ((key, value) :: rest) =>
      match s.storage.put cfName key value with
      | (.ok _, storage) => { s with storage := storage, phase := .storing rest }
      -- the error is returned before the memtable is cleared
      | (.error _, storage) => { s with storage := storage, phase := .idle }
  | _ => s

/-- One round of the loop of `clear`. -/
def pop (s : Flushing) : Flushing :=
  match s.phase with
  | .clearing =>
      match s.table.map.toList with
      | [] => { s with phase := .resetting }
      -- whatever comes first, stored or not
      | (key, _) :: _ => { s with table.map := s.table.map.erase key }
  | _ => s

/-- The end of `clear` and of the flush. -/
def reset (s : Flushing) : Flushing :=
  match s.phase with
  | .resetting => { s with table.sizeBytes := 0, phase := .idle }
  | _ => s

/-- The start of a flush. -/
def flush (s : Flushing) : Flushing :=
  match s.phase with
  | .idle => { s with phase := .collecting [] }
  | _ => s

/-- One step. A step that is not next in the flush does nothing. -/
def step (cfName : String) (s : Flushing) : FlushStep → Flushing
  | .insert key value => s.insert key value
  | .addSize i => s.addSize i
  | .flush => s.flush
  | .collect => s.collect
  | .store => s.store cfName
  | .pop => s.pop
  | .reset => s.reset

/-- The state after a sequence of steps. -/
def run (cfName : String) (s : Flushing) (steps : List FlushStep) : Flushing :=
  steps.foldl (step cfName) s

/-! ## What is kept -/

/-- The value a step puts at a key. -/
def putAt (key : Bytes) : FlushStep → Option Bytes
  | .insert k v => if k = key then some v else none
  | _ => none

/-- The last value put at a key. -/
def lastPut (key : Bytes) (steps : List FlushStep) : Option Bytes :=
  (steps.filterMap (putAt key)).getLast?

/-- The value is that of the memtable or, without an entry there, that of the store. -/
def Keeps (cfName : String) (s : Flushing) (key value : Bytes) : Prop :=
  s.table.get key = some value ∨
    s.table.get key = none ∧ s.storage.get cfName key = .ok (some value)

/-- What the store holds for a key. -/
def stored (cfName : String) (st : RocksDbStorage) (key : Bytes) : Option Bytes :=
  (st.db.slot cfName).bind fun f => f key

/-- The store refuses every put. -/
def Refuses (cfName : String) (st : RocksDbStorage) : Prop :=
  st.db.slot cfName = none ∨ st.db.slot cfSequence = none

/-- A put of the value at the key is safe in a state. -/
def Safe (cfName : String) (s : Flushing) (key value : Bytes) : Prop :=
  match s.phase with
  | .idle => True
  -- the put will be collected, the flush will fail, or the store will hold the value
  | .collecting entries =>
      beyond entries key = true ∨ Refuses cfName s.storage ∨
        (entries.lookup key).or (stored cfName s.storage key) = some value
  -- as before, but nothing is collected any more
  | .storing rest =>
      (rest ≠ [] ∧ Refuses cfName s.storage) ∨ (rest.lookup key).or (stored cfName s.storage key) = some value
  | .clearing => stored cfName s.storage key = some value
  | .resetting => True

/-- The last put at the key, if there is one, was safe. -/
def LastSafe (cfName : String) (s : Flushing) (key : Bytes) (steps : List FlushStep) : Prop :=
  ∀ pre value post, steps = pre ++ .insert key value :: post → lastPut key post = none →
    Safe cfName (s.run cfName pre) key value

/-- The store does not use the key itself. -/
def Spared (cfName : String) (key : Bytes) : Prop := cfName = cfSequence → key ≠ currentSeqKey

/-! ## The iteration -/

theorem beyond_iff {es : List (Bytes × Bytes)} {k : Bytes} :
    beyond es k = true ↔ ∀ a, es.getLast? = some a → compare a.1 k = .lt := by
  rw [beyond]
  cases es.getLast? with
  | none => simp
  | some a => simp

theorem beyond_concat {es : List (Bytes × Bytes)} {a : Bytes × Bytes} {k : Bytes} :
    beyond (es ++ [a]) k = true ↔ compare a.1 k = .lt := by
  simp [beyond]

theorem lookup_cons_eq (a : Bytes × Bytes) (es : List (Bytes × Bytes)) (k : Bytes) :
    (a :: es).lookup k = if k = a.1 then some a.2 else es.lookup k := by
  rw [List.lookup_cons]
  by_cases hk : k = a.1
  · rw [if_pos hk, beq_iff_eq.2 hk]
  · rw [if_neg hk, beq_eq_false_iff_ne.2 hk]

/-- A key beyond the entries is not among them. -/
theorem lookup_of_beyond {es : List (Bytes × Bytes)} (h : Ascending es) {k : Bytes}
    (hk : beyond es k = true) : es.lookup k = none := by
  rw [List.lookup_eq_none_iff]
  intro a ha
  have hlt := h.lt_of_getLast? (beyond_iff.1 hk) ha
  rw [bne_iff_ne]
  rintro rfl
  simp at hlt

theorem ascending_concat {es : List (Bytes × Bytes)} (h : Ascending es) {a : Bytes × Bytes}
    (ha : beyond es a.1 = true) : Ascending (es ++ [a]) :=
  h.concat fun _ hb => h.lt_of_getLast? (beyond_iff.1 ha) hb

variable {map : ExtTreeMap Bytes Bytes} {es : List (Bytes × Bytes)} {k v : Bytes}

theorem nextEntry_some {a : Bytes × Bytes} (h : nextEntry map es = some a) :
    map[a.1]? = some a.2 ∧ beyond es a.1 = true := by
  have hbeyond := List.find?_some (p := fun kv : Bytes × Bytes => beyond es kv.1) h
  exact ⟨ExtTreeMap.mem_toList_iff_getElem?_eq_some.1 (List.mem_of_find?_eq_some h), hbeyond⟩

/-- No key is passed over that is in the map. -/
theorem getElem?_of_passed {a : Bytes × Bytes} (h : nextEntry map es = some a)
    (hk : beyond es k = true) (hka : ¬ compare a.1 k = .lt) (hne : k ≠ a.1) : map[k]? = none := by
  cases hget : map[k]? with
  | none => rfl
  | some w =>
      have hmem : (k, w) ∈ map.toList := ExtTreeMap.mem_toList_iff_getElem?_eq_some.2 hget
      rcases (ascending_toList map).find?_first h hmem hk with heq | hlt
      · exact absurd (congrArg Prod.fst heq) hne
      · exact absurd hlt hka

theorem getElem?_of_ended (h : nextEntry map es = none) (hk : beyond es k = true) : map[k]? = none := by
  cases hget : map[k]? with
  | none => rfl
  | some w =>
      have hmem : (k, w) ∈ map.toList := ExtTreeMap.mem_toList_iff_getElem?_eq_some.2 hget
      exact absurd hk (List.find?_eq_none.1 h (k, w) hmem)

/-! ## The storage put -/

section StoragePut

variable {cf : String} {st : RocksDbStorage}

/-- A put that a store refuses leaves its families as they are. -/
theorem put_of_refuses (h : Refuses cf st) (key value : Bytes) :
    ∃ e st', st.put cf key value = (.error e, st') ∧ st'.db = st.db := by
  simp only [Refuses, DB.slot, Option.map_eq_none_iff] at h
  simp only [RocksDbStorage.put, RocksDbStorage.fetchAdd, RocksDbStorage.writeBatch]
  cases hcf : st.db.cfHandle cf with
  | none => exact ⟨_, _, rfl, rfl⟩
  | some m =>
      have hseq : st.db.cfHandle cfSequence = none := h.resolve_left (by simp [hcf])
      rw [hseq]
      exact ⟨_, _, rfl, rfl⟩

/-- The batch of a put that a store does not refuse. -/
theorem put_of_accepts (h : ¬ Refuses cf st) (key value : Bytes) :
    ∃ st', st.put cf key value = (.ok (), st') ∧
      st'.db = (st.db.putCf cf key value).putCf cfSequence currentSeqKey
        (toLeBytes64 (st.sequence + 1)) := by
  simp only [Refuses, DB.slot, Option.map_eq_none_iff, not_or] at h
  obtain ⟨m, hm⟩ := Option.ne_none_iff_exists'.1 h.1
  obtain ⟨q, hq⟩ := Option.ne_none_iff_exists'.1 h.2
  simp only [RocksDbStorage.put, RocksDbStorage.fetchAdd, RocksDbStorage.writeBatch, hm, hq]
  exact ⟨_, rfl, rfl⟩

/-- A put that a store does not refuse leaves the value at the key, and all else. -/
theorem stored_put (h : ¬ Refuses cf st) (key value : Bytes) :
    ∃ st', st.put cf key value = (.ok (), st') ∧ ¬ Refuses cf st' ∧
      ∀ k, Spared cf k → stored cf st' k = if k = key then some value else stored cf st k := by
  obtain ⟨st', hput, hdb⟩ := put_of_accepts h key value
  refine ⟨st', hput, ?_, fun k hk => ?_⟩
  · simp only [Refuses, ← Option.not_isSome_iff_eq_none, hdb, DB.isSome_slot_putCf] at h ⊢
    exact h
  · obtain ⟨f, hf⟩ := Option.ne_none_iff_exists'.1 (not_or.1 h).1
    rw [stored, hdb, DB.slot_putCf, DB.slot_putCf, if_pos rfl, stored, hf]
    by_cases hcf : cfSequence = cf
    · have hseq := hk hcf.symm
      simp [hcf, SlotOp.run, Write.exec, Write.key, Write.outcome, Function.update_apply, hseq]
    · simp [hcf, SlotOp.run, Write.exec, Write.key, Write.outcome, Function.update_apply]

/-- A put that succeeds was not refused, and the store does not refuse the next one. -/
theorem of_put_ok {st' : RocksDbStorage} {key value : Bytes} (hput : st.put cf key value = (.ok (), st')) :
    ¬ Refuses cf st ∧ ¬ Refuses cf st' ∧
      ∀ k, Spared cf k → stored cf st' k = if k = key then some value else stored cf st k := by
  have hR : ¬ Refuses cf st := by
    intro hR
    obtain ⟨e, st'', herror, -⟩ := put_of_refuses hR key value
    rw [hput] at herror
    simp at herror
  obtain ⟨st'', hok, hR', hstored⟩ := stored_put hR key value
  rw [hput] at hok
  obtain rfl := (Prod.mk.inj hok).2
  exact ⟨hR, hR', hstored⟩

/-- A put that fails was refused, and has stored nothing. -/
theorem of_put_error {st' : RocksDbStorage} {key value : Bytes} {e : DbError}
    (hput : st.put cf key value = (.error e, st')) :
    Refuses cf st ∧ ∀ k, stored cf st' k = stored cf st k := by
  have hR : Refuses cf st := by
    by_contra hR
    obtain ⟨st'', hok, -⟩ := stored_put hR key value
    rw [hput] at hok
    simp at hok
  obtain ⟨e', st'', herror, hdb⟩ := put_of_refuses hR key value
  rw [hput] at herror
  obtain rfl := (Prod.mk.inj herror).2
  refine ⟨hR, fun k => ?_⟩
  rw [stored, hdb, stored]

end StoragePut

/-! ## What will be kept -/

/-- Whether a value will be in place when the flush is over, if no other is put: by the
phase of the flush, whether the store refuses its puts, and what the memtable and the
store hold for the key. -/
def Outcome (phase : FlushPhase) (refuses : Prop) (held kept : Option Bytes) (key value : Bytes) :
    Prop :=
  match phase with
  | .idle => held = some value ∨ kept = some value
  | .collecting entries =>
      (beyond entries key = true ∨ refuses) ∧ (held = some value ∨ kept = some value) ∨
        ¬ (beyond entries key = true ∨ refuses) ∧ (entries.lookup key).or kept = some value
  | .storing rest =>
      (rest ≠ [] ∧ refuses) ∧ (held = some value ∨ kept = some value) ∨
        ¬ (rest ≠ [] ∧ refuses) ∧ (rest.lookup key).or kept = some value
  | .clearing => kept = some value
  | .resetting => held = some value ∨ kept = some value

/-- The value will be in place when the flush is over, if no other is put. -/
def Survives (cfName : String) (s : Flushing) (key value : Bytes) : Prop :=
  Outcome s.phase (Refuses cfName s.storage) (s.table.get key) (stored cfName s.storage key) key value

section Outcome

variable {R : Prop} {held kept : Option Bytes}

/-- The end of the iteration. -/
theorem outcome_ended (hes : Ascending es) (hheld : beyond es k = true → held = none) :
    Outcome (.storing es) R held kept k v ↔ Outcome (.collecting es) R held kept k v := by
  simp only [Outcome]
  by_cases hk : beyond es k = true
  · -- the key is not in the memtable, and was not collected
    rw [lookup_of_beyond hes hk, hheld hk]
    simp only [hk, Option.none_or, reduceCtorEq, false_or, true_or, true_and, not_true_eq_false,
      false_and, or_false]
    tauto
  · have hne : es ≠ [] := by
      rintro rfl
      exact hk rfl
    simp only [hk, hne, Bool.false_eq_true, false_or, ne_eq, not_false_eq_true, true_and]

/-- One more entry. -/
theorem outcome_collected {a : Bytes × Bytes} (hes : Ascending es) (ha : beyond es a.1 = true)
    (hself : k = a.1 → held = some v ∧ a.2 = v)
    (hpassed : beyond es k = true → ¬ compare a.1 k = .lt → k ≠ a.1 → held = none) :
    Outcome (.collecting (es ++ [a])) R held kept k v ↔ Outcome (.collecting es) R held kept k v := by
  simp only [Outcome]
  have hlookup : (es ++ [a]).lookup k = (es.lookup k).or (if k = a.1 then some a.2 else none) := by
    rw [List.lookup_append, lookup_cons_eq, List.lookup_nil]
  by_cases hlater : compare a.1 k = .lt
  · -- the iteration has not come to the key
    have hk : beyond es k = true := by
      rw [beyond_iff] at ha ⊢
      exact fun b hb => TransCmp.lt_trans (ha b hb) hlater
    simp only [beyond_concat.2 hlater, hk, true_or, true_and, not_true_eq_false, false_and]
  · have hnot : ¬ beyond (es ++ [a]) k = true := fun hb => hlater (beyond_concat.1 hb)
    rw [hlookup]
    by_cases hka : k = a.1
    · -- the key is the one collected, with its last value
      obtain ⟨hheld, rfl⟩ := hself hka
      have hk : beyond es k = true := hka ▸ ha
      rw [lookup_of_beyond hes hk, if_pos hka]
      simp only [hnot, hk, hheld, Option.none_or, Option.some_or, true_or, and_true,
        not_true_eq_false, false_and, or_false]
      tauto
    · rw [if_neg hka, Option.or_none]
      by_cases hk : beyond es k = true
      · -- the key is passed over
        rw [lookup_of_beyond hes hk, hpassed hk hlater hka]
        simp only [hnot, hk, Option.none_or, reduceCtorEq, false_or, true_or, true_and,
          not_true_eq_false, false_and, or_false]
        tauto
      · simp only [hnot, hk]

/-- One entry stored. -/
theorem outcome_stored {key value : Bytes} {rest : List (Bytes × Bytes)} {kept' : Option Bytes}
    (hrest : Ascending ((key, value) :: rest)) (hR : ¬ R)
    (hkept : kept' = if k = key then some value else kept) :
    Outcome (.storing rest) R held kept' k v ↔
      Outcome (.storing ((key, value) :: rest)) R held kept k v := by
  simp only [Outcome, hR, and_false, not_false_eq_true, true_and, false_or, false_and]
  rw [hkept, lookup_cons_eq]
  by_cases hk : k = key
  · subst hk
    have hnone : rest.lookup k = none := by
      rw [List.lookup_eq_none_iff]
      intro b hb
      have hlt := (List.pairwise_cons.1 hrest).1 b hb
      rw [bne_iff_ne]
      rintro rfl
      simp at hlt
    simp [hnone]
  · simp [hk]

end Outcome

/-- An entry of the memtable at the key is the last value put there, and the entries that
the flush has collected are in order. -/
structure Tracks (key : Bytes) (last : Option Bytes) (s : Flushing) : Prop where
  value : ∀ w, s.table.get key = some w → last = some w
  collected : ∀ es, s.phase = .collecting es → Ascending es
  toStore : ∀ es, s.phase = .storing es → Ascending es

variable {cf : String} {s s' : Flushing} {last : Option Bytes}

theorem survives_congr (hphase : s'.phase = s.phase) (hstorage : s'.storage = s.storage)
    (hget : s'.table.get k = s.table.get k) : Survives cf s' k v ↔ Survives cf s k v := by
  simp only [Survives, stored, Refuses, hphase, hstorage, hget]

/-- A put decides what survives at its key. -/
theorem survives_insert : Survives cf (s.insert k v) k v ↔ Safe cf s k v := by
  have hget : (s.insert k v).table.get k = some v := ExtTreeMap.getElem?_insert_self
  rw [Survives, hget]
  show Outcome s.phase (Refuses cf s.storage) (some v) (stored cf s.storage k) k v ↔ _
  rw [Safe]
  cases s.phase with
  | idle => simp [Outcome]
  | collecting es => simp only [Outcome, true_or, and_true]; tauto
  | storing rest => simp only [Outcome, true_or, and_true]; tauto
  | clearing => exact Iff.rfl
  | resetting => simp [Outcome]

theorem get_insert_of_ne {key value : Bytes} (h : key ≠ k) :
    (s.insert key value).table.get k = s.table.get k := by
  simp [insert, MemTable.get, ExtTreeMap.getElem?_insert, h]

/-! ## What a step can do -/

/-- The moves of the machine: a put, or the next step of the flush in its phase. -/
inductive Move (cfName : String) (s : Flushing) : FlushStep → Flushing → Prop where
  | stays (e : FlushStep) : (∀ key, putAt key e = none) → Move cfName s e s
  | puts (key value : Bytes) : Move cfName s (.insert key value) (s.insert key value)
  | adds (i : Nat) (size : UInt64) : Move cfName s (.addSize i)
      { s with table.sizeBytes := s.table.sizeBytes + size, sizes := s.sizes.eraseIdx i }
  | starts : s.phase = .idle → Move cfName s .flush { s with phase := .collecting [] }
  | collects (es : List (Bytes × Bytes)) (a : Bytes × Bytes) :
      s.phase = .collecting es → nextEntry s.table.map es = some a →
        Move cfName s .collect { s with phase := .collecting (es ++ [a]) }
  | ends (es : List (Bytes × Bytes)) :
      s.phase = .collecting es → nextEntry s.table.map es = none →
        Move cfName s .collect { s with phase := .storing es }
  | stores (key value : Bytes) (rest : List (Bytes × Bytes)) (st : RocksDbStorage) :
      s.phase = .storing ((key, value) :: rest) → s.storage.put cfName key value = (.ok (), st) →
        Move cfName s .store { s with storage := st, phase := .storing rest }
  | fails (key value : Bytes) (rest : List (Bytes × Bytes)) (e : DbError) (st : RocksDbStorage) :
      s.phase = .storing ((key, value) :: rest) → s.storage.put cfName key value = (.error e, st) →
        Move cfName s .store { s with storage := st, phase := .idle }
  | clears : s.phase = .storing [] → Move cfName s .store { s with phase := .clearing }
  | pops (key : Bytes) : s.phase = .clearing →
      Move cfName s .pop { s with table.map := s.table.map.erase key }
  | empties : s.phase = .clearing → s.table.map.toList = [] →
      Move cfName s .pop { s with phase := .resetting }
  | resets : s.phase = .resetting →
      Move cfName s .reset { s with table.sizeBytes := 0, phase := .idle }

theorem move_step (cf : String) (s : Flushing) (e : FlushStep) : Move cf s e (s.step cf e) := by
  cases e with
  | insert key value => exact .puts key value
  | addSize i =>
      rw [step, addSize]
      split
      · exact .adds i _
      · exact .stays _ fun _ => rfl
  | flush =>
      rw [step, flush]
      split
      · exact .starts ‹_›
      · exact .stays _ fun _ => rfl
  | collect =>
      rw [step, collect]
      split
      · split
        · exact .collects _ _ ‹_› ‹_›
        · exact .ends _ ‹_› ‹_›
      · exact .stays _ fun _ => rfl
  | store =>
      rw [step, store]
      split
      · exact .clears ‹_›
      · split
        · exact .stores _ _ _ _ ‹_› ‹_›
        · exact .fails _ _ _ _ _ ‹_› ‹_›
      · exact .stays _ fun _ => rfl
  | pop =>
      rw [step, pop]
      split
      · split
        · exact .empties ‹_› ‹_›
        · exact .pops _ ‹_›
      · exact .stays _ fun _ => rfl
  | reset =>
      rw [step, reset]
      split
      · exact .resets ‹_›
      · exact .stays _ fun _ => rfl

/-- A move that puts nothing at the key leaves what survives there. -/
theorem Move.survives {e : FlushStep} (hmove : Move cf s e s') (h : Tracks k (some v) s)
    (hk : Spared cf k) (he : putAt k e = none) : Survives cf s' k v ↔ Survives cf s k v := by
  cases hmove with
  | stays => exact Iff.rfl
  | puts key value =>
      have hne : key ≠ k := by
        rintro rfl
        simp [putAt] at he
      exact survives_congr rfl rfl (get_insert_of_ne hne)
  | adds i size => exact survives_congr rfl rfl rfl
  | starts hphase =>
      rw [Survives, Survives, hphase]
      show Outcome (.collecting []) (Refuses cf s.storage) (s.table.get k) (stored cf s.storage k) k v ↔ _
      simp [Outcome, beyond]
  | collects es a hphase hnext =>
      rw [Survives, Survives, hphase]
      obtain ⟨hget, ha⟩ := nextEntry_some hnext
      refine outcome_collected (h.collected es hphase) ha ?_ (getElem?_of_passed hnext)
      rintro rfl
      have hlast := h.value a.2 hget
      exact ⟨hget.trans hlast.symm, (Option.some.inj hlast).symm⟩
  | ends es hphase hnext =>
      rw [Survives, Survives, hphase]
      exact outcome_ended (h.collected es hphase) fun hk => getElem?_of_ended hnext hk
  | stores key value rest st hphase hput =>
      rw [Survives, Survives, hphase]
      show Outcome (.storing rest) (Refuses cf st) (s.table.get k) (stored cf st k) k v ↔ _
      obtain ⟨hR, hR', hstored⟩ := of_put_ok hput
      have hiff : Refuses cf st ↔ Refuses cf s.storage := iff_of_false hR' hR
      rw [hiff]
      exact outcome_stored (h.toStore _ hphase) hR (hstored k hk)
  | fails key value rest e st hphase hput =>
      rw [Survives, Survives, hphase]
      show Outcome .idle _ (s.table.get k) (stored cf st k) k v ↔ _
      obtain ⟨hR, hstored⟩ := of_put_error hput
      rw [hstored]
      simp [Outcome, hR]
  | clears hphase =>
      rw [Survives, Survives, hphase]
      show Outcome .clearing (Refuses cf s.storage) _ (stored cf s.storage k) k v ↔ _
      simp [Outcome]
  | pops key hphase =>
      rw [Survives, Survives, hphase]
      exact Iff.rfl
  | empties hphase hlist =>
      rw [Survives, Survives, hphase]
      have hget : s.table.get k = none := by
        rw [MemTable.get, ExtTreeMap.toList_eq_nil_iff.1 hlist]
        rfl
      show Outcome .resetting _ (s.table.get k) (stored cf s.storage k) k v ↔ _
      simp [Outcome, hget]
  | resets hphase =>
      rw [Survives, Survives, hphase]
      exact Iff.rfl

/-! ## Runs -/

/-- A move leaves the entry at a key, puts it or removes it. -/
theorem Move.get {e : FlushStep} (hmove : Move cf s e s') {w : Bytes} (h : s'.table.get k = some w) :
    (putAt k e).or (s.table.get k) = some w := by
  cases hmove with
  | stays e he =>
      rw [he k, Option.none_or]
      exact h
  | puts key value =>
      rw [putAt]
      by_cases hkey : key = k
      · subst hkey
        rw [if_pos rfl, Option.some_or]
        exact (ExtTreeMap.getElem?_insert_self (t := s.table.map)).symm.trans h
      · rw [if_neg hkey, Option.none_or]
        exact (get_insert_of_ne hkey).symm.trans h
  | pops key hphase =>
      rw [MemTable.get, ExtTreeMap.getElem?_erase] at h
      split at h
      · simp at h
      · exact h
  | adds i size => exact h
  | starts hphase => exact h
  | collects es a hphase hnext => exact h
  | ends es hphase hnext => exact h
  | stores key value rest st hphase hput => exact h
  | fails key value rest e st hphase hput => exact h
  | clears hphase => exact h
  | empties hphase hlist => exact h
  | resets hphase => exact h

/-- The entries that a flush has collected stay in order. -/
theorem Move.collected {e : FlushStep} (hmove : Move cf s e s') (h : Tracks k last s)
    (es : List (Bytes × Bytes)) (hes : s'.phase = .collecting es) : Ascending es := by
  cases hmove with
  | stays => exact h.collected es hes
  | puts key value => exact h.collected es hes
  | adds i size => exact h.collected es hes
  | pops key hphase => exact h.collected es hes
  | starts hphase =>
      cases hes
      exact List.Pairwise.nil
  | collects es a hphase hnext =>
      cases hes
      exact ascending_concat (h.collected _ hphase) (nextEntry_some hnext).2
  | ends es hphase hnext => simp at hes
  | stores key value rest st hphase hput => simp at hes
  | fails key value rest e st hphase hput => simp at hes
  | clears hphase => simp at hes
  | empties hphase hlist => simp at hes
  | resets hphase => simp at hes

/-- The entries that a flush has still to store stay in order. -/
theorem Move.toStore {e : FlushStep} (hmove : Move cf s e s') (h : Tracks k last s)
    (es : List (Bytes × Bytes)) (hes : s'.phase = .storing es) : Ascending es := by
  cases hmove with
  | stays => exact h.toStore es hes
  | puts key value => exact h.toStore es hes
  | adds i size => exact h.toStore es hes
  | pops key hphase => exact h.toStore es hes
  | ends es hphase hnext =>
      cases hes
      exact h.collected _ hphase
  | stores key value rest st hphase hput =>
      cases hes
      exact (List.pairwise_cons.1 (h.toStore _ hphase)).2
  | starts hphase => simp at hes
  | collects es a hphase hnext => simp at hes
  | fails key value rest e st hphase hput => simp at hes
  | clears hphase => simp at hes
  | empties hphase hlist => simp at hes
  | resets hphase => simp at hes

theorem Tracks.step (h : Tracks k last s) (e : FlushStep) :
    Tracks k ((putAt k e).or last) (s.step cf e) where
  value w hw := by
    have hget := (move_step cf s e).get hw
    cases hput : putAt k e with
    | some u => rwa [hput] at hget
    | none =>
        rw [hput, Option.none_or] at hget
        rw [Option.none_or]
        exact h.value w hget
  collected := (move_step cf s e).collected h
  toStore := (move_step cf s e).toStore h

theorem lastPut_concat (steps : List FlushStep) (e : FlushStep) :
    lastPut k (steps ++ [e]) = (putAt k e).or (lastPut k steps) := by
  rw [lastPut, List.filterMap_append, List.getLast?_append, lastPut]
  cases hput : putAt k e with
  | none => simp [hput]
  | some u => simp [hput]

theorem run_concat (steps : List FlushStep) (e : FlushStep) :
    s.run cf (steps ++ [e]) = (s.run cf steps).step cf e := by
  rw [run, List.foldl_append]
  rfl

/-- The last step decides when it puts at the key. -/
theorem lastSafe_concat_insert (steps : List FlushStep) :
    LastSafe cf s k (steps ++ [.insert k v]) ↔ Safe cf (s.run cf steps) k v := by
  constructor
  · exact fun h => h steps v [] rfl rfl
  · intro h pre w post hsplit hpost
    rcases List.eq_nil_or_concat' post with rfl | ⟨post, e, rfl⟩
    · obtain ⟨rfl, hlast⟩ := List.append_inj' hsplit rfl
      obtain ⟨-, rfl⟩ := FlushStep.insert.inj (List.singleton_inj.1 hlast)
      exact h
    · -- the step would come after the put
      rw [← List.cons_append, ← List.append_assoc] at hsplit
      obtain ⟨-, hlast⟩ := List.append_inj' hsplit rfl
      rw [← List.singleton_inj.1 hlast, lastPut_concat] at hpost
      simp [putAt] at hpost

theorem lastSafe_concat_of_ne (steps : List FlushStep) {e : FlushStep} (he : putAt k e = none) :
    LastSafe cf s k (steps ++ [e]) ↔ LastSafe cf s k steps := by
  constructor
  · intro h pre w post hsplit hpost
    refine h pre w (post ++ [e]) (by rw [hsplit]; simp) ?_
    rw [lastPut_concat, he, hpost]
    rfl
  · intro h pre w post hsplit hpost
    rcases List.eq_nil_or_concat' post with rfl | ⟨post, e', rfl⟩
    · obtain ⟨-, hlast⟩ := List.append_inj' hsplit rfl
      rw [List.singleton_inj.1 hlast] at he
      simp [putAt] at he
    · rw [← List.cons_append, ← List.append_assoc] at hsplit
      obtain ⟨hsteps, -⟩ := List.append_inj' hsplit rfl
      rw [lastPut_concat] at hpost
      exact h pre w post hsteps (Option.or_eq_none_iff.1 hpost).2

/-- What survives a run is the last value put, if that was safe. -/
theorem survives_run (hk : Spared cf k) (hs : Tracks k none s) (steps : List FlushStep) :
    Tracks k (lastPut k steps) (s.run cf steps) ∧
      ∀ v, lastPut k steps = some v →
        (Survives cf (s.run cf steps) k v ↔ LastSafe cf s k steps) := by
  -- from the end of the run: the last step decides the key it puts at, or leaves it
  induction steps using List.reverseRecOn with
  | nil => exact ⟨hs, fun v hv => by simp [lastPut] at hv⟩
  | append_singleton steps e ih =>
      obtain ⟨htracks, hsurvives⟩ := ih
      rw [lastPut_concat, run_concat]
      refine ⟨htracks.step e, fun v hv => ?_⟩
      cases hput : putAt k e with
      | none =>
          rw [hput, Option.none_or] at hv
          rw [lastSafe_concat_of_ne steps hput, ← hsurvives v hv]
          exact (move_step cf _ e).survives (hv ▸ htracks) hk hput
      | some u =>
          -- the step is a put at the key
          rw [hput, Option.some_or] at hv
          cases e with
          | insert key value =>
              rw [putAt] at hput
              split at hput
              case isFalse => simp at hput
              case isTrue hkey =>
                  subst hkey
                  obtain rfl := Option.some.inj hput
                  obtain rfl := Option.some.inj hv
                  rw [lastSafe_concat_insert]
                  exact survives_insert
          | addSize i => simp [putAt] at hput
          | flush => simp [putAt] at hput
          | collect => simp [putAt] at hput
          | store => simp [putAt] at hput
          | pop => simp [putAt] at hput
          | reset => simp [putAt] at hput

theorem get_eq_ok_iff (st : RocksDbStorage) : st.get cf k = .ok (some v) ↔ stored cf st k = some v := by
  rw [RocksDbStorage.get_eq, stored]
  cases st.db.slot cf with
  | none => simp
  | some f => simp

/-- **What a flush keeps.** When the flush is over, the last value put at a key is in the
memtable or, without an entry there, in RocksDB, exactly when that put was safe. -/
theorem flush_keeps_iff (cf : String) (capacity : UInt64) (storage : RocksDbStorage)
    (steps : List FlushStep) (hdone : ((start capacity storage).run cf steps).phase = .idle) {k : Bytes}
    (hk : Spared cf k) :
    (∀ v, lastPut k steps = some v → Keeps cf ((start capacity storage).run cf steps) k v) ↔
      LastSafe cf (start capacity storage) k steps := by
  have hstart : Tracks k none (start capacity storage) :=
    ⟨fun w hw => by simp [start, MemTable.new, MemTable.get] at hw, fun es hes => by simp [start] at hes,
      fun es hes => by simp [start] at hes⟩
  obtain ⟨htracks, hsurvives⟩ := survives_run hk hstart steps
  have hkeeps : ∀ v, lastPut k steps = some v →
      (Keeps cf ((start capacity storage).run cf steps) k v ↔
        Survives cf ((start capacity storage).run cf steps) k v) := by
    intro v hv
    rw [Survives, hdone, Keeps, get_eq_ok_iff]
    show _ ↔ _ ∨ _
    cases hget : ((start capacity storage).run cf steps).table.get k with
    | none => simp
    | some w =>
        -- an entry of the memtable is never older than the last put
        have hw := htracks.value w hget
        rw [hv] at hw
        simp [Option.some.inj hw]
  cases hlast : lastPut k steps with
  | none =>
      -- nothing was put at the key
      refine iff_of_true (fun v hv => by simp at hv) ?_
      intro pre w post hsplit
      rw [hsplit, lastPut, List.filterMap_append, List.filterMap_cons] at hlast
      simp [putAt] at hlast
  | some v =>
      rw [← hsurvives v hlast, ← hkeeps v hlast]
      exact ⟨fun h => h v rfl, fun h w hw => Option.some.inj hw ▸ h⟩

/-- A put that lands on a later key while the flush collects. -/
def putAhead : List FlushStep :=
  [.insert (asBytes "a") (asBytes "1"), .addSize 0, .flush, .collect,
    .insert (asBytes "b") (asBytes "2"), .addSize 0, .collect, .collect, .store, .store, .store, .pop,
    .pop, .pop, .reset]

theorem flush_keeps_iff_putAhead : LastSafe cfDocuments (start 64 .fresh) (asBytes "b") putAhead := by
  have hspared : Spared cfDocuments (asBytes "b") := by
    intro h
    exact absurd h (by decide)
  refine (flush_keeps_iff cfDocuments 64 .fresh putAhead rfl hspared).1 fun v hv => ?_
  obtain rfl : asBytes "2" = v := Option.some.inj hv
  exact Or.inr ⟨rfl, rfl⟩

/-- A put that lands on a key that the flush has collected. -/
def putBehind : List FlushStep :=
  [.insert (asBytes "k") (asBytes "1"), .addSize 0, .flush, .collect,
    .insert (asBytes "k") (asBytes "2"), .addSize 0, .collect, .store, .store, .pop, .pop, .reset]

/-- All puts and the flush are over, and the last value is lost. -/
theorem flush_loses_put :
    ((start 64 .fresh).run cfDocuments putBehind).phase = .idle ∧
      ((start 64 .fresh).run cfDocuments putBehind).sizes = [] ∧
      lastPut (asBytes "k") putBehind = some (asBytes "2") ∧
      ¬ Keeps cfDocuments ((start 64 .fresh).run cfDocuments putBehind) (asBytes "k") (asBytes "2") := by
  refine ⟨rfl, rfl, rfl, fun hkeeps => ?_⟩
  rcases hkeeps with hheld | ⟨-, hstored⟩
  · have hnone : ((start 64 .fresh).run cfDocuments putBehind).table.get (asBytes "k") = none := rfl
    rw [hnone] at hheld
    simp at hheld
  · have hold : ((start 64 .fresh).run cfDocuments putBehind).storage.get cfDocuments (asBytes "k") =
        .ok (some (asBytes "1")) := rfl
    rw [hold] at hstored
    exact absurd hstored (by decide)

end Flushing

end MSearchDB.Storage.RocksDb
