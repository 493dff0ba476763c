import MSearchDB.Storage.RocksDbReopen

/-!
# Sequence numbers of concurrent puts

A put of `RocksDbStorage` takes its number at once and hands its batch to a thread pool,
so that batches reach RocksDB in any order. Each one writes its own number as the current
one. `Writers` is a store with the puts that have taken a number; a step takes a number or
lets a batch arrive.

What is persisted is the number of the batch that RocksDB accepted last (`Counts`). It is
the largest one taken, and is not given out again after a reopening, exactly when that
batch is the one of the put that took the last number (`numbers_not_reused_iff`).
-/

set_option autoImplicit false

namespace MSearchDB.Storage.RocksDb

open MSearchDB.Lib
open MSearchDB.Core

/-- A put that has taken its number, and whether its batch has arrived. -/
structure InFlight where
  seq : UInt64
  cfName : String
  key : Bytes
  value : Bytes
  done : Bool

/-- A store and the puts that have taken a number, in that order. -/
structure Writers where
  storage : RocksDbStorage
  puts : List InFlight

/-- A step of a put: it takes a number, or the batch of the put at a place arrives. -/
inductive PutStep where
  | take (cfName : String) (key value : Bytes)
  | write (i : Nat)
  deriving DecidableEq

namespace Writers

/-- The first half of `put`. -/
def take (st : Writers) (cfName : String) (key value : Bytes) : Writers :=
  -- the number is spent before the batch is sent
  let (seq, storage) := st.storage.fetchAdd
  ⟨storage, st.puts ++ [⟨seq, cfName, key, value, false⟩]⟩

/-- The second half of `put`, once. -/
def write (st : Writers) (i : Nat) : Writers :=
  match st.puts[i]? with
  | some p =>
      if p.done then st
      else
        -- without the family nothing is written, and the put completes with an error
        ⟨(st.storage.writeBatch p.seq p.cfName p.key p.value).2, st.puts.set i { p with done := true }⟩
  | none => st

/-- One step. -/
def step (st : Writers) : PutStep → Writers
  | .take cfName key value => st.take cfName key value
  | .write i => st.write i

/-- The store after a sequence of steps. -/
def run (s : RocksDbStorage) (steps : List PutStep) : Writers := steps.foldl step ⟨s, []⟩

/-- Every put has completed. -/
def Completed (st : Writers) : Prop := ∀ p ∈ st.puts, p.done = true

/-- The numbers that were taken. -/
def assigned (st : Writers) : List UInt64 := st.puts.map InFlight.seq

/-- The step takes a number. -/
def isTake : PutStep → Bool
  | .take _ _ _ => true
  | .write _ => false

/-- How many numbers the steps take. -/
def takes (steps : List PutStep) : Nat := steps.countP isTake

/-- The put whose batch arrives with a step and is written, since its family exists. -/
def accepted (st : Writers) : PutStep → Option Nat
  | .take _ _ _ => none
  | .write i =>
      match st.puts[i]? with
      | some p => if ¬ p.done ∧ (st.storage.db.cfHandle p.cfName).isSome then some i else none
      | none => none

/-- The puts whose batches are written, in the order in which they arrive. -/
def writers : Writers → List PutStep → List Nat
  | _, [] => []
  | st, e :: es => (accepted st e).toList ++ writers (st.step e) es

/-- The persisted counter is at least every number taken, and a store that is opened on
the database takes none of them again, nor one that the counter had passed before. -/
def NotReused (s : RocksDbStorage) (st : Writers) : Prop :=
  (∃ n, RocksDbStorage.recoverSequence st.storage.db = .ok n ∧ ∀ a ∈ st.assigned, a ≤ n) ∧
    ∀ options s', RocksDbStorage.new (some st.storage.db) options = .ok s' →
      ∀ steps, s'.sequence.toNat + takes steps < 2 ^ 64 →
        ∀ b ∈ (run s' steps).assigned, s.sequence < b ∧ b ∉ st.assigned

/-! ## The counter -/

/-- The number of the put at a place, after a counter. -/
def numberOf (base : UInt64) : Option Nat → UInt64
  | none => base
  | some i => base + UInt64.ofNat (i + 1)

/-- The numbers taken since the counter was `base`, and the one persisted by the writes
of `ws`. -/
structure Counts (base : UInt64) (ws : List Nat) (st : Writers) : Prop where
  sequence : st.storage.sequence = base + UInt64.ofNat st.puts.length
  seqs : ∀ i p, st.puts[i]? = some p → p.seq = numberOf base (some i)
  family : (st.storage.db.slot cfSequence).isSome
  persisted : RocksDbStorage.recoverSequence st.storage.db = .ok (numberOf base ws.getLast?)
  bound : ∀ i ∈ ws, i < st.puts.length

variable {base : UInt64} {ws : List Nat} {st : Writers}

theorem recoverSequence_putCf {db : DB} (h : (db.slot cfSequence).isSome) (seq : UInt64) :
    RocksDbStorage.recoverSequence (db.putCf cfSequence currentSeqKey (toLeBytes64 seq)) = .ok seq := by
  rw [RocksDbStorage.isSome_slot] at h
  obtain ⟨m, hm⟩ := Option.isSome_iff_exists.1 h
  have hcf : (db.putCf cfSequence currentSeqKey (toLeBytes64 seq)).cfHandle cfSequence =
      some (m.insert currentSeqKey (toLeBytes64 seq)) := by
    rw [DB.putCf, DB.modifyCf, hm]
    simp only [DB.cfHandle_insert, if_pos]
  rw [RocksDbStorage.recoverSequence, hcf]
  simp

theorem Counts.take (h : Counts base ws st) (cfName : String) (key value : Bytes) :
    Counts base ws (st.take cfName key value) where
  sequence := by
    show st.storage.sequence + 1 = base + UInt64.ofNat (st.puts ++ [_]).length
    rw [h.sequence, List.length_append, UInt64.ofNat_add, UInt64.add_assoc]
    rfl
  seqs i p hp := by
    have hget : (st.puts ++ [⟨st.storage.sequence + 1, cfName, key, value, false⟩])[i]? = some p := hp
    rw [List.getElem?_append] at hget
    split at hget
    case isTrue => exact h.seqs i p hget
    case isFalse hi =>
        -- the new put is the last one
        rw [List.getElem?_singleton] at hget
        split at hget
        case isFalse => simp at hget
        case isTrue hzero =>
            cases hget
            have hi : i = st.puts.length := by omega
            rw [numberOf, hi, UInt64.ofNat_add, h.sequence, UInt64.add_assoc]
            rfl
  family := h.family
  persisted := h.persisted
  bound i hi := by
    have hlt := h.bound i hi
    show i < (st.puts ++ [_]).length
    rw [List.length_append]
    exact Nat.lt_add_right _ hlt

/-- A batch that has arrived keeps its number. -/
theorem Counts.seqs_set (h : Counts base ws st) {i : Nat} {p : InFlight} (hp : st.puts[i]? = some p)
    {j : Nat} {q : InFlight} (hq : (st.puts.set i { p with done := true })[j]? = some q) :
    q.seq = numberOf base (some j) := by
  rw [List.getElem?_set] at hq
  split at hq
  case isFalse => exact h.seqs j q hq
  case isTrue hij =>
      split at hq
      case isFalse => simp at hq
      case isTrue =>
          cases hq
          exact h.seqs j p (hij ▸ hp)

theorem Counts.write (h : Counts base ws st) (i : Nat) :
    Counts base (ws ++ (accepted st (.write i)).toList) (st.write i) := by
  rw [Writers.write, accepted]
  cases hp : st.puts[i]? with
  | none => simpa using h
  | some p =>
      cases hdone : p.done with
      | true => simpa [hdone] using h
      | false =>
          obtain ⟨m, hm⟩ := Option.isSome_iff_exists.1 ((RocksDbStorage.isSome_slot _ _).symm.trans h.family)
          simp only [hdone, RocksDbStorage.writeBatch, hm, Bool.false_eq_true, if_false,
            not_false_eq_true, true_and]
          cases hcf : st.storage.db.cfHandle p.cfName with
          | none =>
              -- the batch is refused and the counter in the database stays
              refine ⟨?_, fun j q hq => h.seqs_set hp hq, h.family, ?_, ?_⟩
              · simpa using h.sequence
              · simpa using h.persisted
              · simpa using h.bound
          | some m' =>
              -- the batch ends with the number of the put, also in the sequence family
              have hfamily : ((st.storage.db.putCf p.cfName p.key p.value).slot cfSequence).isSome :=
                (DB.isSome_slot_putCf _ _ _ _ _).trans h.family
              have hnumber : p.seq = numberOf base (some i) := h.seqs i p hp
              refine ⟨?_, fun j q hq => h.seqs_set hp hq, ?_, ?_, fun j hj => ?_⟩
              · simpa using h.sequence
              · exact (DB.isSome_slot_putCf _ _ _ _ _).trans hfamily
              · simp only [Option.isSome_some, if_true, Option.toList_some, List.getLast?_concat]
                rw [← hnumber]
                exact recoverSequence_putCf hfamily p.seq
              · rw [List.length_set]
                rcases List.mem_append.1 hj with hj | hj
                · exact h.bound j hj
                · simp only [Option.isSome_some, if_true, Option.toList_some, List.mem_singleton] at hj
                  rw [hj]
                  exact (List.getElem?_eq_some_iff.1 hp).1

theorem Counts.step (h : Counts base ws st) (e : PutStep) :
    Counts base (ws ++ (accepted st e).toList) (st.step e) := by
  cases e with
  | take cfName key value =>
      have hnone : ws ++ (accepted st (.take cfName key value)).toList = ws := List.append_nil ws
      rw [hnone]
      exact h.take cfName key value
  | write i => exact h.write i

theorem Counts.foldl (es : List PutStep) :
    ∀ {ws : List Nat} {st : Writers}, Counts base ws st →
      Counts base (ws ++ writers st es) (es.foldl Writers.step st) := by
  induction es with
  | nil =>
      intro ws st h
      rw [writers, List.append_nil]
      exact h
  | cons e es ih =>
      intro ws st h
      rw [writers, ← List.append_assoc]
      exact ih (h.step e)

theorem length_puts_foldl (es : List PutStep) :
    ∀ st : Writers, (es.foldl step st).puts.length = st.puts.length + takes es := by
  induction es with
  | nil => exact fun st => rfl
  | cons e es ih =>
      intro st
      have htakes : takes (e :: es) = takes es + if isTake e then 1 else 0 := List.countP_cons
      rw [List.foldl_cons, ih, htakes]
      cases e with
      | take cfName key value =>
          have hlen : (st.step (.take cfName key value)).puts.length = st.puts.length + 1 :=
            List.length_append
          rw [hlen, isTake, if_pos rfl]
          omega
      | write i =>
          have hlen : (st.step (.write i)).puts.length = st.puts.length := by
            rw [step, write]
            split
            · split
              · rfl
              · exact List.length_set
            · rfl
          rw [hlen, isTake, if_neg Bool.false_ne_true, Nat.add_zero]

/-! ## Opening -/

theorem recoverSequence_of_new {disk : Option DB} {options : StorageOptions} {s : RocksDbStorage}
    (h : RocksDbStorage.new disk options = .ok s) :
    RocksDbStorage.recoverSequence s.db = .ok s.sequence := by
  rw [RocksDbStorage.new] at h
  split at h
  case h_1 => simp at h
  case h_2 db hopen =>
      split at h
      case h_1 => simp at h
      case h_2 seq hseq =>
          cases h
          exact hseq

theorem counts_of_new {disk : Option DB} {options : StorageOptions} {s : RocksDbStorage}
    (h : RocksDbStorage.new disk options = .ok s) (steps : List PutStep) :
    Counts s.sequence (writers ⟨s, []⟩ steps) (run s steps) := by
  have hstart : Counts s.sequence [] ⟨s, []⟩ :=
    ⟨by simp, fun i p hp => by simp at hp, (RocksDbStorage.openable_of_new h).1.base _ (by decide),
      recoverSequence_of_new h, fun i hi => by simp at hi⟩
  exact hstart.foldl steps

/-- A database is opened with the counter that it holds. -/
theorem sequence_of_reopened {db : DB} (hfamily : (db.slot cfSequence).isSome) {options : StorageOptions}
    {s : RocksDbStorage} (h : RocksDbStorage.new (some db) options = .ok s) :
    RocksDbStorage.recoverSequence db = .ok s.sequence := by
  obtain ⟨hopen, -⟩ := RocksDbStorage.new_isOk_iff.1 ⟨s, h, rfl⟩
  obtain ⟨-, hdb⟩ := (DB.openCfDescriptors_some rfl).1 hopen
  have hseq := recoverSequence_of_new h
  rw [RocksDbStorage.isSome_slot] at hfamily
  obtain ⟨m, hm⟩ := Option.isSome_iff_exists.1 hfamily
  rw [RocksDbStorage.recoverSequence, ← hdb, DB.cfHandle_createMissing, hm] at hseq
  rw [RocksDbStorage.recoverSequence, hm]
  exact hseq

/-! ## Numbers that fit -/

theorem toNat_numberOf {i : Nat} (h : base.toNat + (i + 1) < 2 ^ 64) :
    (numberOf base (some i)).toNat = base.toNat + (i + 1) := by
  have hi : i + 1 < 2 ^ 64 := (Nat.le_add_left _ _).trans_lt h
  rw [numberOf, UInt64.toNat_add, UInt64.toNat_ofNat_of_lt' hi, Nat.mod_eq_of_lt h]

/-- The numbers taken are those after the counter. -/
theorem Counts.mem_assigned (h : Counts base ws st) (hfit : base.toNat + st.puts.length < 2 ^ 64)
    {a : UInt64} (ha : a ∈ st.assigned) :
    base.toNat < a.toNat ∧ a.toNat ≤ base.toNat + st.puts.length := by
  obtain ⟨p, hp, rfl⟩ := List.mem_map.1 ha
  obtain ⟨i, hi⟩ := List.mem_iff_getElem?.1 hp
  have hlt : i < st.puts.length := (List.getElem?_eq_some_iff.1 hi).1
  rw [h.seqs i p hi, toNat_numberOf (by omega)]
  omega

theorem Counts.last_mem_assigned (h : Counts base ws st) (hne : st.puts.length ≠ 0) :
    numberOf base (some (st.puts.length - 1)) ∈ st.assigned := by
  have hlt : st.puts.length - 1 < st.puts.length := by omega
  obtain ⟨p, hp⟩ : ∃ p, st.puts[st.puts.length - 1]? = some p :=
    ⟨_, List.getElem?_eq_getElem hlt⟩
  rw [← h.seqs _ p hp]
  exact List.mem_map_of_mem (List.mem_of_getElem? hp)

/-- What is persisted is the last number exactly when the last put writes last. -/
theorem Counts.le_persisted_iff (h : Counts base ws st) (hfit : base.toNat + st.puts.length < 2 ^ 64) :
    (∀ a ∈ st.assigned, a ≤ numberOf base ws.getLast?) ↔
      st.puts.length = 0 ∨ ws.getLast? = some (st.puts.length - 1) := by
  constructor
  · intro hle
    refine or_iff_not_imp_left.2 fun hne => ?_
    have hlast := UInt64.le_iff_toNat_le.1 (hle _ (h.last_mem_assigned hne))
    rw [toNat_numberOf (by omega)] at hlast
    cases hws : ws.getLast? with
    | none =>
        -- nothing was written, and the counter stands before the first number
        rw [hws, numberOf] at hlast
        omega
    | some i =>
        have hi := h.bound i (List.mem_of_getLast? hws)
        rw [hws, toNat_numberOf (by omega)] at hlast
        congr 1
        omega
  · rintro (hzero | hlast) a ha
    · have hmem := h.mem_assigned hfit ha
      omega
    · have hmem := h.mem_assigned hfit ha
      rw [hlast, UInt64.le_iff_toNat_le, toNat_numberOf (by omega)]
      omega

/-- **When numbers are not reused.** The last batch that RocksDB accepts must be that of
the put that took the last number. -/
theorem numbers_not_reused_iff {disk : Option DB} {options : StorageOptions} {s : RocksDbStorage}
    (hnew : RocksDbStorage.new disk options = .ok s) {steps : List PutStep}
    (hfit : s.sequence.toNat + takes steps < 2 ^ 64) :
    NotReused s (run s steps) ↔
      takes steps = 0 ∨ (writers ⟨s, []⟩ steps).getLast? = some (takes steps - 1) := by
  have hcounts := counts_of_new hnew steps
  have hlen : (run s steps).puts.length = takes steps :=
    (length_puts_foldl steps ⟨s, []⟩).trans (Nat.zero_add _)
  have hle := hcounts.le_persisted_iff (hlen ▸ hfit)
  rw [hlen] at hle
  rw [← hle]
  constructor
  · rintro ⟨⟨n, hn, hall⟩, -⟩
    rw [hcounts.persisted] at hn
    obtain rfl := Except.ok.inj hn
    exact hall
  · intro hall
    refine ⟨⟨_, hcounts.persisted, hall⟩, fun options' s' hnew' steps' hfit' b hb => ?_⟩
    have hseq := sequence_of_reopened hcounts.family hnew'
    rw [hcounts.persisted] at hseq
    have hseq := Except.ok.inj hseq
    have hlen' : (run s' steps').puts.length = takes steps' :=
      (length_puts_foldl steps' ⟨s', []⟩).trans (Nat.zero_add _)
    -- the numbers taken now are above the counter that was persisted
    have habove := ((counts_of_new hnew' steps').mem_assigned (hlen' ▸ hfit') hb).1
    rw [← hseq] at habove
    have hbase : s.sequence.toNat ≤ (numberOf s.sequence (writers ⟨s, []⟩ steps).getLast?).toNat := by
      cases hws : (writers ⟨s, []⟩ steps).getLast? with
      | none => exact Nat.le_refl _
      | some i =>
          have hi := hcounts.bound i (List.mem_of_getLast? hws)
          rw [toNat_numberOf (by omega)]
          omega
    refine ⟨UInt64.lt_iff_toNat_lt.2 (hbase.trans_lt habove), fun hmem => ?_⟩
    have hbelow := UInt64.le_iff_toNat_le.1 (hall b hmem)
    omega

/-- Two puts of documents that have taken the numbers 1 and 2. -/
def twoTaken : List PutStep :=
  [.take cfDocuments (asBytes "a") (asBytes "1"), .take cfDocuments (asBytes "b") (asBytes "2")]

theorem numbers_not_reused_in_order : NotReused .fresh (run .fresh (twoTaken ++ [.write 0, .write 1])) := by
  have hfit : RocksDbStorage.fresh.sequence.toNat + takes (twoTaken ++ [.write 0, .write 1]) < 2 ^ 64 := by decide
  exact (numbers_not_reused_iff (RocksDbStorage.new_none {}) hfit).2 (Or.inr rfl)

/-- The batches of two puts arrive in the other order: the counter is persisted as 1, and
the number 2 is taken again. -/
theorem number_persisted_too_low :
    RocksDbStorage.new none {} = .ok .fresh ∧ (run .fresh (twoTaken ++ [.write 1, .write 0])).Completed ∧
      RocksDbStorage.fresh.sequence.toNat + takes (twoTaken ++ [.write 1, .write 0]) < 2 ^ 64 ∧
      ¬ NotReused .fresh (run .fresh (twoTaken ++ [.write 1, .write 0])) := by
  have hcompleted : (run .fresh (twoTaken ++ [.write 1, .write 0])).Completed := by
    have hall : (run .fresh (twoTaken ++ [.write 1, .write 0])).puts.all InFlight.done = true := rfl
    exact List.all_eq_true.1 hall
  refine ⟨RocksDbStorage.new_none {}, hcompleted, by decide, ?_⟩
  rintro ⟨⟨n, hn, hle⟩, -⟩
  have hone : RocksDbStorage.recoverSequence
      (run .fresh (twoTaken ++ [.write 1, .write 0])).storage.db = .ok 1 := rfl
  rw [hone] at hn
  obtain rfl := Except.ok.inj hn
  have htwo : (2 : UInt64) ≤ 1 := hle 2 (List.mem_of_getElem? (i := 1) rfl)
  exact absurd htwo (by decide)

end Writers

end MSearchDB.Storage.RocksDb
