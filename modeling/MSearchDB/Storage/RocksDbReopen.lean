import MSearchDB.Core.DocumentPayload
import MSearchDB.Storage.RocksDbSlots

/-!
# Reopening a store

A store is opened at a path, used, dropped, and opened again. RocksDB opens a
database only when every column family on disk is listed, and
`RocksDbStorage::new` lists the fixed ones. `Openable` is the invariant of a store
over any history: the fixed families exist, all others belong to collections, and
the sequence counter has eight bytes or is absent.

`reopen_iff` says that reopening preserves every answer exactly when each
collection that was created has been dropped; `not_reopen_one_collection` is a
store with one empty collection.
-/

set_option autoImplicit false

namespace MSearchDB.Storage.RocksDb

open MSearchDB.Lib
open MSearchDB.Core

namespace RocksDbStorage

/-! ## Opening -/

/-- The sequence counter has eight bytes or is absent. -/
def SeqCoded (slot : Option (Bytes → Option Bytes)) : Prop :=
  ∀ f v, slot = some f → f currentSeqKey = some v → v.length = 8

theorem seqCoded_some {f : Bytes → Option Bytes} :
    SeqCoded (some f) ↔ ∀ v, f currentSeqKey = some v → v.length = 8 := by
  constructor
  · exact fun h v => h f v rfl
  · rintro h g v ⟨⟩
    exact h v

/-- The sequence counter is recovered when it is in that shape. -/
theorem recoverSequence_isOk_iff {db : DB} :
    (∃ seq, recoverSequence db = .ok seq) ↔
      (db.slot cfSequence).isSome ∧ SeqCoded (db.slot cfSequence) := by
  simp only [recoverSequence, DB.slot]
  cases hcf : db.cfHandle cfSequence with
  | none => simp
  | some m =>
      rw [Option.map_some, seqCoded_some]
      cases hv : m[currentSeqKey]? with
      | none => simp [hv]
      | some bytes =>
          by_cases hlen : bytes.length = 8
          · simp [hv, hlen]
          · simp [hv, hlen]

/-- What `new` opens, and when it succeeds. -/
theorem new_isOk_iff {disk : Option DB} {options : StorageOptions} {db : DB} :
    (∃ s, RocksDbStorage.new disk options = .ok s ∧ s.db = db) ↔
      DB.openCfDescriptors options.dbOptions.toOptions disk columnFamilies = .ok db ∧
        (db.slot cfSequence).isSome ∧ SeqCoded (db.slot cfSequence) := by
  rw [← recoverSequence_isOk_iff]
  simp only [RocksDbStorage.new]
  constructor
  · rintro ⟨s, hs, rfl⟩
    split at hs
    · cases hs
    · next db hopen =>
        split at hs
        · cases hs
        · next seq hseq =>
            cases hs
            exact ⟨hopen, seq, hseq⟩
  · rintro ⟨hopen, seq, hseq⟩
    exact ⟨⟨db, seq⟩, by simp only [hopen, hseq], rfl⟩

/-- A collection has a column family. -/
def HasCollection (s : RocksDbStorage) (c : String) : Prop :=
  (s.db.slot (collectionCfName c)).isSome

/-- The invariant of a store over any history. -/
structure Openable (s : RocksDbStorage) : Prop where
  base : HasBase s
  families : ∀ name, (s.db.slot name).isSome →
    name ∈ baseFamilies ∨ ∃ c, name = collectionCfName c
  seqCoded : SeqCoded (s.db.slot cfSequence)

/-- An opened store satisfies the invariant and has no collections. -/
theorem openable_of_new {disk : Option DB} {options : StorageOptions} {s : RocksDbStorage}
    (h : RocksDbStorage.new disk options = .ok s) :
    Openable s ∧ ∀ c, ¬ HasCollection s c := by
  obtain ⟨hopen, -, hcoded⟩ := new_isOk_iff.1 ⟨s, h, rfl⟩
  -- the fixed families are created over a database that has no others
  have hdb : ∃ db, s.db = DB.createMissing db baseFamilies ∧
      ∀ name, (db.slot name).isSome → name ∈ baseFamilies := by
    cases disk with
    | none =>
        refine ⟨⟨∅⟩, ?_, by simp [DB.slot, DB.cfHandle]⟩
        rw [new_none] at h
        cases h
        rfl
    | some db =>
        obtain ⟨hlisted, hdb⟩ := (DB.openCfDescriptors_some rfl).1 hopen
        refine ⟨db, hdb.symm, fun name hname => hlisted name ?_⟩
        rwa [← isSome_slot]
  obtain ⟨db, hdb, hlisted⟩ := hdb
  have hslot : ∀ name, (s.db.slot name).isSome ↔ name ∈ baseFamilies := by
    intro name
    rw [hdb, slot_createMissing]
    by_cases hname : name ∈ baseFamilies
    · simp [hname]
    · have hnone : db.slot name = none := by
        rw [← Option.not_isSome_iff_eq_none]
        exact mt (hlisted name) hname
      simp [hname, hnone]
  refine ⟨⟨fun name hname => (hslot name).2 hname, fun name hname => Or.inl ((hslot name).1 hname),
    hcoded⟩, fun c hc => ?_⟩
  exact collectionCfName_not_mem_baseFamilies c ((hslot _).1 hc)

/-! ## Histories -/

/-- One operation on an open store: a call of the trait, or a raw put or delete. -/
inductive StorageOp where
  | call (c : StorageCall)
  | rawPut (cf : String) (key value : Bytes)
  | rawDelete (cf : String) (key : Bytes)
  deriving DecidableEq

theorem isSome_slot_put {s : RocksDbStorage} (h : HasBase s) (cf : String) (key value : Bytes)
    (name : String) :
    ((s.put cf key value).2.db.slot name).isSome = (s.db.slot name).isSome := by
  rw [slot_put h]
  split
  · dsimp only
    split <;> split <;> simp
  · rfl

theorem isSome_slot_delete (s : RocksDbStorage) (cf : String) (key : Bytes) (name : String) :
    ((s.delete cf key).2.db.slot name).isSome = (s.db.slot name).isSome := by
  rw [slot_delete]
  split <;> simp

/-- The sequence number is written last, over whatever a put has written. -/
theorem seqCoded_put {s : RocksDbStorage} (h : HasBase s)
    (hcoded : SeqCoded (s.db.slot cfSequence)) (cf : String) (key value : Bytes) :
    SeqCoded ((s.put cf key value).2.db.slot cfSequence) := by
  rw [slot_put h]
  split
  · dsimp only
    rw [if_pos rfl]
    -- whatever the put has written to the counter, the number is written over it
    generalize (if cf = cfSequence then _ else _ : Option (Bytes → Option Bytes)) = slot
    cases slot with
    | none => rintro f v ⟨⟩
    | some f =>
        rw [SlotOp.run, Option.map_some, seqCoded_some]
        intro v hv
        rw [Write.exec, Write.key, Function.update_self] at hv
        rw [← Option.some.inj hv, length_toLeBytes64]
  · exact hcoded

theorem seqCoded_delete {s : RocksDbStorage} (hcoded : SeqCoded (s.db.slot cfSequence))
    (cf : String) (key : Bytes) : SeqCoded ((s.delete cf key).2.db.slot cfSequence) := by
  rw [slot_delete]
  split
  · cases hslot : s.db.slot cfSequence with
    | none => rintro f v ⟨⟩
    | some f =>
        rw [hslot, seqCoded_some] at hcoded
        rw [SlotOp.run, Option.map_some, seqCoded_some]
        intro v hv
        rw [Write.exec, Write.key, Function.update_apply] at hv
        split at hv
        · cases hv
        · exact hcoded v hv
  · exact hcoded

theorem Openable.put {s : RocksDbStorage} (h : Openable s) (cf : String) (key value : Bytes) :
    Openable (s.put cf key value).2 where
  base := h.base.put cf key value
  families name hname := h.families name (by rwa [isSome_slot_put h.base] at hname)
  seqCoded := seqCoded_put h.base h.seqCoded cf key value

theorem Openable.delete {s : RocksDbStorage} (h : Openable s) (cf : String) (key : Bytes) :
    Openable (s.delete cf key).2 where
  base := h.base.delete cf key
  families name hname := h.families name (by rwa [isSome_slot_delete] at hname)
  seqCoded := seqCoded_delete h.seqCoded cf key

theorem Openable.createCollectionCf {s : RocksDbStorage} (h : Openable s) (c : String) :
    Openable (s.createCollectionCf c).2 where
  base := h.base.createCollectionCf c
  families name hname := by
    rw [slot_createCollectionCf] at hname
    split at hname
    · next hc => exact Or.inr ⟨c, hc.1.symm⟩
    · exact h.families name hname
  seqCoded := by
    rw [slot_createCollectionCf, if_neg fun hc => collectionCfName_ne_sequence c hc.1]
    exact h.seqCoded

theorem Openable.dropCollectionCf {s : RocksDbStorage} (h : Openable s) (c : String) :
    Openable (s.dropCollectionCf c).2 where
  base := h.base.dropCollectionCf c
  families name hname := by
    rw [slot_dropCollectionCf] at hname
    split at hname
    · cases hname
    · exact h.families name hname
  seqCoded := by
    rw [slot_dropCollectionCf, if_neg (collectionCfName_ne_sequence c)]
    exact h.seqCoded

/-- A store without collections opens again, as it was. -/
theorem Openable.reopen {s : RocksDbStorage} (h : Openable s) (hnone : ∀ c, ¬ HasCollection s c)
    (options : StorageOptions) :
    ∃ s', RocksDbStorage.new (some s.db) options = .ok s' ∧ s'.db = s.db := by
  refine new_isOk_iff.2 ⟨?_, h.base _ (by decide), h.seqCoded⟩
  refine (DB.openCfDescriptors_some rfl).2 ⟨fun name hname => ?_, ?_⟩
  · rw [← isSome_slot] at hname
    rcases h.families name hname with hbase | ⟨c, rfl⟩
    · exact hbase
    · exact absurd hname (hnone c)
  · apply DB.createMissing_of_exists
    intro name hname
    rw [← isSome_slot]
    exact h.base name hname

section Histories

variable [RmpSerde Document]

/-- The store after an operation, whatever the operation returned. -/
def StorageOp.exec (s : RocksDbStorage) : StorageOp → RocksDbStorage
  | call c => c.exec s
  | rawPut cf key value => (s.put cf key value).2
  | rawDelete cf key => (s.delete cf key).2

/-- The store after a history. -/
def StorageOp.execAll (s : RocksDbStorage) (ops : List StorageOp) : RocksDbStorage :=
  ops.foldl StorageOp.exec s

/-- **What an operation can do.** Nothing, a raw put, a raw delete, or to create
or drop the column family of a collection. -/
theorem StorageOp.exec_cases (s : RocksDbStorage) (op : StorageOp) :
    (∃ c, op = call (.createCollection c) ∧ op.exec s = (s.createCollectionCf c).2) ∨
    (∃ c, op = call (.dropCollection c) ∧ op.exec s = (s.dropCollectionCf c).2) ∨
    ((∀ c, op ≠ call (.createCollection c)) ∧ (∀ c, op ≠ call (.dropCollection c)) ∧
      (op.exec s = s ∨ (∃ cf key value, op.exec s = (s.put cf key value).2) ∨
        ∃ cf key, op.exec s = (s.delete cf key).2)) := by
  cases op with
  | rawPut cf key value =>
      exact Or.inr (Or.inr ⟨nofun, nofun, Or.inr (Or.inl ⟨cf, key, value, rfl⟩)⟩)
  | rawDelete cf key =>
      exact Or.inr (Or.inr ⟨nofun, nofun, Or.inr (Or.inr ⟨cf, key, rfl⟩)⟩)
  | call c =>
      rcases RocksDbStorage.exec_cases s c with ⟨d, rfl, hs⟩ | ⟨d, rfl, hs⟩ | ⟨hcreate, hdrop, hs⟩
      · exact Or.inl ⟨d, rfl, hs⟩
      · exact Or.inr (Or.inl ⟨d, rfl, hs⟩)
      · refine Or.inr (Or.inr ⟨fun d h => ?_, fun d h => ?_, hs⟩)
        · exact hcreate d (StorageOp.call.inj h)
        · exact hdrop d (StorageOp.call.inj h)

theorem Openable.exec {s : RocksDbStorage} (h : Openable s) (op : StorageOp) :
    Openable (op.exec s) := by
  cases op with
  | call c =>
      exact exec_invariant Openable Openable.put Openable.delete Openable.createCollectionCf
        Openable.dropCollectionCf h c
  | rawPut cf key value => exact h.put cf key value
  | rawDelete cf key => exact h.delete cf key

/-- The invariant over whole histories. -/
theorem Openable.execAll {s : RocksDbStorage} (h : Openable s) (ops : List StorageOp) :
    Openable (StorageOp.execAll s ops) := by
  induction ops using List.reverseRecOn with
  | nil => exact h
  | append_singleton ops op ih =>
      rw [StorageOp.execAll, List.foldl_append]
      exact ih.exec op

/-- Which collections exist after one more operation. -/
theorem hasCollection_exec {s : RocksDbStorage} (h : Openable s) (op : StorageOp) (c : String) :
    HasCollection (op.exec s) c ↔
      (op = .call (.createCollection c) ∧ '\x00' ∉ c.toList) ∨
        (HasCollection s c ∧ op ≠ .call (.dropCollection c)) := by
  simp only [HasCollection]
  rcases StorageOp.exec_cases s op with ⟨d, rfl, hs⟩ | ⟨d, rfl, hs⟩ | ⟨hcreate, hdrop, hs⟩
  · rw [hs, slot_createCollectionCf]
    by_cases hcd : d = c
    · subst hcd
      by_cases hnul : '\x00' ∈ d.toList
      · simp [hnul]
      · cases s.db.slot (collectionCfName d) with
        | none => simp [hnul, SlotOp.run]
        | some m => simp [hnul, SlotOp.run]
    · simp [hcd, collectionCfName_injective.eq_iff]
  · rw [hs, slot_dropCollectionCf]
    by_cases hcd : d = c
    · simp [hcd]
    · simp [hcd, collectionCfName_injective.eq_iff]
  · have hsame : ((op.exec s).db.slot (collectionCfName c)).isSome =
        (s.db.slot (collectionCfName c)).isSome := by
      rcases hs with hs | ⟨cf, key, value, hs⟩ | ⟨cf, key, hs⟩
      · rw [hs]
      · rw [hs, isSome_slot_put h.base]
      · rw [hs, isSome_slot_delete]
    rw [hsame]
    simp [hcreate c, hdrop c]

/-- A collection exists when it has been created and not been dropped since. -/
theorem hasCollection_execAll {s : RocksDbStorage} (h : Openable s)
    (hnone : ∀ c, ¬ HasCollection s c) (ops : List StorageOp) (c : String) :
    HasCollection (StorageOp.execAll s ops) c ↔
      ∃ pre post, ops = pre ++ .call (.createCollection c) :: post ∧ '\x00' ∉ c.toList ∧
        .call (.dropCollection c) ∉ post := by
  induction ops using List.reverseRecOn with
  | nil => simpa [StorageOp.execAll] using hnone c
  | append_singleton ops op ih =>
      have hstep : StorageOp.execAll s (ops ++ [op]) = op.exec (StorageOp.execAll s ops) := by
        simp [StorageOp.execAll]
      rw [hstep, hasCollection_exec (h.execAll ops), ih]
      constructor
      · rintro (⟨rfl, hnul⟩ | ⟨⟨pre, post, rfl, hnul, hpost⟩, hop⟩)
        · exact ⟨ops, [], rfl, hnul, by simp⟩
        · exact ⟨pre, post ++ [op], by simp, hnul, by simp [hpost, hop.symm]⟩
      · rintro ⟨pre, post, hsplit, hnul, hpost⟩
        -- the creation is the last operation, or it stands before it
        rcases post.eq_nil_or_concat with rfl | ⟨post', last, rfl⟩
        · obtain ⟨-, hop⟩ := List.append_inj' hsplit rfl
          exact Or.inl ⟨List.singleton_inj.1 hop, hnul⟩
        · rw [List.concat_eq_append] at hsplit hpost
          rw [← List.cons_append, ← List.append_assoc] at hsplit
          obtain ⟨hops, hop⟩ := List.append_inj' hsplit rfl
          cases List.singleton_inj.1 hop
          refine Or.inr ⟨⟨pre, post', hops, hnul, ?_⟩, ?_⟩
          · exact fun hmem => hpost (List.mem_append_left _ hmem)
          · rintro rfl
            exact hpost (List.mem_append_right _ (List.mem_singleton_self _))

/-! ## Reopening -/

/-- The two stores answer every question alike. -/
structure SameAnswers (s s' : RocksDbStorage) : Prop where
  collectionExists : ∀ c, StorageBackend.collectionExists s' c = StorageBackend.collectionExists s c
  get : ∀ id, StorageBackend.get s' id = StorageBackend.get s id
  getFromCollection : ∀ c id,
    StorageBackend.getFromCollection s' c id = StorageBackend.getFromCollection s c id
  scan : ∀ range limit, StorageBackend.scan s' range limit = StorageBackend.scan s range limit
  scanCollection : ∀ c range limit,
    StorageBackend.scanCollection s' c range limit = StorageBackend.scanCollection s c range limit
  rawGet : ∀ cf key, s'.get cf key = s.get cf key
  rawScan : ∀ cf pre limit, s'.scan cf pre limit = s.scan cf pre limit

/-- Answers are read off the database alone. -/
theorem sameAnswers_of_db_eq {s s' : RocksDbStorage} (h : s'.db = s.db) : SameAnswers s s' := by
  obtain ⟨db, seq⟩ := s
  obtain ⟨db', seq'⟩ := s'
  cases h
  exact ⟨fun _ => rfl, fun _ => rfl, fun _ _ => rfl, fun _ _ => rfl, fun _ _ _ => rfl,
    fun _ _ => rfl, fun _ _ _ => rfl⟩

/-- **Reopening.** After any history on an opened store, opening the path again
succeeds and preserves every answer exactly when each collection whose creation
succeeded has been dropped afterwards. -/
theorem reopen_iff {disk : Option DB} {options₀ : StorageOptions} {s₀ : RocksDbStorage}
    (hopen : RocksDbStorage.new disk options₀ = .ok s₀) (ops : List StorageOp)
    (options : StorageOptions) :
    (∃ s', RocksDbStorage.new (some (StorageOp.execAll s₀ ops).db) options = .ok s' ∧
        SameAnswers (StorageOp.execAll s₀ ops) s') ↔
      ∀ pre c post, ops = pre ++ .call (.createCollection c) :: post → '\x00' ∉ c.toList →
        .call (.dropCollection c) ∈ post := by
  obtain ⟨h₀, hnone₀⟩ := openable_of_new hopen
  have hnone : (∀ c, ¬ HasCollection (StorageOp.execAll s₀ ops) c) ↔
      ∀ pre c post, ops = pre ++ .call (.createCollection c) :: post → '\x00' ∉ c.toList →
        .call (.dropCollection c) ∈ post := by
    constructor
    · intro h pre c post hsplit hnul
      by_contra hdrop
      exact h c ((hasCollection_execAll h₀ hnone₀ ops c).2 ⟨pre, post, hsplit, hnul, hdrop⟩)
    · intro h c hc
      obtain ⟨pre, post, hsplit, hnul, hdrop⟩ := (hasCollection_execAll h₀ hnone₀ ops c).1 hc
      exact hdrop (h pre c post hsplit hnul)
  rw [← hnone]
  constructor
  · -- a collection that is left is a family on disk that is not listed
    rintro ⟨s', hs', -⟩ c hc
    obtain ⟨hopen', -, -⟩ := new_isOk_iff.1 ⟨s', hs', rfl⟩
    obtain ⟨hlisted, -⟩ := (DB.openCfDescriptors_some rfl).1 hopen'
    rw [HasCollection, isSome_slot] at hc
    exact collectionCfName_not_mem_baseFamilies c (hlisted _ hc)
  · intro h
    obtain ⟨s', hs', hdb⟩ := (h₀.execAll ops).reopen h options
    exact ⟨s', hs', sameAnswers_of_db_eq hdb⟩

end Histories

/-- A history that creates a collection, stores a document in it, and drops it. -/
def droppedCollection : List StorageOp :=
  [.call (.createCollection "c"), .call (.putInCollection "c" (Document.new ⟨"d"⟩)),
    .call (.dropCollection "c")]

/-- Reopening after the collection has been dropped. -/
theorem reopen_droppedCollection :
    ∃ s', RocksDbStorage.new
        (some (StorageOp.execAll ⟨DB.createMissing ⟨∅⟩ baseFamilies, 0⟩ droppedCollection).db) {} =
          .ok s' ∧
      SameAnswers (StorageOp.execAll ⟨DB.createMissing ⟨∅⟩ baseFamilies, 0⟩ droppedCollection) s' := by
  apply (reopen_iff (new_none {}) droppedCollection {}).2
  intro pre c post hsplit _
  -- the only creation stands first
  rcases pre with _ | ⟨a, _ | ⟨b, _ | ⟨d, pre⟩⟩⟩
  · obtain ⟨rfl, rfl⟩ : "c" = c ∧ _ = post := by simpa [droppedCollection] using hsplit
    simp
  all_goals simp [droppedCollection] at hsplit

/-- A store with one empty collection does not open again. -/
theorem not_reopen_one_collection :
    ∃ s₀, RocksDbStorage.new none {} = .ok s₀ ∧
      ¬ ∃ s', RocksDbStorage.new (some (StorageOp.execAll s₀ [.call (.createCollection "c")]).db) {} = .ok s' ∧
        SameAnswers (StorageOp.execAll s₀ [.call (.createCollection "c")]) s' := by
  refine ⟨_, new_none {}, ?_⟩
  rintro ⟨s', hs', -⟩
  have hfail : RocksDbStorage.new (some (StorageOp.execAll ⟨DB.createMissing ⟨∅⟩ baseFamilies, 0⟩
      [.call (.createCollection "c")]).db) {} =
        .error (.storageError "Invalid argument: Column families not opened: col_c") := by
    decide
  rw [hfail] at hs'
  cases hs'

end RocksDbStorage

end MSearchDB.Storage.RocksDb
