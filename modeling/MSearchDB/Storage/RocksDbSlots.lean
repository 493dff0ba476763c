import MSearchDB.Storage.RocksDbBackend

/-!
# The storage engine as a family of slots

Each collection of a `RocksDbStorage` is a slot that its column family holds, and
the methods of the engine are slot operations (`slot_exec`): a creation, a drop,
or one write. `HasBase` says that the fixed column families exist, and
`Encoded` that a column family stores documents under their own keys. Together
they are the invariant `WellFormed` of every store that the methods of
`StorageBackend` build from an empty path (`wellFormed_of_new`,
`WellFormed.execAll`).
-/

set_option autoImplicit false

namespace MSearchDB.Storage.RocksDb

open MSearchDB.Lib
open MSearchDB.Core

namespace RocksDbStorage

/-! ## Names of column families -/

theorem collectionCfName_injective : Function.Injective collectionCfName := by
  intro c d h
  simpa [collectionCfName] using h

theorem collectionCfName_ne_of_head {c name : String} (h : name.toList.head? ≠ some 'c') :
    collectionCfName c ≠ name := by
  rintro rfl
  simp [collectionCfName] at h

@[simp] theorem collectionCfName_ne_documents (c : String) : collectionCfName c ≠ cfDocuments :=
  collectionCfName_ne_of_head (by decide)

@[simp] theorem collectionCfName_ne_sequence (c : String) : collectionCfName c ≠ cfSequence :=
  collectionCfName_ne_of_head (by decide)

/-! ## The methods on slots -/

/-- The fixed column families. -/
def baseFamilies : List String := DB.withDefault columnFamilies

/-- All fixed column families exist. -/
def HasBase (s : RocksDbStorage) : Prop :=
  ∀ name ∈ baseFamilies, (s.db.slot name).isSome

theorem collectionCfName_not_mem_baseFamilies (c : String) :
    collectionCfName c ∉ baseFamilies := by
  intro h
  have hne : ∀ name ∈ baseFamilies, name.toList.head? ≠ some 'c' := by decide
  exact collectionCfName_ne_of_head (hne _ h) rfl

theorem isSome_slot (db : DB) (name : String) :
    (db.slot name).isSome = (db.cfHandle name).isSome := by
  simp [DB.slot]

theorem slot_eq_none_of_cfHandle {db : DB} {name : String} (h : db.cfHandle name = none) :
    db.slot name = none := by
  simp [DB.slot, h]

/-- A raw put, seen at any column family. The batch of a put that succeeds ends
with the sequence number. -/
theorem slot_put {s : RocksDbStorage} (hbase : HasBase s) (cf : String) (key value : Bytes)
    (name : String) :
    (s.put cf key value).2.db.slot name =
      if (s.db.slot cf).isSome then
        let f := if cf = name then SlotOp.run (s.db.slot name) (.write (.put key value))
          else s.db.slot name
        if cfSequence = name then
          SlotOp.run f (.write (.put currentSeqKey (toLeBytes64 (s.sequence + 1))))
        else f
      else s.db.slot name := by
  have hseq : (s.db.cfHandle cfSequence).isSome := by
    rw [← isSome_slot]
    exact hbase _ (by decide)
  obtain ⟨mseq, hmseq⟩ := Option.isSome_iff_exists.1 hseq
  rw [isSome_slot]
  simp only [put, fetchAdd, writeBatch]
  cases hcf : s.db.cfHandle cf with
  | none => simp
  | some m => simp [hmseq, DB.write, DB.slot_putCf]

/-- A raw put, away from the sequence counter. -/
theorem slot_put_of_ne {s : RocksDbStorage} (hbase : HasBase s) (cf : String)
    (key value : Bytes) {name : String} (hname : cfSequence ≠ name) :
    (s.put cf key value).2.db.slot name =
      if cf = name then SlotOp.run (s.db.slot name) (.write (.put key value))
      else s.db.slot name := by
  rw [slot_put hbase]
  cases hcf : s.db.slot cf with
  | none =>
      by_cases h : cf = name
      · subst h
        simp [hcf, SlotOp.run]
      · simp [h]
  | some m => simp [hname]

theorem slot_delete (s : RocksDbStorage) (cf : String) (key : Bytes) (name : String) :
    (s.delete cf key).2.db.slot name =
      if cf = name then SlotOp.run (s.db.slot name) (.write (.delete key))
      else s.db.slot name := by
  rw [delete]
  cases hcf : s.db.cfHandle cf with
  | none =>
      by_cases h : cf = name
      · subst h
        simp [slot_eq_none_of_cfHandle hcf, SlotOp.run]
      · simp [h]
  | some m => exact DB.slot_deleteCf s.db cf key name

theorem slot_createCollectionCf (s : RocksDbStorage) (c name : String) :
    (s.createCollectionCf c).2.db.slot name =
      if collectionCfName c = name ∧ '\x00' ∉ c.toList then SlotOp.run (s.db.slot name) .create
      else s.db.slot name := by
  have hnul : '\x00' ∈ (collectionCfName c).toList ↔ '\x00' ∈ c.toList := by
    simp [collectionCfName]
  simp only [createCollectionCf]
  cases hcf : s.db.cfHandle (collectionCfName c) with
  | some m =>
      -- an existing collection is left as it is
      by_cases h : collectionCfName c = name
      · subst h
        simp [DB.slot, hcf, SlotOp.run]
      · simp [h]
  | none =>
      cases hcreate : s.db.createCf (collectionCfName c) with
      | error e =>
          -- a family that is missing is refused only for its name
          have hc : '\x00' ∈ c.toList := by
            by_contra hc
            rw [DB.createCf, if_neg (mt hnul.1 hc), hcf] at hcreate
            cases hcreate
          simp [hc]
      | ok db =>
          have hc : '\x00' ∉ c.toList := by
            intro hc
            rw [DB.createCf, if_pos (hnul.2 hc)] at hcreate
            cases hcreate
          simp only [DB.slot_createCf hcreate]
          by_cases h : collectionCfName c = name
          · subst h
            simp [hc, slot_eq_none_of_cfHandle hcf, SlotOp.run]
          · simp [h]

theorem slot_dropCollectionCf (s : RocksDbStorage) (c name : String) :
    (s.dropCollectionCf c).2.db.slot name =
      if collectionCfName c = name then none else s.db.slot name := by
  simp only [dropCollectionCf]
  cases hdrop : s.db.dropCf (collectionCfName c) with
  | ok db => exact DB.slot_dropCf hdrop name
  | error e =>
      -- the drop fails only when there is nothing to drop
      have hcf : s.db.cfHandle (collectionCfName c) = none := by
        cases hcf : s.db.cfHandle (collectionCfName c) with
        | none => rfl
        | some m =>
            rw [DB.dropCf, hcf] at hdrop
            cases hdrop
      by_cases h : collectionCfName c = name
      · subst h
        simp [slot_eq_none_of_cfHandle hcf]
      · simp [h]

/-! ## The fixed column families stay -/

theorem HasBase.put {s : RocksDbStorage} (h : HasBase s) (cf : String) (key value : Bytes) :
    HasBase (s.put cf key value).2 := by
  intro name hname
  have hold := h name hname
  rw [slot_put h]
  split
  · dsimp only
    split <;> split <;> simpa using hold
  · exact hold

theorem HasBase.delete {s : RocksDbStorage} (h : HasBase s) (cf : String) (key : Bytes) :
    HasBase (s.delete cf key).2 := by
  intro name hname
  have hold := h name hname
  rw [slot_delete]
  split <;> simpa using hold

theorem HasBase.createCollectionCf {s : RocksDbStorage} (h : HasBase s) (c : String) :
    HasBase (s.createCollectionCf c).2 := by
  intro name hname
  rw [slot_createCollectionCf]
  split
  · next hc => exact absurd (hc.1 ▸ hname) (collectionCfName_not_mem_baseFamilies c)
  · exact h name hname

theorem HasBase.dropCollectionCf {s : RocksDbStorage} (h : HasBase s) (c : String) :
    HasBase (s.dropCollectionCf c).2 := by
  intro name hname
  rw [slot_dropCollectionCf]
  split
  · next hc => exact absurd (hc ▸ hname) (collectionCfName_not_mem_baseFamilies c)
  · exact h name hname

/-! ## Stored documents -/

theorem get_eq (s : RocksDbStorage) (cf : String) (key : Bytes) :
    s.get cf key = match s.db.slot cf with
      | none => .error (unknownCf cf)
      | some f => .ok (f key) := by
  rw [RocksDbStorage.get, DB.slot]
  cases s.db.cfHandle cf with
  | none => rfl
  | some m => rfl

section Documents

variable [RmpSerde Document]

/-- Every value of the slot is the code of a document with that key. -/
def Encoded (slot : Option (Bytes → Option Bytes)) : Prop :=
  ∀ f k v, slot = some f → f k = some v →
    ∃ doc : Document, RmpSerde.toVec doc = .ok v ∧ doc.id.key = k

/-- The invariant of a store that only the methods of `StorageBackend` change. -/
structure WellFormed (s : RocksDbStorage) : Prop where
  base : HasBase s
  encoded : ∀ name, cfSequence ≠ name → Encoded (s.db.slot name)

theorem encoded_none : Encoded none := by
  rintro f k v h
  cases h

theorem encoded_empty : Encoded (some fun _ => none) := by
  rintro f k v ⟨⟩ h
  cases h

/-- Slot operations keep a slot encoded when they put encoded documents. -/
theorem Encoded.run {slot : Option (Bytes → Option Bytes)} (h : Encoded slot)
    {op : SlotOp Bytes Bytes}
    (hop : ∀ k v, op = .write (.put k v) →
      ∃ doc : Document, RmpSerde.toVec doc = .ok v ∧ doc.id.key = k) :
    Encoded (SlotOp.run slot op) := by
  cases slot with
  | none =>
      cases op with
      | create => exact encoded_empty
      | drop => exact encoded_none
      | write w => exact encoded_none
  | some f =>
      cases op with
      | create => exact h
      | drop => exact encoded_none
      | write w =>
          -- the key of the write holds its outcome, the other keys are as before
          rintro g k v ⟨⟩ hv
          change Function.update f w.key w.outcome k = some v at hv
          by_cases hk : k = w.key
          · subst hk
            rw [Function.update_self] at hv
            cases w with
            | put k v' => exact hop k v (by rw [Option.some.inj hv])
            | delete k => cases hv
          · rw [Function.update_of_ne hk] at hv
            exact h f k v rfl hv

/-- A lookup in an encoded slot never fails to decode: it finds the document with
the identifier, or none. -/
theorem getDocumentFrom_eq {s : RocksDbStorage} {cf : String} {f : Bytes → Option Bytes}
    (henc : Encoded (s.db.slot cf)) (hslot : s.db.slot cf = some f) (id : DocumentId) :
    (f id.key = none ∧ s.getDocumentFrom cf id = .ok none) ∨
      ∃ v doc, f id.key = some v ∧ RmpSerde.toVec doc = .ok v ∧ doc.id = id ∧
        s.getDocumentFrom cf id = .ok (some doc) := by
  rw [getDocumentFrom, get_eq, hslot]
  cases hv : f id.key with
  | none => exact Or.inl ⟨rfl, by simp [hv]⟩
  | some v =>
      obtain ⟨doc, hdoc, hkey⟩ := henc f id.key v hslot hv
      have hdec := RmpSerde.fromSlice_toVec hdoc
      exact Or.inr ⟨v, doc, rfl, hdoc, DocumentId.key_injective hkey, by simp [hv, hdec]⟩

theorem getDocumentFrom_of_none {s : RocksDbStorage} {cf : String} (h : s.db.slot cf = none)
    (id : DocumentId) : s.getDocumentFrom cf id = .error (unknownCf cf) := by
  rw [getDocumentFrom, get_eq, h]

/-! ## The methods of the trait -/

/-- The slot operations of a document put into the column family `cf`. -/
def putOps (cf name : String) (doc : Document) : List (SlotOp Bytes Bytes) :=
  if cf = name then
    match RmpSerde.toVec doc with
    | .error _ => []
    | .ok value => [.write (.put doc.id.key value)]
  else []

/-- What a call of the trait does to the column family `name`. -/
def opsOn (name : String) : StorageCall → List (SlotOp Bytes Bytes)
  | .put doc => putOps cfDocuments name doc
  | .delete id => if cfDocuments = name then [.write (.delete id.key)] else []
  | .createCollection c =>
      if collectionCfName c = name ∧ '\x00' ∉ c.toList then [.create] else []
  | .dropCollection c => if collectionCfName c = name then [.drop] else []
  | .putInCollection c doc => putOps (collectionCfName c) name doc
  | .deleteFromCollection c id =>
      if collectionCfName c = name then [.write (.delete id.key)] else []

theorem slot_putDocumentIn {s : RocksDbStorage} (hbase : HasBase s) (cf : String) (doc : Document)
    {name : String} (hname : cfSequence ≠ name) :
    (s.putDocumentIn cf doc).2.db.slot name =
      SlotOp.runAll (s.db.slot name) (putOps cf name doc) := by
  rw [putDocumentIn, putOps]
  cases hvec : (RmpSerde.toVec doc : Except String Bytes) with
  | error e => simp
  | ok value =>
      rw [slot_put_of_ne hbase cf doc.id.key value hname]
      split
      · rfl
      · rfl

/-- A deletion that looks the document up first deletes it: what it does not find
is not there. -/
theorem slot_deleteIfFound {s : RocksDbStorage} {cf : String} (henc : Encoded (s.db.slot cf))
    (missing : DbError) (id : DocumentId) (name : String) :
    (deleteIfFound missing s (s.delete cf id.key) (s.getDocumentFrom cf id)).2.db.slot name =
      if cf = name then SlotOp.run (s.db.slot name) (.write (.delete id.key))
      else s.db.slot name := by
  cases hslot : s.db.slot cf with
  | none =>
      -- without the family the lookup fails, and nothing is done
      rw [getDocumentFrom_of_none hslot]
      by_cases h : cf = name
      · subst h
        simp [deleteIfFound, hslot, SlotOp.run]
      · simp [deleteIfFound, h]
  | some f =>
      rcases getDocumentFrom_eq henc hslot id with ⟨hnone, hget⟩ | ⟨v, doc, -, -, -, hget⟩
      · rw [hget]
        by_cases h : cf = name
        · subst h
          -- deleting a document that is not there would change nothing
          have hexec : Write.exec f (.delete id.key) = f := by
            rw [Write.exec]
            exact Function.update_eq_self_iff.2 hnone.symm
          simp [deleteIfFound, hslot, SlotOp.run, hexec]
        · simp [deleteIfFound, h]
      · rw [hget]
        exact slot_delete s cf id.key name

/-- **Calls as slot operations.** -/
theorem slot_exec {s : RocksDbStorage} (h : WellFormed s) (call : StorageCall) {name : String}
    (hname : cfSequence ≠ name) :
    (StorageCall.exec s call).db.slot name = SlotOp.runAll (s.db.slot name) (opsOn name call) := by
  cases call with
  | put doc => exact slot_putDocumentIn h.base cfDocuments doc hname
  | delete id =>
      refine (slot_deleteIfFound (h.encoded _ (by decide)) _ id name).trans ?_
      simp only [opsOn]
      split <;> rfl
  | createCollection c =>
      refine (slot_createCollectionCf s c name).trans ?_
      simp only [opsOn]
      split <;> rfl
  | dropCollection c =>
      refine (slot_dropCollectionCf s c name).trans ?_
      simp only [opsOn]
      split
      · cases s.db.slot name <;> rfl
      · rfl
  | putInCollection c doc => exact slot_putDocumentIn h.base (collectionCfName c) doc hname
  | deleteFromCollection c id =>
      refine (slot_deleteIfFound (h.encoded _ (collectionCfName_ne_sequence c).symm) _ id name).trans ?_
      simp only [opsOn]
      split <;> rfl

/-- Every put among the operations of a call writes an encoded document. -/
theorem exists_doc_of_mem_opsOn {name : String} {call : StorageCall} {k v : Bytes}
    (h : SlotOp.write (.put k v) ∈ opsOn name call) :
    ∃ doc : Document, RmpSerde.toVec doc = .ok v ∧ doc.id.key = k := by
  have hput : ∀ (cf : String) (doc : Document), SlotOp.write (.put k v) ∈ putOps cf name doc →
      ∃ doc : Document, RmpSerde.toVec doc = .ok v ∧ doc.id.key = k := by
    intro cf doc hmem
    rw [putOps] at hmem
    split at hmem
    · cases hvec : (RmpSerde.toVec doc : Except String Bytes) with
      | error e => simp [hvec] at hmem
      | ok value =>
          simp only [hvec, List.mem_singleton, SlotOp.write.injEq, Write.put.injEq] at hmem
          exact ⟨doc, hmem.2 ▸ hvec, hmem.1.symm⟩
    · cases hmem
  cases call with
  | put doc => exact hput _ doc h
  | putInCollection c doc => exact hput _ doc h
  | delete id => simp [opsOn] at h
  | createCollection c => simp [opsOn] at h
  | dropCollection c => simp [opsOn] at h
  | deleteFromCollection c id => simp [opsOn] at h

theorem Encoded.runAll {slot : Option (Bytes → Option Bytes)} (h : Encoded slot) :
    ∀ (ops : List (SlotOp Bytes Bytes)),
      (∀ k v, SlotOp.write (.put k v) ∈ ops →
        ∃ doc : Document, RmpSerde.toVec doc = .ok v ∧ doc.id.key = k) →
      Encoded (SlotOp.runAll slot ops) := by
  intro ops
  induction ops generalizing slot with
  | nil => exact fun _ => h
  | cons op ops ih =>
      intro hops
      refine ih (h.run ?_) fun k v hmem => hops k v (List.mem_cons_of_mem _ hmem)
      rintro k v rfl
      exact hops k v List.mem_cons_self

/-- A document put changes the store by a raw put, or not at all. -/
theorem putDocumentIn_cases (s : RocksDbStorage) (cf : String) (doc : Document) :
    (s.putDocumentIn cf doc).2 = s ∨
      ∃ value, (s.putDocumentIn cf doc).2 = (s.put cf doc.id.key value).2 := by
  rw [putDocumentIn]
  split
  · exact Or.inl rfl
  · exact Or.inr ⟨_, rfl⟩

omit [RmpSerde Document] in
/-- A document deletion changes the store by a raw delete, or not at all. -/
theorem deleteIfFound_cases (missing : DbError) (s : RocksDbStorage)
    (deletion : DbResult Unit × RocksDbStorage) (found : DbResult (Option Document)) :
    (deleteIfFound missing s deletion found).2 = s ∨
      (deleteIfFound missing s deletion found).2 = deletion.2 := by
  rcases found with e | _ | doc
  · exact Or.inl rfl
  · exact Or.inl rfl
  · exact Or.inr rfl

/-- **What a call can do.** Nothing, a raw put, a raw delete, or to create or drop
the column family of a collection. -/
theorem exec_cases (s : RocksDbStorage) (call : StorageCall) :
    (∃ c, call = .createCollection c ∧ StorageCall.exec s call = (s.createCollectionCf c).2) ∨
    (∃ c, call = .dropCollection c ∧ StorageCall.exec s call = (s.dropCollectionCf c).2) ∨
    ((∀ c, call ≠ .createCollection c) ∧ (∀ c, call ≠ .dropCollection c) ∧
      (StorageCall.exec s call = s ∨
        (∃ cf key value, StorageCall.exec s call = (s.put cf key value).2) ∨
        ∃ cf key, StorageCall.exec s call = (s.delete cf key).2)) := by
  -- the two puts and the two deletes differ in the column family alone
  have hput : ∀ (cf : String) (doc : Document), (s.putDocumentIn cf doc).2 = s ∨
      (∃ cf' key value, (s.putDocumentIn cf doc).2 = (s.put cf' key value).2) ∨
        ∃ cf' key, (s.putDocumentIn cf doc).2 = (s.delete cf' key).2 := by
    intro cf doc
    rcases putDocumentIn_cases s cf doc with h | ⟨value, h⟩
    · exact Or.inl h
    · exact Or.inr (Or.inl ⟨cf, doc.id.key, value, h⟩)
  cases call with
  | createCollection c => exact Or.inl ⟨c, rfl, rfl⟩
  | dropCollection c => exact Or.inr (Or.inl ⟨c, rfl, rfl⟩)
  | put doc => exact Or.inr (Or.inr ⟨nofun, nofun, hput cfDocuments doc⟩)
  | putInCollection c doc =>
      exact Or.inr (Or.inr ⟨nofun, nofun, hput (collectionCfName c) doc⟩)
  | delete id =>
      refine Or.inr (Or.inr ⟨nofun, nofun, ?_⟩)
      rcases deleteIfFound_cases (documentNotFound id) s (s.deleteDocument id)
        (s.getDocument id) with h | h
      · exact Or.inl h
      · exact Or.inr (Or.inr ⟨cfDocuments, id.key, h⟩)
  | deleteFromCollection c id =>
      refine Or.inr (Or.inr ⟨nofun, nofun, ?_⟩)
      rcases deleteIfFound_cases (documentNotFoundIn c id) s
        (s.deleteDocumentFromCollection c id) (s.getDocumentFromCollection c id) with h | h
      · exact Or.inl h
      · exact Or.inr (Or.inr ⟨collectionCfName c, id.key, h⟩)

/-- **Invariant rule.** What the four operations on column families preserve, every
call preserves. -/
theorem exec_invariant (Inv : RocksDbStorage → Prop)
    (hput : ∀ {s}, Inv s → ∀ cf key value, Inv (s.put cf key value).2)
    (hdelete : ∀ {s}, Inv s → ∀ cf key, Inv (s.delete cf key).2)
    (hcreate : ∀ {s}, Inv s → ∀ c, Inv (s.createCollectionCf c).2)
    (hdrop : ∀ {s}, Inv s → ∀ c, Inv (s.dropCollectionCf c).2)
    {s : RocksDbStorage} (h : Inv s) (call : StorageCall) : Inv (StorageCall.exec s call) := by
  rcases exec_cases s call with ⟨c, -, hs⟩ | ⟨c, -, hs⟩ | ⟨-, -, hs | hs | hs⟩
  · rw [hs]
    exact hcreate h c
  · rw [hs]
    exact hdrop h c
  · rwa [hs]
  · obtain ⟨cf, key, value, hs⟩ := hs
    rw [hs]
    exact hput h cf key value
  · obtain ⟨cf, key, hs⟩ := hs
    rw [hs]
    exact hdelete h cf key

theorem HasBase.exec {s : RocksDbStorage} (h : HasBase s) (call : StorageCall) :
    HasBase (StorageCall.exec s call) :=
  exec_invariant HasBase HasBase.put HasBase.delete HasBase.createCollectionCf
    HasBase.dropCollectionCf h call

theorem WellFormed.exec {s : RocksDbStorage} (h : WellFormed s) (call : StorageCall) :
    WellFormed (StorageCall.exec s call) where
  base := h.base.exec call
  encoded name hname := by
    rw [slot_exec h call hname]
    exact (h.encoded name hname).runAll _ fun k v hmem => exists_doc_of_mem_opsOn hmem

theorem WellFormed.execAll {s : RocksDbStorage} (h : WellFormed s) (calls : List StorageCall) :
    WellFormed (StorageCall.execAll s calls) :=
  StorageCall.execAll_invariant (fun _ call hs => hs.exec call) calls s h

/-- A sequence of calls, as one log of slot operations. -/
theorem slot_execAll {name : String} (hname : cfSequence ≠ name) :
    ∀ (calls : List StorageCall) {s : RocksDbStorage}, WellFormed s →
      (StorageCall.execAll s calls).db.slot name =
        SlotOp.runAll (s.db.slot name) (calls.flatMap (opsOn name)) := by
  intro calls
  induction calls with
  | nil => intro s _; rfl
  | cons call calls ih =>
      intro s h
      rw [StorageCall.execAll_cons, ih (h.exec call), slot_exec h call hname, List.flatMap_cons,
        SlotOp.runAll_append]

end Documents

/-! ## A new store -/

theorem slot_createMissing (db : DB) (names : List String) (name : String) :
    (DB.createMissing db names).slot name =
      (db.slot name).or (if name ∈ names then some fun _ => none else none) := by
  rw [DB.slot, DB.cfHandle_createMissing, DB.slot]
  cases db.cfHandle name with
  | some m => rfl
  | none =>
      by_cases h : name ∈ names
      · simp [h]
      · simp [h]

/-- Opening a path with no database. -/
theorem new_none (options : StorageOptions) :
    RocksDbStorage.new none options = .ok ⟨DB.createMissing ⟨∅⟩ baseFamilies, 0⟩ := by
  have hseq : (DB.createMissing ⟨∅⟩ baseFamilies).cfHandle cfSequence = some ∅ := by
    rw [DB.cfHandle_createMissing]
    simp [DB.cfHandle, show cfSequence ∈ baseFamilies by decide]
  have hopen : DB.openCfDescriptors options.dbOptions.toOptions none columnFamilies =
      .ok (DB.createMissing ⟨∅⟩ baseFamilies) := rfl
  have hrecover : recoverSequence (DB.createMissing ⟨∅⟩ baseFamilies) = .ok 0 := by
    simp [recoverSequence, hseq]
  rw [RocksDbStorage.new, hopen]
  simp only [hrecover]

/-- The store that is opened at an empty path. -/
def fresh : RocksDbStorage := ⟨DB.createMissing ⟨∅⟩ baseFamilies, 0⟩

/-- The fixed column families of a new store are empty, and there are no others. -/
theorem slot_of_new {options : StorageOptions} {s : RocksDbStorage}
    (h : RocksDbStorage.new none options = .ok s) (name : String) :
    s.db.slot name = if name ∈ baseFamilies then some fun _ => none else none := by
  rw [new_none] at h
  cases h
  rw [slot_createMissing]
  simp [DB.slot, DB.cfHandle]

theorem slot_collection_of_new {options : StorageOptions} {s : RocksDbStorage}
    (h : RocksDbStorage.new none options = .ok s) (c : String) :
    s.db.slot (collectionCfName c) = none := by
  rw [slot_of_new h, if_neg (collectionCfName_not_mem_baseFamilies c)]

theorem wellFormed_of_new [RmpSerde Document] {options : StorageOptions} {s : RocksDbStorage}
    (h : RocksDbStorage.new none options = .ok s) : WellFormed s where
  base name hname := by
    rw [slot_of_new h, if_pos hname]
    rfl
  encoded name _ := by
    rw [slot_of_new h]
    split
    · exact encoded_empty
    · exact encoded_none

end RocksDbStorage

end MSearchDB.Storage.RocksDb
