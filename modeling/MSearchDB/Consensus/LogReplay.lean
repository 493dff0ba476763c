import MSearchDB.Core.DocumentPayload
import MSearchDB.Storage.RocksDbSlots
import MSearchDB.Consensus.StateMachine

/-!
# Replaying the log after a restart

The state machine keeps its position in the log in memory only, so that after a
restart the whole log is applied again over the storage it has left. During the
second pass the storage is in states that the first pass never saw. Each
collection sees the log as operations on one slot, in which every document
operation comes after a creation (`covered_opsOf`); such a log may be run twice,
and `applyBatches_replay` puts the collections together.
-/

set_option autoImplicit false

namespace MSearchDB.Consensus

open MSearchDB.Lib
open MSearchDB.Core
open MSearchDB.Storage.RocksDb
open MSearchDB.Storage.RocksDb.RocksDbStorage

/-- The commands of a log. -/
def commandsOf (entries : List Entry) : List RaftCommand :=
  entries.filterMap fun entry => match entry.payload with
    | .normal cmd => some cmd
    | _ => none

theorem flatMap_storageCalls (entries : List Entry) :
    entries.flatMap Entry.storageCalls = (commandsOf entries).flatMap RaftCommand.storageCalls := by
  induction entries with
  | nil => rfl
  | cons entry entries ih =>
      rw [List.flatMap_cons, ih]
      cases hp : entry.payload with
      | blank => simp [Entry.storageCalls, commandsOf, hp]
      | membership mem => simp [Entry.storageCalls, commandsOf, hp]
      | normal cmd => simp [Entry.storageCalls, commandsOf, hp]

/-- Every document command on a collection is preceded by a creation of that
collection. -/
def CreatedFirst (cmds : List RaftCommand) : Prop :=
  ∀ pre cmd post c, cmds = pre ++ cmd :: post → DbStateMachine.commitTarget cmd = some c →
    ∃ schema, .createCollection c schema ∈ pre

theorem CreatedFirst.of_append {xs ys : List RaftCommand} (h : CreatedFirst (xs ++ ys)) :
    CreatedFirst xs := by
  intro pre cmd post c hsplit hc
  exact h pre cmd (post ++ ys) c (by rw [hsplit]; simp) hc

/-- The two stores hold the same collections and the same documents. -/
structure SameContents (s s' : RocksDbStorage) [RmpSerde Document] : Prop where
  collectionExists : ∀ c, StorageBackend.collectionExists s c = StorageBackend.collectionExists s' c
  getFromCollection : ∀ c id,
    StorageBackend.getFromCollection s c id = StorageBackend.getFromCollection s' c id
  get : ∀ id, StorageBackend.get s id = StorageBackend.get s' id

section Replay

variable [RmpSerde Document]

theorem getDocumentFrom_congr {s s' : RocksDbStorage} {cf : String}
    (h : s.db.slot cf = s'.db.slot cf) (id : DocumentId) :
    s.getDocumentFrom cf id = s'.getDocumentFrom cf id := by
  rw [getDocumentFrom, getDocumentFrom, get_eq, get_eq, h]

/-- Equal slots hold equal contents. -/
theorem sameContents_of_slot_eq {s s' : RocksDbStorage}
    (hcol : ∀ c, s.db.slot (collectionCfName c) = s'.db.slot (collectionCfName c))
    (hdocs : s.db.slot cfDocuments = s'.db.slot cfDocuments) : SameContents s s' where
  collectionExists c := by
    have h := congrArg Option.isSome (hcol c)
    rw [isSome_slot, isSome_slot] at h
    exact congrArg Except.ok h
  getFromCollection c id :=
    congrArg (okOr (documentNotFoundIn c id)) (getDocumentFrom_congr (hcol c) id)
  get id := congrArg (okOr (documentNotFound id)) (getDocumentFrom_congr hdocs id)

/-- What a command does to the column family of the collection `c`. -/
def opsOf (c : String) (cmd : RaftCommand) : List (SlotOp Bytes Bytes) :=
  cmd.storageCalls.flatMap (opsOn (collectionCfName c))

theorem flatMap_opsOf (c : String) (cmds : List RaftCommand) :
    (cmds.flatMap RaftCommand.storageCalls).flatMap (opsOn (collectionCfName c)) =
      cmds.flatMap (opsOf c) := by
  rw [List.flatMap_assoc]
  rfl

/-- A call that puts a document into a collection touches that collection only. -/
theorem eq_of_mem_opsOn_put {c d : String} {doc : Document} {op : SlotOp Bytes Bytes}
    (h : op ∈ opsOn (collectionCfName c) (.putInCollection d doc)) : d = c := by
  simp only [opsOn, putOps] at h
  split at h
  · next heq => exact collectionCfName_injective heq
  · cases h

/-- Only document commands on a collection write to it. -/
theorem commitTarget_of_write_mem {c : String} {cmd : RaftCommand} {w : Write Bytes Bytes}
    (h : SlotOp.write w ∈ opsOf c cmd) : DbStateMachine.commitTarget cmd = some c := by
  cases cmd with
  | insertDocument d doc =>
      rw [opsOf, RaftCommand.storageCalls, List.flatMap_singleton] at h
      exact congrArg some (eq_of_mem_opsOn_put h)
  | updateDocument d doc =>
      rw [opsOf, RaftCommand.storageCalls, List.flatMap_singleton] at h
      exact congrArg some (eq_of_mem_opsOn_put h)
  | batchInsert d docs =>
      -- one of the puts of the batch
      obtain ⟨call, hcall, hop⟩ := List.mem_flatMap.1 h
      obtain ⟨doc, -, rfl⟩ := List.mem_map.1 hcall
      exact congrArg some (eq_of_mem_opsOn_put hop)
  | deleteDocument d id =>
      rw [opsOf, RaftCommand.storageCalls, List.flatMap_singleton] at h
      simp only [opsOn] at h
      split at h
      · next heq => exact congrArg some (collectionCfName_injective heq)
      · cases h
  | createCollection d schema => simp [opsOf, RaftCommand.storageCalls, opsOn] at h
  | deleteCollection d => simp [opsOf, RaftCommand.storageCalls, opsOn] at h
  | createAlias a cs => simp [opsOf, RaftCommand.storageCalls] at h
  | deleteAlias a => simp [opsOf, RaftCommand.storageCalls] at h

/-- A collection whose name RocksDB accepts is covered by the log. -/
theorem covered_opsOf {c : String} (hc : '\x00' ∉ c.toList) (cmds : List RaftCommand)
    (h : CreatedFirst cmds) : SlotOp.Covered (cmds.flatMap (opsOf c)) := by
  -- induction from the end of the log, where the last command has all others before it
  induction cmds using List.reverseRecOn with
  | nil => exact SlotOp.covered_nil
  | append_singleton cmds cmd ih =>
      rw [List.flatMap_append, List.flatMap_singleton]
      apply (ih h.of_append).append
      intro w hw
      obtain ⟨schema, hmem⟩ := h cmds cmd [] c rfl (commitTarget_of_write_mem hw)
      have hcreate : SlotOp.create ∈ opsOf c (.createCollection c schema) := by
        simp [opsOf, RaftCommand.storageCalls, opsOn, hc]
      exact List.mem_flatMap.2 ⟨_, hmem, hcreate⟩

/-- A collection whose name RocksDB refuses is never created. -/
theorem create_not_mem_opsOf {c : String} (hc : '\x00' ∈ c.toList) (cmds : List RaftCommand) :
    SlotOp.create ∉ cmds.flatMap (opsOf c) := by
  intro h
  obtain ⟨cmd, -, hop⟩ := List.mem_flatMap.1 h
  obtain ⟨call, -, hop⟩ := List.mem_flatMap.1 hop
  have hput : ∀ (cf : String) (doc : Document), SlotOp.create ∉ putOps cf (collectionCfName c) doc := by
    intro cf doc
    rw [putOps]
    split
    · split
      · simp
      · simp
    · simp
  cases call with
  | put doc => exact hput _ doc hop
  | putInCollection d doc => exact hput _ doc hop
  | delete id => simp [opsOn] at hop
  | dropCollection d => simp [opsOn] at hop
  | deleteFromCollection d id => simp [opsOn] at hop
  | createCollection d =>
      simp only [opsOn] at hop
      split at hop
      · next hd => exact hd.2 (collectionCfName_injective hd.1 ▸ hc)
      · cases hop

/-- Entries never touch the default map of documents. -/
theorem opsOn_documents {entries : List Entry} {call : StorageCall}
    (h : call ∈ entries.flatMap Entry.storageCalls) : opsOn cfDocuments call = [] := by
  rw [flatMap_storageCalls] at h
  obtain ⟨cmd, -, hcall⟩ := List.mem_flatMap.1 h
  have hput : ∀ (d : String) (doc : Document), opsOn cfDocuments (.putInCollection d doc) = [] := by
    intro d doc
    simp [opsOn, putOps]
  cases cmd with
  | insertDocument d doc => rw [List.mem_singleton.1 hcall]; exact hput d doc
  | updateDocument d doc => rw [List.mem_singleton.1 hcall]; exact hput d doc
  | batchInsert d docs =>
      obtain ⟨doc, -, rfl⟩ := List.mem_map.1 hcall
      exact hput d doc
  | deleteDocument d id => rw [List.mem_singleton.1 hcall]; simp [opsOn]
  | createCollection d schema => rw [List.mem_singleton.1 hcall]; simp [opsOn]
  | deleteCollection d => rw [List.mem_singleton.1 hcall]; simp [opsOn]
  | createAlias a cs => cases hcall
  | deleteAlias a => cases hcall

/-- The default map is the same at any moment while entries are applied. -/
theorem slot_documents_take {s : RocksDbStorage} (h : WellFormed s) (entries : List Entry)
    (n : Nat) :
    (StorageCall.execAll s ((entries.flatMap Entry.storageCalls).take n)).db.slot cfDocuments =
      s.db.slot cfDocuments := by
  have hnil : ((entries.flatMap Entry.storageCalls).take n).flatMap (opsOn cfDocuments) = [] :=
    List.flatMap_eq_nil_iff.2 fun call hcall => opsOn_documents (List.mem_of_mem_take hcall)
  rw [slot_execAll (by decide) _ h, hnil, SlotOp.runAll_nil]

theorem slot_documents {s : RocksDbStorage} (h : WellFormed s) (entries : List Entry) :
    (StorageCall.execAll s (entries.flatMap Entry.storageCalls)).db.slot cfDocuments =
      s.db.slot cfDocuments := by
  have hall := slot_documents_take h entries (entries.flatMap Entry.storageCalls).length
  rwa [List.take_length] at hall

/-- One collection over both passes. -/
theorem slot_replay {s₀ : RocksDbStorage} {options : StorageOptions}
    (hnew : RocksDbStorage.new none options = .ok s₀) {cmds : List RaftCommand}
    (h : CreatedFirst cmds) (c : String) :
    SlotOp.runAll (SlotOp.runAll (s₀.db.slot (collectionCfName c)) (cmds.flatMap (opsOf c)))
        (cmds.flatMap (opsOf c)) =
      SlotOp.runAll (s₀.db.slot (collectionCfName c)) (cmds.flatMap (opsOf c)) := by
  rw [slot_collection_of_new hnew]
  by_cases hc : '\x00' ∈ c.toList
  · -- the collection is never created, and both passes leave it missing
    have hnone := SlotOp.runAll_none_of_create_not_mem _ (create_not_mem_opsOf hc cmds)
    rw [hnone, hnone]
  · exact SlotOp.runAll_runAll (covered_opsOf hc cmds h)

/-- **Replay.** A log in which every document command comes after a creation of
its collection is applied to an empty store, and after a restart once more,
possibly cut into other batches and with another index: the collections and the
documents are as they were. -/
theorem applyBatches_replay {ι ι' : Type} [IndexBackend ι] [IndexBackend ι']
    {options : StorageOptions} {sm : DbStateMachine RocksDbStorage ι}
    (hnew : RocksDbStorage.new none options = .ok sm.storage)
    {batches batches' : List (List Entry)}
    (hcreated : CreatedFirst (commandsOf batches.flatten))
    {sm' : DbStateMachine RocksDbStorage ι'}
    (hrestart : sm'.storage = (sm.applyBatches batches).storage)
    (hlog : batches'.flatten = batches.flatten) :
    SameContents (sm'.applyBatches batches').storage (sm.applyBatches batches).storage := by
  have hwf := wellFormed_of_new hnew
  rw [DbStateMachine.storage_applyBatches, hlog, hrestart, DbStateMachine.storage_applyBatches]
  have hwf' := hwf.execAll (batches.flatten.flatMap Entry.storageCalls)
  -- one collection at a time, and the default map, which no entry touches
  refine sameContents_of_slot_eq (fun c => ?_) (slot_documents hwf' _)
  have hne := (collectionCfName_ne_sequence c).symm
  rw [slot_execAll hne _ hwf', slot_execAll hne _ hwf, flatMap_storageCalls, flatMap_opsOf]
  exact slot_replay hnew hcreated c

end Replay

/-- A state machine over a new store. -/
def freshMachine : DbStateMachine RocksDbStorage Unit :=
  DbStateMachine.new ⟨DB.createMissing ⟨∅⟩ baseFamilies, 0⟩ ()

theorem new_freshMachine : RocksDbStorage.new none {} = .ok freshMachine.storage := new_none {}

/-- A log that creates a collection and inserts a document. -/
def createAndInsert : List Entry :=
  [⟨⟨⟨1, 1⟩, 1⟩, .normal (.createCollection "c" SchemaConfig.new)⟩,
    ⟨⟨⟨1, 1⟩, 2⟩, .normal (.insertDocument "c" (Document.new ⟨"d"⟩))⟩]

theorem createdFirst_createAndInsert : CreatedFirst (commandsOf [createAndInsert].flatten) := by
  intro pre cmd post c hsplit hc
  have hcmds : commandsOf [createAndInsert].flatten =
      [.createCollection "c" SchemaConfig.new, .insertDocument "c" (Document.new ⟨"d"⟩)] := rfl
  rw [hcmds] at hsplit
  rcases pre with _ | ⟨a, _ | ⟨b, pre⟩⟩
  · obtain ⟨rfl, -⟩ := List.cons.inj hsplit
    cases hc
  · obtain ⟨rfl, htail⟩ := List.cons.inj hsplit
    obtain ⟨rfl, -⟩ := List.cons.inj htail
    cases hc
    exact ⟨_, List.mem_singleton_self _⟩
  · simp at hsplit

/-- Replay of that log. -/
theorem applyBatches_replay_createAndInsert :
    SameContents
      ((DbStateMachine.new (ι := Unit) (freshMachine.applyBatches [createAndInsert]).storage
        ()).applyBatches [createAndInsert]).storage
      (freshMachine.applyBatches [createAndInsert]).storage :=
  applyBatches_replay new_freshMachine createdFirst_createAndInsert rfl rfl

end MSearchDB.Consensus
