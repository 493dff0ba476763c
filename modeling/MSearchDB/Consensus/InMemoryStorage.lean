import MSearchDB.Lib.Text
import MSearchDB.Index.CollectionIndex
import MSearchDB.Storage.DocumentMaps
import MSearchDB.Consensus.LogReplay

/-!
# The storage of the cluster tests

`InMemoryStorage` and `NoopIndex` of `crates/consensus/src/raft_node.rs`, the backends of a
node on a channel network. One map holds the documents of all collections, under the name
of the collection, a colon and the id; a collection is neither created nor dropped.

A state machine looks at a backend through the success of its calls alone, so that two
backends which simulate each other give the same responses and the same index
(`apply_of_simulation`). For the store over RocksDB this holds in a log that keeps to the
collections that exist, that names no collection with a colon, and that does not create a
collection again after it was dropped (`in_memory_storage_agrees`).
-/

set_option autoImplicit false

namespace MSearchDB.Consensus

open MSearchDB.Lib
open MSearchDB.Core
open MSearchDB.Index (HashOrder keyOrder)
open MSearchDB.Storage.RocksDb
open MSearchDB.Storage.RocksDb.RocksDbStorage
open Std (ExtTreeMap)

/-! ## The backends -/

/-- `InMemoryStorage`, with the order in which `docs` is iterated. -/
structure InMemoryStorage where
  docs : ExtTreeMap String Document
  collectionDocs : ExtTreeMap String Document
  order : HashOrder Document

namespace InMemoryStorage

/-- `InMemoryStorage::new`. -/
def new (order : HashOrder Document) : InMemoryStorage := ⟨∅, ∅, order⟩

/-- `InMemoryStorage::collection_key`. -/
def collectionKey (collection id : String) : String := collection ++ ":" ++ id

/-- `InMemoryStorage::collection_doc_count`. -/
def collectionDocCount (s : InMemoryStorage) : Nat := s.collectionDocs.size

/-- A document, or the error that there is none. -/
def found (id : DocumentId) : Option Document → DbResult Document
  | some doc => .ok doc
  | none => .error (.notFound id.val)

end InMemoryStorage

open InMemoryStorage in
instance : StorageBackend InMemoryStorage where
  get s id := found id s.docs[id.val]?
  put s doc := (.ok (), { s with docs := s.docs.insert doc.id.val doc })
  delete s id := ((found id s.docs[id.val]?).map fun _ => (), { s with docs := s.docs.erase id.val })
  -- the range and the limit are not looked at
  scan s _ _ := .ok ((s.order.iter s.docs).map Prod.snd)
  createCollection s _ := (.ok (), s)
  dropCollection s _ := (.ok (), s)
  getFromCollection s c id := found id s.collectionDocs[collectionKey c id.val]?
  putInCollection s c doc :=
    (.ok (), { s with
      docs := s.docs.insert doc.id.val doc
      collectionDocs := s.collectionDocs.insert (collectionKey c doc.id.val) doc })
  deleteFromCollection s c id :=
    ((found id s.collectionDocs[collectionKey c id.val]?).map fun _ => (),
      { s with
        docs := s.docs.erase id.val
        collectionDocs := s.collectionDocs.erase (collectionKey c id.val) })

/-- `NoopIndex`. -/
structure NoopIndex where
  deriving DecidableEq

instance : IndexBackend NoopIndex where
  indexDocument i _ := (.ok (), i)
  deleteDocument i _ := (.ok (), i)
  createCollectionIndex i _ := (.ok (), i)
  dropCollectionIndex i _ := (.ok (), i)
  indexDocumentInCollection i _ _ mapping := (.ok mapping, i)
  deleteDocumentFromCollection i _ _ := (.ok (), i)
  commitCollectionIndex i _ := (.ok (), i)

/-! ## Two backends that simulate each other -/

/-- A call whose success a command depends on succeeds. -/
def succeeds {σ : Type} [StorageBackend σ] (s : σ) : StorageCall → Bool
  | .createCollection c => (StorageBackend.createCollection s c).1.isOk
  | .putInCollection c doc => (StorageBackend.putInCollection s c doc).1.isOk
  | .deleteFromCollection c id => (StorageBackend.deleteFromCollection s c id).1.isOk
  | _ => true

section Simulation

variable {σ τ ι ν : Type}

/-- State machines over related storages that agree on everything else. -/
structure Related (R : σ → τ → Prop) (sm : DbStateMachine σ ι) (sm' : DbStateMachine τ ι) : Prop where
  storage : R sm.storage sm'.storage
  index : sm.index = sm'.index
  lastAppliedLog : sm.lastAppliedLog = sm'.lastAppliedLog
  lastMembership : sm.lastMembership = sm'.lastMembership
  currentSnapshot : sm.currentSnapshot = sm'.currentSnapshot

/-- Two calls of which the same succeed. -/
theorem both_of_isOk {call : DbResult Unit × σ} {call' : DbResult Unit × τ}
    (h : call.1.isOk = call'.1.isOk) :
    (∃ e e', call = (.error e, call.2) ∧ call' = (.error e', call'.2)) ∨
      call = (.ok (), call.2) ∧ call' = (.ok (), call'.2) := by
  obtain ⟨answer, s⟩ := call
  obtain ⟨answer', t⟩ := call'
  cases answer with
  | error e =>
      cases answer' with
      | error e' => exact .inl ⟨e, e', rfl, rfl⟩
      | ok => cases h
  | ok =>
      cases answer' with
      | error e' => cases h
      | ok => exact .inr ⟨rfl, rfl⟩

variable [StorageBackend σ] [StorageBackend τ] [IndexBackend ι]

/-- Backends that stay related while every call is permitted, and of whose calls the same
ones succeed. -/
structure Simulates (step : ν → StorageCall → ν) (Permits : ν → StorageCall → Prop)
    (R : ν → σ → τ → Prop) : Prop where
  next : ∀ {n s t call}, R n s t → Permits n call →
    R (step n call) (StorageCall.exec s call) (StorageCall.exec t call)
  answer : ∀ {n s t call}, R n s t → Permits n call → succeeds s call = succeeds t call

namespace DbStateMachine

variable {step : ν → StorageCall → ν} {Permits : ν → StorageCall → Prop} {R : ν → σ → τ → Prop}
  {n : ν} {sm : DbStateMachine σ ι} {sm' : DbStateMachine τ ι}

theorem putAndIndex_of_simulation (hsim : Simulates step Permits R) (h : Related (R n) sm sm')
    {collection : String} {doc : Document} (hcall : Permits n (.putInCollection collection doc)) :
    (sm.putAndIndex collection doc).1.isOk = (sm'.putAndIndex collection doc).1.isOk ∧
      Related (R (step n (.putInCollection collection doc))) (sm.putAndIndex collection doc).2
        (sm'.putAndIndex collection doc).2 := by
  have hnext := hsim.next h.storage hcall
  simp only [StorageCall.exec] at hnext
  simp only [putAndIndex]
  rcases both_of_isOk (hsim.answer h.storage hcall) with ⟨e, e', hput, hput'⟩ | ⟨hput, hput'⟩
  · rw [hput, hput']
    exact ⟨rfl, hnext, h.index, h.lastAppliedLog, h.lastMembership, h.currentSnapshot⟩
  · rw [hput, hput', h.index]
    exact ⟨rfl, hnext, rfl, h.lastAppliedLog, h.lastMembership, h.currentSnapshot⟩

/-- The loop of `BatchInsert` counts the same documents. -/
theorem foldl_batchStep_of_simulation (hsim : Simulates step Permits R) (collection : String)
    (docs : List Document) :
    ∀ {n : ν} (acc : DbStateMachine σ ι × Nat) (acc' : DbStateMachine τ ι × Nat),
      Related (R n) acc.1 acc'.1 → acc.2 = acc'.2 →
        Along step Permits n (docs.map (.putInCollection collection)) →
          (docs.foldl (batchStep collection) acc).2 = (docs.foldl (batchStep collection) acc').2 ∧
            Related (R ((docs.map (.putInCollection collection)).foldl step n))
              (docs.foldl (batchStep collection) acc).1 (docs.foldl (batchStep collection) acc').1 := by
  induction docs with
  | nil => exact fun _ _ h hcount _ => ⟨hcount, h⟩
  | cons doc docs ih =>
      intro n acc acc' h hcount hcalls
      obtain ⟨hok, hnext⟩ := putAndIndex_of_simulation hsim h hcalls.1
      refine ih _ _ ?_ ?_ hcalls.2
      · rw [batchStep_fst, batchStep_fst]
        exact hnext
      · -- a turn counts the document where the put succeeds
        rw [batchStep, batchStep]
        rcases both_of_isOk hok with ⟨e, e', hput, hput'⟩ | ⟨hput, hput'⟩
        · rw [hput, hput']
          exact hcount
        · rw [hput, hput']
          exact congrArg (· + 1) hcount

theorem applyCommand_of_simulation (hsim : Simulates step Permits R) (h : Related (R n) sm sm')
    (cmd : RaftCommand) (hcalls : Along step Permits n cmd.storageCalls) :
    (sm.applyCommand cmd).1 = (sm'.applyCommand cmd).1 ∧
      Related (R (cmd.storageCalls.foldl step n)) (sm.applyCommand cmd).2 (sm'.applyCommand cmd).2 := by
  cases cmd with
  | insertDocument collection document =>
      obtain ⟨hok, hnext⟩ := putAndIndex_of_simulation hsim h hcalls.1
      rw [applyCommand_insertDocument_snd, applyCommand_insertDocument_snd]
      refine ⟨?_, hnext⟩
      simp only [applyCommand]
      rcases both_of_isOk hok with ⟨e, e', hput, hput'⟩ | ⟨hput, hput'⟩
      · rw [hput, hput']
      · rw [hput, hput']
  | deleteDocument collection id =>
      have hnext := hsim.next h.storage hcalls.1
      simp only [StorageCall.exec] at hnext
      simp only [applyCommand]
      rcases both_of_isOk (hsim.answer h.storage hcalls.1) with ⟨e, e', hdel, hdel'⟩ | ⟨hdel, hdel'⟩
      · rw [hdel, hdel']
        exact ⟨rfl, hnext, h.index, h.lastAppliedLog, h.lastMembership, h.currentSnapshot⟩
      · rw [hdel, hdel', h.index]
        exact ⟨rfl, hnext, rfl, h.lastAppliedLog, h.lastMembership, h.currentSnapshot⟩
  | updateDocument collection document =>
      have hnext := hsim.next h.storage hcalls.1
      simp only [StorageCall.exec] at hnext
      simp only [applyCommand]
      rcases both_of_isOk (hsim.answer h.storage hcalls.1) with ⟨e, e', hput, hput'⟩ | ⟨hput, hput'⟩
      · rw [hput, hput']
        exact ⟨rfl, hnext, h.index, h.lastAppliedLog, h.lastMembership, h.currentSnapshot⟩
      · rw [hput, hput', h.index]
        exact ⟨rfl, hnext, rfl, h.lastAppliedLog, h.lastMembership, h.currentSnapshot⟩
  | createCollection name schema =>
      have hnext := hsim.next h.storage hcalls.1
      simp only [StorageCall.exec] at hnext
      simp only [applyCommand]
      rcases both_of_isOk (hsim.answer h.storage hcalls.1) with ⟨e, e', hnew, hnew'⟩ | ⟨hnew, hnew'⟩
      · rw [hnew, hnew']
        exact ⟨rfl, hnext, h.index, h.lastAppliedLog, h.lastMembership, h.currentSnapshot⟩
      · rw [hnew, hnew', h.index]
        exact ⟨rfl, hnext, rfl, h.lastAppliedLog, h.lastMembership, h.currentSnapshot⟩
  | deleteCollection name =>
      -- the answer of the storage is not looked at
      have hnext := hsim.next h.storage hcalls.1
      simp only [applyCommand, h.index]
      exact ⟨trivial, hnext, rfl, h.lastAppliedLog, h.lastMembership, h.currentSnapshot⟩
  | batchInsert collection documents =>
      obtain ⟨hcount, hnext⟩ :=
        foldl_batchStep_of_simulation hsim collection documents (sm, 0) (sm', 0) h rfl hcalls
      rw [applyCommand_batchInsert_snd, applyCommand_batchInsert_snd]
      refine ⟨?_, hnext⟩
      simp only [applyCommand, hcount]
      split
      · rfl
      · split
        · rfl
        · rfl
  | createAlias aliasName collections => exact ⟨rfl, h⟩
  | deleteAlias aliasName => exact ⟨rfl, h⟩

/-- Accumulators of `apply` over state machines that are related. -/
structure RelatedApply (R : σ → τ → Prop) (acc : ApplyState σ ι) (acc' : ApplyState τ ι) : Prop where
  machine : Related R acc.sm acc'.sm
  responses : acc.responses = acc'.responses
  collectionsToCommit : acc.collectionsToCommit = acc'.collectionsToCommit

theorem applyEntry_of_simulation (hsim : Simulates step Permits R) {acc : ApplyState σ ι}
    {acc' : ApplyState τ ι} (h : RelatedApply (R n) acc acc') (entry : Entry)
    (hcalls : Along step Permits n entry.storageCalls) :
    RelatedApply (R (entry.storageCalls.foldl step n)) (applyEntry acc entry) (applyEntry acc' entry) := by
  obtain ⟨logId, payload⟩ := entry
  have hm := h.machine
  cases payload with
  | blank =>
      simp only [applyEntry, h.responses, h.collectionsToCommit]
      exact ⟨⟨hm.storage, hm.index, rfl, hm.lastMembership, hm.currentSnapshot⟩, rfl, rfl⟩
  | membership mem =>
      simp only [applyEntry, h.responses, h.collectionsToCommit]
      exact ⟨⟨hm.storage, hm.index, rfl, rfl, hm.currentSnapshot⟩, rfl, rfl⟩
  | normal cmd =>
      -- the command runs on state machines with the same new position
      have hlogged : Related (R n) { acc.sm with lastAppliedLog := some logId }
          { acc'.sm with lastAppliedLog := some logId } :=
        ⟨hm.storage, hm.index, rfl, hm.lastMembership, hm.currentSnapshot⟩
      obtain ⟨hresponse, hnext⟩ := applyCommand_of_simulation hsim hlogged cmd hcalls
      simp only [applyEntry, h.responses, h.collectionsToCommit, hresponse]
      exact ⟨hnext, rfl, rfl⟩

theorem foldl_applyEntry_of_simulation (hsim : Simulates step Permits R) (entries : List Entry) :
    ∀ {n : ν} {acc : ApplyState σ ι} {acc' : ApplyState τ ι}, RelatedApply (R n) acc acc' →
      Along step Permits n (entries.flatMap Entry.storageCalls) →
        RelatedApply (R ((entries.flatMap Entry.storageCalls).foldl step n))
          (entries.foldl applyEntry acc) (entries.foldl applyEntry acc') := by
  induction entries with
  | nil => exact fun h _ => h
  | cons entry entries ih =>
      intro n acc acc' h hcalls
      rw [List.flatMap_cons] at hcalls ⊢
      rw [along_append] at hcalls
      rw [List.foldl_append]
      exact ih (applyEntry_of_simulation hsim h entry hcalls.1) hcalls.2

omit [StorageBackend σ] [StorageBackend τ] in
/-- The commits at the end look at the index alone. -/
theorem foldl_commitIndexOf_of_related {S : σ → τ → Prop} (collections : List String) :
    ∀ {sm : DbStateMachine σ ι} {sm' : DbStateMachine τ ι}, Related S sm sm' →
      Related S (collections.foldl commitIndexOf sm) (collections.foldl commitIndexOf sm') := by
  induction collections with
  | nil => exact fun h => h
  | cons c collections ih =>
      intro sm sm' h
      apply ih
      simp only [commitIndexOf, h.index]
      exact ⟨h.storage, rfl, h.lastAppliedLog, h.lastMembership, h.currentSnapshot⟩

/-- **A batch of entries over backends that simulate each other.** -/
theorem apply_of_simulation (hsim : Simulates step Permits R) (h : Related (R n) sm sm')
    (entries : List Entry) (hcalls : Along step Permits n (entries.flatMap Entry.storageCalls)) :
    (sm.apply entries).1 = (sm'.apply entries).1 ∧
      Related (R ((entries.flatMap Entry.storageCalls).foldl step n)) (sm.apply entries).2
        (sm'.apply entries).2 := by
  have hstart : RelatedApply (R n) ⟨sm, [], []⟩ ⟨sm', [], []⟩ := ⟨h, rfl, rfl⟩
  have hend := foldl_applyEntry_of_simulation hsim entries hstart hcalls
  refine ⟨hend.responses, ?_⟩
  rw [apply, apply, hend.collectionsToCommit]
  exact foldl_commitIndexOf_of_related _ hend.machine

/-- One call of `apply`, with its responses. -/
def applyCall (sm : DbStateMachine σ ι) (entries : List Entry) : DbStateMachine σ ι × List RaftResponse :=
  ((sm.apply entries).2, (sm.apply entries).1)

/-- **A log over backends that simulate each other**, however it is cut into batches. -/
theorem answers_of_simulation (hsim : Simulates step Permits R) (batches : List (List Entry)) :
    ∀ {n : ν} {sm : DbStateMachine σ ι} {sm' : DbStateMachine τ ι}, Related (R n) sm sm' →
      Along step Permits n (batches.flatten.flatMap Entry.storageCalls) →
        answers applyCall sm batches = answers applyCall sm' batches ∧
          Related (R ((batches.flatten.flatMap Entry.storageCalls).foldl step n))
            (sm.applyBatches batches) (sm'.applyBatches batches) := by
  induction batches with
  | nil => exact fun h _ => ⟨rfl, h⟩
  | cons entries batches ih =>
      intro n sm sm' h hcalls
      rw [List.flatten_cons, List.flatMap_append] at hcalls ⊢
      rw [along_append] at hcalls
      rw [List.foldl_append]
      obtain ⟨hresponses, hnext⟩ := apply_of_simulation hsim h entries hcalls.1
      obtain ⟨hrest, hend⟩ := ih hnext hcalls.2
      exact ⟨congrArg₂ List.cons hresponses hrest, hend⟩

end DbStateMachine

end Simulation

/-! ## Collections without a colon -/

/-- The collections that exist, and those that have been dropped. -/
structure CollectionNames where
  live : Finset String
  dropped : Finset String

namespace CollectionNames

/-- No collection has been created. -/
def empty : CollectionNames := ⟨∅, ∅⟩

/-- What a call does to the collections. -/
def step (n : CollectionNames) : StorageCall → CollectionNames
  | .createCollection c => { n with live := insert c n.live }
  | .dropCollection c => if c ∈ n.live then ⟨n.live.erase c, insert c n.dropped⟩ else n
  | _ => n

/-- A call keeps to the collections that exist; the name of a new one has no colon and no
NUL, and was not dropped before. -/
def Permits [RmpSerde Document] (n : CollectionNames) : StorageCall → Prop
  | .createCollection c => ':' ∉ c.toList ∧ '\x00' ∉ c.toList ∧ c ∉ n.dropped
  | .putInCollection c doc => c ∈ n.live ∧ Encodes doc
  | .deleteFromCollection c _ => c ∈ n.live
  | .put doc => Encodes doc
  | _ => True

end CollectionNames

theorem collectionKey_inj {c c' id id' : String} (hc : ':' ∉ c.toList) (hc' : ':' ∉ c'.toList) :
    InMemoryStorage.collectionKey c id = InMemoryStorage.collectionKey c' id' ↔ c = c' ∧ id = id' := by
  constructor
  · intro h
    have hchars : c.toList ++ ':' :: id.toList = c'.toList ++ ':' :: id'.toList := by
      simpa [InMemoryStorage.collectionKey] using congrArg String.toList h
    obtain ⟨hname, hid⟩ := (append_cons_inj_of_first hc hc').1 hchars
    exact ⟨String.toList_inj.1 hname, String.toList_inj.1 hid⟩
  · rintro ⟨rfl, rfl⟩
    rfl

theorem val_inj {id id' : DocumentId} : id.val = id'.val ↔ id = id' := by
  cases id
  cases id'
  exact (DocumentId.mk.injEq _ _).symm.to_iff

namespace InMemoryStorage

/-- The documents of a collection by their ids. -/
def docsOf (s : InMemoryStorage) (c : String) : DocumentId → Option Document :=
  fun id => s.collectionDocs[collectionKey c id.val]?

variable {c d : String}

theorem docsOf_putInCollection (s : InMemoryStorage) (hc : ':' ∉ c.toList) (hd : ':' ∉ d.toList)
    (doc : Document) :
    (StorageCall.exec s (.putInCollection c doc)).docsOf d =
      if d = c then Write.exec (s.docsOf d) (.put doc.id doc) else s.docsOf d := by
  funext id
  have hkey : collectionKey c doc.id.val = collectionKey d id.val ↔ d = c ∧ id = doc.id :=
    (collectionKey_inj hc hd).trans (and_congr eq_comm (val_inj.trans eq_comm))
  show (s.collectionDocs.insert (collectionKey c doc.id.val) doc)[collectionKey d id.val]? = _
  simp only [ExtTreeMap.getElem?_insert, Std.compare_eq_iff_eq, hkey]
  by_cases hdc : d = c
  · subst hdc
    by_cases hid : id = doc.id
    · subst hid
      simp [Write.exec, Write.key, Write.outcome]
    · simp [Write.exec, Write.key, hid, docsOf]
  · simp [hdc, docsOf]

theorem docsOf_deleteFromCollection (s : InMemoryStorage) (hc : ':' ∉ c.toList) (hd : ':' ∉ d.toList)
    (id : DocumentId) :
    (StorageCall.exec s (.deleteFromCollection c id)).docsOf d =
      if d = c then Write.exec (s.docsOf d) (.delete id) else s.docsOf d := by
  funext id'
  have hkey : collectionKey c id.val = collectionKey d id'.val ↔ d = c ∧ id' = id :=
    (collectionKey_inj hc hd).trans (and_congr eq_comm (val_inj.trans eq_comm))
  show (s.collectionDocs.erase (collectionKey c id.val))[collectionKey d id'.val]? = _
  simp only [ExtTreeMap.getElem?_erase, Std.compare_eq_iff_eq, hkey]
  by_cases hdc : d = c
  · subst hdc
    by_cases hid : id' = id
    · subst hid
      simp [Write.exec, Write.key, Write.outcome]
    · simp [Write.exec, Write.key, hid, docsOf]
  · simp [hdc, docsOf]

end InMemoryStorage

section Refinement

variable [RmpSerde Document]

/-- The store over RocksDB has the collections that exist, with the documents that the map
has under their names. -/
structure SameDocs (n : CollectionNames) (s : InMemoryStorage) (t : RocksDbStorage) : Prop where
  wellFormed : WellFormed t
  names : ∀ c, c ∈ n.live ∨ c ∈ n.dropped → ':' ∉ c.toList
  collections : ∀ c, t.docs c = if c ∈ n.live then some (s.docsOf c) else none
  /-- Nothing is left under a name that was not used. -/
  unused : ∀ c, ':' ∉ c.toList → c ∉ n.live → c ∉ n.dropped → s.docsOf c = fun _ => none

namespace SameDocs

variable {n : CollectionNames} {s : InMemoryStorage} {t : RocksDbStorage}

theorem start (order : HashOrder Document) : SameDocs .empty (.new order) fresh where
  wellFormed := wellFormed_of_new (new_none {})
  names c hc := by simp [CollectionNames.empty] at hc
  collections c := by
    have hnew : RocksDbStorage.new none {} = .ok fresh := new_none {}
    rw [RocksDbStorage.docs, slot_collection_of_new hnew]
    simp [CollectionNames.empty]
  unused c _ _ _ := by
    funext id
    simp [InMemoryStorage.docsOf, InMemoryStorage.new]

theorem createCollection (h : SameDocs n s t) {c : String} (hc : ':' ∉ c.toList)
    (hnul : '\x00' ∉ c.toList) (hdropped : c ∉ n.dropped) :
    SameDocs (n.step (.createCollection c)) s (StorageCall.exec t (.createCollection c)) where
  wellFormed := h.wellFormed.exec _
  names d hd := by
    simp only [CollectionNames.step, Finset.mem_insert, or_assoc] at hd
    rcases hd with rfl | hd
    · exact hc
    · exact h.names d hd
  collections d := by
    have henc : EncodesCall (.createCollection c) := trivial
    rw [docs_exec h.wellFormed henc, h.collections d]
    by_cases hd : c = d
    · subst hd
      by_cases hlive : c ∈ n.live
      · -- a collection that exists keeps its documents
        simp [docOpsOn, CollectionNames.step, hnul, hlive, SlotOp.run]
      · simp [docOpsOn, CollectionNames.step, hnul, hlive, SlotOp.run, h.unused c hc hlive hdropped]
    · simp [docOpsOn, CollectionNames.step, hd, Ne.symm hd]
  unused d hcolon hlive hd := by
    simp only [CollectionNames.step, Finset.mem_insert, not_or] at hlive
    exact h.unused d hcolon hlive.2 hd

theorem dropCollection (h : SameDocs n s t) (c : String) :
    SameDocs (n.step (.dropCollection c)) s (StorageCall.exec t (.dropCollection c)) := by
  have hdocs : ∀ d, (StorageCall.exec t (.dropCollection c)).docs d =
      if d = c then none else if d ∈ n.live then some (s.docsOf d) else none := by
    intro d
    have henc : EncodesCall (.dropCollection c) := trivial
    rw [docs_exec h.wellFormed henc, h.collections d]
    by_cases hd : c = d
    · simp [docOpsOn, hd, SlotOp.run]
    · simp [docOpsOn, hd, Ne.symm hd]
  by_cases hc : c ∈ n.live
  · have hstep : n.step (.dropCollection c) = ⟨n.live.erase c, insert c n.dropped⟩ := if_pos hc
    rw [hstep]
    refine ⟨h.wellFormed.exec _, fun d hd => ?_, fun d => ?_, fun d hcolon hlive hd => ?_⟩
    · apply h.names d
      simp only [Finset.mem_erase, Finset.mem_insert] at hd
      rcases hd with hd | rfl | hd
      · exact .inl hd.2
      · exact .inl hc
      · exact .inr hd
    · rw [hdocs d]
      by_cases hd : d = c <;> simp [hd]
    · simp only [Finset.mem_erase, Finset.mem_insert, not_or, not_and] at hlive hd
      exact h.unused d hcolon (hlive hd.1) hd.2
  · -- there is nothing to drop
    have hstep : n.step (.dropCollection c) = n := if_neg hc
    rw [hstep]
    refine ⟨h.wellFormed.exec _, h.names, fun d => ?_, h.unused⟩
    rw [hdocs d]
    by_cases hd : d = c
    · simp [hd, hc]
    · simp [hd]

/-- A write to a collection that exists. -/
theorem write (h : SameDocs n s t) {c : String} (hc : c ∈ n.live) {call : StorageCall}
    (henc : EncodesCall call) {w : Write DocumentId Document}
    (hops : ∀ d, docOpsOn d call = if c = d then [.write w] else [])
    (hdocs : ∀ d, ':' ∉ d.toList → (StorageCall.exec s call).docsOf d =
      if d = c then Write.exec (s.docsOf d) w else s.docsOf d) :
    SameDocs n (StorageCall.exec s call) (StorageCall.exec t call) where
  wellFormed := h.wellFormed.exec _
  names := h.names
  collections d := by
    rw [docs_exec_of_ops h.wellFormed henc hops, h.collections d]
    by_cases hd : d ∈ n.live
    · rw [hdocs d (h.names d (.inl hd)), if_pos hd, if_pos hd]
      split <;> rfl
    · have hne : d ≠ c := fun heq => hd (heq ▸ hc)
      rw [if_neg hne, if_neg hd, if_neg hd]
  unused d hcolon hlive hd := by
    have hne : d ≠ c := fun heq => hlive (heq ▸ hc)
    rw [hdocs d hcolon, if_neg hne]
    exact h.unused d hcolon hlive hd

theorem of_docs_eq (h : SameDocs n s t) {s' : InMemoryStorage} {call : StorageCall}
    (henc : EncodesCall call) (hops : ∀ d, docOpsOn d call = [])
    (hs : s'.collectionDocs = s.collectionDocs) : SameDocs n s' (StorageCall.exec t call) := by
  have hsame : s'.docsOf = s.docsOf := by
    funext c id
    rw [InMemoryStorage.docsOf, InMemoryStorage.docsOf, hs]
  refine ⟨h.wellFormed.exec _, h.names, fun d => ?_, fun d => ?_⟩
  · rw [docs_exec h.wellFormed henc, hops, hsame]
    exact h.collections d
  · rw [hsame]
    exact h.unused d

theorem next (h : SameDocs n s t) {call : StorageCall} (hcall : n.Permits call) :
    SameDocs (n.step call) (StorageCall.exec s call) (StorageCall.exec t call) := by
  cases call with
  | createCollection c => exact h.createCollection hcall.1 hcall.2.1 hcall.2.2
  | dropCollection c => exact h.dropCollection c
  | putInCollection c doc =>
      exact h.write hcall.1 hcall.2 (fun d => rfl) fun d hd =>
        s.docsOf_putInCollection (h.names c (.inl hcall.1)) hd doc
  | deleteFromCollection c id =>
      exact h.write hcall trivial (fun d => rfl) fun d hd =>
        s.docsOf_deleteFromCollection (h.names c (.inl hcall)) hd id
  -- the default map is not compared
  | put doc => exact h.of_docs_eq hcall (fun _ => rfl) rfl
  | delete id => exact h.of_docs_eq trivial (fun _ => rfl) rfl

/-! ## Answers -/

omit [RmpSerde Document] in
theorem isOk_iff {α : Type} {answer : DbResult α} : answer.isOk ↔ ∃ a, answer = .ok a := by
  cases answer with
  | error e => simp [Except.isOk, Except.toBool]
  | ok a => simp [Except.isOk, Except.toBool]

/-- A collection that exists is the same map for both. -/
theorem docs_of_mem (h : SameDocs n s t) {c : String} (hc : c ∈ n.live) : t.docs c = some (s.docsOf c) := by
  rw [h.collections c, if_pos hc]

theorem answer (h : SameDocs n s t) {call : StorageCall} (hcall : n.Permits call) :
    succeeds s call = succeeds t call := by
  cases call with
  | createCollection c =>
      have hcreate : (StorageBackend.createCollection t c).1 = .ok () :=
        (createCollection_ok_iff c).2 (.inr hcall.2.1)
      rw [succeeds, succeeds, hcreate]
      rfl
  | putInCollection c doc =>
      have hput : (StorageBackend.putInCollection t c doc).1 = .ok () := by
        apply (putInCollection_ok_iff h.wellFormed hcall.2 c).2
        rw [h.docs_of_mem hcall.1]
        rfl
      rw [succeeds, succeeds, hput]
      rfl
  | deleteFromCollection c id =>
      -- both delete what they find
      apply Bool.eq_iff_iff.2
      have hdelete := deleteFromCollection_ok_iff h.wellFormed c id
      rw [h.docs_of_mem hcall] at hdelete
      have hfound : succeeds s (.deleteFromCollection c id) =
        ((InMemoryStorage.found id (s.docsOf c id)).map fun _ => ()).isOk := rfl
      rw [hfound]
      simp only [succeeds, isOk_iff]
      cases hid : s.docsOf c id with
      | none => simp [InMemoryStorage.found, Except.map, hdelete, hid]
      | some doc => simp [InMemoryStorage.found, Except.map, hdelete, hid]
  | dropCollection c => rfl
  | put doc => rfl
  | delete id => rfl

theorem simulates : Simulates CollectionNames.step CollectionNames.Permits SameDocs where
  next h hcall := h.next hcall
  answer h hcall := h.answer hcall

end SameDocs

/-- The same documents are found in the collections that exist. -/
def SameReads (n : CollectionNames) (s : InMemoryStorage) (t : RocksDbStorage) : Prop :=
  ∀ c ∈ n.live, ∀ id, (StorageBackend.getFromCollection s c id).toOption =
    (StorageBackend.getFromCollection t c id).toOption

theorem SameDocs.sameReads {n : CollectionNames} {s : InMemoryStorage} {t : RocksDbStorage}
    (h : SameDocs n s t) : SameReads n s t := by
  intro c hc id
  have hget : StorageBackend.getFromCollection s c id = InMemoryStorage.found id (s.docsOf c id) := rfl
  rw [hget, getFromCollection_eq h.wellFormed, h.docs_of_mem hc]
  cases hid : s.docsOf c id with
  | none => simp [InMemoryStorage.found, okOr, hid, Except.toOption]
  | some doc => simp [InMemoryStorage.found, okOr, hid, Except.toOption]

end Refinement

/-- Two collections with a document of the same id, one of which is dropped. -/
def droppedAndKept : List (List Entry) :=
  let entry (index : UInt64) (cmd : RaftCommand) : Entry := ⟨⟨⟨1, 1⟩, index⟩, .normal cmd⟩
  [[entry 1 (.createCollection "a" .new), entry 2 (.createCollection "b" .new)],
    [entry 3 (.insertDocument "a" (.new ⟨"d"⟩)), entry 4 (.batchInsert "b" [.new ⟨"d"⟩, .new ⟨"e"⟩]),
      entry 5 (.deleteDocument "b" ⟨"f"⟩)],
    [entry 6 (.deleteCollection "a"), entry 7 (.deleteDocument "b" ⟨"d"⟩)]]

theorem along_droppedAndKept : Along CollectionNames.step CollectionNames.Permits .empty
    (droppedAndKept.flatten.flatMap Entry.storageCalls) := by
  have hd : Encodes (Document.new ⟨"d"⟩) := encodes_bare (by decide)
  have he : Encodes (Document.new ⟨"e"⟩) := encodes_bare (by decide)
  refine ⟨⟨by decide, by decide, by decide⟩, ⟨by decide, by decide, by decide⟩, ⟨by decide, hd⟩,
    ⟨by decide, hd⟩, ⟨by decide, he⟩, ?_, trivial, ?_, trivial⟩
  · show "b" ∈ _
    decide
  · show "b" ∈ _
    decide

end MSearchDB.Consensus
