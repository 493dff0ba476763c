import MSearchDB.Consensus.StateMachine

/-!
# A batch and its inserts

`BatchInsert` against `InsertDocument` in the state machine. The loop of a batch goes on
after a document that the storage refuses, so a batch does what its documents do one by
one (`applyCommand_batchInsert_eq`), whatever puts fail and however often an id occurs.
Its response keeps the number of the documents stored, not which ones they are:
`putResults` is what the storage answered to each.
-/

set_option autoImplicit false

namespace MSearchDB.Consensus

open MSearchDB.Core

variable {σ ι : Type} [StorageBackend σ]

/-- Which documents the storage takes, one after the other. -/
def putResults (storage : σ) (collection : String) : List Document → List Bool
  | [] => []
  | doc :: docs =>
      let put := StorageBackend.putInCollection storage collection doc
      put.1.isOk :: putResults put.2 collection docs

theorem length_putResults (collection : String) (docs : List Document) :
    ∀ storage : σ, (putResults storage collection docs).length = docs.length := by
  induction docs with
  | nil => exact fun _ => rfl
  | cons doc docs ih => exact fun storage => congrArg (· + 1) (ih _)

namespace DbStateMachine

variable [IndexBackend ι]

/-- The documents are inserted one by one: the responses, and what they leave. -/
def insertEach (sm : DbStateMachine σ ι) (collection : String) :
    List Document → List RaftResponse × DbStateMachine σ ι
  | [] => ([], sm)
  | doc :: docs =>
      let inserted := sm.applyCommand (.insertDocument collection doc)
      let rest := insertEach inserted.2 collection docs
      (inserted.1 :: rest.1, rest.2)

/-- An insert succeeds where the storage takes the document. -/
theorem insertDocument_success (sm : DbStateMachine σ ι) (collection : String) (doc : Document) :
    (sm.applyCommand (.insertDocument collection doc)).1.success =
      (StorageBackend.putInCollection sm.storage collection doc).1.isOk := by
  rw [applyCommand, putAndIndex]
  cases StorageBackend.putInCollection sm.storage collection doc with
  | mk result storage =>
      cases result with
      | error e => rfl
      | ok u => rfl

/-- An insert leaves the storage as the put does, also when that fails. -/
theorem insertDocument_storage (sm : DbStateMachine σ ι) (collection : String) (doc : Document) :
    (sm.applyCommand (.insertDocument collection doc)).2.storage =
      (StorageBackend.putInCollection sm.storage collection doc).2 :=
  (applyCommand_effect sm (.insertDocument collection doc)).1

/-- The inserts succeed where the storage takes their documents. -/
theorem insertEach_success (collection : String) (docs : List Document) :
    ∀ sm : DbStateMachine σ ι, (sm.insertEach collection docs).1.map RaftResponse.success =
      putResults sm.storage collection docs := by
  induction docs with
  | nil => exact fun _ => rfl
  | cons doc docs ih =>
      intro sm
      rw [insertEach, putResults, List.map_cons, ih, insertDocument_success, insertDocument_storage]

/-- One turn of the loop of a batch is the insert of its document, which it counts where
the insert succeeds. -/
theorem batchStep_eq (collection : String) (sm : DbStateMachine σ ι) (count : Nat) (doc : Document) :
    batchStep collection (sm, count) doc =
      ((sm.applyCommand (.insertDocument collection doc)).2,
        count + (sm.applyCommand (.insertDocument collection doc)).1.success.toNat) := by
  rw [batchStep, applyCommand]
  cases sm.putAndIndex collection doc with
  | mk result sm' =>
      cases result with
      | error e => rfl
      | ok u => rfl

/-- The loop of a batch is its inserts. -/
theorem foldl_batchStep_eq (collection : String) (docs : List Document) :
    ∀ (sm : DbStateMachine σ ι) (count : Nat), docs.foldl (batchStep collection) (sm, count) =
      ((sm.insertEach collection docs).2,
        count + ((sm.insertEach collection docs).1.map RaftResponse.success).count true) := by
  induction docs with
  | nil => exact fun _ _ => rfl
  | cons doc docs ih =>
      intro sm count
      rw [List.foldl_cons, batchStep_eq, ih, insertEach, List.map_cons, List.count_cons]
      -- the count of the first document is added in front instead of behind
      congr 1
      cases (sm.applyCommand (.insertDocument collection doc)).1.success with
      | false => rfl
      | true => exact (Nat.add_assoc _ _ _).trans (congrArg _ (Nat.add_comm _ _))

theorem insertEach_snd (collection : String) (docs : List Document) :
    ∀ sm : DbStateMachine σ ι, (sm.insertEach collection docs).2 =
      docs.foldl (fun sm doc => (sm.applyCommand (.insertDocument collection doc)).2) sm := by
  induction docs with
  | nil => exact fun _ => rfl
  | cons doc docs ih => exact fun sm => ih _

/-- The response to a batch: a failure where there are documents and none was stored, and
else the number of those that were. -/
theorem batchInsert_response (sm : DbStateMachine σ ι) (collection : String) (docs : List Document) :
    (sm.applyCommand (.batchInsert collection docs)).1 =
      if (putResults sm.storage collection docs).count true = 0 ∧ docs ≠ [] then .fail
      else .okBatch ((putResults sm.storage collection docs).count true) := by
  rw [applyCommand, foldl_batchStep_eq, insertEach_success]
  simp only [Nat.zero_add]
  -- the two arms for a success answer alike
  by_cases hnone : (putResults sm.storage collection docs).count true = 0
  · rw [hnone]
    by_cases hdocs : docs = []
    · simp [hdocs]
    · have hlength : 0 ≠ docs.length := (List.length_pos_iff.2 hdocs).ne
      rw [if_neg hlength, if_neg (lt_irrefl 0), if_pos ⟨rfl, hdocs⟩]
  · have hsome : ¬ ((putResults sm.storage collection docs).count true = 0 ∧ docs ≠ []) := fun h => hnone h.1
    rw [if_neg hsome, if_pos (Nat.pos_of_ne_zero hnone)]
    split
    case isTrue => rfl
    case isFalse => rfl

theorem batchInsert_affectedCount (sm : DbStateMachine σ ι) (collection : String) (docs : List Document) :
    (sm.applyCommand (.batchInsert collection docs)).1.affectedCount =
      (putResults sm.storage collection docs).count true := by
  rw [batchInsert_response]
  split
  case isTrue h => exact h.1.symm
  case isFalse => rfl

theorem batchInsert_success_iff (sm : DbStateMachine σ ι) (collection : String) (docs : List Document) :
    (sm.applyCommand (.batchInsert collection docs)).1.success = false ↔
      (putResults sm.storage collection docs).count true = 0 ∧ docs ≠ [] := by
  rw [batchInsert_response]
  split
  case isTrue h => exact ⟨fun _ => h, fun _ => rfl⟩
  case isFalse h => exact ⟨fun hfail => Bool.noConfusion hfail, fun hnone => absurd hnone h⟩

/-- **A batch insert is its inserts.** -/
theorem batchInsert_is_its_inserts (sm : DbStateMachine σ ι) (collection : String) (docs : List Document) :
    (sm.applyCommand (.batchInsert collection docs)).2 =
        docs.foldl (fun sm doc => (sm.applyCommand (.insertDocument collection doc)).2) sm ∧
      (sm.applyCommand (.batchInsert collection docs)).1.affectedCount =
        (putResults sm.storage collection docs).count true ∧
      ((sm.applyCommand (.batchInsert collection docs)).1.success = false ↔
        (putResults sm.storage collection docs).count true = 0 ∧ docs ≠ []) := by
  refine ⟨?_, batchInsert_affectedCount sm collection docs, batchInsert_success_iff sm collection docs⟩
  rw [applyCommand_batchInsert_snd, foldl_batchStep_eq, insertEach_snd]

end DbStateMachine

/-! ## Every pattern of failures -/

/-- A storage that is told which of its next writes fail. -/
structure ScriptedStorage where
  outcomes : List Bool
  stored : List Document

/-- A write, with the outcome that comes next. -/
def ScriptedStorage.attempt (s : ScriptedStorage) (write : List Document → List Document) :
    DbResult Unit × ScriptedStorage :=
  match s.outcomes with
  | [] => (.ok (), ⟨[], write s.stored⟩)
  | true :: outcomes => (.ok (), ⟨outcomes, write s.stored⟩)
  | false :: outcomes => (.error (.storageError "I/O error"), ⟨outcomes, s.stored⟩)

instance : StorageBackend ScriptedStorage where
  get s id := (s.stored.find? fun doc => doc.id = id).elim (.error (.notFound id.val)) .ok
  put s doc := s.attempt (doc :: ·)
  delete s id := s.attempt (List.filter fun doc => doc.id ≠ id)
  scan s _ _ := .ok s.stored
  createCollection s _ := s.attempt id
  putInCollection s _ doc := s.attempt (doc :: ·)
  deleteFromCollection s _ id := s.attempt (List.filter fun doc => doc.id ≠ id)

/-- Any of the documents of a batch may be the ones that are not stored. -/
theorem putResults_scripted (collection : String) (docs : List Document) :
    ∀ (outcomes : List Bool) (stored : List Document), outcomes.length = docs.length →
      putResults (ScriptedStorage.mk outcomes stored) collection docs = outcomes := by
  induction docs with
  | nil => exact fun outcomes _ h => (List.length_eq_zero_iff.1 h).symm
  | cons doc docs ih =>
      intro outcomes stored h
      cases outcomes with
      | nil => cases h
      | cons outcome outcomes =>
          -- a put that fails leaves the documents, one that succeeds adds its own
          have hlength : outcomes.length = docs.length := Nat.succ_injective h
          cases outcome with
          | false => exact congrArg (false :: ·) (ih outcomes stored hlength)
          | true => exact congrArg (true :: ·) (ih outcomes (doc :: stored) hlength)

end MSearchDB.Consensus
