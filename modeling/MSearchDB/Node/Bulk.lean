import MSearchDB.Lib.Text
import MSearchDB.Node.State
import MSearchDB.Node.Propose
import MSearchDB.Storage.Collections

/-!
# The bulk endpoint

`bulk_index` and `flush_insert_batch` of `crates/node/src/handlers/bulk.rs`. Index
actions are collected into batches of a hundred documents, each one `BatchInsert`;
delete actions wait until all lines have been read. `serde_json` and the generator
of ids are parameters. A command goes to the state machine of the leader, and
`answer` is what comes back of its response: on the leader the response itself, on
a follower what the client rebuilds of it.

`validActions` lists the valid actions of the lines in their order. The handler
makes the storage calls of all index actions first and those of the deletes after
them, whatever the batches are (`storage_bulkIndex`).
-/

set_option autoImplicit false

namespace MSearchDB.Node

open MSearchDB.Lib
open MSearchDB.Core
open MSearchDB.Consensus
open MSearchDB.Storage.RocksDb
open MSearchDB.Storage.RocksDb.RocksDbStorage
open Std (ExtTreeMap)

/-- `serde_json::from_str` on the lines of a bulk request, and
`DocumentId::generate` on the action in a line. -/
class BulkInput where
  parseAction : String → Except String BulkAction
  parseBody : String → Except String (ExtTreeMap String JsonValue)
  generate : Nat → String

/-- `BATCH_SIZE`. -/
def batchSize : Nat := 100

/-- A line without the carriage return before its end. -/
def stripCr (line : List Char) : List Char :=
  if line.getLast? = some '\r' then line.dropLast else line

/-- `str::lines`: a carriage return is part of the line end only before a line
feed. A last line that is empty is kept here, and left out as a blank line. -/
def lines (body : List Char) : List (List Char) :=
  let pieces := body.splitOn '\n'
  pieces.dropLast.map stripCr ++ pieces.getLast?.toList

/-- The lines of a bulk request: those that are not blank. -/
def bulkLines (body : String) : List String :=
  ((lines body.toList).filter fun l => !l.all isWhitespace).map String.ofList

/-- The variables of `bulk_index` beside the state machine that the proposals
reach. -/
structure BulkState (σ ι : Type) where
  sm : DbStateMachine σ ι
  items : List BulkItem
  hasErrors : Bool
  docsIndexed : Nat
  pendingDocs : List Document
  pendingDeletes : List DocumentId

namespace BulkState

variable {σ ι : Type}

/-- Nothing read and nothing pending. -/
def start (sm : DbStateMachine σ ι) : BulkState σ ι := ⟨sm, [], false, 0, [], []⟩

/-- Report an action that was not accepted. -/
def reject (st : BulkState σ ι) (item : BulkItem) : BulkState σ ι :=
  { st with items := st.items ++ [item], hasErrors := true }

end BulkState

/-- The items of a batch of which the first `count` documents were stored, as the
response says. -/
def batchItems (count : Nat) (docs : List Document) : List BulkItem :=
  docs.zipIdx.map fun (doc, idx) =>
    if count ≤ idx then ⟨"index", doc.id.val, 500, some "failed during batch apply"⟩
    else ⟨"index", doc.id.val, 201, none⟩

section Handler

variable {σ ι : Type} [StorageBackend σ] [IndexBackend ι]
  (answer : RaftResponse → DbResult RaftResponse) (collection : String)

/-- `flush_insert_batch` on the pending documents. -/
def flushInsertBatch (st : BulkState σ ι) : BulkState σ ι :=
  let (resp, sm) := st.sm.applyCommand (.batchInsert collection st.pendingDocs)
  match answer resp with
  | .ok resp =>
      let count := resp.affectedCount
      { st with
        sm := sm
        items := st.items ++ batchItems count st.pendingDocs
        hasErrors := st.hasErrors || decide (count < st.pendingDocs.length)
        docsIndexed := st.docsIndexed + min count st.pendingDocs.length
        pendingDocs := [] }
  | .error e =>
      -- the whole batch is reported as failed, though its command may have been applied
      { st with
        sm := sm
        items := st.items ++ st.pendingDocs.map fun doc => ⟨"index", doc.id.val, 500, some e.toString⟩
        hasErrors := true
        pendingDocs := [] }

/-- The batch is flushed when it is full. -/
def flushIfFull (st : BulkState σ ι) : BulkState σ ι :=
  if batchSize ≤ st.pendingDocs.length then flushInsertBatch answer collection st else st

/-- The batch that is left after the last line is flushed. -/
def flushRemaining (st : BulkState σ ι) : BulkState σ ι :=
  if st.pendingDocs = [] then st else flushInsertBatch answer collection st

/-- One turn of the loop over the pending deletes. -/
def proposeDelete (st : BulkState σ ι) (id : DocumentId) : BulkState σ ι :=
  let (resp, sm) := st.sm.applyCommand (.deleteDocument collection id)
  match answer resp with
  | .ok _ => { st with sm := sm, items := st.items ++ [⟨"delete", id.val, 200, none⟩] }
  | .error e =>
      { st with
        sm := sm
        items := st.items ++ [⟨"delete", id.val, 500, some e.toString⟩]
        hasErrors := true }

variable [BulkInput]

/-- The document of an index action in line `i`. -/
def actionDocument (id : Option String) (i : Nat) (fields : ExtTreeMap String JsonValue) : Document :=
  documentOf ⟨id.getD (BulkInput.generate i)⟩ fields

/-- The loop of `bulk_index` from line `i` on. -/
def bulkLoop : List String → Nat → BulkState σ ι → BulkState σ ι
  | [], _, st => st
  | actionLine :: rest, i, st =>
      match BulkInput.parseAction actionLine with
      | .error e =>
          bulkLoop rest (i + 1) (st.reject ⟨"unknown", "", 400, some ("invalid action line: " ++ e)⟩)
      | .ok (.index id) =>
          match rest with
          | [] => st.reject ⟨"index", id.getD "", 400, some "missing document body after index action"⟩
          | docLine :: rest =>
              match BulkInput.parseBody docLine with
              | .error e =>
                  -- the source continues here, past the check for a full batch
                  bulkLoop rest (i + 2)
                    (st.reject ⟨"index", id.getD "", 400, some ("invalid document body: " ++ e)⟩)
              | .ok fields =>
                  bulkLoop rest (i + 2) (flushIfFull answer collection
                    { st with pendingDocs := st.pendingDocs ++ [actionDocument id i fields] })
      | .ok (.delete id) =>
          if id.getD "" = "" then
            bulkLoop rest (i + 1) (flushIfFull answer collection
              (st.reject ⟨"delete", "", 400, some "delete action requires _id"⟩))
          else
            bulkLoop rest (i + 1) (flushIfFull answer collection
              { st with pendingDeletes := st.pendingDeletes ++ [⟨id.getD ""⟩] })

/-- `bulk_index`: the state machine, the registry and the items of the response, or
the error of a collection that is not registered. -/
def bulkIndex (collections : ExtTreeMap String CollectionMeta) (sm : DbStateMachine σ ι)
    (body : String) :
    Except ErrorResponse (DbStateMachine σ ι × ExtTreeMap String CollectionMeta × Bool × List BulkItem) :=
  if collection ∈ collections then
    let st := bulkLoop answer collection (bulkLines body) 0 (BulkState.start sm)
    let st := flushRemaining answer collection st
    let st := st.pendingDeletes.foldl (proposeDelete answer collection) st
    let collections := collections.modify collection fun m =>
      { m with docCount := m.docCount + UInt64.ofNat st.docsIndexed }
    .ok (st.sm, collections, st.hasErrors, st.items)
  else .error (collectionNotFound collection)

end Handler

/-! ## The meaning of the lines -/

section Meaning

variable [BulkInput]

/-- The valid actions of the lines, from line `i` on. -/
def validActions : List String → Nat → List (Write DocumentId Document)
  | [], _ => []
  | actionLine :: rest, i =>
      match BulkInput.parseAction actionLine with
      | .error _ => validActions rest (i + 1)
      | .ok (.index id) =>
          match rest with
          | [] => []
          | docLine :: rest =>
              match BulkInput.parseBody docLine with
              | .error _ => validActions rest (i + 2)
              | .ok fields =>
                  let doc := actionDocument id i fields
                  .put doc.id doc :: validActions rest (i + 2)
      | .ok (.delete id) =>
          if id.getD "" = "" then validActions rest (i + 1)
          else .delete ⟨id.getD ""⟩ :: validActions rest (i + 1)

end Meaning

/-- The storage call of an action. -/
def actionCall (collection : String) : Write DocumentId Document → StorageCall
  | .put _ doc => .putInCollection collection doc
  | .delete id => .deleteFromCollection collection id

theorem map_deletes (collection : String) (ws : List (Write DocumentId Document)) :
    ((ws.filter fun w => !w.isPut).map Write.key).map (StorageCall.deleteFromCollection collection) =
      (ws.filter fun w => !w.isPut).map (actionCall collection) := by
  rw [List.map_map]
  refine List.map_congr_left fun w hw => ?_
  cases w with
  | put id doc => simp at hw
  | delete id => rfl

section Effect

variable {σ ι : Type} [StorageBackend σ] [IndexBackend ι]
  (answer : RaftResponse → DbResult RaftResponse) (collection : String)

/-- The storage once the pending documents have been flushed. -/
def settled (st : BulkState σ ι) : σ :=
  StorageCall.execAll st.sm.storage (st.pendingDocs.map (.putInCollection collection))

theorem flushInsertBatch_effect (st : BulkState σ ι) :
    (flushInsertBatch answer collection st).sm.storage = settled collection st ∧
      (flushInsertBatch answer collection st).pendingDocs = [] ∧
      (flushInsertBatch answer collection st).pendingDeletes = st.pendingDeletes := by
  have hstorage := (DbStateMachine.applyCommand_effect st.sm (.batchInsert collection st.pendingDocs)).1
  simp only [flushInsertBatch]
  split
  · exact ⟨hstorage, rfl, rfl⟩
  · exact ⟨hstorage, rfl, rfl⟩

/-- A flush settles nothing but what is pending. -/
theorem settled_flushIfFull (st : BulkState σ ι) :
    settled collection (flushIfFull answer collection st) = settled collection st ∧
      (flushIfFull answer collection st).pendingDeletes = st.pendingDeletes := by
  obtain ⟨hstorage, hdocs, hdeletes⟩ := flushInsertBatch_effect answer collection st
  rw [flushIfFull]
  split
  · refine ⟨?_, hdeletes⟩
    rw [settled, hdocs, List.map_nil, StorageCall.execAll_nil, hstorage]
  · exact ⟨rfl, rfl⟩

theorem flushRemaining_effect (st : BulkState σ ι) :
    (flushRemaining answer collection st).sm.storage = settled collection st ∧
      (flushRemaining answer collection st).pendingDeletes = st.pendingDeletes := by
  obtain ⟨hstorage, -, hdeletes⟩ := flushInsertBatch_effect answer collection st
  rw [flushRemaining]
  split
  case isTrue hnone => exact ⟨by rw [settled, hnone, List.map_nil, StorageCall.execAll_nil], rfl⟩
  case isFalse => exact ⟨hstorage, hdeletes⟩

omit [IndexBackend ι] in
theorem settled_push (st : BulkState σ ι) (doc : Document) :
    settled collection { st with pendingDocs := st.pendingDocs ++ [doc] } =
      StorageCall.exec (settled collection st) (.putInCollection collection doc) := by
  rw [settled, List.map_append, StorageCall.execAll_append]
  rfl

theorem proposeDelete_effect (st : BulkState σ ι) (id : DocumentId) :
    (proposeDelete answer collection st id).sm.storage =
      StorageCall.exec st.sm.storage (.deleteFromCollection collection id) := by
  have hstorage := (DbStateMachine.applyCommand_effect st.sm (.deleteDocument collection id)).1
  simp only [proposeDelete]
  split
  · exact hstorage
  · exact hstorage

theorem foldl_proposeDelete_effect (ids : List DocumentId) :
    ∀ st : BulkState σ ι, (ids.foldl (proposeDelete answer collection) st).sm.storage =
      StorageCall.execAll st.sm.storage (ids.map (.deleteFromCollection collection)) := by
  induction ids with
  | nil => exact fun st => rfl
  | cons id ids ih =>
      intro st
      rw [List.foldl_cons, ih, proposeDelete_effect, List.map_cons, StorageCall.execAll_cons]

variable [BulkInput]

/-- The loop settles the puts of the valid actions and queues their deletes. -/
theorem bulkLoop_effect (lines : List String) (i : Nat) (st : BulkState σ ι) :
    settled collection (bulkLoop answer collection lines i st) =
        StorageCall.execAll (settled collection st)
          (((validActions lines i).filter Write.isPut).map (actionCall collection)) ∧
      (bulkLoop answer collection lines i st).pendingDeletes =
        st.pendingDeletes ++ ((validActions lines i).filter fun w => !w.isPut).map Write.key := by
  fun_induction bulkLoop answer collection lines i st with
  | case1 => simp [validActions]
  | case2 actionLine rest i st e haction ih =>
      rw [validActions, haction]
      exact ih
  | case3 actionLine i st id haction => simp [validActions, haction, settled, BulkState.reject]
  | case4 actionLine i st id haction docLine rest e hbody ih =>
      rw [validActions, haction]
      simp only [hbody]
      exact ih
  | case5 actionLine i st id haction docLine rest fields hbody ih =>
      obtain ⟨hsettled, hdeletes⟩ := settled_flushIfFull answer collection
        { st with pendingDocs := st.pendingDocs ++ [actionDocument id i fields] }
      rw [hsettled, settled_push, hdeletes] at ih
      rw [validActions, haction]
      simp only [hbody]
      rw [List.filter_cons_of_pos rfl, List.filter_cons_of_neg (by simp), List.map_cons,
        StorageCall.execAll_cons]
      exact ih
  | case6 actionLine rest i st id haction hid ih =>
      obtain ⟨hsettled, hdeletes⟩ := settled_flushIfFull answer collection
        (st.reject ⟨"delete", "", 400, some "delete action requires _id"⟩)
      rw [hsettled, hdeletes] at ih
      rw [validActions, haction]
      simp only [if_pos hid]
      exact ih
  | case7 actionLine rest i st id haction hid ih =>
      obtain ⟨hsettled, hdeletes⟩ := settled_flushIfFull answer collection
        { st with pendingDeletes := st.pendingDeletes ++ [⟨id.getD ""⟩] }
      rw [hsettled, hdeletes] at ih
      rw [validActions, haction]
      simp only [if_neg hid]
      rw [List.filter_cons_of_neg (by simp), List.filter_cons_of_pos rfl, List.map_cons]
      exact ⟨ih.1, by simpa [Write.key] using ih.2⟩

/-- **Puts first.** The handler makes the storage calls of the index actions, then
those of the deletes. -/
theorem storage_bulkIndex {collections collections' : ExtTreeMap String CollectionMeta}
    {sm sm' : DbStateMachine σ ι} {body : String} {errors : Bool} {items : List BulkItem}
    (h : bulkIndex answer collection collections sm body = .ok (sm', collections', errors, items)) :
    sm'.storage = StorageCall.execAll sm.storage
      (((validActions (bulkLines body) 0).filter Write.isPut ++
        (validActions (bulkLines body) 0).filter fun w => !w.isPut).map (actionCall collection)) := by
  rw [bulkIndex] at h
  split at h
  case isFalse => cases h
  case isTrue =>
      obtain ⟨hloop, hqueue⟩ :=
        bulkLoop_effect answer collection (bulkLines body) 0 (BulkState.start sm)
      obtain ⟨hstorage, hdeletes⟩ := flushRemaining_effect answer collection
        (bulkLoop answer collection (bulkLines body) 0 (BulkState.start sm))
      have hstart : settled collection (BulkState.start sm) = sm.storage := rfl
      have hnone : (BulkState.start sm).pendingDeletes = [] := rfl
      obtain ⟨rfl, -⟩ := Prod.mk.inj (Except.ok.inj h)
      rw [foldl_proposeDelete_effect, hstorage, hloop, hdeletes, hqueue, hstart, hnone,
        List.nil_append, map_deletes, List.map_append, StorageCall.execAll_append]

/-- The command of an action on its own. -/
def actionCommand : Write DocumentId Document → RaftCommand
  | .put _ doc => .insertDocument collection doc
  | .delete id => .deleteDocument collection id

/-- The actions executed one at a time, in their order. -/
def executeInOrder (sm : DbStateMachine σ ι) (actions : List (Write DocumentId Document)) :
    DbStateMachine σ ι :=
  actions.foldl (fun sm w => (sm.applyCommand (actionCommand collection w)).2) sm

omit [BulkInput] in
theorem storage_executeInOrder (actions : List (Write DocumentId Document)) :
    ∀ sm : DbStateMachine σ ι, (executeInOrder collection sm actions).storage =
      StorageCall.execAll sm.storage (actions.map (actionCall collection)) := by
  induction actions with
  | nil => exact fun sm => rfl
  | cons w actions ih =>
      intro sm
      have hstorage := (DbStateMachine.applyCommand_effect sm (actionCommand collection w)).1
      rw [executeInOrder, List.foldl_cons, ← executeInOrder, ih, hstorage, List.map_cons,
        StorageCall.execAll_cons]
      cases w with
      | put id doc => rfl
      | delete id => rfl

end Effect

/-! ## The commands of a request -/

section Commands

/-- The batches of the documents of the index actions: the pending ones are flushed when
there are a hundred of them, and after the last line. -/
def bulkBatches (collection : String) (pending : List Document) : List Document → List RaftCommand
  | [] => if pending = [] then [] else [.batchInsert collection pending]
  | doc :: docs =>
      if batchSize ≤ (pending ++ [doc]).length then
        .batchInsert collection (pending ++ [doc]) :: bulkBatches collection [] docs
      else bulkBatches collection (pending ++ [doc]) docs

/-- The commands that `bulk_index` proposes, one after the other. -/
def bulkCommands [BulkInput] (collection body : String) : List RaftCommand :=
  let actions := validActions (bulkLines body) 0
  bulkBatches collection [] (actions.filterMap Write.outcome) ++
    ((actions.filter fun w => !w.isPut).map Write.key).map (.deleteDocument collection)

variable {σ ι : Type} [StorageBackend σ] [IndexBackend ι]
  (answer : RaftResponse → DbResult RaftResponse) (collection : String)

/-- The state machine after a sequence of commands. -/
def applyCommands (sm : DbStateMachine σ ι) (cmds : List RaftCommand) : DbStateMachine σ ι :=
  cmds.foldl (fun sm cmd => (sm.applyCommand cmd).2) sm

theorem applyCommands_append (sm : DbStateMachine σ ι) (cmds cmds' : List RaftCommand) :
    applyCommands sm (cmds ++ cmds') = applyCommands (applyCommands sm cmds) cmds' :=
  List.foldl_append

/-- A flush is one command, whatever comes back of it. -/
theorem flushInsertBatch_sm (st : BulkState σ ι) :
    (flushInsertBatch answer collection st).sm =
      (st.sm.applyCommand (.batchInsert collection st.pendingDocs)).2 := by
  simp only [flushInsertBatch]
  split
  · rfl
  · rfl

theorem foldl_proposeDelete_sm (ids : List DocumentId) :
    ∀ st : BulkState σ ι, (ids.foldl (proposeDelete answer collection) st).sm =
      applyCommands st.sm (ids.map (.deleteDocument collection)) := by
  induction ids with
  | nil => exact fun st => rfl
  | cons id ids ih =>
      intro st
      have hone : (proposeDelete answer collection st id).sm =
          (st.sm.applyCommand (.deleteDocument collection id)).2 := by
        simp only [proposeDelete]
        split
        · rfl
        · rfl
      rw [List.foldl_cons, ih, hone]
      rfl

theorem flushRemaining_sm (st : BulkState σ ι) :
    (flushRemaining answer collection st).sm =
      applyCommands st.sm (bulkBatches collection st.pendingDocs []) := by
  rw [flushRemaining, bulkBatches]
  split
  · rfl
  · exact flushInsertBatch_sm answer collection st

theorem flushIfFull_of_lt {st : BulkState σ ι} (h : st.pendingDocs.length < batchSize) :
    flushIfFull answer collection st = st :=
  if_neg (Nat.not_le.2 h)

variable [BulkInput]

/-- The loop proposes the full batches and leaves the rest pending. -/
theorem bulkLoop_sm (lines : List String) (i : Nat) (st : BulkState σ ι)
    (hlt : st.pendingDocs.length < batchSize) :
    (flushRemaining answer collection (bulkLoop answer collection lines i st)).sm =
      applyCommands st.sm
        (bulkBatches collection st.pendingDocs ((validActions lines i).filterMap Write.outcome)) := by
  fun_induction bulkLoop answer collection lines i st with
  | case1 => exact flushRemaining_sm answer collection _
  | case2 actionLine rest i st e haction ih =>
      rw [validActions, haction]
      exact ih hlt
  | case3 actionLine i st id haction =>
      rw [validActions, haction]
      exact flushRemaining_sm answer collection _
  | case4 actionLine i st id haction docLine rest e hbody ih =>
      rw [validActions, haction]
      simp only [hbody]
      exact ih hlt
  | case5 actionLine i st id haction docLine rest fields hbody ih =>
      rw [validActions, haction]
      simp only [hbody]
      rw [List.filterMap_cons]
      simp only [Write.outcome]
      rw [bulkBatches]
      by_cases hfull : batchSize ≤ (st.pendingDocs ++ [actionDocument id i fields]).length
      · -- the hundredth document: nothing is pending after the flush
        rw [if_pos hfull]
        rw [flushIfFull, if_pos hfull] at ih ⊢
        have hpending := (flushInsertBatch_effect answer collection
          { st with pendingDocs := st.pendingDocs ++ [actionDocument id i fields] }).2.1
        rw [ih (by rw [hpending]; decide), hpending, flushInsertBatch_sm]
        rfl
      · rw [if_neg hfull]
        rw [flushIfFull, if_neg hfull] at ih ⊢
        exact ih (Nat.not_le.1 hfull)
  | case6 actionLine rest i st id haction hid ih =>
      have hreject : (st.reject ⟨"delete", "", 400, some "delete action requires _id"⟩).pendingDocs.length <
          batchSize := hlt
      rw [flushIfFull_of_lt answer collection hreject] at ih ⊢
      rw [validActions, haction]
      simp only [if_pos hid]
      exact ih hlt
  | case7 actionLine rest i st id haction hid ih =>
      have hqueued : flushIfFull answer collection
          { st with pendingDeletes := st.pendingDeletes ++ [⟨id.getD ""⟩] } =
            { st with pendingDeletes := st.pendingDeletes ++ [⟨id.getD ""⟩] } :=
        flushIfFull_of_lt answer collection hlt
      rw [hqueued] at ih ⊢
      rw [validActions, haction]
      simp only [if_neg hid]
      exact ih hlt

/-- **The commands of a bulk request.** The handler brings the state machine where its
commands bring it. -/
theorem sm_bulkIndex {collections collections' : ExtTreeMap String CollectionMeta}
    {sm sm' : DbStateMachine σ ι} {body : String} {errors : Bool} {items : List BulkItem}
    (h : bulkIndex answer collection collections sm body = .ok (sm', collections', errors, items)) :
    sm' = applyCommands sm (bulkCommands collection body) := by
  rw [bulkIndex] at h
  split at h
  case isFalse => cases h
  case isTrue =>
      have hloop := bulkLoop_sm answer collection (bulkLines body) 0 (BulkState.start sm)
        (Nat.zero_lt_succ 99)
      have hqueue := (bulkLoop_effect answer collection (bulkLines body) 0 (BulkState.start sm)).2
      have hdeletes := (flushRemaining_effect answer collection
        (bulkLoop answer collection (bulkLines body) 0 (BulkState.start sm))).2
      obtain ⟨rfl, -⟩ := Prod.mk.inj (Except.ok.inj h)
      have hnone : (BulkState.start sm).pendingDeletes = [] := rfl
      rw [foldl_proposeDelete_sm, hloop, hdeletes, hqueue, hnone, List.nil_append, bulkCommands,
        applyCommands_append]
      rfl

end Commands

/-! ## The order of the actions -/

section Order

theorem put_mem_validActions [BulkInput] {lines : List String} {i : Nat} {id : DocumentId}
    {doc : Document} (h : .put id doc ∈ validActions lines i) : doc.id = id := by
  fun_induction validActions lines i with
  | case1 => cases h
  | case2 actionLine rest i e haction ih => exact ih h
  | case3 => cases h
  | case4 actionLine i id' haction docLine rest e hbody ih => exact ih h
  | case5 actionLine i id' haction docLine rest fields hbody doc' ih =>
      rcases List.mem_cons.1 h with heq | h
      · obtain ⟨rfl, rfl⟩ := Write.put.inj heq
        rfl
      · exact ih h
  | case6 actionLine rest i id' haction hid ih => exact ih h
  | case7 actionLine rest i id' haction hid ih =>
      rcases List.mem_cons.1 h with heq | h
      · cases heq
      · exact ih h


variable [RmpSerde Document] {collection : String}

/-- A put stores its document under the id of the document, and the document can be
serialised. -/
def Storable (actions : List (Write DocumentId Document)) : Prop :=
  ∀ id doc, .put id doc ∈ actions → doc.id = id ∧ Encodes doc

theorem docs_exec_action {s : RocksDbStorage} {m : DocumentId → Option Document}
    {w : Write DocumentId Document} (hwf : WellFormed s) (hdocs : s.docs collection = some m)
    (hw : Storable [w]) :
    (StorageCall.exec s (actionCall collection w)).docs collection = some (Write.exec m w) := by
  cases w with
  | put id doc =>
      obtain ⟨rfl, henc⟩ := hw id doc List.mem_cons_self
      have henc' : EncodesCall (.putInCollection collection doc) := henc
      rw [actionCall, docs_exec hwf henc', hdocs, docOpsOn, if_pos rfl]
      rfl
  | delete id =>
      have henc' : EncodesCall (.deleteFromCollection collection id) := trivial
      rw [actionCall, docs_exec hwf henc', hdocs, docOpsOn, if_pos rfl]
      rfl

/-- Actions are executed as writes to the map of the collection. -/
theorem docs_execAll_actions (actions : List (Write DocumentId Document)) :
    ∀ {s : RocksDbStorage} {m : DocumentId → Option Document}, WellFormed s →
      s.docs collection = some m → Storable actions →
        (StorageCall.execAll s (actions.map (actionCall collection))).docs collection =
          some (Write.execAll m actions) := by
  induction actions with
  | nil => exact fun _ hdocs _ => hdocs
  | cons w actions ih =>
      intro s m hwf hdocs hstorable
      have hw : Storable [w] := by
        intro id doc hmem
        exact hstorable id doc (List.mem_singleton.1 hmem ▸ List.mem_cons_self)
      rw [List.map_cons, StorageCall.execAll_cons, Write.execAll_cons]
      exact ih (hwf.exec _) (docs_exec_action hwf hdocs hw)
        fun id doc hmem => hstorable id doc (List.mem_cons_of_mem _ hmem)

/-- **A bulk request means its lines in order exactly when no deletion is
overtaken.** The collection holds what the valid actions leave one after the other
if and only if every id that is deleted has a deletion as its last action. -/
theorem bulkIndex_in_order_iff {ι : Type} [IndexBackend ι] [BulkInput]
    {answer : RaftResponse → DbResult RaftResponse}
    {collections collections' : ExtTreeMap String CollectionMeta}
    {sm sm' : DbStateMachine RocksDbStorage ι} {body : String} {errors : Bool}
    {items : List BulkItem} {m : DocumentId → Option Document}
    (hwf : WellFormed sm.storage) (hdocs : sm.storage.docs collection = some m)
    (henc : ∀ id doc, .put id doc ∈ validActions (bulkLines body) 0 → Encodes doc)
    (h : bulkIndex answer collection collections sm body = .ok (sm', collections', errors, items)) :
    (∀ id, StorageBackend.getFromCollection sm'.storage collection id =
        StorageBackend.getFromCollection
          (executeInOrder collection sm (validActions (bulkLines body) 0)).storage collection id) ↔
      ∀ id, .delete id ∈ validActions (bulkLines body) 0 →
        Write.lastTo id (validActions (bulkLines body) 0) = some (.delete id) := by
  have hstorable : Storable (validActions (bulkLines body) 0) :=
    fun id doc hmem => ⟨put_mem_validActions hmem, henc id doc hmem⟩
  have hstorage := storage_bulkIndex answer collection h
  have hinorder := storage_executeInOrder collection (validActions (bulkLines body) 0) sm
  generalize validActions (bulkLines body) 0 = actions at *
  have hsplit : Storable (actions.filter Write.isPut ++ actions.filter fun w => !w.isPut) := by
    intro id doc hmem
    rcases List.mem_append.1 hmem with hmem | hmem
    · exact hstorable id doc (List.mem_of_mem_filter hmem)
    · exact hstorable id doc (List.mem_of_mem_filter hmem)
  rw [← Write.execAll_puts_deletes_iff m actions, hstorage, hinorder]
  rw [funext_iff]
  refine forall_congr' fun id => ?_
  rw [getFromCollection_eq (hwf.execAll _), getFromCollection_eq (hwf.execAll _),
    docs_execAll_actions _ hwf hdocs hsplit, docs_execAll_actions _ hwf hdocs hstorable]
  exact okOr_ok_inj _

end Order

/-- `serde_json` on three lines: an action on the document `d`, and an empty
document body. -/
instance : BulkInput where
  parseAction line :=
    if line = "\x7b\"index\":\x7b\"_id\":\"d\"\x7d\x7d" then .ok (.index (some "d"))
    else if line = "\x7b\"delete\":\x7b\"_id\":\"d\"\x7d\x7d" then .ok (.delete (some "d"))
    else .error "expected value at line 1 column 1"
  parseBody line := if line = "\x7b\x7d" then .ok ∅ else .error "expected value at line 1 column 1"
  generate _ := "67e55044-10b1-426f-9247-bb680e5fe0c8"

/-- The registry with the collection `c`. -/
def smallRegistry : ExtTreeMap String CollectionMeta :=
  (∅ : ExtTreeMap String CollectionMeta).insert "c" ⟨1, FieldMapping.new⟩

/-- The document is indexed again and then deleted. -/
def indexThenDelete : String :=
  "\x7b\"index\":\x7b\"_id\":\"d\"\x7d\x7d\n\x7b\x7d\n\x7b\"delete\":\x7b\"_id\":\"d\"\x7d\x7d\n"

/-- The document is deleted and then indexed again. -/
def deleteThenIndex : String :=
  "\x7b\"delete\":\x7b\"_id\":\"d\"\x7d\x7d\n\x7b\"index\":\x7b\"_id\":\"d\"\x7d\x7d\n\x7b\x7d\n"

theorem wellFormed_smallLeader : WellFormed smallLeader.storage := by
  rw [smallLeader, DbStateMachine.storage_applyBatches]
  exact (wellFormed_of_new new_freshMachine).execAll _

theorem exists_docs_smallLeader : ∃ m, smallLeader.storage.docs "c" = some m :=
  Option.isSome_iff_exists.1 (by decide)

theorem validActions_indexThenDelete :
    validActions (bulkLines indexThenDelete) 0 =
      [.put ⟨"d"⟩ (Document.new ⟨"d"⟩), .delete ⟨"d"⟩] := by
  decide

theorem validActions_deleteThenIndex :
    validActions (bulkLines deleteThenIndex) 0 =
      [.delete ⟨"d"⟩, .put ⟨"d"⟩ (Document.new ⟨"d"⟩)] := by
  decide

/-- A document that is indexed and then deleted is gone, as in the order of the
lines. -/
theorem bulkIndex_in_order_indexThenDelete :
    ∃ sm' collections' errors items,
      bulkIndex Except.ok "c" smallRegistry smallLeader indexThenDelete =
          .ok (sm', collections', errors, items) ∧
        StorageBackend.getFromCollection sm'.storage "c" ⟨"d"⟩ =
          StorageBackend.getFromCollection (executeInOrder "c" smallLeader
            (validActions (bulkLines indexThenDelete) 0)).storage "c" ⟨"d"⟩ := by
  obtain ⟨m, hdocs⟩ := exists_docs_smallLeader
  obtain ⟨⟨sm', collections', errors, items⟩, hrun⟩ :
      ∃ r, bulkIndex Except.ok "c" smallRegistry smallLeader indexThenDelete = .ok r := ⟨_, rfl⟩
  refine ⟨sm', collections', errors, items, hrun,
    (bulkIndex_in_order_iff wellFormed_smallLeader hdocs ?_ hrun).2 ?_ ⟨"d"⟩⟩
  · intro id doc hmem
    rw [validActions_indexThenDelete] at hmem
    simp only [List.mem_cons, List.not_mem_nil, or_false, reduceCtorEq, Write.put.injEq] at hmem
    rw [hmem.2]
    exact encodes_bare (by decide)
  · intro id hmem
    rw [validActions_indexThenDelete] at hmem ⊢
    simp only [List.mem_cons, List.not_mem_nil, or_false, reduceCtorEq, Write.delete.injEq,
      false_or] at hmem
    rw [hmem]
    rfl

/-- A document that is deleted and then indexed again is lost. -/
theorem not_bulkIndex_in_order :
    WellFormed smallLeader.storage ∧ (∃ m, smallLeader.storage.docs "c" = some m) ∧
      (∀ id doc, .put id doc ∈ validActions (bulkLines deleteThenIndex) 0 → Encodes doc) ∧
      ∃ sm' collections' errors items,
        bulkIndex Except.ok "c" smallRegistry smallLeader deleteThenIndex = .ok (sm', collections', errors, items) ∧
        StorageBackend.getFromCollection sm'.storage "c" ⟨"d"⟩ ≠
          StorageBackend.getFromCollection
            (executeInOrder "c" smallLeader (validActions (bulkLines deleteThenIndex) 0)).storage "c" ⟨"d"⟩ := by
  refine ⟨wellFormed_smallLeader, exists_docs_smallLeader, fun id doc hmem => ?_, _, _, _, _, rfl, ?_⟩
  · rw [validActions_deleteThenIndex] at hmem
    simp only [List.mem_cons, List.not_mem_nil, or_false, reduceCtorEq, Write.put.injEq, false_or] at hmem
    rw [hmem.2]
    exact encodes_bare (by decide)
  · decide

end MSearchDB.Node
