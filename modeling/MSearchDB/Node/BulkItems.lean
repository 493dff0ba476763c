import MSearchDB.Lib.Loop
import MSearchDB.Consensus.BatchInsert
import MSearchDB.Node.BulkParse

/-!
# The items of a bulk response

What the response of `bulk_index` says about its actions.

The state machine answers a batch with the number of documents stored, and
`flush_insert_batch` gives the status 201 to as many of its first items. That is right
exactly where the documents that failed come after those that were stored
(`flushInsertBatch_tells_iff`); on a follower the number is lost, and one item is reported
at most. Whatever is flushed, every action line has one item, every line is read once, and
the flag says whether there is an error (`bulkIndex_accounts`).
-/

set_option autoImplicit false

namespace MSearchDB.Node

open MSearchDB.Lib
open MSearchDB.Core
open MSearchDB.Consensus
open MSearchDB.Network
open Std (ExtTreeMap)

/-! ## Statuses -/

/-- What an item says of a document that was stored, or was not. -/
def ItemTells (item : BulkItem) (stored : Bool) : Prop :=
  match stored with
  | true => item.status = 201 ∧ item.error = none
  | false => 400 ≤ item.status ∧ item.error.isSome = true

/-- The documents that failed come after all that were stored. -/
def FailuresLast (stored : List Bool) : Prop :=
  stored.Pairwise fun earlier later => later = true → earlier = true

/-- The first `n` documents were stored, and no others. -/
def FirstStored : Nat → List Bool → Prop
  | _, [] => True
  | 0, b :: stored => b = false ∧ FirstStored 0 stored
  | n + 1, b :: stored => b = true ∧ FirstStored n stored

theorem firstStored_zero_iff (stored : List Bool) : FirstStored 0 stored ↔ stored.count true = 0 := by
  induction stored with
  | nil => exact iff_of_true trivial rfl
  | cons b stored ih =>
      rw [FirstStored, ih]
      cases b with
      | false => simp
      | true => simp

/-- The first documents are the ones stored where the failures come last and the number is
right. -/
theorem firstStored_iff (stored : List Bool) :
    ∀ n, FirstStored n stored ↔ FailuresLast stored ∧ stored.count true = min n stored.length := by
  induction stored with
  | nil => exact fun n => iff_of_true trivial ⟨.nil, (Nat.min_zero n).symm⟩
  | cons b stored ih =>
      intro n
      rw [FailuresLast, List.pairwise_cons]
      cases b with
      | true =>
          cases n with
          | zero => simp [FirstStored]
          | succ n =>
              rw [FirstStored, ih, FailuresLast, List.count_cons_self, List.length_cons, Nat.add_min_add_right]
              simp
      | false =>
          -- after a failure nothing may be stored
          have hnone : (∀ later ∈ stored, later = true → false = true) ↔ stored.count true = 0 := by
            rw [List.count_eq_zero]
            constructor
            · exact fun h hmem => absurd (h true hmem rfl) (by decide)
            · rintro h later hmem rfl
              exact absurd hmem h
          rw [hnone, List.count_cons_of_ne (by decide), List.length_cons]
          cases n with
          | zero =>
              rw [FirstStored, ih, Nat.zero_min, Nat.zero_min]
              simp [FailuresLast, and_comm]
          | succ n =>
              simp only [FirstStored, Bool.false_eq_true, false_and, false_iff, not_and]
              rintro ⟨hzero, -⟩
              omega

section Flush

variable {σ ι : Type} [StorageBackend σ] [IndexBackend ι]
  (answer : RaftResponse → DbResult RaftResponse) (collection : String)

/-- The items that a flush adds are those of its documents, and they tell what was stored. -/
def FlushTells (st : BulkState σ ι) : Prop :=
  ∃ items, (flushInsertBatch answer collection st).items = st.items ++ items ∧
    items.map BulkItem.id = st.pendingDocs.map (fun doc => doc.id.val) ∧
    List.Forall₂ ItemTells items (putResults st.sm.storage collection st.pendingDocs)

/-- The item of a document of a batch. -/
def batchItem (count : Nat) (entry : Document × Nat) : BulkItem :=
  if count ≤ entry.2 then ⟨"index", entry.1.id.val, 500, some "failed during batch apply"⟩
  else ⟨"index", entry.1.id.val, 201, none⟩

theorem batchItems_eq (count : Nat) (docs : List Document) :
    batchItems count docs = docs.zipIdx.map (batchItem count) := rfl

theorem batchItem_id (count : Nat) (entry : Document × Nat) : (batchItem count entry).id = entry.1.id.val := by
  rw [batchItem]
  split
  case isTrue => rfl
  case isFalse => rfl

theorem forall₂_batchItems (count : Nat) (docs : List Document) :
    ∀ (k : Nat) (stored : List Bool), stored.length = docs.length →
      (List.Forall₂ ItemTells ((docs.zipIdx k).map (batchItem count)) stored ↔
        FirstStored (count - k) stored) := by
  induction docs with
  | nil =>
      intro k stored hlength
      obtain rfl := List.length_eq_zero_iff.1 hlength
      exact iff_of_true .nil trivial
  | cons doc docs ih =>
      intro k stored hlength
      cases stored with
      | nil => cases hlength
      | cons b stored =>
          rw [List.zipIdx_cons, List.map_cons, List.forall₂_cons, ih (k + 1) stored (Nat.succ_injective hlength)]
          by_cases hk : count ≤ k
          · have hzero : count - k = 0 := Nat.sub_eq_zero_of_le hk
            have hzero' : count - (k + 1) = 0 := Nat.sub_eq_zero_of_le (Nat.le_succ_of_le hk)
            rw [hzero, hzero', batchItem, if_pos hk, FirstStored]
            cases b with
            | false => simp [ItemTells]
            | true => simp [ItemTells]
          · have hsucc : count - k = count - (k + 1) + 1 := by omega
            rw [hsucc, batchItem, if_neg hk, FirstStored]
            cases b with
            | false => simp [ItemTells]
            | true => simp [ItemTells]

/-- A batch that fails as a whole tells that nothing was stored. -/
theorem forall₂_failedItems (e : String) (docs : List Document) :
    ∀ stored : List Bool, stored.length = docs.length →
      (List.Forall₂ ItemTells (docs.map fun doc => (⟨"index", doc.id.val, 500, some e⟩ : BulkItem)) stored ↔
        FirstStored 0 stored) := by
  induction docs with
  | nil =>
      intro stored hlength
      obtain rfl := List.length_eq_zero_iff.1 hlength
      exact iff_of_true .nil trivial
  | cons doc docs ih =>
      intro stored hlength
      cases stored with
      | nil => cases hlength
      | cons b stored =>
          rw [List.map_cons, List.forall₂_cons, ih stored (Nat.succ_injective hlength), FirstStored]
          cases b with
          | false => simp [ItemTells]
          | true => simp [ItemTells]

/-- How many documents an answer reports as stored. -/
def reportedCount : DbResult RaftResponse → Nat
  | .ok resp => resp.affectedCount
  | .error _ => 0

/-- The items that a flush makes of its documents. -/
def flushedItems (docs : List Document) : DbResult RaftResponse → List BulkItem
  | .ok resp => batchItems resp.affectedCount docs
  | .error e => docs.map fun doc => ⟨"index", doc.id.val, 500, some e.toString⟩

theorem flushInsertBatch_items (st : BulkState σ ι) :
    (flushInsertBatch answer collection st).items = st.items ++
      flushedItems st.pendingDocs (answer (st.sm.applyCommand (.batchInsert collection st.pendingDocs)).1) := by
  simp only [flushInsertBatch]
  split
  next hanswer => rw [hanswer, flushedItems]
  next hanswer => rw [hanswer, flushedItems]

theorem flushedItems_id (docs : List Document) (result : DbResult RaftResponse) :
    (flushedItems docs result).map BulkItem.id = docs.map fun doc => doc.id.val := by
  cases result with
  | ok resp =>
      have hfst : docs.zipIdx.map (fun entry => entry.1.id.val) = docs.map fun doc => doc.id.val := by
        conv_rhs => rw [← List.zipIdx_map_fst 0 docs, List.map_map]
        rfl
      rw [flushedItems, batchItems_eq, List.map_map, ← hfst]
      exact List.map_congr_left fun entry _ => batchItem_id resp.affectedCount entry
  | error e =>
      rw [flushedItems, List.map_map]
      rfl

theorem forall₂_flushedItems {docs : List Document} {stored : List Bool} (hlength : stored.length = docs.length)
    (result : DbResult RaftResponse) :
    List.Forall₂ ItemTells (flushedItems docs result) stored ↔ FirstStored (reportedCount result) stored := by
  cases result with
  | ok resp => exact forall₂_batchItems resp.affectedCount docs 0 stored hlength
  | error e => exact forall₂_failedItems e.toString docs stored hlength

/-- A flush tells the truth where the answer counts the first documents, and these are
the ones stored. -/
theorem flushTells_iff (st : BulkState σ ι) :
    FlushTells answer collection st ↔
      FirstStored (reportedCount (answer (st.sm.applyCommand (.batchInsert collection st.pendingDocs)).1))
        (putResults st.sm.storage collection st.pendingDocs) := by
  rw [← forall₂_flushedItems (length_putResults collection st.pendingDocs st.sm.storage), FlushTells,
    flushInsertBatch_items]
  constructor
  · rintro ⟨items, happend, -, htells⟩
    rwa [← List.append_cancel_left happend] at htells
  · exact fun htells => ⟨_, rfl, flushedItems_id _ _, htells⟩

theorem flushTells_leader_iff (st : BulkState σ ι) :
    FlushTells Except.ok collection st ↔
      FailuresLast (putResults st.sm.storage collection st.pendingDocs) := by
  have hle := List.count_le_length (a := true) (l := putResults st.sm.storage collection st.pendingDocs)
  rw [length_putResults] at hle
  rw [flushTells_iff, reportedCount, DbStateMachine.batchInsert_affectedCount, firstStored_iff,
    length_putResults, Nat.min_eq_left hle]
  exact and_iff_left rfl

/-- **Which flushes tell the truth.** On the leader: those whose failures come after all
documents that were stored. On a follower, where the number is lost: those that moreover
store one document at most. Where the answer does not come back: those that store none. -/
theorem flushInsertBatch_tells_iff (st : BulkState σ ι) :
    (FlushTells Except.ok collection st ↔ FailuresLast (putResults st.sm.storage collection st.pendingDocs)) ∧
    (FlushTells rebuilt collection st ↔
      FailuresLast (putResults st.sm.storage collection st.pendingDocs) ∧
        (putResults st.sm.storage collection st.pendingDocs).count true ≤ 1) ∧
    ∀ lost : RaftResponse → DbError,
      FlushTells (fun resp => .error (lost resp)) collection st ↔
        (putResults st.sm.storage collection st.pendingDocs).count true = 0 := by
  have hlength := length_putResults collection st.pendingDocs st.sm.storage
  refine ⟨flushTells_leader_iff collection st, ?_, fun lost => ?_⟩
  · rw [flushTells_iff, DbStateMachine.batchInsert_response]
    split
    case isTrue hnone =>
        -- the failure of the leader comes back as an error
        rw [show rebuilt .fail = .error (.networkError "forward_write rejected: ") from rfl, reportedCount,
          firstStored_iff, Nat.zero_min, hnone.1]
        simp
    case isFalse hsome =>
        rw [show rebuilt (.okBatch _) = .ok ⟨true, none, 1⟩ from rfl, reportedCount, firstStored_iff]
        apply and_congr_right
        intro _
        show _ = min 1 _ ↔ _
        by_cases hdocs : st.pendingDocs = []
        · simp [hdocs, putResults]
        · have hpos : 0 < st.pendingDocs.length := List.length_pos_iff.2 hdocs
          have hcount : (putResults st.sm.storage collection st.pendingDocs).count true ≠ 0 :=
            fun h => hsome ⟨h, hdocs⟩
          omega
  · rw [flushTells_iff, reportedCount, firstStored_zero_iff]

/-- The first of two documents is not stored, the second is: the leader reports the
opposite. -/
theorem not_flushInsertBatch_tells :
    ¬ FlushTells Except.ok "c" { BulkState.start (DbStateMachine.new (ScriptedStorage.mk [false, true] []) ()) with
      pendingDocs := [Document.new ⟨"a"⟩, Document.new ⟨"b"⟩] } := by
  intro h
  have htells := (flushTells_leader_iff "c" _).1 h
  exact absurd htells (by rw [FailuresLast]; decide)

end Flush

/-! ## One item per action -/

/-- What an item names: its action and its id. -/
def BulkItem.label (item : BulkItem) : String × String := (item.action, item.id)

/-- The items to come of the pending documents and deletes. -/
def pendingLabels {σ ι : Type} (st : BulkState σ ι) : List (String × String) :=
  (st.pendingDocs.map fun doc => ("index", doc.id.val)) ++ st.pendingDeletes.map fun id => ("delete", id.val)

/-- The flag is set where an item has an error. -/
def FlagTells {σ ι : Type} (st : BulkState σ ι) : Prop :=
  st.hasErrors = true ↔ ∃ item ∈ st.items, item.error.isSome = true

/-- The items and what is pending are the actions read so far, one for one. -/
structure Accounts {σ ι : Type} (st : BulkState σ ι) (actions : List (String × String)) : Prop where
  labels : (st.items.map BulkItem.label ++ pendingLabels st).Perm actions
  flag : FlagTells st

section Accounts

variable {σ ι : Type} {st : BulkState σ ι} {actions : List (String × String)}

theorem accounts_start (sm : DbStateMachine σ ι) : Accounts (BulkState.start sm) [] :=
  ⟨.nil, by simp [FlagTells, BulkState.start]⟩

theorem accounts_reject (h : Accounts st actions) {item : BulkItem} (herror : item.error.isSome = true) :
    Accounts (st.reject item) (actions ++ [item.label]) := by
  constructor
  · have hmove : ((st.items ++ [item]).map BulkItem.label ++ pendingLabels st).Perm
        (st.items.map BulkItem.label ++ pendingLabels st ++ [item.label]) := by
      rw [List.map_append, List.append_assoc, List.append_assoc]
      exact List.perm_append_comm.append_left _
    exact hmove.trans (h.labels.append_right _)
  · refine iff_of_true rfl ⟨item, ?_, herror⟩
    exact List.mem_append_right _ (List.mem_singleton.2 rfl)

theorem accounts_pushDoc (h : Accounts st actions) (doc : Document) :
    Accounts { st with pendingDocs := st.pendingDocs ++ [doc] } (actions ++ [("index", doc.id.val)]) := by
  refine ⟨?_, h.flag⟩
  have hmove : (st.items.map BulkItem.label ++
        pendingLabels { st with pendingDocs := st.pendingDocs ++ [doc] }).Perm
      (st.items.map BulkItem.label ++ pendingLabels st ++ [("index", doc.id.val)]) := by
    rw [pendingLabels, pendingLabels, List.map_append, List.append_assoc, List.append_assoc, List.append_assoc]
    exact (List.perm_append_comm.append_left _).append_left _
  exact hmove.trans (h.labels.append_right _)

theorem accounts_pushDelete (h : Accounts st actions) (id : DocumentId) :
    Accounts { st with pendingDeletes := st.pendingDeletes ++ [id] } (actions ++ [("delete", id.val)]) := by
  refine ⟨?_, h.flag⟩
  have hmove : st.items.map BulkItem.label ++
        pendingLabels { st with pendingDeletes := st.pendingDeletes ++ [id] } =
      st.items.map BulkItem.label ++ pendingLabels st ++ [("delete", id.val)] := by
    simp [pendingLabels]
  rw [hmove]
  exact h.labels.append_right _

section Storage

variable [StorageBackend σ] [IndexBackend ι]
  (answer : RaftResponse → DbResult RaftResponse) (collection : String)

theorem batchItem_action (count : Nat) (entry : Document × Nat) : (batchItem count entry).action = "index" := by
  rw [batchItem]
  split
  case isTrue => rfl
  case isFalse => rfl

theorem flushedItems_label (docs : List Document) (result : DbResult RaftResponse) :
    (flushedItems docs result).map BulkItem.label = docs.map fun doc => ("index", doc.id.val) := by
  have haction : ∀ item ∈ flushedItems docs result, item.action = "index" := by
    intro item hitem
    cases result with
    | ok resp =>
        rw [flushedItems, batchItems_eq] at hitem
        obtain ⟨entry, -, rfl⟩ := List.mem_map.1 hitem
        exact batchItem_action _ _
    | error e =>
        obtain ⟨doc, -, rfl⟩ := List.mem_map.1 hitem
        rfl
  have hlabel : (flushedItems docs result).map BulkItem.label =
      ((flushedItems docs result).map BulkItem.id).map fun id => ("index", id) := by
    rw [List.map_map]
    exact List.map_congr_left fun item hitem => Prod.ext (haction item hitem) rfl
  rw [hlabel, flushedItems_id, List.map_map]
  rfl

/-- Some item of a flush has an error where fewer documents are reported than there are. -/
theorem exists_error_flushedItems (docs : List Document) (result : DbResult RaftResponse) :
    (∃ item ∈ flushedItems docs result, item.error.isSome = true) ↔ reportedCount result < docs.length := by
  cases result with
  | ok resp =>
      rw [flushedItems, batchItems_eq, reportedCount]
      constructor
      · rintro ⟨item, hitem, herror⟩
        obtain ⟨⟨doc, idx⟩, hentry, rfl⟩ := List.mem_map.1 hitem
        obtain ⟨-, hidx, -⟩ := List.mem_zipIdx hentry
        by_cases hcount : resp.affectedCount ≤ idx
        · omega
        · rw [batchItem, if_neg hcount] at herror
          cases herror
      · intro hcount
        have hlast : (docs[docs.length - 1], docs.length - 1) ∈ docs.zipIdx := by
          rw [List.mk_mem_zipIdx_iff_getElem?]
          exact List.getElem?_eq_getElem _
        refine ⟨_, List.mem_map_of_mem hlast, ?_⟩
        rw [batchItem, if_pos (Nat.le_sub_one_of_lt hcount)]
        rfl
  | error e =>
      rw [flushedItems, reportedCount, List.length_pos_iff_exists_mem]
      constructor
      · rintro ⟨item, hitem, -⟩
        obtain ⟨doc, hdoc, -⟩ := List.mem_map.1 hitem
        exact ⟨doc, hdoc⟩
      · rintro ⟨doc, hdoc⟩
        exact ⟨_, List.mem_map_of_mem hdoc, rfl⟩

/-- A flush of some documents keeps the account, whatever comes back. -/
theorem accounts_flushInsertBatch (h : Accounts st actions) (hdocs : st.pendingDocs ≠ []) :
    Accounts (flushInsertBatch answer collection st) actions := by
  obtain ⟨-, hnone, hdeletes⟩ := flushInsertBatch_effect answer collection st
  have hitems := flushInsertBatch_items answer collection st
  constructor
  · rw [hitems, pendingLabels, hnone, hdeletes, List.map_append, flushedItems_label, List.append_assoc]
    exact h.labels
  · have herrors : (flushInsertBatch answer collection st).hasErrors = true ↔
        st.hasErrors = true ∨
          reportedCount (answer (st.sm.applyCommand (.batchInsert collection st.pendingDocs)).1) <
            st.pendingDocs.length := by
      have hpos : 0 < st.pendingDocs.length := List.length_pos_iff.2 hdocs
      simp only [flushInsertBatch]
      split
      next hanswer => simp [hanswer, reportedCount]
      next hanswer => simp [hanswer, reportedCount, hpos]
    have hflag := h.flag
    rw [FlagTells] at hflag
    rw [FlagTells, herrors, hitems, hflag, ← exists_error_flushedItems]
    simp only [List.mem_append, or_and_right, exists_or]

theorem accounts_flushIfFull (h : Accounts st actions) : Accounts (flushIfFull answer collection st) actions := by
  rw [flushIfFull]
  split
  case isTrue hfull =>
      apply accounts_flushInsertBatch answer collection h
      intro hnone
      rw [hnone] at hfull
      exact absurd hfull (by decide)
  case isFalse => exact h

theorem accounts_flushRemaining (h : Accounts st actions) :
    Accounts (flushRemaining answer collection st) actions ∧
      (flushRemaining answer collection st).pendingDocs = [] := by
  rw [flushRemaining]
  split
  case isTrue hnone => exact ⟨h, hnone⟩
  case isFalse hsome =>
      exact ⟨accounts_flushInsertBatch answer collection h hsome,
        (flushInsertBatch_effect answer collection st).2.1⟩

/-- One turn of the loop over the deletes adds the item of its delete. -/
theorem proposeDelete_tells (st : BulkState σ ι) (id : DocumentId) :
    (proposeDelete answer collection st id).items.map BulkItem.label =
        st.items.map BulkItem.label ++ [("delete", id.val)] ∧
      (FlagTells st → FlagTells (proposeDelete answer collection st id)) := by
  simp only [proposeDelete]
  split
  · refine ⟨by simp [BulkItem.label], fun h => ?_⟩
    simpa [FlagTells] using h
  · refine ⟨by simp [BulkItem.label], fun _ => ?_⟩
    simp [FlagTells]

theorem foldl_proposeDelete_tells (ids : List DocumentId) :
    ∀ st : BulkState σ ι, FlagTells st →
      (ids.foldl (proposeDelete answer collection) st).items.map BulkItem.label =
          st.items.map BulkItem.label ++ ids.map (fun id => ("delete", id.val)) ∧
        FlagTells (ids.foldl (proposeDelete answer collection) st) := by
  induction ids with
  | nil => exact fun st h => ⟨(List.append_nil _).symm, h⟩
  | cons id ids ih =>
      intro st h
      obtain ⟨hlabel, hflag⟩ := proposeDelete_tells answer collection st id
      obtain ⟨hlabels, hflags⟩ := ih _ (hflag h)
      refine ⟨?_, hflags⟩
      rw [List.foldl_cons, hlabels, hlabel, List.append_assoc]
      rfl

end Storage

end Accounts

/-! ## The lines -/

/-- What the parse loop reads a line as. -/
inductive LineRole where
  | action
  | body
  deriving DecidableEq, Repr

/-- The variables of the parse loop: the index `i`, and all others. `reads` is what the
loop has read so far. -/
structure BulkScan (σ ι : Type) where
  next : Nat
  st : BulkState σ ι
  reads : List (Nat × LineRole)

theorem drop_of_getElem? {lines : List String} {i : Nat} {line : String} (h : lines[i]? = some line) :
    i < lines.length ∧ lines.drop i = line :: lines.drop (i + 1) := by
  obtain ⟨hi, rfl⟩ := List.getElem?_eq_some_iff.1 h
  exact ⟨hi, List.drop_eq_getElem_cons hi⟩

section Loop

variable {σ ι : Type} [StorageBackend σ] [IndexBackend ι]
  (answer : RaftResponse → DbResult RaftResponse) (collection : String) [BulkInput]

/-- One pass of `while i < lines.len()`. A pass leaves the loop at the end of the lines and
at an index action without a body. -/
def bulkPass (lines : List String) (s : BulkScan σ ι) : Loop.Pass (BulkScan σ ι) (BulkScan σ ι) :=
  let i := s.next
  match lines[i]? with
  | none => .leave s
  | some actionLine =>
      match BulkInput.parseAction actionLine with
      | .error e =>
          .again ⟨i + 1, s.st.reject ⟨"unknown", "", 400, some ("invalid action line: " ++ e)⟩,
            s.reads ++ [(i, .action)]⟩
      | .ok (.index id) =>
          match lines[i + 1]? with
          | none =>
              .leave ⟨i + 1,
                s.st.reject ⟨"index", id.getD "", 400, some "missing document body after index action"⟩,
                s.reads ++ [(i, .action)]⟩
          | some docLine =>
              -- the body is consumed with its action, well formed or not
              match BulkInput.parseBody docLine with
              | .error e =>
                  .again ⟨i + 2,
                    s.st.reject ⟨"index", id.getD "", 400, some ("invalid document body: " ++ e)⟩,
                    s.reads ++ [(i, .action), (i + 1, .body)]⟩
              | .ok fields =>
                  .again ⟨i + 2,
                    flushIfFull answer collection
                      { s.st with pendingDocs := s.st.pendingDocs ++ [actionDocument id i fields] },
                    s.reads ++ [(i, .action), (i + 1, .body)]⟩
      | .ok (.delete id) =>
          .again ⟨i + 1,
            flushIfFull answer collection
              (if id.getD "" = "" then s.st.reject ⟨"delete", "", 400, some "delete action requires _id"⟩
              else { s.st with pendingDeletes := s.st.pendingDeletes ++ [⟨id.getD ""⟩] }),
            s.reads ++ [(i, .action)]⟩

/-- The lines that are left. -/
def linesLeft (lines : List String) (s : BulkScan σ ι) : Nat := lines.length - s.next

/-- The item that an action line is to have: the name of its action, and its id. -/
def actionLabel (lines : List String) (i : Nat) : String × String :=
  match (lines[i]?).map BulkInput.parseAction with
  | some (.ok (.index id)) =>
      match (lines[i + 1]?).map BulkInput.parseBody with
      | some (.ok _) => ("index", id.getD (BulkInput.generate i))
      | _ => ("index", id.getD "")
  | some (.ok (.delete id)) => ("delete", id.getD "")
  | _ => ("unknown", "")

/-- The items that the action lines among the reads are to have. -/
def actionLabels (lines : List String) (reads : List (Nat × LineRole)) : List (String × String) :=
  (reads.filter fun r => r.2 = .action).map fun r => actionLabel lines r.1

/-- The line is an index action. -/
def IsIndexAction (lines : List String) (i : Nat) : Prop :=
  ∃ line id, lines[i]? = some line ∧ BulkInput.parseAction line = .ok (.index id)

/-- The reads are the lines before the index, each once; a body follows the index action
that it belongs to. -/
structure ReadsLines (lines : List String) (next : Nat) (reads : List (Nat × LineRole)) : Prop where
  once : reads.map Prod.fst = List.range next
  le : next ≤ lines.length
  bodies : ∀ k, (k, .body) ∈ reads → ∃ j, k = j + 1 ∧ (j, .action) ∈ reads ∧ IsIndexAction lines j

/-- The scan has read the lines before its index, accounts for their actions, and goes on
as the handler does. -/
structure Scanned (sm : DbStateMachine σ ι) (lines : List String) (s : BulkScan σ ι) : Prop where
  reads : ReadsLines lines s.next s.reads
  accounts : Accounts s.st (actionLabels lines s.reads)
  same : bulkLoop answer collection (lines.drop s.next) s.next s.st =
    bulkLoop answer collection lines 0 (BulkState.start sm)

section Reads

variable {lines : List String} {i : Nat} {reads : List (Nat × LineRole)}

theorem readsLines_action (h : ReadsLines lines i reads) (hi : i < lines.length) :
    ReadsLines lines (i + 1) (reads ++ [(i, .action)]) := by
  refine ⟨?_, hi, ?_⟩
  · rw [List.map_append, h.once, List.range_succ]
    rfl
  · intro k hk
    rcases List.mem_append.1 hk with hk | hk
    · obtain ⟨j, rfl, hj, hindex⟩ := h.bodies k hk
      exact ⟨j, rfl, List.mem_append_left _ hj, hindex⟩
    · simp at hk

theorem readsLines_body (h : ReadsLines lines i reads) (hi : i + 1 < lines.length)
    (hindex : IsIndexAction lines i) :
    ReadsLines lines (i + 2) (reads ++ [(i, .action), (i + 1, .body)]) := by
  refine ⟨?_, hi, ?_⟩
  · rw [List.map_append, h.once, List.range_succ, List.range_succ, List.append_assoc]
    rfl
  · intro k hk
    rcases List.mem_append.1 hk with hk | hk
    · obtain ⟨j, rfl, hj, hj'⟩ := h.bodies k hk
      exact ⟨j, rfl, List.mem_append_left _ hj, hj'⟩
    · refine ⟨i, by simpa using hk, ?_, hindex⟩
      exact List.mem_append_right _ List.mem_cons_self

theorem actionLabels_action : actionLabels lines (reads ++ [(i, .action)]) =
    actionLabels lines reads ++ [actionLabel lines i] := by
  simp [actionLabels]

theorem actionLabels_body : actionLabels lines (reads ++ [(i, .action), (i + 1, .body)]) =
    actionLabels lines reads ++ [actionLabel lines i] := by
  simp [actionLabels]

end Reads

theorem scanned_start (sm : DbStateMachine σ ι) (lines : List String) :
    Scanned answer collection sm lines ⟨0, BulkState.start sm, []⟩ :=
  ⟨⟨rfl, Nat.zero_le _, nofun⟩, accounts_start sm, rfl⟩

/-- Where a pass goes: on with the lines that are left, or out of the loop with none. -/
def PassScans (sm : DbStateMachine σ ι) (lines : List String) (s : BulkScan σ ι) :
    Loop.Pass (BulkScan σ ι) (BulkScan σ ι) → Prop
  | .again t => Scanned answer collection sm lines t ∧ s.next < t.next
  | .leave t => Scanned answer collection sm lines t ∧ t.next = lines.length

section Pass

variable {answer collection} {sm : DbStateMachine σ ι} {lines : List String} {i : Nat} {st : BulkState σ ι}
variable {reads : List (Nat × LineRole)} {actionLine : String}

/-- An action line that does not parse. -/
theorem passScans_invalid (h : Scanned answer collection sm lines ⟨i, st, reads⟩) (hline : lines[i]? = some actionLine)
    {e : String} (haction : BulkInput.parseAction actionLine = .error e) :
    PassScans answer collection sm lines ⟨i, st, reads⟩ (bulkPass answer collection lines ⟨i, st, reads⟩) := by
  obtain ⟨hreads, haccounts, hsame⟩ := h
  obtain ⟨hi, hdrop⟩ := drop_of_getElem? hline
  simp only [hdrop, bulkLoop, haction] at hsame
  simp only [bulkPass, hline, haction]
  have hlabel : actionLabel lines i = ("unknown", "") := by simp [actionLabel, hline, haction]
  refine ⟨⟨readsLines_action hreads hi, ?_, hsame⟩, Nat.lt_succ_self i⟩
  rw [actionLabels_action, hlabel]
  exact accounts_reject haccounts rfl

/-- An index action, which reads the line behind it. -/
theorem passScans_index (h : Scanned answer collection sm lines ⟨i, st, reads⟩) (hline : lines[i]? = some actionLine)
    {id : Option String} (haction : BulkInput.parseAction actionLine = .ok (.index id)) :
    PassScans answer collection sm lines ⟨i, st, reads⟩ (bulkPass answer collection lines ⟨i, st, reads⟩) := by
  obtain ⟨hreads, haccounts, hsame⟩ := h
  obtain ⟨hi, hdrop⟩ := drop_of_getElem? hline
  rw [hdrop] at hsame
  have hindex : IsIndexAction lines i := ⟨actionLine, id, hline, haction⟩
  cases hdoc : lines[i + 1]? with
  | none =>
      -- the last line is an index action
      simp only [bulkPass, hline, haction, hdoc]
      have hlabel : actionLabel lines i = ("index", id.getD "") := by
        simp [actionLabel, hline, haction, hdoc]
      have hend : lines.length ≤ i + 1 := List.getElem?_eq_none_iff.1 hdoc
      have hnil : lines.drop (i + 1) = [] := List.drop_eq_nil_iff.2 hend
      rw [hnil, bulkLoop, haction] at hsame
      refine ⟨⟨readsLines_action hreads hi, ?_, ?_⟩, le_antisymm hi hend⟩
      · rw [actionLabels_action, hlabel]
        exact accounts_reject haccounts rfl
      · rw [hnil]
        exact hsame
  | some docLine =>
      obtain ⟨hi', hdrop'⟩ := drop_of_getElem? hdoc
      rw [hdrop'] at hsame
      cases hbody : BulkInput.parseBody docLine with
      | error e =>
          simp only [bulkPass, hline, haction, hdoc, hbody]
          have hlabel : actionLabel lines i = ("index", id.getD "") := by
            simp [actionLabel, hline, haction, hdoc, hbody]
          simp only [bulkLoop, haction, hbody] at hsame
          refine ⟨⟨readsLines_body hreads hi' hindex, ?_, hsame⟩, by simp⟩
          rw [actionLabels_body, hlabel]
          exact accounts_reject haccounts rfl
      | ok fields =>
          simp only [bulkPass, hline, haction, hdoc, hbody]
          have hlabel : actionLabel lines i = ("index", id.getD (BulkInput.generate i)) := by
            simp [actionLabel, hline, haction, hdoc, hbody]
          simp only [bulkLoop, haction, hbody] at hsame
          refine ⟨⟨readsLines_body hreads hi' hindex, ?_, hsame⟩, by simp⟩
          rw [actionLabels_body, hlabel]
          exact accounts_flushIfFull answer collection (accounts_pushDoc haccounts (actionDocument id i fields))

/-- A delete action, which is refused without an id. -/
theorem passScans_delete (h : Scanned answer collection sm lines ⟨i, st, reads⟩) (hline : lines[i]? = some actionLine)
    {id : Option String} (haction : BulkInput.parseAction actionLine = .ok (.delete id)) :
    PassScans answer collection sm lines ⟨i, st, reads⟩ (bulkPass answer collection lines ⟨i, st, reads⟩) := by
  obtain ⟨hreads, haccounts, hsame⟩ := h
  obtain ⟨hi, hdrop⟩ := drop_of_getElem? hline
  simp only [hdrop, bulkLoop, haction] at hsame
  simp only [bulkPass, hline, haction]
  have hlabel : actionLabel lines i = ("delete", id.getD "") := by simp [actionLabel, hline, haction]
  by_cases hid : id.getD "" = ""
  · rw [if_pos hid] at hsame ⊢
    refine ⟨⟨readsLines_action hreads hi, ?_, hsame⟩, Nat.lt_succ_self i⟩
    rw [actionLabels_action, hlabel, hid]
    exact accounts_flushIfFull answer collection (accounts_reject haccounts rfl)
  · rw [if_neg hid] at hsame ⊢
    refine ⟨⟨readsLines_action hreads hi, ?_, hsame⟩, Nat.lt_succ_self i⟩
    rw [actionLabels_action, hlabel]
    exact accounts_flushIfFull answer collection (accounts_pushDelete haccounts ⟨id.getD ""⟩)

end Pass

/-- **One pass.** -/
theorem passScans {sm : DbStateMachine σ ι} {lines : List String} {s : BulkScan σ ι}
    (h : Scanned answer collection sm lines s) :
    PassScans answer collection sm lines s (bulkPass answer collection lines s) := by
  obtain ⟨i, st, reads⟩ := s
  cases hline : lines[i]? with
  | none =>
      -- the end of the lines
      have hend : lines.length ≤ i := List.getElem?_eq_none_iff.1 hline
      have hle : i ≤ lines.length := h.1.le
      simp only [bulkPass, hline]
      exact ⟨h, le_antisymm hle hend⟩
  | some actionLine =>
      cases haction : BulkInput.parseAction actionLine with
      | error e => exact passScans_invalid h hline haction
      | ok action =>
          cases action with
          | index id => exact passScans_index h hline haction
          | delete id => exact passScans_delete h hline haction

/-- The loop is left after as many passes as there are lines, with the state that
`bulk_index` goes on with. -/
theorem exists_scan (sm : DbStateMachine σ ι) (lines : List String) :
    ∃ scan, Loop.iterate (bulkPass answer collection lines) (lines.length + 1) ⟨0, BulkState.start sm, []⟩ =
        some scan ∧
      Scanned answer collection sm lines scan ∧ scan.next = lines.length := by
  have hleave : ∀ s r, Scanned answer collection sm lines s → bulkPass answer collection lines s = .leave r →
      Scanned answer collection sm lines r ∧ r.next = lines.length := by
    intro s r hs hcase
    have hpass := passScans answer collection hs
    rwa [hcase] at hpass
  have hagain : ∀ s t, Scanned answer collection sm lines s → bulkPass answer collection lines s = .again t →
      Scanned answer collection sm lines t ∧ linesLeft lines t < linesLeft lines s := by
    intro s t hs hcase
    have hpass := passScans answer collection hs
    rw [hcase] at hpass
    obtain ⟨ht, hnext⟩ := hpass
    have hle := ht.reads.le
    exact ⟨ht, Nat.sub_lt_sub_left (lt_of_lt_of_le hnext hle) hnext⟩
  exact Loop.exists_iterate hleave hagain _ _ (scanned_start answer collection sm lines) (Nat.lt_succ_self _)

/-- **The account of a bulk request.** The parse loop ends; it reads every line once, as an
action or as the body of the index action before it; the response has one item for each
action line, with its action and its id; and the flag `errors` is set where an item has an
error. -/
theorem bulkIndex_accounts {collections : ExtTreeMap String CollectionMeta} (sm : DbStateMachine σ ι)
    (body : String) (hregistered : collection ∈ collections) :
    ∃ scan, Loop.iterate (bulkPass answer collection (bulkLines body)) ((bulkLines body).length + 1)
        ⟨0, BulkState.start sm, []⟩ = some scan ∧
      scan.st = bulkLoop answer collection (bulkLines body) 0 (BulkState.start sm) ∧
      scan.reads.map Prod.fst = List.range (bulkLines body).length ∧
      (∀ k, (k, .body) ∈ scan.reads →
        ∃ j, k = j + 1 ∧ (j, .action) ∈ scan.reads ∧ IsIndexAction (bulkLines body) j) ∧
      ∃ sm' collections' errors items,
        bulkIndex answer collection collections sm body = .ok (sm', collections', errors, items) ∧
        (items.map BulkItem.label).Perm (actionLabels (bulkLines body) scan.reads) ∧
        items.length = (scan.reads.filter fun r => r.2 = .action).length ∧
        (errors = true ↔ ∃ item ∈ items, item.error.isSome = true) := by
  obtain ⟨scan, hrun, hscan, hend⟩ := exists_scan answer collection sm (bulkLines body)
  have hsame : scan.st = bulkLoop answer collection (bulkLines body) 0 (BulkState.start sm) := by
    have h := hscan.same
    rwa [hend, List.drop_length, bulkLoop] at h
  obtain ⟨haccounts, hnone⟩ := accounts_flushRemaining answer collection hscan.accounts
  obtain ⟨hlabels, hflag⟩ := foldl_proposeDelete_tells answer collection
    (flushRemaining answer collection scan.st).pendingDeletes _ haccounts.flag
  have hperm := haccounts.labels
  rw [pendingLabels, hnone, List.map_nil, List.nil_append, ← hlabels] at hperm
  have hlength := hperm.length_eq
  rw [List.length_map, actionLabels, List.length_map] at hlength
  have hresponse : bulkIndex answer collection collections sm body = .ok _ := if_pos hregistered
  rw [← hsame] at hresponse
  exact ⟨scan, hrun, hsame, hend ▸ hscan.reads.once, hscan.reads.bodies, _, _, _, _, hresponse, hperm, hlength, hflag⟩

end Loop

/-- Three lines are two actions, and have two items. -/
theorem bulkIndex_accounts_indexThenDelete :
    ∃ sm' collections' errors items,
      bulkIndex Except.ok "c" smallRegistry smallLeader indexThenDelete = .ok (sm', collections', errors, items) ∧
        (errors = true ↔ ∃ item ∈ items, item.error.isSome = true) := by
  have hregistered : "c" ∈ smallRegistry := by simp [smallRegistry]
  obtain ⟨_, -, -, -, -, sm', collections', errors, items, hrun, -, -, herrors⟩ :=
    bulkIndex_accounts Except.ok "c" smallLeader indexThenDelete
      hregistered
  exact ⟨sm', collections', errors, items, hrun, herrors⟩

end MSearchDB.Node
