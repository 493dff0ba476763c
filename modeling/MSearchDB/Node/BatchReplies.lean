import MSearchDB.Consensus.BatchInsert
import MSearchDB.Node.WriteBatcher

/-!
# The replies of the write batcher

The write batcher of `WriteBatcher.lean` on a node with its state machine. `propose_batch`
is where they meet: the batch of a group is committed and applied, and the response comes
back or is lost, or the batch is refused. Other commands of the log are applied in between.

`flush_batch` sends one response to all submitters of a group, and the state machine
answers with a success as soon as one document was stored. A positive reply means that
the submitter's own document was stored exactly in the runs where every batch that is
answered was stored completely or not at all (`positive_means_stored_iff`).
-/

set_option autoImplicit false

namespace MSearchDB.Node

open MSearchDB.Lib
open MSearchDB.Core
open MSearchDB.Consensus

/-- What becomes of a batch that `propose_batch` proposes. -/
inductive BatchFate where
  /-- It is applied, and the response comes back. -/
  | answered
  /-- It is applied, and the proposal ends in an error. -/
  | lost (e : DbError)
  | refused (e : DbError)
  deriving DecidableEq

/-- A group that has been flushed: the proposal, and which of its documents the storage has
taken. -/
structure FlushedGroup where
  proposal : BatchProposal
  stored : List Bool
  deriving DecidableEq

/-- A step on the node. -/
inductive BatchedStep where
  /-- A step of the batcher, other than the return of a proposal. -/
  | batcher (a : BatcherStep)
  /-- The proposal of the next group returns. -/
  | propose (fate : BatchFate)
  /-- Another command of the log is applied. -/
  | apply (cmd : RaftCommand)

/-- The batcher, the state machine, and the groups flushed so far. -/
structure BatchedNode (σ ι : Type) where
  batcher : WriteBatcher
  sm : DbStateMachine σ ι
  flushed : List FlushedGroup

namespace BatchedNode

variable {σ ι : Type}

/-- Nothing has been submitted. -/
def start (sm : DbStateMachine σ ι) : BatchedNode σ ι := ⟨.start, sm, []⟩

section Steps

variable [StorageBackend σ] [IndexBackend ι]

/-- The state machine after a batch, what `propose_batch` returns, and which documents the
storage has taken. -/
def proposeBatch (sm : DbStateMachine σ ι) (collection : String) (documents : List Document) :
    BatchFate → DbStateMachine σ ι × DbResult RaftResponse × List Bool
  | .answered =>
      let (resp, sm') := sm.applyCommand (.batchInsert collection documents)
      (sm', .ok resp, putResults sm.storage collection documents)
  | .lost e =>
      let (_, sm') := sm.applyCommand (.batchInsert collection documents)
      (sm', .error e, putResults sm.storage collection documents)
  | .refused e => (sm, .error e, documents.map fun _ => false)

/-- The node after a step; a step that is not possible changes nothing. -/
def step (s : BatchedNode σ ι) : BatchedStep → BatchedNode σ ι
  | .batcher (.propose _) => s
  | .batcher a => { s with batcher := s.batcher.step a }
  | .propose fate =>
      match s.batcher.phase with
      | .flushing _ ((collection, entries) :: _) =>
          let (sm, result, stored) := proposeBatch s.sm collection (entries.map BatchEntry.document) fate
          { batcher := s.batcher.step (.propose result)
            sm := sm
            flushed := s.flushed ++ [⟨⟨collection, entries, result⟩, stored⟩] }
      | _ => s
  | .apply cmd => { s with sm := (s.sm.applyCommand cmd).2 }

/-- The node after a sequence of steps. -/
def run (s : BatchedNode σ ι) (steps : List BatchedStep) : BatchedNode σ ι := steps.foldl step s

end Steps

/-! ## Replies and outcomes -/

/-- The entries that have been flushed, and whether the document of each was stored. -/
def outcomes (s : BatchedNode σ ι) : List (BatchEntry × Bool) :=
  s.flushed.flatMap fun f => f.proposal.entries.zip f.stored

/-- The document of a call was stored. -/
def StoredFor (s : BatchedNode σ ι) (call : Nat) : Prop := ∃ e, (e, true) ∈ s.outcomes ∧ e.reply = call

/-- Whoever is told of a success has its own document stored. -/
def PositiveMeansStored (s : BatchedNode σ ι) : Prop :=
  ∀ call resp, (call, .ok resp) ∈ s.batcher.replies → resp.success = true → s.StoredFor call

/-- All documents were stored, or none was. -/
def AllOrNone (stored : List Bool) : Prop := (∀ b ∈ stored, b = true) ∨ ∀ b ∈ stored, b = false

/-- The proposal of a group has been answered. -/
def IsAnswered (f : FlushedGroup) : Prop := ∃ resp, f.proposal.result = .ok resp

/-- The response to a group is a success where one of its documents was stored. -/
structure GroupOk (f : FlushedGroup) : Prop where
  length : f.stored.length = f.proposal.entries.length
  success : ∀ resp, f.proposal.result = .ok resp →
    (resp.success = true ↔ true ∈ f.stored ∨ f.proposal.entries = [])

/-- The groups flushed are the proposals of the batcher. -/
structure Consistent (s : BatchedNode σ ι) : Prop where
  accounted : s.batcher.Accounted
  proposals : s.flushed.map FlushedGroup.proposal = s.batcher.proposals
  groups : ∀ f ∈ s.flushed, GroupOk f

section Steps

variable [StorageBackend σ] [IndexBackend ι]

theorem groupOk_proposeBatch (sm : DbStateMachine σ ι) (collection : String) (entries : List BatchEntry)
    (fate : BatchFate) :
    GroupOk ⟨⟨collection, entries, (proposeBatch sm collection (entries.map BatchEntry.document) fate).2.1⟩,
      (proposeBatch sm collection (entries.map BatchEntry.document) fate).2.2⟩ := by
  have hlength := length_putResults collection (entries.map BatchEntry.document) sm.storage
  rw [List.length_map] at hlength
  cases fate with
  | answered =>
      refine ⟨hlength, ?_⟩
      intro resp hresp
      have heq : (sm.applyCommand (.batchInsert collection (entries.map BatchEntry.document))).1 = resp :=
        Except.ok.inj hresp
      have hfail := DbStateMachine.batchInsert_success_iff sm collection (entries.map BatchEntry.document)
      rw [heq] at hfail
      change resp.success = true ↔
        true ∈ putResults sm.storage collection (entries.map BatchEntry.document) ∨ entries = []
      rw [← Bool.not_eq_false, hfail, List.count_eq_zero, not_and_or, not_not, ne_eq, not_not, List.map_eq_nil_iff]
  | lost e => exact ⟨hlength, nofun⟩
  | refused e => exact ⟨by simp [proposeBatch], nofun⟩

/-- A step of the batcher alone proposes nothing. -/
theorem proposals_step (s : WriteBatcher) {a : BatcherStep} (ha : ∀ result, a ≠ .propose result) :
    (s.step a).proposals = s.proposals := by
  cases a with
  | submit collection document =>
      rw [WriteBatcher.step]
      split
      · rfl
      · rfl
  | send i =>
      rw [WriteBatcher.step]
      split
      · split
        · rfl
        · split
          · rfl
          · rfl
      · rfl
  | close =>
      rw [WriteBatcher.step]
      split
      · rfl
      · rfl
  | recv =>
      rw [WriteBatcher.step]
      split
      · rfl
      · split
        · rfl
        · rfl
      · rfl
      · split
        · rfl
        · rfl
      · rfl
  | timeout =>
      rw [WriteBatcher.step]
      split
      · rfl
      · rfl
  | flush order =>
      rw [WriteBatcher.step]
      split
      · split
        · rfl
        · rfl
      · rfl
  | propose result => exact absurd rfl (ha result)

theorem Consistent.step {s : BatchedNode σ ι} (h : s.Consistent) (a : BatchedStep) : (s.step a).Consistent := by
  cases a with
  | batcher a =>
      by_cases ha : ∃ result, a = .propose result
      · -- a proposal returns only through the state machine
        obtain ⟨result, rfl⟩ := ha
        exact h
      · have hother : ∀ result, a ≠ .propose result := not_exists.1 ha
        have hstep : s.step (.batcher a) = { s with batcher := s.batcher.step a } := by
          cases a with
          | propose result => exact absurd rfl (hother result)
          | _ => rfl
        rw [hstep]
        refine ⟨WriteBatcher.accounted_step h.accounted a, ?_, h.groups⟩
        rw [proposals_step s.batcher hother]
        exact h.proposals
  | propose fate =>
      rw [BatchedNode.step]
      split
      case h_1 last collection entries rest hphase =>
          -- the group that is added is the one at the head of those to flush
          have hgroup := groupOk_proposeBatch s.sm collection entries fate
          generalize proposeBatch s.sm collection (entries.map BatchEntry.document) fate = outcome at hgroup ⊢
          rcases outcome with ⟨sm, result, stored⟩
          refine ⟨WriteBatcher.accounted_step h.accounted (.propose result), ?_, forall_mem_concat h.groups hgroup⟩
          simp only [WriteBatcher.step, hphase, List.map_append, h.proposals]
          rfl
      case h_2 => exact h
  | apply cmd => exact ⟨h.accounted, h.proposals, h.groups⟩

theorem consistent_run (sm : DbStateMachine σ ι) (steps : List BatchedStep) :
    ((start sm).run steps).Consistent := by
  have halong : Along step (fun _ _ => True) (start sm) steps := along_true steps (start sm)
  exact halong.invariant (I := Consistent) (fun s a h _ => h.step a) ⟨WriteBatcher.accounted_start, rfl, nofun⟩

end Steps

section Consistent

variable {s : BatchedNode σ ι}

theorem Consistent.map_fst_outcomes (h : s.Consistent) : s.outcomes.map Prod.fst = s.batcher.proposed := by
  rw [outcomes, WriteBatcher.proposed, ← h.proposals, List.map_flatMap, List.flatMap_map]
  apply List.flatMap_congr
  intro f hf
  rw [List.map_fst_zip (h.groups f hf).length.ge]

/-- A call has one outcome. -/
theorem Consistent.outcome_unique (h : s.Consistent) {e e' : BatchEntry} {b b' : Bool}
    (he : (e, b) ∈ s.outcomes) (he' : (e', b') ∈ s.outcomes) (hcall : e.reply = e'.reply) : b = b' := by
  have hnodup : (s.outcomes.map fun o => o.1.reply).Nodup := by
    -- every call is in one place, and those proposed are the first part
    have hall := h.accounted.nodup
    simp only [List.map_append, List.append_assoc] at hall
    have hproposed := hall.of_append_left
    rwa [← h.map_fst_outcomes, List.map_map] at hproposed
  exact congrArg Prod.snd (List.inj_on_of_nodup_map hnodup he he' hcall)

/-- The replies are the results of the groups flushed. -/
theorem Consistent.mem_replies_iff (h : s.Consistent) {call : Nat} {resp : RaftResponse} :
    (call, .ok resp) ∈ s.batcher.replies ↔
      ∃ f ∈ s.flushed, f.proposal.result = .ok resp ∧ ∃ e ∈ f.proposal.entries, e.reply = call := by
  have hreply : ∀ result : DbResult RaftResponse, replyOf result = .ok resp ↔ result = .ok resp := by
    intro result
    cases result with
    | ok resp' => exact Iff.rfl
    | error e => exact iff_of_false nofun nofun
  rw [h.accounted.replied, ← h.proposals, List.flatMap_map, List.mem_flatMap]
  apply exists_congr
  intro f
  apply and_congr_right
  intro _
  rw [BatchProposal.replies, List.mem_map]
  constructor
  · rintro ⟨e, he, heq⟩
    obtain ⟨hcall, hresult⟩ := Prod.mk.inj heq
    exact ⟨(hreply _).1 hresult, e, he, hcall⟩
  · rintro ⟨hresult, e, he, hcall⟩
    exact ⟨e, he, Prod.ext hcall ((hreply _).2 hresult)⟩

theorem Consistent.positiveMeansStored_iff (h : s.Consistent) :
    s.PositiveMeansStored ↔ ∀ f ∈ s.flushed, IsAnswered f → AllOrNone f.stored := by
  constructor
  · rintro hpositive f hf ⟨resp, hresult⟩
    by_contra hnot
    rw [AllOrNone, not_or] at hnot
    obtain ⟨hall, hnone⟩ := hnot
    push Not at hall hnone
    obtain ⟨b, hb, hfalse⟩ := hall
    obtain ⟨b', hb', htrue⟩ := hnone
    obtain rfl := Bool.eq_false_iff.2 hfalse
    obtain rfl := Bool.eq_true_of_not_eq_false htrue
    -- a document that was not stored, in a group that is answered with a success
    have hlength := (h.groups f hf).length
    have hsuccess : resp.success = true := ((h.groups f hf).success resp hresult).2 (.inl hb')
    obtain ⟨i, hi, hstored⟩ := List.getElem_of_mem hb
    have hie : i < f.proposal.entries.length := hlength ▸ hi
    have houtcome : (f.proposal.entries[i], false) ∈ s.outcomes := by
      refine List.mem_flatMap.2 ⟨f, hf, ?_⟩
      rw [← hstored, ← List.getElem_zip (h := by rw [List.length_zip]; omega)]
      exact List.getElem_mem _
    have hreply := h.mem_replies_iff.2 ⟨f, hf, hresult, f.proposal.entries[i], List.getElem_mem _, rfl⟩
    obtain ⟨e, he, hcall⟩ := hpositive _ resp hreply hsuccess
    exact absurd (h.outcome_unique he houtcome hcall) (by decide)
  · intro hgroups call resp hreply hsuccess
    obtain ⟨f, hf, hresult, e, he, rfl⟩ := h.mem_replies_iff.1 hreply
    have hlength := (h.groups f hf).length
    obtain ⟨i, hi, rfl⟩ := List.getElem_of_mem he
    have his : i < f.stored.length := hlength ▸ hi
    have hstored : f.stored[i] = true := by
      rcases hgroups f hf ⟨resp, hresult⟩ with hall | hnone
      · exact hall _ (List.getElem_mem his)
      · -- a success means that some document was stored, or that there was none to store
        rcases ((h.groups f hf).success resp hresult).1 hsuccess with hsome | hempty
        · exact absurd (hnone true hsome) (by decide)
        · rw [hempty] at hi
          exact absurd hi (Nat.not_lt_zero i)
    refine ⟨f.proposal.entries[i], List.mem_flatMap.2 ⟨f, hf, ?_⟩, rfl⟩
    rw [← hstored, ← List.getElem_zip (h := by rw [List.length_zip]; omega)]
    exact List.getElem_mem _

end Consistent

section Steps

variable [StorageBackend σ] [IndexBackend ι]

/-- **Positive replies.** In every run, whoever is told of a success has its own document
stored if and only if every group that was answered was stored completely or not at all. -/
theorem positive_means_stored_iff (sm : DbStateMachine σ ι) (steps : List BatchedStep) :
    ((start sm).run steps).PositiveMeansStored ↔
      ∀ f ∈ ((start sm).run steps).flushed, IsAnswered f → AllOrNone f.stored :=
  (consistent_run sm steps).positiveMeansStored_iff

end Steps

/-- Two documents of one collection are submitted and flushed together. -/
def twoSubmitted : List BatchedStep :=
  [.batcher (.submit "c" (Document.new ⟨"a"⟩)), .batcher (.send 0), .batcher (.submit "c" (Document.new ⟨"b"⟩)),
    .batcher (.send 0), .batcher .recv, .batcher .recv, .batcher .timeout, .batcher (.flush ["c"]),
    .propose .answered]

/-- The storage takes the first document only, and both submitters are told of a success. -/
theorem not_positive_means_stored :
    ¬ ((start (DbStateMachine.new (ι := Unit) (ScriptedStorage.mk [true, false] []) ())).run
      twoSubmitted).PositiveMeansStored := by
  intro h
  have hgroups := (consistent_run _ _).positiveMeansStored_iff.1 h
  have hflushed : ((start (DbStateMachine.new (ι := Unit) (ScriptedStorage.mk [true, false] []) ())).run
      twoSubmitted).flushed =
        [⟨⟨"c", [⟨"c", Document.new ⟨"a"⟩, 0⟩, ⟨"c", Document.new ⟨"b"⟩, 1⟩], .ok (.okBatch 1)⟩, [true, false]⟩] := by
    decide
  rw [hflushed] at hgroups
  rcases hgroups _ (List.mem_singleton.2 rfl) ⟨_, rfl⟩ with hall | hnone
  · exact absurd (hall false (by simp)) (by decide)
  · exact absurd (hnone true (by simp)) (by decide)

end BatchedNode

end MSearchDB.Node
