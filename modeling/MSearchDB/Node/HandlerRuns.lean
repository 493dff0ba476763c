import MSearchDB.Lib.Run
import MSearchDB.Node.DocumentCache
import MSearchDB.Node.SearchRequest
import MSearchDB.Node.FanOutSearch

/-!
# Runs of the handlers on one node

The handlers of one node that write, step by step as in `DocumentCache.lean`, and what
their steps do to the registry of collections with its counts and mappings. The cache,
the storage and the index have no part here, so the answer of a proposal and the
invalidation of a cache entry are no steps of their own. A search is one step: it reads
the registries and executes its query, or is refused.

The log keeps the commands that the handlers have brought into the log of the cluster, and
the history what the handlers have answered: a document is accepted when the answer
reports it as stored.
-/

set_option autoImplicit false

namespace MSearchDB.Node

open MSearchDB.Lib
open MSearchDB.Core
open MSearchDB.Consensus
open MSearchDB.Index

/-! ## Writes -/

/-- What a proposal returns: a response, or an error, after which the command may be in
the log all the same. -/
inductive Proposal where
  | answered (resp : RaftResponse)
  | failed (e : DbError) (appended : Bool)

/-- The command is in the log after the proposal. -/
def Proposal.entersLog : Proposal → Bool
  | answered _ => true
  | failed _ appended => appended

/-- The documents that a handler reports as stored when its command is answered. -/
def stored (resp : RaftResponse) : RaftCommand → List Document
  | .insertDocument _ doc => [doc]
  | .updateDocument _ doc => [doc]
  | .batchInsert _ docs => docs.take resp.affectedCount
  | _ => []

/-- The documents that a handler reports as stored, of the commands that it has proposed. -/
def storedBy (proposals : List (RaftCommand × DbResult RaftResponse)) : List Document :=
  proposals.flatMap fun (cmd, result) =>
    match result with
    | .ok resp => stored resp cmd
    | .error _ => []

/-- The documents that a command stores. -/
def documentsOf : RaftCommand → List Document
  | .insertDocument _ doc => [doc]
  | .updateDocument _ doc => [doc]
  | .batchInsert _ docs => docs
  | _ => []

theorem stored_subset (resp : RaftResponse) (cmd : RaftCommand) : stored resp cmd ⊆ documentsOf cmd := by
  cases cmd with
  | batchInsert collection docs => exact List.take_subset _ _
  | _ => exact List.Subset.refl _

/-- A write that the node has received, and the documents that its answer will report as
stored. -/
structure TracedWrite extends HandledWrite where
  accepted : List Document

/-- The handler has answered. -/
def WritePhase.Ended : WritePhase → Prop
  | .responded => True
  | .refused _ => True
  | .failed _ => True
  | _ => False

/-- What a handler has answered. -/
inductive NodeEvent where
  /-- A collection is created, in the place of an entry of the registry. -/
  | created (name : String) (replaced : Option CollectionMeta)
  | deleted (name : String)
  | accepted (collection : String) (doc : Document)

namespace TracedWrite

/-- The entry of the collection after a handler has updated the registry. -/
def updateMeta (w : TracedWrite) (entry : Option CollectionMeta) : Option CollectionMeta :=
  match w.request with
  | .index _ _ _ => entry.map fun m => ⟨m.docCount + 1, w.mapping⟩
  | .upsert _ _ _ => entry
  | .delete _ _ => entry.map fun m => { m with docCount := if m.docCount = 0 then 0 else m.docCount - 1 }
  | .bulk _ _ => entry.map fun m => { m with docCount := m.docCount + UInt64.ofNat w.accepted.length }
  | .createCollection _ _ => some ⟨0, FieldMapping.new⟩
  | .deleteCollection _ => none

/-- What the handler answers. -/
def events (w : TracedWrite) (entry : Option CollectionMeta) : List NodeEvent :=
  match w.request with
  | .createCollection name _ => [.created name entry]
  | .deleteCollection name => [.deleted name]
  | request => w.accepted.map (.accepted request.collection)

end TracedWrite

/-! ## Searches -/

/-- A request to one of the two search endpoints. -/
inductive SearchEndpoint where
  | searchDocuments (collection : String) (order : DslOrder) (body : SearchRequest)
  | simpleSearch (collection : String) (q : String)

namespace SearchEndpoint

/-- The collection or alias that the request names. -/
def collection : SearchEndpoint → String
  | searchDocuments collection _ _ => collection
  | simpleSearch collection _ => collection

/-- The query that the handler executes. -/
def coreQuery : SearchEndpoint → Query
  | searchDocuments _ order body => body.query.intoCoreQuery order
  | simpleSearch _ q => .fullText ⟨"_body", q, .or⟩

end SearchEndpoint

/-! ## The node -/

/-- The node: its registries, the writes received so far, the commands that they have
brought into the log, the queries executed so far, and what has been answered. -/
structure HandlerNode where
  registries : Registries
  writes : List TracedWrite
  log : List (Nat × RaftCommand)
  executed : List Query
  history : List NodeEvent

/-- A step on the node. Writes are named by their numbers. -/
inductive HandlerStep where
  | receive (request : WriteRequest)
  | check (write : Nat)
  | validate (write : Nat)
  | propose (write : Nat) (outcome : Proposal)
  /-- The handler updates the registry and responds. -/
  | respond (write : Nat)
  | search (request : SearchEndpoint)
  /-- The aliases change. -/
  | aliases (change : Write String CollectionAlias)

namespace HandlerNode

/-- A node that has received nothing. -/
def start : HandlerNode := ⟨⟨fun _ => none, fun _ => none⟩, [], [], [], []⟩

/-- A node on which a collection has just been created. -/
def created (collection : String) : HandlerNode :=
  { start with
    registries := ⟨Function.update (fun _ => none) collection (some ⟨0, FieldMapping.new⟩), fun _ => none⟩ }

/-- The mappings of the registered collections. -/
def mappings (s : HandlerNode) (collection : String) : Option FieldMapping :=
  (s.registries.collections collection).map CollectionMeta.mapping

/-- Change a write. -/
def setWrite (s : HandlerNode) (i : Nat) (w : TracedWrite) : HandlerNode :=
  { s with writes := s.writes.set i w }

/-- The handler of a write goes into a phase. -/
def setPhase (s : HandlerNode) (i : Nat) (w : TracedWrite) (phase : WritePhase) : HandlerNode :=
  s.setWrite i { w with phase := phase }

/-- The node after the answer of a write. -/
def answer (s : HandlerNode) (i : Nat) (w : TracedWrite) : HandlerNode :=
  let collection := w.request.collection
  let entry := s.registries.collections collection
  { s.setPhase i w .responded with
    registries := { s.registries with
      collections := Function.update s.registries.collections collection (w.updateMeta entry) }
    history := s.history ++ w.events entry }

variable [BulkInput]

/-- The node after a step of the handler of a write. -/
def writeStep (s : HandlerNode) (i : Nat) (w : TracedWrite) : HandlerStep → HandlerNode
  | .check _ =>
      match w.phase with
      | .received => s.setPhase i w (w.request.check s.mappings)
      | _ => s
  | .validate _ =>
      match w.phase, w.request with
      | .found, .index collection id fields =>
          let current := (s.mappings collection).getD FieldMapping.new
          match validateAndUpdateMapping (documentOf id fields) current with
          | .ok updated =>
              s.setWrite i { w with mapping := updated, phase := .running w.request.commands }
          | .error e => s.setPhase i w (.failed e)
      | _, _ => s
  | .propose _ outcome =>
      match w.phase, outcome with
      | .running (cmd :: todo), .answered resp =>
          { s.setWrite i { w with phase := .running todo, accepted := w.accepted ++ stored resp cmd } with
            log := s.log ++ [(i, cmd)] }
      | .running (cmd :: todo), .failed e appended =>
          { s.setPhase i w (w.request.afterFailure todo e) with
            log := if appended then s.log ++ [(i, cmd)] else s.log }
      | _, _ => s
  | .respond _ =>
      match w.phase with
      | .running [] => s.answer i w
      | _ => s
  | _ => s

/-- The node after a step; a step that is not possible changes nothing. -/
def step (s : HandlerNode) (a : HandlerStep) : HandlerNode :=
  match a with
  | .receive request => { s with writes := s.writes ++ [⟨⟨request, FieldMapping.new, .received⟩, []⟩] }
  | .search request =>
      match resolveSearchTargets s.registries request.collection with
      | .ok _ => { s with executed := s.executed ++ [request.coreQuery] }
      | .error _ => s
  | .aliases change => { s with registries := s.registries.write (.aliases change) }
  | .check i | .validate i | .propose i _ | .respond i =>
      match s.writes[i]? with
      | some w => s.writeStep i w a
      | none => s

/-- The node after a sequence of steps. -/
def run (s : HandlerNode) (steps : List HandlerStep) : HandlerNode := steps.foldl step s

/-! ## What a step can do -/

/-- The node can get from a step: nothing, or the change of the step. -/
inductive Moved (s : HandlerNode) : HandlerStep → HandlerNode → Prop
  | idle (a : HandlerStep) : Moved s a s
  | receive (request : WriteRequest) :
      Moved s (.receive request) { s with writes := s.writes ++ [⟨⟨request, FieldMapping.new, .received⟩, []⟩] }
  | check {i : Nat} {w : TracedWrite} (hw : s.writes[i]? = some w) (hphase : w.phase = .received) :
      Moved s (.check i) (s.setPhase i w (w.request.check s.mappings))
  | validate {i : Nat} {w : TracedWrite} {collection : String} {id : DocumentId}
      {fields : Std.ExtTreeMap String JsonValue} {updated : FieldMapping} (hw : s.writes[i]? = some w)
      (hphase : w.phase = .found) (hrequest : w.request = .index collection id fields)
      (hvalid : validateAndUpdateMapping (documentOf id fields)
        ((s.mappings collection).getD FieldMapping.new) = .ok updated) :
      Moved s (.validate i)
        (s.setWrite i { w with mapping := updated, phase := .running w.request.commands })
  | conflict {i : Nat} {w : TracedWrite} {e : DbError} (hw : s.writes[i]? = some w)
      (hphase : w.phase = .found) : Moved s (.validate i) (s.setPhase i w (.failed e))
  | answered {i : Nat} {w : TracedWrite} {cmd : RaftCommand} {todo : List RaftCommand} (resp : RaftResponse)
      (hw : s.writes[i]? = some w) (hphase : w.phase = .running (cmd :: todo)) :
      Moved s (.propose i (.answered resp))
        { s.setWrite i { w with phase := .running todo, accepted := w.accepted ++ stored resp cmd } with
          log := s.log ++ [(i, cmd)] }
  | failed {i : Nat} {w : TracedWrite} {cmd : RaftCommand} {todo : List RaftCommand} (e : DbError)
      (appended : Bool) (hw : s.writes[i]? = some w) (hphase : w.phase = .running (cmd :: todo)) :
      Moved s (.propose i (.failed e appended))
        { s.setPhase i w (w.request.afterFailure todo e) with
          log := if appended then s.log ++ [(i, cmd)] else s.log }
  | respond {i : Nat} {w : TracedWrite} (hw : s.writes[i]? = some w) (hphase : w.phase = .running []) :
      Moved s (.respond i) (s.answer i w)
  | search {request : SearchEndpoint} {targets : List String}
      (htargets : resolveSearchTargets s.registries request.collection = .ok targets) :
      Moved s (.search request) { s with executed := s.executed ++ [request.coreQuery] }
  | aliases (change : Write String CollectionAlias) :
      Moved s (.aliases change) { s with registries := s.registries.write (.aliases change) }

theorem moved_writeStep (s : HandlerNode) {i : Nat} {w : TracedWrite} (hw : s.writes[i]? = some w)
    {a : HandlerStep} (ha : a = .check i ∨ a = .validate i ∨ (∃ outcome, a = .propose i outcome) ∨ a = .respond i) :
    Moved s a (s.writeStep i w a) := by
  rcases ha with rfl | rfl | ⟨outcome, rfl⟩ | rfl
  · simp only [writeStep]
    split
    next hphase => exact .check hw hphase
    · exact .idle _
  · simp only [writeStep]
    split
    next hphase hrequest =>
      split
      next hvalid => exact .validate hw hphase hrequest hvalid
      · exact .conflict hw hphase
    · exact .idle _
  · simp only [writeStep]
    split
    next resp hphase => exact .answered resp hw hphase
    next e appended hphase => exact .failed e appended hw hphase
    · exact .idle _
  · simp only [writeStep]
    split
    next hphase => exact .respond hw hphase
    · exact .idle _

theorem moved_step (s : HandlerNode) (a : HandlerStep) : Moved s a (s.step a) := by
  have hwrite : ∀ i, a = .check i ∨ a = .validate i ∨ (∃ outcome, a = .propose i outcome) ∨ a = .respond i →
      Moved s a (match s.writes[i]? with
        | some w => s.writeStep i w a
        | none => s) := by
    intro i ha
    split
    next w hw => exact moved_writeStep s hw ha
    · exact .idle a
  cases a with
  | receive request => exact .receive request
  | search request =>
      simp only [step]
      split
      next targets htargets => exact .search htargets
      · exact .idle _
  | aliases change => exact .aliases change
  | check i => exact hwrite i (.inl rfl)
  | validate i => exact hwrite i (.inr (.inl rfl))
  | propose i outcome => exact hwrite i (.inr (.inr (.inl ⟨outcome, rfl⟩)))
  | respond i => exact hwrite i (.inr (.inr (.inr rfl)))

/-- Only an answer changes the entries of the collections and the history. -/
theorem Moved.frame {s s' : HandlerNode} {a : HandlerStep} (h : Moved s a s') (ha : ∀ i, a ≠ .respond i) :
    s'.registries.collections = s.registries.collections ∧ s'.history = s.history := by
  cases h with
  | respond hw hphase => exact absurd rfl (ha _)
  | _ => exact ⟨rfl, rfl⟩

/-- What has been answered stays answered. -/
theorem Moved.history_grows {s s' : HandlerNode} {a : HandlerStep} (h : Moved s a s') : s.history <+: s'.history := by
  cases h with
  | respond hw hphase => exact List.prefix_append _ _
  | _ => exact List.prefix_refl _

/-- Only a proposal changes the log, and only a search the queries executed. -/
theorem Moved.log_executed {s s' : HandlerNode} {a : HandlerStep} (h : Moved s a s')
    (hpropose : ∀ i outcome, a ≠ .propose i outcome) (hsearch : ∀ request, a ≠ .search request) :
    s'.log = s.log ∧ s'.executed = s.executed := by
  cases h with
  | answered resp hw hphase => exact absurd rfl (hpropose _ _)
  | failed e appended hw hphase => exact absurd rfl (hpropose _ _)
  | search htargets => exact absurd rfl (hsearch _)
  | _ => exact ⟨rfl, rfl⟩

/-- The next command of a write is proposed. -/
theorem step_propose {s : HandlerNode} {i : Nat} {w : TracedWrite} {cmd : RaftCommand} {todo : List RaftCommand}
    (hw : s.writes[i]? = some w) (hphase : w.phase = .running (cmd :: todo)) (outcome : Proposal) :
    (s.step (.propose i outcome)).log = s.log ++ (if outcome.entersLog then [(i, cmd)] else []) ∧
      (s.step (.propose i outcome)).executed = s.executed := by
  cases outcome with
  | answered resp =>
      simp only [step, hw, writeStep, hphase, Proposal.entersLog]
      exact ⟨rfl, rfl⟩
  | failed e appended =>
      simp only [step, hw, writeStep, hphase, Proposal.entersLog]
      cases appended with
      | true => exact ⟨rfl, rfl⟩
      | false => exact ⟨(List.append_nil _).symm, rfl⟩

theorem step_propose_of_ne {s : HandlerNode} {i : Nat} {outcome : Proposal}
    (h : ∀ w cmd todo, s.writes[i]? = some w → w.phase ≠ .running (cmd :: todo)) :
    s.step (.propose i outcome) = s := by
  have hmoved := moved_step s (.propose i outcome)
  generalize s.step (.propose i outcome) = s' at hmoved
  cases hmoved with
  | idle => rfl
  | answered resp hw hphase => exact absurd hphase (h _ _ _ hw)
  | failed e appended hw hphase => exact absurd hphase (h _ _ _ hw)

theorem step_respond {s : HandlerNode} {i : Nat} {w : TracedWrite} (hw : s.writes[i]? = some w)
    (hphase : w.phase = .running []) : s.step (.respond i) = s.answer i w := by
  simp only [step, hw, writeStep, hphase]

theorem step_respond_of_ne {s : HandlerNode} {i : Nat}
    (h : ∀ w, s.writes[i]? = some w → w.phase ≠ .running []) : s.step (.respond i) = s := by
  have hmoved := moved_step s (.respond i)
  generalize s.step (.respond i) = s' at hmoved
  cases hmoved with
  | idle => rfl
  | respond hw hphase => exact absurd hphase (h _ hw)

/-- A condition on the writes that answer. -/
def AtAnswer (D : HandlerNode → TracedWrite → Prop) (s : HandlerNode) : HandlerStep → Prop
  | .respond i => ∀ w, s.writes[i]? = some w → w.phase = .running [] → D s w
  | _ => True

/-- **Properties of the registry.** What the entries of the collections and the history
decide is kept by a step exactly when it is kept by the answer. -/
theorem step_iff_atAnswer {P : HandlerNode → Prop} {D : HandlerNode → TracedWrite → Prop} {s : HandlerNode}
    (hframe : ∀ s', s'.registries.collections = s.registries.collections → s'.history = s.history → P s')
    (hanswer : ∀ i w, s.writes[i]? = some w → w.phase = .running [] → (P (s.answer i w) ↔ D s w))
    (a : HandlerStep) : P (s.step a) ↔ AtAnswer D s a := by
  have hother : (∀ i, a ≠ .respond i) → P (s.step a) := by
    intro ha
    obtain ⟨hcollections, hhistory⟩ := (moved_step s a).frame ha
    exact hframe _ hcollections hhistory
  cases a with
  | respond i =>
      by_cases hrunning : ∃ w, s.writes[i]? = some w ∧ w.phase = .running []
      · obtain ⟨w, hw, hphase⟩ := hrunning
        rw [step_respond hw hphase, hanswer i w hw hphase]
        refine ⟨fun hD w' hw' _ => ?_, fun hall => hall w hw hphase⟩
        rw [hw] at hw'
        exact Option.some.inj hw' ▸ hD
      · have hne : ∀ w, s.writes[i]? = some w → w.phase ≠ .running [] :=
          fun w hw hphase => hrunning ⟨w, hw, hphase⟩
        rw [step_respond_of_ne hne]
        exact iff_of_true (hframe s rfl rfl) fun w hw hphase => absurd hphase (hne w hw)
  | _ => exact iff_of_true (hother nofun) trivial

theorem step_of_answer {P : HandlerNode → Prop} {s : HandlerNode}
    (hframe : ∀ s', s'.registries.collections = s.registries.collections → s'.history = s.history → P s')
    (hanswer : ∀ i w, s.writes[i]? = some w → w.phase = .running [] → P (s.answer i w)) (a : HandlerStep) :
    P (s.step a) := by
  refine (step_iff_atAnswer (D := fun _ _ => True) hframe ?_ a).2 ?_
  · exact fun i w hw hphase => iff_of_true (hanswer i w hw hphase) trivial
  · cases a with
    | respond i => exact fun _ _ _ => trivial
    | _ => trivial

/-- A step adds a write, or moves one on that has not ended. -/
theorem Moved.writes_cases {s s' : HandlerNode} {a : HandlerStep} (h : Moved s a s') :
    s'.writes = s.writes ∨
      (∃ request, a = .receive request ∧
        s'.writes = s.writes ++ [⟨⟨request, FieldMapping.new, .received⟩, []⟩]) ∨
      ∃ i w w', s.writes[i]? = some w ∧ ¬ w.phase.Ended ∧ s'.writes = s.writes.set i w' ∧
        w'.request = w.request := by
  have hactive : ∀ {w : TracedWrite} {phase : WritePhase}, w.phase = phase → ¬ phase.Ended → ¬ w.phase.Ended :=
    fun hphase hne => hphase ▸ hne
  cases h with
  | idle => exact .inl rfl
  | receive request => exact .inr (.inl ⟨request, rfl, rfl⟩)
  | check hw hphase => exact .inr (.inr ⟨_, _, _, hw, hactive hphase not_false, rfl, rfl⟩)
  | validate hw hphase => exact .inr (.inr ⟨_, _, _, hw, hactive hphase not_false, rfl, rfl⟩)
  | conflict hw hphase => exact .inr (.inr ⟨_, _, _, hw, hactive hphase not_false, rfl, rfl⟩)
  | answered resp hw hphase => exact .inr (.inr ⟨_, _, _, hw, hactive hphase not_false, rfl, rfl⟩)
  | failed e appended hw hphase => exact .inr (.inr ⟨_, _, _, hw, hactive hphase not_false, rfl, rfl⟩)
  | respond hw hphase => exact .inr (.inr ⟨_, _, _, hw, hactive hphase not_false, rfl, rfl⟩)
  | search => exact .inl rfl
  | aliases => exact .inl rfl

/-- The request of a write. -/
def requestAt (s : HandlerNode) (i : Nat) : Option WriteRequest := s.writes[i]?.map fun w => w.request

/-- A write keeps its request and its number. -/
theorem Moved.requestAt {s s' : HandlerNode} {a : HandlerStep} (h : Moved s a s') {i : Nat} {request : WriteRequest}
    (hrequest : s.requestAt i = some request) : s'.requestAt i = some request := by
  obtain ⟨w, hw, rfl⟩ := Option.map_eq_some_iff.1 hrequest
  rcases h.writes_cases with heq | ⟨new, -, heq⟩ | ⟨k, v, v', hv, -, heq, hsame⟩
  · rw [HandlerNode.requestAt, heq]
    exact hrequest
  · obtain ⟨hi, -⟩ := List.getElem?_eq_some_iff.1 hw
    rw [HandlerNode.requestAt, heq, List.getElem?_append_left hi]
    exact hrequest
  · rw [HandlerNode.requestAt, heq, getElem?_set_of_some hv]
    split
    next hk =>
      rw [hk, hw] at hv
      rw [Option.map_some, hsame, Option.some.inj hv]
    · exact hrequest

/-- A property of the requests that holds of those received. -/
theorem Moved.forall_requests {s s' : HandlerNode} {a : HandlerStep} (h : Moved s a s')
    {Q : WriteRequest → Prop} (hold : ∀ w ∈ s.writes, Q w.request)
    (hnew : ∀ request, a = .receive request → Q request) :
    ∀ w ∈ s'.writes, Q w.request := by
  rcases h.writes_cases with heq | ⟨request, ha, heq⟩ | ⟨i, w, w', hw, -, heq, hrequest⟩
  · rw [heq]
    exact hold
  · rw [heq]
    exact forall_mem_concat hold (hnew request ha)
  · rw [heq]
    exact forall_mem_set hold (by rw [hrequest]; exact hold w (List.mem_of_getElem? hw))

/-! ## Where a handler stands -/

end HandlerNode

/-- The commands of the request that are left to propose, and where the accepted documents
come from. -/
structure TracedWrite.Planned [BulkInput] (w : TracedWrite) : Prop where
  running : ∀ todo, w.phase = .running todo →
    ∃ proposed, proposed ++ todo = w.request.commands ∧ w.accepted ⊆ proposed.flatMap documentsOf
  early : w.phase = .received ∨ w.phase = .found → w.accepted = []

namespace HandlerNode

variable [BulkInput]

theorem planned_received (request : WriteRequest) :
    TracedWrite.Planned ⟨⟨request, FieldMapping.new, .received⟩, []⟩ :=
  ⟨nofun, fun _ => rfl⟩

/-- A handler that has just begun to propose. -/
theorem planned_commands {w : TracedWrite} (haccepted : w.accepted = [])
    (hphase : w.phase = .running w.request.commands) : w.Planned := by
  refine ⟨fun todo htodo => ⟨[], ?_, ?_⟩, fun hearly => ?_⟩
  · rw [hphase] at htodo
    exact (WritePhase.running.inj htodo).symm
  · rw [haccepted]
    exact List.nil_subset _
  · rw [hphase] at hearly
    cases hearly with
    | inl h => cases h
    | inr h => cases h

/-- A handler that proposes nothing any more. -/
theorem planned_settled {w : TracedWrite} (hrunning : ∀ todo, w.phase ≠ .running todo)
    (hearly : w.phase ≠ .received ∧ w.phase ≠ .found) : w.Planned :=
  ⟨fun todo htodo => absurd htodo (hrunning todo), fun h => by
    rcases h with h | h
    · exact absurd h hearly.1
    · exact absurd h hearly.2⟩

theorem planned_check {w : TracedWrite} (h : w.Planned) (hphase : w.phase = .received)
    (mappings : String → Option FieldMapping) :
    TracedWrite.Planned { w with phase := w.request.check mappings } := by
  have haccepted := h.early (.inl hphase)
  rcases w.request.check_cases mappings with hcheck | hcheck | ⟨e, hcheck⟩
  · rw [hcheck]
    exact ⟨nofun, fun _ => haccepted⟩
  · rw [hcheck]
    exact planned_commands haccepted rfl
  · rw [hcheck]
    exact planned_settled nofun ⟨nofun, nofun⟩

theorem planned_answered {w : TracedWrite} (h : w.Planned) {cmd : RaftCommand} {todo : List RaftCommand}
    (hphase : w.phase = .running (cmd :: todo)) (resp : RaftResponse) :
    TracedWrite.Planned { w with phase := .running todo, accepted := w.accepted ++ stored resp cmd } := by
  obtain ⟨proposed, hcommands, haccepted⟩ := h.running _ hphase
  refine ⟨fun todo' htodo => ⟨proposed ++ [cmd], ?_, ?_⟩, nofun⟩
  · rw [← WritePhase.running.inj htodo, List.append_assoc]
    exact hcommands
  · rw [List.flatMap_append]
    refine List.append_subset.2 ⟨fun doc hdoc => ?_, fun doc hdoc => ?_⟩
    · exact List.mem_append_left _ (haccepted hdoc)
    · exact List.mem_append_right _ (by simpa using stored_subset resp cmd hdoc)

theorem planned_failed {w : TracedWrite} (h : w.Planned) {cmd : RaftCommand} {todo : List RaftCommand}
    (hphase : w.phase = .running (cmd :: todo)) (e : DbError) :
    TracedWrite.Planned { w with phase := w.request.afterFailure todo e } := by
  obtain ⟨proposed, hcommands, haccepted⟩ := h.running _ hphase
  unfold WriteRequest.afterFailure
  split
  · -- a bulk request goes on with the next command
    refine ⟨fun todo' htodo => ⟨proposed ++ [cmd], ?_, ?_⟩, nofun⟩
    · rw [← WritePhase.running.inj htodo, List.append_assoc]
      exact hcommands
    · rw [List.flatMap_append]
      exact fun doc hdoc => List.mem_append_left _ (haccepted hdoc)
  · exact planned_settled nofun ⟨nofun, nofun⟩

theorem planned_step {s s' : HandlerNode} {a : HandlerStep} (h : ∀ w ∈ s.writes, w.Planned) (hmoved : Moved s a s') :
    ∀ w ∈ s'.writes, w.Planned := by
  cases hmoved with
  | idle => exact h
  | receive request => exact forall_mem_concat h (planned_received request)
  | check hw hphase => exact forall_mem_set h (planned_check (h _ (List.mem_of_getElem? hw)) hphase _)
  | validate hw hphase hrequest hvalid =>
      exact forall_mem_set h (planned_commands ((h _ (List.mem_of_getElem? hw)).early (.inr hphase)) rfl)
  | conflict hw hphase => exact forall_mem_set h (planned_settled nofun ⟨nofun, nofun⟩)
  | answered resp hw hphase =>
      exact forall_mem_set h (planned_answered (h _ (List.mem_of_getElem? hw)) hphase resp)
  | failed e appended hw hphase =>
      exact forall_mem_set h (planned_failed (h _ (List.mem_of_getElem? hw)) hphase e)
  | respond hw hphase => exact forall_mem_set h (planned_settled nofun ⟨nofun, nofun⟩)
  | search htargets => exact h
  | aliases change => exact h

end HandlerNode

/-! ## The items of a bulk request -/

section BulkItems

variable {σ ι : Type} [StorageBackend σ] [IndexBackend ι]
  (answer : RaftResponse → DbResult RaftResponse) (collection : String)

/-- The ids that the items report as stored. -/
def reported (items : List BulkItem) : List String :=
  (items.filter fun item => item.action = "index" ∧ item.status = 201).map BulkItem.id

/-- Commands that are proposed one after the other, with what comes back of each. -/
def proposeAll : DbStateMachine σ ι → List RaftCommand → List (RaftCommand × DbResult RaftResponse)
  | _, [] => []
  | sm, cmd :: cmds => (cmd, answer (sm.applyCommand cmd).1) :: proposeAll (sm.applyCommand cmd).2 cmds

/-- The ids of the documents that the commands report as stored. -/
def storedIds (sm : DbStateMachine σ ι) (cmds : List RaftCommand) : List String :=
  (storedBy (proposeAll answer sm cmds)).map fun doc => doc.id.val

omit [StorageBackend σ] [IndexBackend ι] in
theorem reported_append (items items' : List BulkItem) :
    reported (items ++ items') = reported items ++ reported items' := by
  simp [reported]

theorem storedIds_cons (sm : DbStateMachine σ ι) (cmd : RaftCommand) (cmds : List RaftCommand) :
    storedIds answer sm (cmd :: cmds) =
      storedIds answer sm [cmd] ++ storedIds answer (sm.applyCommand cmd).2 cmds := by
  simp [storedIds, storedBy, proposeAll]

theorem storedIds_append (sm : DbStateMachine σ ι) (cmds cmds' : List RaftCommand) :
    storedIds answer sm (cmds ++ cmds') =
      storedIds answer sm cmds ++ storedIds answer (applyCommands sm cmds) cmds' := by
  induction cmds generalizing sm with
  | nil => rfl
  | cons cmd cmds ih =>
      rw [List.cons_append, storedIds_cons, ih, storedIds_cons answer sm cmd cmds, List.append_assoc]
      rfl

theorem storedIds_deletes (sm : DbStateMachine σ ι) (ids : List DocumentId) :
    storedIds answer sm (ids.map (.deleteDocument collection)) = [] := by
  induction ids generalizing sm with
  | nil => rfl
  | cons id ids ih =>
      rw [List.map_cons, storedIds_cons, ih, List.append_nil]
      simp only [storedIds, storedBy, proposeAll, List.flatMap_cons, List.flatMap_nil, List.append_nil]
      split
      · rfl
      · rfl

/-- Of a batch the first documents are reported, as many as the response counts. -/
theorem reported_batchItems (count : Nat) (docs : List Document) :
    reported (batchItems count docs) = (docs.take count).map fun doc => doc.id.val := by
  have hfrom : ∀ k, reported ((docs.zipIdx k).map fun entry =>
      if count ≤ entry.2 then (⟨"index", entry.1.id.val, 500, some "failed during batch apply"⟩ : BulkItem)
      else ⟨"index", entry.1.id.val, 201, none⟩) = (docs.take (count - k)).map fun doc => doc.id.val := by
    induction docs with
    | nil => simp [reported]
    | cons doc docs ih =>
        intro k
        rw [List.zipIdx_cons, List.map_cons, ← List.singleton_append, reported_append, ih (k + 1)]
        by_cases hk : count ≤ k
        · simp [hk, reported, show count - k = 0 by omega, show count - (k + 1) = 0 by omega]
        · simp [hk, reported, show count - k = count - (k + 1) + 1 by omega]
  exact hfrom 0

theorem reported_flushInsertBatch (st : BulkState σ ι) :
    reported (flushInsertBatch answer collection st).items =
      reported st.items ++ storedIds answer st.sm [.batchInsert collection st.pendingDocs] := by
  simp only [flushInsertBatch, storedIds, storedBy, proposeAll, List.flatMap_cons, List.flatMap_nil, List.append_nil]
  cases hanswer : answer (st.sm.applyCommand (.batchInsert collection st.pendingDocs)).1 with
  | ok resp =>
      rw [reported_append, reported_batchItems]
      rfl
  | error e =>
      rw [reported_append]
      simp [reported]

theorem reported_flushRemaining (st : BulkState σ ι) :
    reported (flushRemaining answer collection st).items =
      reported st.items ++ storedIds answer st.sm (bulkBatches collection st.pendingDocs []) := by
  rw [flushRemaining, bulkBatches]
  split
  · simp [storedIds, storedBy, proposeAll]
  · exact reported_flushInsertBatch answer collection st

omit [StorageBackend σ] [IndexBackend ι] in
theorem reported_reject (st : BulkState σ ι) {item : BulkItem} (hstatus : item.status ≠ 201) :
    reported (st.reject item).items = reported st.items := by
  rw [BulkState.reject, reported_append]
  simp [reported, hstatus]

theorem reported_foldl_proposeDelete (ids : List DocumentId) (st : BulkState σ ι) :
    reported (ids.foldl (proposeDelete answer collection) st).items = reported st.items := by
  induction ids generalizing st with
  | nil => rfl
  | cons id ids ih =>
      rw [List.foldl_cons, ih, proposeDelete]
      simp only
      split
      · rw [reported_append]
        simp [reported]
      · rw [reported_append]
        simp [reported]

variable [BulkInput]

/-- The loop reports the documents of the batches that it proposes. -/
theorem reported_bulkLoop (lines : List String) (i : Nat) (st : BulkState σ ι)
    (hlt : st.pendingDocs.length < batchSize) :
    reported (flushRemaining answer collection (bulkLoop answer collection lines i st)).items =
      reported st.items ++ storedIds answer st.sm
        (bulkBatches collection st.pendingDocs ((validActions lines i).filterMap Write.outcome)) := by
  fun_induction bulkLoop answer collection lines i st with
  | case1 => exact reported_flushRemaining answer collection _
  | case2 actionLine rest i st e haction ih =>
      rw [validActions, haction]
      rw [reported_reject st (by simp)] at ih
      exact ih hlt
  | case3 actionLine i st id haction =>
      rw [validActions, haction, reported_flushRemaining, reported_reject st (by simp)]
      rfl
  | case4 actionLine i st id haction docLine rest e hbody ih =>
      rw [validActions, haction]
      simp only [hbody]
      rw [reported_reject st (by simp)] at ih
      exact ih hlt
  | case5 actionLine i st id haction docLine rest fields hbody ih =>
      rw [validActions, haction]
      simp only [hbody]
      rw [List.filterMap_cons]
      simp only [Write.outcome]
      rw [bulkBatches]
      by_cases hfull : batchSize ≤ (st.pendingDocs ++ [actionDocument id i fields]).length
      · -- the hundredth document: the answer to its batch is the first of those that follow
        rw [if_pos hfull]
        rw [flushIfFull, if_pos hfull] at ih ⊢
        have hpending := (flushInsertBatch_effect answer collection
          { st with pendingDocs := st.pendingDocs ++ [actionDocument id i fields] }).2.1
        rw [ih (by rw [hpending]; decide), hpending, flushInsertBatch_sm, reported_flushInsertBatch,
          storedIds_cons answer st.sm _ (bulkBatches collection [] _), List.append_assoc]
      · rw [if_neg hfull]
        rw [flushIfFull, if_neg hfull] at ih ⊢
        exact ih (Nat.not_le.1 hfull)
  | case6 actionLine rest i st id haction hid ih =>
      have hreject : (st.reject ⟨"delete", "", 400, some "delete action requires _id"⟩).pendingDocs.length <
          batchSize := hlt
      rw [flushIfFull_of_lt answer collection hreject] at ih ⊢
      rw [validActions, haction]
      simp only [if_pos hid]
      rw [reported_reject st (by simp)] at ih
      exact ih hlt
  | case7 actionLine rest i st id haction hid ih =>
      have hqueued : flushIfFull answer collection
          { st with pendingDeletes := st.pendingDeletes ++ [⟨id.getD ""⟩] } =
            { st with pendingDeletes := st.pendingDeletes ++ [⟨id.getD ""⟩] } :=
        flushIfFull_of_lt answer collection hlt
      rw [hqueued] at ih ⊢
      rw [validActions, haction]
      simp only [if_neg hid]
      exact ih hlt

/-- **The items of a bulk request.** They report the documents that the answers to its
commands count as stored. -/
theorem reported_bulkIndex {collections collections' : Std.ExtTreeMap String CollectionMeta}
    {sm sm' : DbStateMachine σ ι} {body : String} {errors : Bool} {items : List BulkItem}
    (h : bulkIndex answer collection collections sm body = .ok (sm', collections', errors, items)) :
    reported items = storedIds answer sm (bulkCommands collection body) := by
  rw [bulkIndex] at h
  split at h
  case isFalse => cases h
  case isTrue =>
      have hloop := reported_bulkLoop answer collection (bulkLines body) 0 (BulkState.start sm)
        (Nat.zero_lt_succ 99)
      obtain ⟨-, h⟩ := Prod.mk.inj (Except.ok.inj h)
      obtain ⟨-, h⟩ := Prod.mk.inj h
      obtain ⟨-, rfl⟩ := Prod.mk.inj h
      have hnone : reported (BulkState.start sm).items = [] := rfl
      have hpending : (BulkState.start sm).pendingDocs = [] := rfl
      have hsm : (BulkState.start sm).sm = sm := rfl
      rw [reported_foldl_proposeDelete, hloop, hnone, hpending, hsm, List.nil_append, bulkCommands, storedIds_append,
        storedIds_deletes, List.append_nil]

/-- **A bulk request is its commands.** The handler leaves the state machine where they leave it, one
after the other, and its items report as stored the documents that the answers to them count. -/
theorem bulkIndex_commands {collections collections' : Std.ExtTreeMap String CollectionMeta}
    {sm sm' : DbStateMachine σ ι} {body : String} {errors : Bool} {items : List BulkItem}
    (h : bulkIndex answer collection collections sm body = .ok (sm', collections', errors, items)) :
    sm' = applyCommands sm (bulkCommands collection body) ∧
      reported items = storedIds answer sm (bulkCommands collection body) :=
  ⟨sm_bulkIndex answer collection h, reported_bulkIndex answer collection h⟩

end BulkItems

/-- A deletion and an index action after it: the deletion is the last command. -/
theorem bulkIndex_commands_deleteThenIndex :
    ∃ sm' collections' errors items,
      bulkIndex Except.ok "c" smallRegistry smallLeader deleteThenIndex = .ok (sm', collections', errors, items) ∧
      sm' = applyCommands smallLeader [.batchInsert "c" [Document.new ⟨"d"⟩], .deleteDocument "c" ⟨"d"⟩] ∧
      reported items = ["d"] := by
  have hcommands : bulkCommands "c" deleteThenIndex =
      [.batchInsert "c" [Document.new ⟨"d"⟩], .deleteDocument "c" ⟨"d"⟩] := by decide
  have hstored : storedIds Except.ok smallLeader
      [.batchInsert "c" [Document.new ⟨"d"⟩], .deleteDocument "c" ⟨"d"⟩] = ["d"] := by decide
  have hrun : ∃ r, bulkIndex Except.ok "c" smallRegistry smallLeader deleteThenIndex = .ok r := ⟨_, rfl⟩
  obtain ⟨⟨sm', collections', errors, items⟩, hrun⟩ := hrun
  refine ⟨sm', collections', errors, items, hrun, ?_⟩
  rw [← hstored, ← hcommands]
  exact bulkIndex_commands Except.ok "c" hrun

end MSearchDB.Node
