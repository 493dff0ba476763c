import MSearchDB.Client.Request
import MSearchDB.Consensus.BatchInsert
import MSearchDB.Node.Session

/-!
# What the response to a write says

The handlers that propose one command each, and the delete actions of `bulk_index`: the
status that they answer, and what they do to the registry, the L1 cache and the session
manager. What a handler reads on its way is given, since other handlers run in between:
the registry at each of its looks, and the result of its proposal.

A proposal returns the response of the state machine, and the handlers do not look into
it. A command that the storage has refused comes back from the leader as a response like
any other, so it is answered with a success and changes the registry; a forwarded command
comes back as an error (`success_means_applied_iff`). The handlers of the runs in
`HandlerRuns.lean` are these, with the steps of other handlers left out (`handle_agrees`).
-/

set_option autoImplicit false

namespace MSearchDB.Node

open MSearchDB.Lib
open MSearchDB.Core
open MSearchDB.Consensus
open MSearchDB.Network
open MSearchDB.Client
open MSearchDB.Storage.RocksDb
open Std (ExtTreeMap)

/-! ## Responses of the state machine -/

/-- The way of a command to the state machine, and of the response back. -/
inductive CommandPath where
  /-- The node is the leader. -/
  | leader
  /-- The node forwards the command to the leader, which reads it as it was written; both messages
  arrive. -/
  | forwarded
  /-- The command is applied, and the proposal ends in an error. -/
  | lost (e : DbError)
  | refused (e : DbError)
  deriving DecidableEq

namespace CommandPath

/-- What `propose_or_forward` returns for the response of the state machine. -/
def result (resp : RaftResponse) : CommandPath → DbResult RaftResponse
  | leader => .ok resp
  | forwarded => rebuilt resp
  | lost e => .error e
  | refused e => .error e

/-- The command is applied. -/
def Applies : CommandPath → Prop
  | leader => True
  | forwarded => True
  | lost _ => True
  | refused _ => False

/-- A response comes back from the leader, or for a command that was applied with success. -/
theorem result_ok_iff (resp : RaftResponse) (path : CommandPath) :
    (∃ resp', path.result resp = .ok resp') ↔ path = leader ∨ path = forwarded ∧ resp.success = true := by
  cases path with
  | leader => exact iff_of_true ⟨resp, rfl⟩ (.inl rfl)
  | forwarded =>
      rw [result, rebuilt]
      split
      case isTrue h => exact iff_of_true ⟨_, rfl⟩ (.inr ⟨rfl, h⟩)
      case isFalse h => simp [h]
  | lost e => simp [result]
  | refused e => simp [result]

section

variable [SerdeJson RaftCommand] [StatusDisplay] {σ ι : Type} [StorageBackend σ] [IndexBackend ι]
  {sm : DbStateMachine σ ι} {pool : ConnectionPool} {id : UInt64} {nodes : ExtTreeMap UInt64 BasicNode}
  {basicNode : BasicNode} {cmd : RaftCommand}

theorem proposeOrForward_leader_path :
    proposeOrForward (RaftNode.leader sm id nodes) pool cmd = leader.result (sm.applyCommand cmd).1 :=
  proposeOrForward_leader

theorem proposeOrForward_forwarded_path (hnode : nodes[id]? = some basicNode)
    (hpool : pool.get id (leaderAddress basicNode.addr) =
      .ok (NodeClient.connectedTo (RaftNode.leader sm id nodes)))
    (hcmd : SerdeJson.ReadsBack cmd) :
    proposeOrForward (RaftNode.follower id nodes) pool cmd = forwarded.result (sm.applyCommand cmd).1 :=
  proposeOrForward_follower hnode hpool hcmd

end

end CommandPath

/-! ## The handlers -/

/-- What the handlers of a node keep. -/
structure HandlerState where
  collections : String → Option CollectionMeta
  cache : DocumentCache
  session : SessionManager

namespace HandlerState

/-- The L1 entry of a document is invalidated. -/
def invalidate (s : HandlerState) (collection : String) (id : DocumentId) : HandlerState :=
  { s with cache := s.cache.invalidate collection id }

/-- The entry of a collection is changed, where there is one. -/
def updateMeta (s : HandlerState) (collection : String) (f : CollectionMeta → CollectionMeta) : HandlerState :=
  { s with collections := Function.update s.collections collection ((s.collections collection).map f) }

/-- The session manager goes one index further, for the token of the response. -/
def advance (s : HandlerState) : HandlerState :=
  { s with session := s.session.advanceAppliedIndex (s.session.currentAppliedIndex + 1) }

end HandlerState

/-- `StatusCode::is_success`. -/
def IsSuccess (status : Nat) : Prop := 200 ≤ status ∧ status < 300

instance (status : Nat) : Decidable (IsSuccess status) := inferInstanceAs (Decidable (_ ∧ _))

/-- The response for an `ErrorResponse`. -/
def refusal (e : ErrorResponse) : Response := ⟨e.status, e.reason⟩

/-- The response of `db_error_to_response`, and of `db_error_to_status_json`. -/
def dbErrorResponse (e : DbError) : Response := ⟨(dbErrorToResponse e).1, (dbErrorToResponse e).2⟩

/-- The response of the handlers of documents when a proposal has failed. -/
def documentErrorResponse : DbError → Response
  | .networkError msg =>
      if contains msg "no leader" then ⟨503, "no leader available"⟩ else dbErrorResponse (.networkError msg)
  | e => dbErrorResponse e

/-- The arms on the result of a proposal: the response itself is not looked at. -/
def answerWith (success : Nat) (failed : DbError → Response) (effect : HandlerState → HandlerState)
    (s : HandlerState) : DbResult RaftResponse → Response × HandlerState
  | .ok _ => (⟨success, ""⟩, effect s)
  | .error e => (failed e, s)

/-- The item of a delete action, from the result of its proposal. -/
def deleteItem (id : DocumentId) : DbResult RaftResponse → BulkItem
  | .ok _ => ⟨"delete", id.val, 200, none⟩
  | .error e => ⟨"delete", id.val, 500, some e.toString⟩

section Handlers

variable (look : String → Option CollectionMeta) (propose : RaftCommand → DbResult RaftResponse)

/-- `index_document`, which looks at the registry a second time for the mapping. -/
def indexDocument (secondLook : String → Option CollectionMeta) (collection : String) (id : DocumentId)
    (fields : ExtTreeMap String JsonValue) (s : HandlerState) : Response × HandlerState :=
  match look collection with
  | none => (refusal (collectionNotFound collection), s)
  | some _ =>
      -- conflicts of types are found before the entry is replicated
      let document := documentOf id fields
      let currentMapping := ((secondLook collection).map CollectionMeta.mapping).getD FieldMapping.new
      match validateAndUpdateMapping document currentMapping with
      | .error e => (dbErrorResponse e, s)
      | .ok updatedMapping =>
          let effect (s : HandlerState) :=
            ((s.invalidate collection id).updateMeta collection fun m => ⟨m.docCount + 1, updatedMapping⟩).advance
          answerWith 201 documentErrorResponse effect s (propose (.insertDocument collection document))

/-- `upsert_document`. -/
def upsertDocument (collection : String) (id : DocumentId) (fields : ExtTreeMap String JsonValue)
    (s : HandlerState) : Response × HandlerState :=
  match look collection with
  | none => (refusal (collectionNotFound collection), s)
  | some _ =>
      -- neither the count nor the mapping is touched
      let effect (s : HandlerState) := (s.invalidate collection id).advance
      answerWith 200 documentErrorResponse effect s (propose (.updateDocument collection (documentOf id fields)))

/-- `delete_document`. -/
def deleteDocument (collection : String) (id : DocumentId) (s : HandlerState) : Response × HandlerState :=
  match look collection with
  | none => (refusal (collectionNotFound collection), s)
  | some _ =>
      let decrement (m : CollectionMeta) : CollectionMeta :=
        { m with docCount := if m.docCount = 0 then 0 else m.docCount - 1 }
      let effect (s : HandlerState) := ((s.invalidate collection id).updateMeta collection decrement).advance
      answerWith 200 documentErrorResponse effect s (propose (.deleteDocument collection id))

/-- `create_collection`. -/
def createCollection (name : String) (schema : SchemaConfig) (s : HandlerState) : Response × HandlerState :=
  match look name with
  | some _ => (refusal (alreadyExists "collection" name), s)
  | none =>
      let effect (s : HandlerState) : HandlerState :=
        { s with collections := Function.update s.collections name (some ⟨0, FieldMapping.new⟩) }
      answerWith 200 dbErrorResponse effect s (propose (.createCollection name schema))

/-- `delete_collection`. -/
def deleteCollection (name : String) (s : HandlerState) : Response × HandlerState :=
  match look name with
  | none => (refusal (collectionNotFound name), s)
  | some _ =>
      let effect (s : HandlerState) : HandlerState :=
        { s with collections := Function.update s.collections name none }
      answerWith 200 dbErrorResponse effect s (propose (.deleteCollection name))

/-- A delete action of `bulk_index`; what it answers is the status and the error of its item. -/
def bulkDelete (collection : String) (id : DocumentId) (s : HandlerState) : Response × HandlerState :=
  let item := deleteItem id (propose (.deleteDocument collection id))
  (⟨item.status, item.error.getD ""⟩, s)

end Handlers

/-- The loop over the pending deletes proposes the actions one by one. -/
theorem proposeDelete_items {σ ι : Type} [StorageBackend σ] [IndexBackend ι]
    (answer : RaftResponse → DbResult RaftResponse) (collection : String) (st : BulkState σ ι)
    (id : DocumentId) :
    (proposeDelete answer collection st id).items =
      st.items ++ [deleteItem id (answer (st.sm.applyCommand (.deleteDocument collection id)).1)] := by
  rw [proposeDelete]
  simp only
  cases answer (st.sm.applyCommand (.deleteDocument collection id)).1 with
  | error e => rfl
  | ok resp => rfl

/-- A request that proposes one command, or a delete action. -/
inductive SingleWrite where
  | indexDocument (collection : String) (id : DocumentId) (fields : ExtTreeMap String JsonValue)
  | upsertDocument (collection : String) (id : DocumentId) (fields : ExtTreeMap String JsonValue)
  | deleteDocument (collection : String) (id : DocumentId)
  | createCollection (name : String) (schema : SchemaConfig)
  | deleteCollection (name : String)
  | bulkDelete (collection : String) (id : DocumentId)

namespace SingleWrite

/-- The command that is proposed. -/
def command : SingleWrite → RaftCommand
  | indexDocument collection id fields => .insertDocument collection (documentOf id fields)
  | upsertDocument collection id fields => .updateDocument collection (documentOf id fields)
  | deleteDocument collection id => .deleteDocument collection id
  | createCollection name schema => .createCollection name schema
  | deleteCollection name => .deleteCollection name
  | bulkDelete collection id => .deleteDocument collection id

/-- The handler of the request. -/
def handle (look secondLook : String → Option CollectionMeta)
    (propose : RaftCommand → DbResult RaftResponse) : SingleWrite → HandlerState → Response × HandlerState
  | indexDocument collection id fields => Node.indexDocument look propose secondLook collection id fields
  | upsertDocument collection id fields => Node.upsertDocument look propose collection id fields
  | deleteDocument collection id => Node.deleteDocument look propose collection id
  | createCollection name schema => Node.createCollection look propose name schema
  | deleteCollection name => Node.deleteCollection look propose name
  | bulkDelete collection id => Node.bulkDelete propose collection id

/-- The handler gets as far as its proposal. -/
def Proposes (look secondLook : String → Option CollectionMeta) : SingleWrite → Prop
  | indexDocument collection id fields =>
      look collection ≠ none ∧ ∃ updated, validateAndUpdateMapping (documentOf id fields)
        (((secondLook collection).map CollectionMeta.mapping).getD FieldMapping.new) = .ok updated
  | upsertDocument collection _ _ => look collection ≠ none
  | deleteDocument collection _ => look collection ≠ none
  | createCollection name _ => look name = none
  | deleteCollection name => look name ≠ none
  | bulkDelete _ _ => True

end SingleWrite

/-! ## Successes -/

theorem not_isSuccess_dbErrorResponse (e : DbError) : ¬ IsSuccess (dbErrorResponse e).status := by
  have hstatus : 300 ≤ (dbErrorToResponse e).1 := by
    cases e with
    | consensusError msg =>
        rw [dbErrorToResponse]
        split
        · exact (by decide : 300 ≤ 307)
        · exact (by decide : 300 ≤ 503)
    | _ => simp [dbErrorToResponse]
  exact fun h => absurd h.2 (Nat.not_lt.2 hstatus)

theorem not_isSuccess_documentErrorResponse (e : DbError) : ¬ IsSuccess (documentErrorResponse e).status := by
  unfold documentErrorResponse
  split
  · split
    · decide
    · exact not_isSuccess_dbErrorResponse _
  · exact not_isSuccess_dbErrorResponse _

section Successes

variable (look secondLook : String → Option CollectionMeta) (propose : RaftCommand → DbResult RaftResponse)
  (s : HandlerState)

/-- What a handler does, in one of two ways: it refuses the request, or it answers with
the result of its proposal. -/
theorem handle_cases (w : SingleWrite) :
    (¬ w.Proposes look secondLook ∧ ∃ resp, ¬ IsSuccess resp.status ∧
        w.handle look secondLook propose s = (resp, s)) ∨
      w.Proposes look secondLook ∧ ∃ success failed effect, IsSuccess success ∧
        (∀ e, ¬ IsSuccess (Response.status (failed e))) ∧
        w.handle look secondLook propose s = answerWith success failed effect s (propose w.command) := by
  have hdocument := not_isSuccess_documentErrorResponse
  have hdb := not_isSuccess_dbErrorResponse
  -- the looks at the registry decide between the two ways
  cases w with
  | indexDocument collection id fields =>
      rw [SingleWrite.Proposes, SingleWrite.handle, indexDocument]
      cases look collection with
      | none => exact .inl ⟨by simp, _, (by decide : ¬ IsSuccess 404), rfl⟩
      | some m =>
          simp only
          cases validateAndUpdateMapping (documentOf id fields)
            (((secondLook collection).map CollectionMeta.mapping).getD FieldMapping.new) with
          | error e => exact .inl ⟨by simp, _, hdb e, rfl⟩
          | ok updated => exact .inr ⟨by simp, 201, _, _, by decide, hdocument, rfl⟩
  | upsertDocument collection id fields =>
      rw [SingleWrite.Proposes, SingleWrite.handle, upsertDocument]
      cases look collection with
      | none => exact .inl ⟨by simp, _, (by decide : ¬ IsSuccess 404), rfl⟩
      | some m => exact .inr ⟨by simp, 200, _, _, by decide, hdocument, rfl⟩
  | deleteDocument collection id =>
      rw [SingleWrite.Proposes, SingleWrite.handle, deleteDocument]
      cases look collection with
      | none => exact .inl ⟨by simp, _, (by decide : ¬ IsSuccess 404), rfl⟩
      | some m => exact .inr ⟨by simp, 200, _, _, by decide, hdocument, rfl⟩
  | createCollection name schema =>
      rw [SingleWrite.Proposes, SingleWrite.handle, createCollection]
      cases look name with
      | some m => exact .inl ⟨by simp, _, (by decide : ¬ IsSuccess 409), rfl⟩
      | none => exact .inr ⟨rfl, 200, _, _, by decide, hdb, rfl⟩
  | deleteCollection name =>
      rw [SingleWrite.Proposes, SingleWrite.handle, deleteCollection]
      cases look name with
      | none => exact .inl ⟨by simp, _, (by decide : ¬ IsSuccess 404), rfl⟩
      | some m => exact .inr ⟨by simp, 200, _, _, by decide, hdb, rfl⟩
  | bulkDelete collection id =>
      have hfailed : ¬ IsSuccess 500 := by decide
      refine .inr ⟨trivial, 200, fun e => ⟨500, e.toString⟩, fun s => s, by decide, fun _ => hfailed, ?_⟩
      rw [SingleWrite.handle, bulkDelete, SingleWrite.command]
      cases propose (.deleteDocument collection id) with
      | error e => rfl
      | ok resp => rfl

/-- A success is answered where a response has come back. -/
theorem isSuccess_answerWith_iff {success : Nat} {failed : DbError → Response}
    {effect : HandlerState → HandlerState} (hsuccess : IsSuccess success)
    (hfailed : ∀ e, ¬ IsSuccess (failed e).status) (result : DbResult RaftResponse) :
    IsSuccess (answerWith success failed effect s result).1.status ↔ ∃ resp, result = .ok resp := by
  cases result with
  | error e => exact iff_of_false (hfailed e) nofun
  | ok resp => exact iff_of_true hsuccess ⟨resp, rfl⟩

/-- The status of a request is a success where its command was proposed and a response has
come back. -/
theorem isSuccess_handle_iff (w : SingleWrite) :
    IsSuccess (w.handle look secondLook propose s).1.status ↔
      w.Proposes look secondLook ∧ ∃ resp, propose w.command = .ok resp := by
  rcases handle_cases look secondLook propose s w with
    ⟨hnot, resp, hstatus, heq⟩ | ⟨hproposes, success, failed, effect, hsuccess, hfailed, heq⟩
  · rw [heq]
    exact iff_of_false hstatus fun h => hnot h.1
  · rw [heq, isSuccess_answerWith_iff s hsuccess hfailed]
    exact (and_iff_right hproposes).symm

/-- Without a success the node is left as it was. -/
theorem handle_unchanged (w : SingleWrite)
    (h : ¬ IsSuccess (w.handle look secondLook propose s).1.status) :
    (w.handle look secondLook propose s).2 = s := by
  rcases handle_cases look secondLook propose s w with
    ⟨-, resp, -, heq⟩ | ⟨-, success, failed, effect, hsuccess, -, heq⟩
  · rw [heq]
  · rw [heq] at h ⊢
    cases hresult : propose w.command with
    | error e => rfl
    | ok resp =>
        rw [hresult] at h
        exact absurd hsuccess h

end Successes

section Applied

variable {σ ι : Type} [StorageBackend σ] [IndexBackend ι]

/-- A success status, and a change of the registry with its counts and mappings or of the
cache, only where the command has been applied with success. -/
def SuccessMeansApplied (look secondLook : String → Option CollectionMeta) (path : CommandPath)
    (sm : DbStateMachine σ ι) (w : SingleWrite) (s : HandlerState) : Prop :=
  let handled := w.handle look secondLook (fun cmd => path.result (sm.applyCommand cmd).1) s
  IsSuccess handled.1.status ∨ handled.2.collections ≠ s.collections ∨ handled.2.cache ≠ s.cache →
    path.Applies ∧ (sm.applyCommand w.command).1.success = true

variable (look secondLook : String → Option CollectionMeta) (path : CommandPath) (sm : DbStateMachine σ ι)
  (w : SingleWrite) (s : HandlerState)

/-- Whatever a handler changes, it answers with a success. -/
theorem successMeansApplied_iff_status :
    SuccessMeansApplied look secondLook path sm w s ↔
      (w.Proposes look secondLook → (∃ resp, path.result (sm.applyCommand w.command).1 = .ok resp) →
        path.Applies ∧ (sm.applyCommand w.command).1.success = true) := by
  have hstatus := isSuccess_handle_iff look secondLook (fun cmd => path.result (sm.applyCommand cmd).1) s w
  have hsame := handle_unchanged look secondLook (fun cmd => path.result (sm.applyCommand cmd).1) s w
  rw [SuccessMeansApplied]
  constructor
  · exact fun h hproposes hresp => h (.inl (hstatus.2 ⟨hproposes, hresp⟩))
  · intro h hchanged
    -- a handler that does not answer with a success leaves everything as it was
    have hsuccess : IsSuccess
        (w.handle look secondLook (fun cmd => path.result (sm.applyCommand cmd).1) s).1.status := by
      rcases hchanged with hstatus' | hchanged
      · exact hstatus'
      · by_contra hnot
        rw [hsame hnot] at hchanged
        rcases hchanged with hcollections | hcache
        · exact hcollections rfl
        · exact hcache rfl
    obtain ⟨hproposes, hresp⟩ := hstatus.1 hsuccess
    exact h hproposes hresp

/-- **Successes.** A request is answered with a success, and changes the registry or the
cache, only where its command has been applied with success, if and only if the storage
carries out every command that is proposed at the leader. -/
theorem success_means_applied_iff :
    SuccessMeansApplied look secondLook path sm w s ↔
      (w.Proposes look secondLook → path = .leader → CarriedOut sm.storage w.command) := by
  rw [successMeansApplied_iff_status, CommandPath.result_ok_iff, success_applyCommand_iff]
  apply imp_congr_right
  intro _
  constructor
  · rintro h rfl
    exact (h (.inl rfl)).2
  · rintro h (rfl | ⟨rfl, hforwarded⟩)
    · exact ⟨trivial, h rfl⟩
    · -- a forwarded failure would have come back as an error
      exact ⟨trivial, hforwarded⟩

end Applied

/-- The deletion of a document that the collection does not have. -/
def deleteAbsent : SingleWrite := .deleteDocument "c" ⟨"x"⟩

/-- A node that counts one document in the collection. -/
def oneDocument : HandlerState := ⟨fun _ => some ⟨1, FieldMapping.new⟩, .new, .new⟩

/-- The leader answers the deletion with a success. -/
theorem not_success_means_applied :
    ¬ SuccessMeansApplied oneDocument.collections oneDocument.collections .leader smallLeader deleteAbsent
      oneDocument := by
  intro h
  have hregistered : deleteAbsent.Proposes oneDocument.collections oneDocument.collections := nofun
  have happlied := (successMeansApplied_iff_status oneDocument.collections oneDocument.collections .leader
    smallLeader deleteAbsent oneDocument).1 h hregistered ⟨_, rfl⟩
  -- the storage has no such key, so the deletion fails
  have hfailed : (smallLeader.applyCommand deleteAbsent.command).1.success = false := by decide
  exact Bool.noConfusion (hfailed.symm.trans happlied.2)

/-! ## The handlers step by step -/

/-- What the handler sees of its proposal. -/
def Proposal.result : Proposal → DbResult RaftResponse
  | .answered resp => .ok resp
  | .failed e _ => .error e

/-- The request as the runs of the handlers take it; a delete action is a part of a bulk
request there. -/
def SingleWrite.request : SingleWrite → Option WriteRequest
  | .indexDocument collection id fields => some (.index collection id fields)
  | .upsertDocument collection id fields => some (.upsert collection id fields)
  | .deleteDocument collection id => some (.delete collection id)
  | .createCollection name schema => some (.createCollection name schema)
  | .deleteCollection name => some (.deleteCollection name)
  | .bulkDelete _ _ => none

/-- An error of the mapping is a conflict of types. -/
theorem validateAndUpdateMapping_error {doc : Document} {mapping : FieldMapping} {e : DbError}
    (h : validateAndUpdateMapping doc mapping = .error e) :
    ∃ field existing incoming, e = .schemaConflict field existing incoming := by
  rw [validateAndUpdateMapping] at h
  generalize doc.fields.toList = nvs at h
  induction nvs generalizing mapping with
  | nil => cases h
  | cons nv nvs ih =>
      rw [List.foldlM_cons] at h
      cases hone : mapping.registerField nv.1 (Index.fieldValueToMappedType nv.2) with
      | ok r =>
          rw [hone] at h
          exact ih h
      | error e' =>
          rw [hone] at h
          obtain rfl := Except.error.inj h
          rw [FieldMapping.registerField] at hone
          split at hone
          · split at hone
            · cases hone
            · exact ⟨_, _, _, (Except.error.inj hone).symm⟩
          · cases hone

/-- The handlers of documents answer a failed proposal in one way. -/
theorem responseOf_failed_document {request : WriteRequest}
    (h : ∀ msg, responseOf request (.failed (.networkError msg)) = documentErrorResponse (.networkError msg))
    (e : DbError) : responseOf request (.failed e) = documentErrorResponse e := by
  cases e with
  | networkError msg => exact h msg
  | _ =>
      cases request with
      | _ => rfl

section Steps

variable [BulkInput] {node : HandlerNode} {request : WriteRequest}

/-- The steps of a handler with no others between them, against what the handler does. -/
def StepsAgree (node : HandlerNode) (request : WriteRequest) (proposal : Proposal)
    (handled : Response × HandlerState) : Prop :=
  responseOf request (Cluster.handle node request proposal).1 = handled.1 ∧
    (Cluster.handle node request proposal).2.registries.collections = handled.2.collections

theorem stepsAgree_refused {e : ErrorResponse} (h : (checked node request).phase = .refused e)
    (proposal : Proposal) {s : HandlerState} (hs : s.collections = node.registries.collections) :
    StepsAgree node request proposal (refusal e, s) := by
  rw [StepsAgree, handle_ended (by rw [h]; trivial), h]
  exact ⟨rfl, hs.symm⟩

theorem stepsAgree_failed {e : DbError} (h : (checked node request).phase = .failed e) (proposal : Proposal)
    {s : HandlerState} (hs : s.collections = node.registries.collections) :
    StepsAgree node request proposal (responseOf request (.failed e), s) := by
  rw [StepsAgree, handle_ended (by rw [h]; trivial), h]
  exact ⟨rfl, hs.symm⟩

theorem stepsAgree_answerWith {cmd : RaftCommand} (h : (checked node request).phase = .running [cmd])
    (hafter : ∀ e, request.afterFailure [] e = .failed e) {success : Nat} {failed : DbError → Response}
    {effect : HandlerState → HandlerState} (hsuccess : responseOf request .responded = ⟨success, ""⟩)
    (hfailed : ∀ e, responseOf request (.failed e) = failed e) {s : HandlerState}
    (hs : s.collections = node.registries.collections)
    (heffect : ∀ accepted, (effect s).collections = Function.update node.registries.collections request.collection
      (TracedWrite.updateMeta ⟨⟨request, (checked node request).mapping, .running []⟩, accepted⟩
        (node.registries.collections request.collection)))
    (proposal : Proposal) :
    StepsAgree node request proposal (answerWith success failed effect s proposal.result) := by
  cases proposal with
  | answered resp =>
      rw [StepsAgree, handle_answered h]
      refine ⟨hsuccess, ?_⟩
      rw [Proposal.result, answerWith, heffect ((checked node request).accepted ++ stored resp cmd)]
      show Function.update node.registries.collections (checked node request).request.collection
        (TracedWrite.updateMeta ⟨⟨(checked node request).request, _, _⟩, _⟩
          (node.registries.collections (checked node request).request.collection)) = _
      rw [checked_request]
  | failed e appended =>
      rw [StepsAgree, handle_failed h (hafter e)]
      exact ⟨hfailed e, hs.symm⟩

theorem checked_phase {phase : WritePhase} (h : request.check node.mappings = phase) (hne : phase ≠ .found) :
    (checked node request).phase = phase := by
  unfold checked
  split
  case h_1 _ _ _ _ _ hfound => exact absurd (h.symm.trans hfound) hne
  case h_2 => exact h

theorem checked_refused {e : ErrorResponse} (h : request.check node.mappings = .refused e) :
    (checked node request).phase = .refused e :=
  checked_phase h (by rintro ⟨⟩)

theorem checked_running {todo : List RaftCommand} (h : request.check node.mappings = .running todo) :
    (checked node request).phase = .running todo :=
  checked_phase h (by rintro ⟨⟩)

omit [BulkInput] in
/-- The mapping of a collection is that of its entry in the registry. -/
theorem mappings_of_entry {name : String} {entry : Option CollectionMeta}
    (h : node.registries.collections name = entry) : node.mappings name = entry.map CollectionMeta.mapping :=
  congrArg _ h

section Handle

variable (proposal : Proposal) {s : HandlerState} (hs : s.collections = node.registries.collections)

include hs

theorem stepsAgree_indexDocument (collection : String) (id : DocumentId) (fields : ExtTreeMap String JsonValue) :
    StepsAgree node (.index collection id fields) proposal
      ((SingleWrite.indexDocument collection id fields).handle node.registries.collections
        node.registries.collections (fun _ => proposal.result) s) := by
  rw [SingleWrite.handle, indexDocument]
  cases hentry : node.registries.collections collection with
  | none =>
      apply stepsAgree_refused _ proposal hs
      apply checked_refused
      simp only [WriteRequest.check, WriteRequest.collection, mappings_of_entry hentry, Option.map_none]
  | some m =>
      have hmapping : node.mappings collection = some m.mapping := mappings_of_entry hentry
      simp only [Option.map_some, Option.getD_some]
      cases hvalid : validateAndUpdateMapping (documentOf id fields) m.mapping with
      | error e =>
          have hfailed : (checked node (.index collection id fields)).phase = .failed e := by
            simp only [checked, WriteRequest.check, WriteRequest.collection, hmapping, Option.getD_some, hvalid]
          -- no error of the network, which the runs would report as one of a proposal
          obtain ⟨field, existing, incoming, rfl⟩ := validateAndUpdateMapping_error hvalid
          exact stepsAgree_failed hfailed proposal hs
      | ok updated =>
          have hchecked := checked_index hmapping hvalid
          have hphase : (checked node (.index collection id fields)).phase =
              .running [.insertDocument collection (documentOf id fields)] := by rw [hchecked]
          apply stepsAgree_answerWith hphase (fun _ => rfl) rfl _ hs
          · intro accepted
            rw [hchecked]
            simp only [HandlerState.advance, HandlerState.updateMeta, HandlerState.invalidate, hs]
            rfl
          · exact responseOf_failed_document fun _ => rfl

theorem stepsAgree_upsertDocument (collection : String) (id : DocumentId) (fields : ExtTreeMap String JsonValue) :
    StepsAgree node (.upsert collection id fields) proposal
      ((SingleWrite.upsertDocument collection id fields).handle node.registries.collections
        node.registries.collections (fun _ => proposal.result) s) := by
  rw [SingleWrite.handle, upsertDocument]
  cases hentry : node.registries.collections collection with
  | none =>
      apply stepsAgree_refused _ proposal hs
      apply checked_refused
      simp only [WriteRequest.check, WriteRequest.collection, mappings_of_entry hentry, Option.map_none]
  | some m =>
      have hphase : (checked node (.upsert collection id fields)).phase =
          .running [.updateDocument collection (documentOf id fields)] := by
        apply checked_running
        simp only [WriteRequest.check, WriteRequest.collection, mappings_of_entry hentry, Option.map_some]
        rfl
      apply stepsAgree_answerWith hphase (fun _ => rfl) rfl _ hs
      · intro accepted
        exact hs.trans (Function.update_eq_self _ _).symm
      · exact responseOf_failed_document fun _ => rfl

theorem stepsAgree_deleteDocument (collection : String) (id : DocumentId) :
    StepsAgree node (.delete collection id) proposal
      ((SingleWrite.deleteDocument collection id).handle node.registries.collections
        node.registries.collections (fun _ => proposal.result) s) := by
  rw [SingleWrite.handle, deleteDocument]
  cases hentry : node.registries.collections collection with
  | none =>
      apply stepsAgree_refused _ proposal hs
      apply checked_refused
      simp only [WriteRequest.check, WriteRequest.collection, mappings_of_entry hentry, Option.map_none]
  | some m =>
      have hphase : (checked node (.delete collection id)).phase =
          .running [.deleteDocument collection id] := by
        apply checked_running
        simp only [WriteRequest.check, WriteRequest.collection, mappings_of_entry hentry, Option.map_some]
        rfl
      apply stepsAgree_answerWith hphase (fun _ => rfl) rfl _ hs
      · intro accepted
        simp only [HandlerState.advance, HandlerState.updateMeta, HandlerState.invalidate, hs]
        rfl
      · exact responseOf_failed_document fun _ => rfl

theorem stepsAgree_createCollection (name : String) (schema : SchemaConfig) :
    StepsAgree node (.createCollection name schema) proposal
      ((SingleWrite.createCollection name schema).handle node.registries.collections
        node.registries.collections (fun _ => proposal.result) s) := by
  rw [SingleWrite.handle, createCollection]
  cases hentry : node.registries.collections name with
  | some m =>
      apply stepsAgree_refused _ proposal hs
      apply checked_refused
      simp only [WriteRequest.check, WriteRequest.collection, mappings_of_entry hentry, Option.map_some]
  | none =>
      have hphase : (checked node (.createCollection name schema)).phase =
          .running [.createCollection name schema] := by
        apply checked_running
        simp only [WriteRequest.check, WriteRequest.collection, mappings_of_entry hentry, Option.map_none]
        rfl
      apply stepsAgree_answerWith hphase (fun _ => rfl) rfl (fun _ => rfl) hs
      intro accepted
      simp only [hs]
      rfl

theorem stepsAgree_deleteCollection (name : String) :
    StepsAgree node (.deleteCollection name) proposal
      ((SingleWrite.deleteCollection name).handle node.registries.collections
        node.registries.collections (fun _ => proposal.result) s) := by
  rw [SingleWrite.handle, deleteCollection]
  cases hentry : node.registries.collections name with
  | none =>
      apply stepsAgree_refused _ proposal hs
      apply checked_refused
      simp only [WriteRequest.check, WriteRequest.collection, mappings_of_entry hentry, Option.map_none]
  | some m =>
      have hphase : (checked node (.deleteCollection name)).phase = .running [.deleteCollection name] := by
        apply checked_running
        simp only [WriteRequest.check, WriteRequest.collection, mappings_of_entry hentry, Option.map_some]
        rfl
      apply stepsAgree_answerWith hphase (fun _ => rfl) rfl (fun _ => rfl) hs
      intro accepted
      simp only [hs]
      rfl

end Handle

/-- **The handlers of the runs are the handlers.** Run without others in between, the steps of a
handler answer what the handler answers, and leave the registry that it leaves. -/
theorem handle_agrees {w : SingleWrite} (hrequest : w.request = some request) (proposal : Proposal)
    {s : HandlerState} (hs : s.collections = node.registries.collections) :
    StepsAgree node request proposal
      (w.handle node.registries.collections node.registries.collections (fun _ => proposal.result) s) := by
  cases w with
  | indexDocument collection id fields =>
      obtain rfl := Option.some.inj hrequest
      exact stepsAgree_indexDocument proposal hs collection id fields
  | upsertDocument collection id fields =>
      obtain rfl := Option.some.inj hrequest
      exact stepsAgree_upsertDocument proposal hs collection id fields
  | deleteDocument collection id =>
      obtain rfl := Option.some.inj hrequest
      exact stepsAgree_deleteDocument proposal hs collection id
  | createCollection name schema =>
      obtain rfl := Option.some.inj hrequest
      exact stepsAgree_createCollection proposal hs name schema
  | deleteCollection name =>
      obtain rfl := Option.some.inj hrequest
      exact stepsAgree_deleteCollection proposal hs name
  | bulkDelete collection id => cases hrequest

end Steps

/-- The deletion of an absent document, which the leader answers with a failure. -/
theorem handle_agrees_deleteAbsent :
    StepsAgree ⟨⟨oneDocument.collections, fun _ => none⟩, [], [], [], []⟩ (.delete "c" ⟨"x"⟩)
      (.answered RaftResponse.fail)
      (deleteAbsent.handle oneDocument.collections oneDocument.collections
        (fun _ => (Proposal.answered RaftResponse.fail).result) oneDocument) :=
  handle_agrees rfl (.answered RaftResponse.fail) rfl

end MSearchDB.Node
