import MSearchDB.Node.FieldTypes
import MSearchDB.Storage.DocumentMaps

/-!
# Requests of the Python client

`MSearchDB._request` of `crates/client/python/msearchdb/client.py` sends a request to one host
after the other until a response arrives, and `index` and `create_collection` go through it. What
happens to an attempt on its way is given: the request may not arrive, the response may not
arrive, and at the server the proposal of the command may succeed or fail. An attempt that
arrives is handled to its end before the next one is made.

A response that is lost looks at the client like a request that is lost, and both are sent
again. The server does not know that it is the same call: `index_document` draws a new id, and
`create_collection` finds the entry that the attempt before has left. `one_call_iff` says exactly
when a call of `index` still adds one document at most, and when a call of `create_collection` that
has created the collection does not raise a conflict.
-/

set_option autoImplicit false

namespace MSearchDB.Client

open MSearchDB.Core
open MSearchDB.Consensus
open MSearchDB.Node
open MSearchDB.Storage.RocksDb
open Std (ExtTreeMap)

/-! ## Errors -/

/-- The exceptions of `exceptions.py` that a request raises, with their messages. -/
inductive ClientError where
  | connection (message : String)
  | timeout (message : String)
  | notFound (message : String)
  | conflict (message : String)
  | authentication (message : String)
  | invalidInput (message : String)
  | serviceUnavailable (message : String)
  | other (message : String)
  deriving DecidableEq, Repr

/-- `raise_for_status`, for a status that is an error. -/
def raiseForStatus (status : Nat) (reason : String) : ClientError :=
  match status with
  | 400 => .invalidInput reason
  | 401 => .authentication reason
  | 404 => .notFound reason
  | 409 => .conflict reason
  | 503 => .serviceUnavailable reason
  | _ => .other reason

theorem raiseForStatus_conflict_iff (status : Nat) (reason : String) :
    (∃ message, raiseForStatus status reason = .conflict message) ↔ status = 409 := by
  unfold raiseForStatus
  split
  · simp
  · simp
  · simp
  · simp
  · simp
  · rename_i h _ _
    simp_all

/-! ## The server -/

/-- `db_error_to_response`: the status and the reason. -/
def dbErrorToResponse (e : DbError) : Nat × String :=
  match e with
  | .notFound msg => (404, msg)
  | .invalidInput msg => (400, msg)
  | .serializationError msg => (400, msg)
  | .schemaConflict field existing incoming =>
      (409, "field '" ++ field ++ "' has type '" ++ existing ++ "', cannot change to '" ++ incoming ++ "'")
  | .collectionAlreadyExists name => (409, "collection '" ++ name ++ "' already exists")
  | .aliasAlreadyExists name => (409, "alias '" ++ name ++ "' already exists")
  | .aliasNotFound name => (404, "alias '" ++ name ++ "' not found")
  | .consensusError msg =>
      if Lib.contains msg "not leader" || Lib.contains msg "forward" then (307, msg) else (503, msg)
  | .consistencyError msg => (503, msg)
  | .networkError msg => (502, msg)
  | .storageError msg => (500, msg)
  | .indexError msg => (500, msg)
  | e => (500, e.toString)

/-- The status of a response, and the reason of an error. -/
structure Response where
  status : Nat
  reason : String
  deriving DecidableEq, Repr

/-- The response of a handler at the end of a write. -/
def responseOf (request : WriteRequest) : WritePhase → Response
  | .responded =>
      match request with
      | .index _ _ _ => ⟨201, ""⟩
      | _ => ⟨200, ""⟩
  | .refused e => ⟨e.status, e.reason⟩
  | .failed e =>
      match request, e with
      | .index _ _ _, .networkError msg | .upsert _ _ _, .networkError msg | .delete _ _, .networkError msg =>
          if Lib.contains msg "no leader" then ⟨503, "no leader available"⟩
          else ⟨(dbErrorToResponse e).1, (dbErrorToResponse e).2⟩
      | _, _ => ⟨(dbErrorToResponse e).1, (dbErrorToResponse e).2⟩
  | _ => ⟨500, ""⟩

/-- The nodes, each with its own registry, and the documents of the cluster. -/
structure Cluster where
  nodes : UInt64 → HandlerNode
  documents : DocumentMaps

namespace Cluster

variable [BulkInput]

/-- The steps of a handler from the request to the response. -/
def handle (s : HandlerNode) (request : WriteRequest) (proposal : Proposal) : WritePhase × HandlerNode :=
  let i := s.writes.length
  let s' := s.run [.receive request, .check i, .validate i, .propose i proposal, .respond i]
  ((s'.writes[i]?).elim .received (·.phase), s')

/-- The storage calls of commands, on the documents. -/
def applyCommands (documents : DocumentMaps) (cmds : List RaftCommand) : DocumentMaps :=
  (cmds.flatMap RaftCommand.storageCalls).foldl (fun m call => (m.exec (.write call)).1) documents

/-- A node handles a request: the response, and the cluster with what the node has brought into
the log. -/
def serve (cluster : Cluster) (node : UInt64) (request : WriteRequest) (proposal : Proposal) :
    Response × Cluster :=
  let before := cluster.nodes node
  let (phase, after) := handle before request proposal
  (responseOf request phase,
    ⟨Function.update cluster.nodes node after,
      applyCommands cluster.documents ((after.log.drop before.log.length).map Prod.snd)⟩)

end Cluster

/-! ## A handler from request to response -/

/-- The node with one more write, and what its log has become. -/
def received (s : HandlerNode) (w : TracedWrite) (log : List (Nat × RaftCommand)) : HandlerNode :=
  { s with writes := s.writes ++ [w], log := log }

section Received

variable {s : HandlerNode} {w w' : TracedWrite} {log : List (Nat × RaftCommand)}

theorem received_get : (received s w log).writes[s.writes.length]? = some w := by
  rw [received, List.getElem?_append_right (le_refl _), Nat.sub_self]
  rfl

theorem received_setWrite : (received s w log).setWrite s.writes.length w' = received s w' log := by
  rw [HandlerNode.setWrite, received, List.set_append_right _ _ (le_refl _), Nat.sub_self]
  rfl

end Received

section Handlers

variable [BulkInput] {s : HandlerNode} {request : WriteRequest} {cmd : RaftCommand}

/-- A write when its handler has looked at the registry. -/
def checked (s : HandlerNode) (request : WriteRequest) : TracedWrite :=
  match request.check s.mappings, request with
  | .found, .index collection id fields =>
      match validateAndUpdateMapping (documentOf id fields) ((s.mappings collection).getD FieldMapping.new) with
      | .ok updated => ⟨⟨request, updated, .running request.commands⟩, []⟩
      | .error e => ⟨⟨request, FieldMapping.new, .failed e⟩, []⟩
  | phase, _ => ⟨⟨request, FieldMapping.new, phase⟩, []⟩

theorem checked_request (s : HandlerNode) (request : WriteRequest) : (checked s request).request = request := by
  unfold checked
  split
  · split
    · rfl
    · rfl
  · rfl

theorem run_checked (s : HandlerNode) (request : WriteRequest) :
    s.run [.receive request, .check s.writes.length, .validate s.writes.length] =
      received s (checked s request) s.log := by
  have hcheck : (s.step (.receive request)).step (.check s.writes.length) =
      received s ⟨⟨request, FieldMapping.new, request.check s.mappings⟩, []⟩ s.log := by
    show (received s _ s.log).step _ = _
    rw [HandlerNode.step, received_get]
    exact received_setWrite
  have hmappings : ∀ w, (received s w s.log).mappings = s.mappings := fun _ => rfl
  show ((s.step (.receive request)).step (.check _)).step (.validate _) = _
  rw [hcheck, HandlerNode.step, received_get]
  simp only [HandlerNode.writeStep, checked, hmappings]
  cases request.check s.mappings with
  | found =>
      cases request with
      | index collection id fields =>
          simp only
          cases validateAndUpdateMapping (documentOf id fields) ((s.mappings collection).getD FieldMapping.new) with
          | ok updated => exact received_setWrite
          | error e => exact received_setWrite
      | _ => rfl
  | _ => rfl

/-- The phase in which the last two steps of a handler leave it, and the node. -/
theorem handle_eq_of_steps {proposal : Proposal} {s' s'' : HandlerNode} {w : TracedWrite}
    (hpropose : (received s (checked s request) s.log).step (.propose s.writes.length proposal) = s')
    (hrespond : s'.step (.respond s.writes.length) = s'') (hget : s''.writes[s.writes.length]? = some w) :
    Cluster.handle s request proposal = (w.phase, s'') := by
  have hrun : s.run [.receive request, .check s.writes.length, .validate s.writes.length,
      .propose s.writes.length proposal, .respond s.writes.length] = s'' := by
    have hchecked := run_checked s request
    rw [HandlerNode.run, List.foldl_cons, List.foldl_cons, List.foldl_cons, List.foldl_nil] at hchecked
    rw [HandlerNode.run, List.foldl_cons, List.foldl_cons, List.foldl_cons, hchecked, List.foldl_cons, hpropose,
      List.foldl_cons, hrespond, List.foldl_nil]
  rw [Cluster.handle]
  simp only [hrun, hget]
  rfl

/-- The handler has ended before its proposal. -/
theorem handle_ended (h : (checked s request).phase.Ended) (proposal : Proposal) :
    Cluster.handle s request proposal = ((checked s request).phase, received s (checked s request) s.log) := by
  have hrunning : ∀ todo, (checked s request).phase ≠ .running todo := by
    intro todo heq
    rw [heq] at h
    exact h
  have hpropose : (received s (checked s request) s.log).step (.propose s.writes.length proposal) =
      received s (checked s request) s.log := by
    rw [HandlerNode.step, received_get]
    simp only [HandlerNode.writeStep]
    cases hphase : (checked s request).phase with
    | running todo => exact absurd hphase (hrunning todo)
    | _ => rfl
  have hrespond : (received s (checked s request) s.log).step (.respond s.writes.length) =
      received s (checked s request) s.log := by
    rw [HandlerNode.step, received_get]
    simp only [HandlerNode.writeStep]
    cases hphase : (checked s request).phase with
    | running todo => exact absurd hphase (hrunning todo)
    | _ => rfl
  exact handle_eq_of_steps hpropose hrespond received_get

/-- The proposal of the handler is answered. -/
theorem handle_answered (h : (checked s request).phase = .running [cmd]) (resp : RaftResponse) :
    let w := { checked s request with
      phase := .running [], accepted := (checked s request).accepted ++ stored resp cmd }
    Cluster.handle s request (.answered resp) = (.responded,
      (received s w (s.log ++ [(s.writes.length, cmd)])).answer s.writes.length w) := by
  intro w
  have hpropose : (received s (checked s request) s.log).step (.propose s.writes.length (.answered resp)) =
      received s w (s.log ++ [(s.writes.length, cmd)]) := by
    rw [HandlerNode.step, received_get]
    simp only [HandlerNode.writeStep, h, received_setWrite]
    rfl
  have hrespond : (received s w (s.log ++ [(s.writes.length, cmd)])).step (.respond s.writes.length) =
      (received s w (s.log ++ [(s.writes.length, cmd)])).answer s.writes.length w := by
    rw [HandlerNode.step, received_get]
    rfl
  have hget : ((received s w (s.log ++ [(s.writes.length, cmd)])).answer s.writes.length w).writes[
      s.writes.length]? = some { w with phase := .responded } := by
    show ((received s w (s.log ++ [(s.writes.length, cmd)])).setWrite s.writes.length _).writes[
      s.writes.length]? = _
    rw [received_setWrite, received_get]
  exact handle_eq_of_steps hpropose hrespond hget

/-- The proposal of the handler fails. -/
theorem handle_failed (h : (checked s request).phase = .running [cmd]) {e : DbError}
    (hafter : request.afterFailure [] e = .failed e) (appended : Bool) :
    Cluster.handle s request (.failed e appended) = (.failed e,
      received s { checked s request with phase := .failed e }
        (if appended then s.log ++ [(s.writes.length, cmd)] else s.log)) := by
  have hpropose : (received s (checked s request) s.log).step (.propose s.writes.length (.failed e appended)) =
      received s { checked s request with phase := .failed e }
        (if appended then s.log ++ [(s.writes.length, cmd)] else s.log) := by
    rw [HandlerNode.step, received_get]
    simp only [HandlerNode.writeStep, h, checked_request, hafter, HandlerNode.setPhase, received_setWrite]
    rfl
  have hrespond : ∀ log, (received s { checked s request with phase := .failed e } log).step
      (.respond s.writes.length) = received s { checked s request with phase := .failed e } log := by
    intro log
    rw [HandlerNode.step, received_get]
    rfl
  exact handle_eq_of_steps hpropose (hrespond _) received_get

end Handlers

/-! ## The handlers of the two calls -/

/-- The collection is registered on the node, and its mapping admits the fields. -/
def Accepts (s : HandlerNode) (collection : String) (fields : ExtTreeMap String JsonValue) : Prop :=
  ∃ mapping updated, s.mappings collection = some mapping ∧
    validateAndUpdateMapping (documentOf ⟨""⟩ fields) mapping = .ok updated

/-- Fields that a mapping lists are admitted by it. -/
theorem foldlM_registerField_listed (nvs : List (String × FieldValue)) {m : FieldMapping}
    (h : ∀ nv ∈ nvs, m.fields[nv.1]? = some (Index.fieldValueToMappedType nv.2)) :
    nvs.foldlM (fun updated nv =>
      (updated.registerField nv.1 (Index.fieldValueToMappedType nv.2)).map Prod.snd) m = .ok m := by
  induction nvs with
  | nil => rfl
  | cons nv nvs ih =>
      have hone : m.registerField nv.1 (Index.fieldValueToMappedType nv.2) = .ok (false, m) :=
        FieldMapping.registerField_of_same (h nv List.mem_cons_self)
      rw [List.foldlM_cons, hone]
      exact ih fun nv' hnv' => h nv' (List.mem_cons_of_mem _ hnv')

/-- The fields of a document that has been admitted are admitted again. -/
theorem validateAndUpdateMapping_again {doc : Document} {m m' : FieldMapping}
    (h : validateAndUpdateMapping doc m = .ok m') : validateAndUpdateMapping doc m' = .ok m' :=
  foldlM_registerField_listed _ (foldlM_registerField_ok doc.fields.toList h).2.1

section Handlers

variable [BulkInput] {s : HandlerNode}

section Index

variable {collection : String} {id : DocumentId} {fields : ExtTreeMap String JsonValue}

/-- `index_document` finds no collection. -/
theorem handle_index_unregistered (h : s.mappings collection = none) (proposal : Proposal) :
    Cluster.handle s (.index collection id fields) proposal =
      (.refused (collectionNotFound collection), { s with
        writes := s.writes ++
          [⟨⟨.index collection id fields, FieldMapping.new, .refused (collectionNotFound collection)⟩, []⟩] }) := by
  have hchecked : checked s (.index collection id fields) =
      ⟨⟨.index collection id fields, FieldMapping.new, .refused (collectionNotFound collection)⟩, []⟩ := by
    simp only [checked, WriteRequest.check, WriteRequest.collection, h]
  rw [handle_ended (by rw [hchecked]; trivial), hchecked]
  rfl

variable {mapping : FieldMapping}

/-- `index_document` finds that a field has another type. -/
theorem handle_index_invalid (h : s.mappings collection = some mapping) {e : DbError}
    (hvalid : validateAndUpdateMapping (documentOf id fields) mapping = .error e) (proposal : Proposal) :
    Cluster.handle s (.index collection id fields) proposal =
      (.failed e, { s with
        writes := s.writes ++ [⟨⟨.index collection id fields, FieldMapping.new, .failed e⟩, []⟩] }) := by
  have hchecked : checked s (.index collection id fields) =
      ⟨⟨.index collection id fields, FieldMapping.new, .failed e⟩, []⟩ := by
    simp only [checked, WriteRequest.check, WriteRequest.collection, h, Option.getD_some, hvalid]
  rw [handle_ended (by rw [hchecked]; trivial), hchecked]
  rfl

variable {updated : FieldMapping}

/-- `index_document` has checked the fields. -/
theorem checked_index (h : s.mappings collection = some mapping)
    (hvalid : validateAndUpdateMapping (documentOf id fields) mapping = .ok updated) :
    checked s (.index collection id fields) = ⟨⟨.index collection id fields, updated,
      .running [.insertDocument collection (documentOf id fields)]⟩, []⟩ := by
  simp only [checked, WriteRequest.check, WriteRequest.collection, h, Option.getD_some, hvalid,
    WriteRequest.commands]

/-- `index_document` with a proposal that is answered. -/
theorem handle_index_answered (h : s.mappings collection = some mapping)
    (hvalid : validateAndUpdateMapping (documentOf id fields) mapping = .ok updated) (resp : RaftResponse) :
    (Cluster.handle s (.index collection id fields) (.answered resp)).2.log =
        s.log ++ [(s.writes.length, .insertDocument collection (documentOf id fields))] ∧
      (Cluster.handle s (.index collection id fields) (.answered resp)).2.mappings collection = some updated := by
  have hchecked := checked_index h hvalid
  have hphase : (checked s (.index collection id fields)).phase =
      .running [.insertDocument collection (documentOf id fields)] := by rw [hchecked]
  obtain ⟨m, hm, -⟩ := Option.map_eq_some_iff.1 h
  rw [handle_answered hphase, hchecked]
  refine ⟨rfl, ?_⟩
  simp [HandlerNode.answer, HandlerNode.mappings, received, WriteRequest.collection, TracedWrite.updateMeta, hm]

/-- `index_document` with a proposal that fails. -/
theorem handle_index_failed (h : s.mappings collection = some mapping)
    (hvalid : validateAndUpdateMapping (documentOf id fields) mapping = .ok updated) (e : DbError)
    (appended : Bool) :
    (Cluster.handle s (.index collection id fields) (.failed e appended)).2.log =
        (if appended then s.log ++ [(s.writes.length, .insertDocument collection (documentOf id fields))]
          else s.log) ∧
      (Cluster.handle s (.index collection id fields) (.failed e appended)).2.mappings collection =
        some mapping := by
  have hphase : (checked s (.index collection id fields)).phase =
      .running [.insertDocument collection (documentOf id fields)] := by rw [checked_index h hvalid]
  rw [handle_failed hphase rfl]
  exact ⟨rfl, h⟩

omit [BulkInput] in
theorem not_accepts_of_none {s : HandlerNode} {collection : String} {fields : ExtTreeMap String JsonValue}
    (h : s.mappings collection = none) : ¬ Accepts s collection fields := by
  rintro ⟨mapping, updated, hmapping, -⟩
  cases h.symm.trans hmapping

omit [BulkInput] in
/-- The id of a document does not matter for its fields. -/
theorem accepts_iff_of_some {s : HandlerNode} {collection : String} {fields : ExtTreeMap String JsonValue}
    {mapping : FieldMapping} (id : DocumentId) (h : s.mappings collection = some mapping) :
    Accepts s collection fields ↔
      ∃ updated, validateAndUpdateMapping (documentOf id fields) mapping = .ok updated := by
  constructor
  · rintro ⟨m, updated, hm, hvalid⟩
    obtain rfl := Option.some.inj (h.symm.trans hm)
    exact ⟨updated, hvalid⟩
  · rintro ⟨updated, hvalid⟩
    exact ⟨mapping, updated, h, hvalid⟩

/-- **`index_document` from request to response.** The node accepts the same fields as before, and
the command enters the log if the fields are accepted and the proposal comes so far. -/
theorem handle_index (s : HandlerNode) (collection : String) (id : DocumentId)
    (fields : ExtTreeMap String JsonValue) (proposal : Proposal) :
    let after := (Cluster.handle s (.index collection id fields) proposal).2
    (Accepts after collection fields ↔ Accepts s collection fields) ∧
      (Accepts s collection fields ∧ proposal.entersLog = true →
        (after.log.drop s.log.length).map Prod.snd = [.insertDocument collection (documentOf id fields)]) ∧
      (¬ (Accepts s collection fields ∧ proposal.entersLog = true) → after.log.drop s.log.length = []) := by
  intro after
  cases hmapping : s.mappings collection with
  | none =>
      have hafter : after.mappings collection = none ∧ after.log = s.log := by
        show (Cluster.handle s _ proposal).2.mappings collection = none ∧ (Cluster.handle s _ proposal).2.log = s.log
        rw [handle_index_unregistered hmapping proposal]
        exact ⟨hmapping, rfl⟩
      have hnot : ¬ Accepts s collection fields := not_accepts_of_none hmapping
      refine ⟨iff_of_false (not_accepts_of_none hafter.1) hnot, fun h => absurd h.1 hnot, fun _ => ?_⟩
      rw [hafter.2, List.drop_length]
  | some mapping =>
      have haccepts : Accepts s collection fields ↔ _ := accepts_iff_of_some id hmapping
      cases hvalid : validateAndUpdateMapping (documentOf id fields) mapping with
      | error e =>
          have hafter : after.mappings collection = some mapping ∧ after.log = s.log := by
            show (Cluster.handle s _ proposal).2.mappings collection = some mapping ∧
              (Cluster.handle s _ proposal).2.log = s.log
            rw [handle_index_invalid hmapping hvalid proposal]
            exact ⟨hmapping, rfl⟩
          refine ⟨(accepts_iff_of_some id hafter.1).trans haccepts.symm, fun h => ?_, fun _ => ?_⟩
          · obtain ⟨updated, hok⟩ := haccepts.1 h.1
            cases hvalid.symm.trans hok
          · rw [hafter.2, List.drop_length]
      | ok updated =>
          have hyes : Accepts s collection fields := haccepts.2 ⟨updated, hvalid⟩
          cases proposal with
          | answered resp =>
              obtain ⟨hlog, hupdated⟩ := handle_index_answered hmapping hvalid resp
              refine ⟨iff_of_true ⟨updated, updated, hupdated, ?_⟩ hyes, fun _ => ?_, fun hnot => ?_⟩
              · exact validateAndUpdateMapping_again hvalid
              · have hin : after.log = _ := hlog
                rw [hin, List.drop_left]
                rfl
              · exact absurd ⟨hyes, rfl⟩ hnot
          | failed e appended =>
              obtain ⟨hlog, hkept⟩ := handle_index_failed hmapping hvalid e appended
              refine ⟨iff_of_true ⟨mapping, updated, hkept, hvalid⟩ hyes, fun h => ?_, fun hnot => ?_⟩
              · have hin : after.log = _ := hlog.trans (if_pos h.2)
                rw [hin, List.drop_left]
                rfl
              · have hout : after.log = s.log := hlog.trans (if_neg fun happended => hnot ⟨hyes, happended⟩)
                rw [hout, List.drop_length]

end Index

section Create

variable {name : String} {schema : SchemaConfig}

/-- The proposal is answered. -/
def Answered : Proposal → Prop
  | .answered _ => True
  | .failed _ _ => False

/-- The proposal fails with an error that is reported as a conflict. -/
def FailsWithConflict : Proposal → Prop
  | .answered _ => False
  | .failed e _ => (dbErrorToResponse e).1 = 409

/-- **`create_collection` from request to response.** A collection that is not registered is
registered if the proposal is answered; the response is a conflict if it was registered before or
the proposal fails with one. -/
theorem handle_createCollection (s : HandlerNode) (name : String) (schema : SchemaConfig) (proposal : Proposal) :
    let handled := Cluster.handle s (.createCollection name schema) proposal
    ((handled.2.mappings name).isSome ↔ (s.mappings name).isSome ∨ Answered proposal) ∧
      (handled.2.history ≠ s.history ↔ s.mappings name = none ∧ Answered proposal) ∧
      s.history <+: handled.2.history ∧
      ((responseOf (.createCollection name schema) handled.1).status = 409 ↔
        (s.mappings name).isSome ∨ FailsWithConflict proposal) := by
  intro handled
  cases hmapping : s.mappings name with
  | some mapping =>
      -- the first look at the registry refuses the request
      have hchecked : checked s (.createCollection name schema) = ⟨⟨.createCollection name schema,
          FieldMapping.new, .refused (alreadyExists "collection" name)⟩, []⟩ := by
        simp only [checked, WriteRequest.check, WriteRequest.collection, hmapping]
      have hhandled : handled = _ := handle_ended (by rw [hchecked]; trivial) proposal
      rw [hchecked] at hhandled
      rw [hhandled]
      refine ⟨iff_of_true ?_ (.inl rfl), iff_of_false (fun h => h rfl) ?_, List.prefix_refl _,
        iff_of_true rfl (.inl rfl)⟩
      · show ((s.mappings name).isSome : Prop)
        rw [hmapping]
        rfl
      · rintro ⟨⟨⟩, -⟩
  | none =>
      have hchecked : checked s (.createCollection name schema) = ⟨⟨.createCollection name schema,
          FieldMapping.new, .running [.createCollection name schema]⟩, []⟩ := by
        simp only [checked, WriteRequest.check, WriteRequest.collection, hmapping, WriteRequest.commands]
      cases proposal with
      | answered resp =>
          have hhandled : handled = _ := handle_answered (by rw [hchecked]) resp
          rw [hchecked] at hhandled
          have hphase : handled.1 = .responded := by rw [hhandled]
          have hregistered : handled.2.mappings name = some FieldMapping.new := by
            rw [hhandled]
            simp [HandlerNode.answer, HandlerNode.mappings, received, WriteRequest.collection,
              TracedWrite.updateMeta]
          have hhistory : handled.2.history = s.history ++ [.created name (s.registries.collections name)] := by
            rw [hhandled]
            rfl
          rw [hphase, hregistered, hhistory]
          refine ⟨iff_of_true rfl (.inr trivial), iff_of_true (by simp) ⟨rfl, trivial⟩, List.prefix_append _ _, ?_⟩
          refine iff_of_false (by simp [responseOf]) ?_
          rintro (h | h)
          · cases h
          · exact h
      | failed e appended =>
          -- the handler ends before the registry, also when the command is committed later
          have hhandled : handled = _ := handle_failed (by rw [hchecked]) rfl appended
          have hphase : handled.1 = .failed e := by rw [hhandled]
          have hkept : handled.2.mappings name = none ∧ handled.2.history = s.history := by
            rw [hhandled]
            exact ⟨hmapping, rfl⟩
          rw [hphase, hkept.1, hkept.2]
          refine ⟨iff_of_false (by rintro ⟨⟩) ?_, iff_of_false (fun h => h rfl) fun h => h.2, List.prefix_refl _, ?_⟩
          · rintro (h | h)
            · cases h
            · exact h
          · rw [or_iff_right (by simp)]
            rfl

end Create

end Handlers

/-! ## The client -/

/-- The client, with the place in the cycle of its hosts. -/
structure PythonClient where
  hosts : List String
  nonempty : hosts ≠ []
  timeout : Int
  maxRetries : Int
  retryOnTimeout : Bool
  cycle : Nat

/-- Why no response has arrived: an exception of `requests`, or any other. -/
inductive Failure where
  | connectionError
  | timeout
  | unexpected
  deriving DecidableEq, Repr

/-- What happens to one attempt. -/
inductive Attempt where
  /-- The request does not arrive. -/
  | lost (failure : Failure)
  /-- A node handles the request; the response arrives, or is lost. The id is the one that
  `DocumentId::generate` would draw. -/
  | handled (id : DocumentId) (proposal : Proposal) (failure : Option Failure)
  /-- The request is refused before it comes to a handler. -/
  | refused (status : Nat) (reason : String) (isError : 400 ≤ status ∧ status ≠ 409)

namespace PythonClient

/-- `_next_host`, for the attempt with the number. -/
def nextHost (client : PythonClient) (attempts : Nat) : String :=
  client.hosts.get ⟨(client.cycle + attempts) % client.hosts.length,
    Nat.mod_lt _ (List.length_pos_of_ne_nil client.nonempty)⟩

/-- The error of `_request` when all attempts have been made. -/
def failedToConnect (attempts : Nat) (tried : List String) : ClientError :=
  .connection ("Failed to connect after " ++ toString attempts ++ " attempts. Tried hosts: " ++
    ", ".intercalate (tried.dedup.mergeSort (· ≤ ·)))

end PythonClient

/-- A call of `_request`: the node behind a host, the request as the server reads it, and what
happens to the attempts. -/
structure Call where
  client : PythonClient
  route : String → UInt64
  request : DocumentId → WriteRequest
  attempt : Nat → Attempt

namespace Call

variable [BulkInput]

/-- The loop of `_request`, with the number of attempts left and that of the attempts made. -/
def requestLoop (call : Call) : Nat → Nat → List String → Cluster → Except ClientError Response × Cluster
  | 0, attempts, tried, cluster => (.error (PythonClient.failedToConnect attempts tried), cluster)
  | left + 1, attempts, tried, cluster =>
      let host := call.client.nextHost attempts
      let afterFailure (failure : Failure) (cluster : Cluster) : Except ClientError Response × Cluster :=
        if failure = .timeout ∧ ¬ (call.client.retryOnTimeout = true ∧ left ≠ 0) then
          (.error (.timeout ("Request timed out after " ++ toString call.client.timeout ++ "s")), cluster)
        else requestLoop call left (attempts + 1) (host :: tried) cluster
      match call.attempt attempts with
      | .lost failure => afterFailure failure cluster
      | .refused status reason _ => (.error (raiseForStatus status reason), cluster)
      | .handled id proposal failure =>
          -- the cluster has done the request, whether or not its response arrives
          let (response, cluster) := cluster.serve (call.route host) (call.request id) proposal
          match failure with
          | some failure => afterFailure failure cluster
          | none =>
              if 400 ≤ response.status then (.error (raiseForStatus response.status response.reason), cluster)
              else (.ok response, cluster)

/-- `MSearchDB._request`. -/
def sendRequest (call : Call) (cluster : Cluster) : Except ClientError Response × Cluster :=
  call.requestLoop call.client.maxRetries.toNat 0 [] cluster

/-- The call of `MSearchDB.index` without a `doc_id`. -/
def index (client : PythonClient) (route : String → UInt64) (attempt : Nat → Attempt) (collection : String)
    (fields : ExtTreeMap String JsonValue) : Call :=
  ⟨client, route, fun id => .index collection id fields, attempt⟩

/-- The call of `MSearchDB.create_collection`. -/
def createCollection (client : PythonClient) (route : String → UInt64) (attempt : Nat → Attempt) (name : String)
    (schema : SchemaConfig) : Call :=
  ⟨client, route, fun _ => .createCollection name schema, attempt⟩

/-! ## The attempts of a call -/

omit [BulkInput] in
/-- No response has arrived, and it is not a timeout that is raised. -/
def Retried (call : Call) (i : Nat) : Prop :=
  match call.attempt i with
  | .lost failure => failure = .timeout → call.client.retryOnTimeout = true
  | .handled _ _ (some failure) => failure = .timeout → call.client.retryOnTimeout = true
  | _ => False

omit [BulkInput] in
/-- The attempt is made: it is not one too many, and no attempt before it has ended the call. -/
def Made (call : Call) (i : Nat) : Prop := i < call.client.maxRetries.toNat ∧ ∀ k < i, call.Retried k

omit [BulkInput] in
/-- The node to which the attempt goes. -/
def nodeAt (call : Call) (i : Nat) : UInt64 := call.route (call.client.nextHost i)

/-- The cluster before an attempt that is made. -/
def clusterAt (call : Call) (cluster : Cluster) : Nat → Cluster
  | 0 => cluster
  | i + 1 =>
      match call.attempt i with
      | .handled id proposal _ =>
          ((clusterAt call cluster i).serve (call.nodeAt i) (call.request id) proposal).2
      | _ => clusterAt call cluster i

theorem clusterAt_succ_of_handled {call : Call} {cluster : Cluster} {i : Nat} {id : DocumentId} {proposal : Proposal}
    {failure : Option Failure} (hattempt : call.attempt i = .handled id proposal failure) :
    call.clusterAt cluster (i + 1) =
      ((call.clusterAt cluster i).serve (call.nodeAt i) (call.request id) proposal).2 := by
  rw [clusterAt, hattempt]

theorem clusterAt_succ_of_not_handled {call : Call} {cluster : Cluster} {i : Nat}
    (h : ¬ ∃ id proposal failure, call.attempt i = .handled id proposal failure) :
    call.clusterAt cluster (i + 1) = call.clusterAt cluster i := by
  rw [clusterAt]
  split
  · next id proposal failure hattempt => exact absurd ⟨id, proposal, failure, hattempt⟩ h
  · rfl

/-- The response to the attempt arrives and is a conflict. -/
def AnsweredConflict (call : Call) (cluster : Cluster) (i : Nat) : Prop :=
  ∃ id proposal, call.attempt i = .handled id proposal none ∧
    ((call.clusterAt cluster i).serve (call.nodeAt i) (call.request id) proposal).1.status = 409

/-- What the loop has done, from the attempt with a number on. -/
structure LoopSpec (call : Call) (start : Cluster) (left attempts : Nat)
    (result : Except ClientError Response × Cluster) (count : Nat) : Prop where
  le : attempts ≤ count
  /-- The attempts before the count are those that are made. -/
  made : ∀ j, j < count ↔ j < attempts + left ∧ ∀ k < j, call.Retried k
  cluster : result.2 = call.clusterAt start count
  /-- A conflict is raised if it is answered. -/
  conflict : (∃ message, result.1 = .error (.conflict message)) ↔
    ∃ j, attempts ≤ j ∧ j < count ∧ call.AnsweredConflict start j

variable {call : Call} {start : Cluster}

/-- The call ends with an attempt. -/
theorem loopSpec_last {left attempts : Nat} {result : Except ClientError Response × Cluster}
    (hretried : ∀ k < attempts, call.Retried k) (hlast : ¬ call.Retried attempts ∨ left = 0)
    (hcluster : result.2 = call.clusterAt start (attempts + 1))
    (hconflict : (∃ message, result.1 = .error (.conflict message)) ↔ call.AnsweredConflict start attempts) :
    LoopSpec call start (left + 1) attempts result (attempts + 1) where
  le := Nat.le_succ _
  made j := by
    constructor
    · intro hj
      exact ⟨by omega, fun k hk => hretried k (by omega)⟩
    · rintro ⟨hj, hall⟩
      by_contra hnot
      rcases hlast with hlast | rfl
      · exact hlast (hall attempts (by omega))
      · omega
  cluster := hcluster
  conflict := by
    rw [hconflict]
    constructor
    · exact fun h => ⟨attempts, le_rfl, Nat.lt_succ_self _, h⟩
    · rintro ⟨j, hle, hlt, h⟩
      obtain rfl : j = attempts := by omega
      exact h

/-- The loop goes on after an attempt. -/
theorem LoopSpec.next {left attempts count : Nat} {result : Except ClientError Response × Cluster}
    (h : LoopSpec call start left (attempts + 1) result count)
    (hnone : ¬ call.AnsweredConflict start attempts) :
    LoopSpec call start (left + 1) attempts result count where
  le := Nat.le_of_succ_le h.le
  made j := by rw [h.made j, Nat.add_right_comm, Nat.add_assoc]
  cluster := h.cluster
  conflict := by
    rw [h.conflict]
    constructor
    · rintro ⟨j, hle, hlt, hj⟩
      exact ⟨j, Nat.le_of_succ_le hle, hlt, hj⟩
    · rintro ⟨j, hle, hlt, hj⟩
      have hne : j ≠ attempts := by
        rintro rfl
        exact hnone hj
      exact ⟨j, by omega, hlt, hj⟩

/-- An attempt without a response, whatever it has done at the server: a timeout ends the call
when it is the last attempt or timeouts are not retried. -/
theorem loopSpec_unanswered {left attempts : Nat} {tried : List String} {failure : Failure}
    (hretried : ∀ k < attempts, call.Retried k)
    (hiff : call.Retried attempts ↔ (failure = .timeout → call.client.retryOnTimeout = true))
    (hnone : ¬ call.AnsweredConflict start attempts)
    (hnext : (∀ k < attempts + 1, call.Retried k) → ∃ count, LoopSpec call start left (attempts + 1)
      (call.requestLoop left (attempts + 1) tried (call.clusterAt start (attempts + 1))) count) :
    ∃ count, LoopSpec call start (left + 1) attempts
      (if failure = .timeout ∧ ¬ (call.client.retryOnTimeout = true ∧ left ≠ 0) then
        (.error (.timeout ("Request timed out after " ++ toString call.client.timeout ++ "s")),
          call.clusterAt start (attempts + 1))
      else call.requestLoop left (attempts + 1) tried (call.clusterAt start (attempts + 1))) count := by
  split
  next htimeout =>
    refine ⟨attempts + 1, loopSpec_last hretried ?_ rfl (iff_of_false ?_ hnone)⟩
    · rw [hiff]
      by_cases hretry : call.client.retryOnTimeout = true
      · exact .inr (by_contra fun hleft => htimeout.2 ⟨hretry, hleft⟩)
      · exact .inl fun himp => hretry (himp htimeout.1)
    · rintro ⟨message, hmessage⟩
      cases hmessage
  next htimeout =>
    have hretry : call.Retried attempts := by
      rw [hiff]
      intro hfailure
      by_contra hnot
      exact htimeout ⟨hfailure, fun hboth => hnot hboth.1⟩
    obtain ⟨count, hspec⟩ := hnext fun k hk => by
      rcases Nat.lt_succ_iff_lt_or_eq.1 hk with hk | rfl
      · exact hretried k hk
      · exact hretry
    exact ⟨count, hspec.next hnone⟩

/-- An attempt that is not answered is not answered with a conflict. -/
theorem not_answeredConflict {i : Nat} (h : ∀ id proposal, call.attempt i ≠ .handled id proposal none) :
    ¬ call.AnsweredConflict start i := by
  rintro ⟨id, proposal, hhandled, -⟩
  exact h id proposal hhandled

theorem answeredConflict_of_handled_iff {i : Nat} {id : DocumentId} {proposal : Proposal}
    (hattempt : call.attempt i = .handled id proposal none) :
    call.AnsweredConflict start i ↔
      ((call.clusterAt start i).serve (call.nodeAt i) (call.request id) proposal).1.status = 409 := by
  constructor
  · rintro ⟨id', proposal', hhandled, hstatus⟩
    obtain ⟨rfl, rfl, -⟩ := Attempt.handled.inj (hattempt.symm.trans hhandled)
    exact hstatus
  · exact fun hstatus => ⟨id, proposal, hattempt, hstatus⟩

omit [BulkInput] in
/-- What `_request` makes of a response is a conflict exactly for the status 409. -/
theorem raised_conflict_iff (response : Response) (cluster : Cluster) :
    (∃ message, (if 400 ≤ response.status then
        (.error (raiseForStatus response.status response.reason), cluster)
      else ((.ok response, cluster) : Except ClientError Response × Cluster)).1 = .error (.conflict message)) ↔
      response.status = 409 := by
  split
  · simp only [Except.error.injEq]
    exact raiseForStatus_conflict_iff _ _
  next hstatus =>
    refine iff_of_false ?_ fun h409 => by omega
    rintro ⟨message, hmessage⟩
    cases hmessage

/-- **The loop of `_request`.** -/
theorem requestLoop_spec (call : Call) (start : Cluster) :
    ∀ (left attempts : Nat) (tried : List String), (∀ k < attempts, call.Retried k) →
      ∃ count, LoopSpec call start left attempts
        (call.requestLoop left attempts tried (call.clusterAt start attempts)) count := by
  intro left
  -- induction on the attempts that are left, one case for each way an attempt can end
  induction left with
  | zero =>
      intro attempts tried hretried
      refine ⟨attempts, le_rfl, fun j => ?_, rfl, ?_⟩
      · exact ⟨fun hj => ⟨hj, fun k hk => hretried k (hk.trans hj)⟩, fun hj => hj.1⟩
      · refine iff_of_false ?_ fun ⟨j, hle, hlt, _⟩ => absurd hle (Nat.not_le.2 hlt)
        rintro ⟨message, hmessage⟩
        exact nomatch hmessage
  | succ left ih =>
      intro attempts tried hretried
      cases hattempt : call.attempt attempts with
      | lost failure =>
          have hcluster : call.clusterAt start (attempts + 1) = call.clusterAt start attempts := by
            rw [clusterAt, hattempt]
          simp only [requestLoop, hattempt]
          rw [← hcluster]
          exact loopSpec_unanswered hretried (by rw [Retried, hattempt])
            (not_answeredConflict (by simp [hattempt])) (ih _ _)
      | refused status reason hstatus =>
          simp only [requestLoop, hattempt]
          refine ⟨attempts + 1, loopSpec_last hretried (.inl ?_) ?_ (iff_of_false ?_ ?_)⟩
          · rw [Retried, hattempt]
            exact not_false
          · rw [clusterAt, hattempt]
          · rintro ⟨message, hmessage⟩
            exact hstatus.2 ((raiseForStatus_conflict_iff status reason).1 ⟨message, Except.error.inj hmessage⟩)
          · exact not_answeredConflict (by simp [hattempt])
      | handled id proposal failure =>
          have hcluster : call.clusterAt start (attempts + 1) =
              ((call.clusterAt start attempts).serve (call.nodeAt attempts) (call.request id) proposal).2 := by
            rw [clusterAt, hattempt]
          simp only [requestLoop, hattempt]
          cases failure with
          | some failure =>
              -- the node has handled the request, but the answer is lost
              rw [← nodeAt, ← hcluster]
              exact loopSpec_unanswered hretried (by rw [Retried, hattempt])
                (not_answeredConflict (by simp [hattempt])) (ih _ _)
          | none =>
              dsimp only
              rw [← nodeAt]
              refine ⟨attempts + 1, loopSpec_last hretried (.inl ?_) ?_ ?_⟩
              · rw [Retried, hattempt]
                exact not_false
              · rw [hcluster]
                split
                · rfl
                · rfl
              · rw [answeredConflict_of_handled_iff hattempt]
                exact raised_conflict_iff _ _

/-- The attempts that `_request` makes. -/
theorem sendRequest_spec (call : Call) (cluster : Cluster) :
    ∃ count, (∀ j, j < count ↔ call.Made j) ∧ (call.sendRequest cluster).2 = call.clusterAt cluster count ∧
      ((∃ message, (call.sendRequest cluster).1 = .error (.conflict message)) ↔
        ∃ j, call.Made j ∧ call.AnsweredConflict cluster j) := by
  obtain ⟨count, hspec⟩ := requestLoop_spec call cluster call.client.maxRetries.toNat 0 []
    (fun k hk => absurd hk (Nat.not_lt_zero k))
  have hmade : ∀ j, j < count ↔ call.Made j := by
    intro j
    rw [hspec.made j, Nat.zero_add]
    rfl
  refine ⟨count, hmade, hspec.cluster, hspec.conflict.trans ?_⟩
  simp only [Nat.zero_le, true_and, hmade]

/-! ## Documents that a call adds -/

omit [BulkInput] in
/-- The collection has a document with the id. -/
def Holds (cluster : Cluster) (collection : String) (id : DocumentId) : Prop :=
  ∃ documents doc, cluster.documents.collections collection = some documents ∧ documents id = some doc

omit [BulkInput] in
/-- The attempt stores a document with the id: it comes to a node that has the collection and
accepts the fields, the proposal enters the log, and the collection exists in the storage. -/
def StoresAs (call : Call) (cluster : Cluster) (collection : String) (fields : ExtTreeMap String JsonValue)
    (i : Nat) (id : DocumentId) : Prop :=
  ∃ proposal failure, call.attempt i = .handled id proposal failure ∧
    Accepts (cluster.nodes (call.nodeAt i)) collection fields ∧ proposal.entersLog = true ∧
    (cluster.documents.collections collection).isSome

omit [BulkInput] in
/-- The attempt stores a document. -/
def Stores (call : Call) (cluster : Cluster) (collection : String) (fields : ExtTreeMap String JsonValue)
    (i : Nat) : Prop :=
  ∃ id, call.StoresAs cluster collection fields i id

omit [BulkInput] in
/-- The ids that the server draws are new, in the collection and among each other. -/
structure FreshIds (call : Call) (cluster : Cluster) (collection : String) : Prop where
  fresh : ∀ i id proposal failure, call.attempt i = .handled id proposal failure → ¬ Holds cluster collection id
  distinct : ∀ i j id proposal proposal' failure failure', call.attempt i = .handled id proposal failure →
    call.attempt j = .handled id proposal' failure' → i = j

omit [BulkInput] in
/-- At most one document is in the collection that was not there before. -/
def AddsAtMostOne (collection : String) (before after : Cluster) : Prop :=
  ∀ a b, Holds after collection a ∧ ¬ Holds before collection a →
    Holds after collection b ∧ ¬ Holds before collection b → a = b

omit [BulkInput] in
/-- An insertion on the documents. -/
theorem holds_insert (nodes : UInt64 → HandlerNode) (documents : DocumentMaps) (collection : String)
    (doc : Document) (id : DocumentId) :
    let after := Cluster.applyCommands documents [.insertDocument collection doc]
    ((after.collections collection).isSome ↔ (documents.collections collection).isSome) ∧
      (Holds ⟨nodes, after⟩ collection id ↔ Holds ⟨nodes, documents⟩ collection id ∨
        (documents.collections collection).isSome ∧ id = doc.id) := by
  intro after
  have hafter : after = (documents.exec (.write (.putInCollection collection doc))).1 := rfl
  rw [hafter, DocumentMaps.exec]
  cases hdocs : documents.collections collection with
  | none => simp [Holds, hdocs]
  | some m =>
      refine ⟨by simp [DocumentMaps.setCollection], ?_⟩
      by_cases hid : id = doc.id
      · simp [Holds, DocumentMaps.setCollection, hid]
      · simp [Holds, DocumentMaps.setCollection, hid, hdocs]

/-- What an attempt of `index` does to the cluster. -/
theorem serve_index (cluster : Cluster) (node : UInt64) (collection : String) (id : DocumentId)
    (fields : ExtTreeMap String JsonValue) (proposal : Proposal) :
    let after := (cluster.serve node (.index collection id fields) proposal).2
    (∀ n, Accepts (after.nodes n) collection fields ↔ Accepts (cluster.nodes n) collection fields) ∧
      ((after.documents.collections collection).isSome ↔ (cluster.documents.collections collection).isSome) ∧
      ∀ id', Holds after collection id' ↔ Holds cluster collection id' ∨
        (Accepts (cluster.nodes node) collection fields ∧ proposal.entersLog = true ∧
          (cluster.documents.collections collection).isSome) ∧ id' = id := by
  intro after
  obtain ⟨haccepts, hin, hout⟩ := handle_index (cluster.nodes node) collection id fields proposal
  have hafter : after = ⟨Function.update cluster.nodes node
      (Cluster.handle (cluster.nodes node) (.index collection id fields) proposal).2,
      Cluster.applyCommands cluster.documents
        (((Cluster.handle (cluster.nodes node) (.index collection id fields) proposal).2.log.drop
          (cluster.nodes node).log.length).map Prod.snd)⟩ := rfl
  generalize (Cluster.handle (cluster.nodes node) (.index collection id fields) proposal).2 = s'
    at haccepts hin hout hafter
  refine ⟨fun n => ?_, ?_⟩
  · rw [hafter]
    by_cases hn : n = node
    · simp only [hn, Function.update_self]
      exact haccepts
    · simp only [Function.update_of_ne hn]
  · by_cases hlog : Accepts (cluster.nodes node) collection fields ∧ proposal.entersLog = true
    · rw [hin hlog] at hafter
      refine ⟨?_, fun id' => ?_⟩
      · rw [hafter]
        exact (holds_insert cluster.nodes cluster.documents collection (documentOf id fields) id).1
      · rw [hafter]
        refine (holds_insert _ cluster.documents collection (documentOf id fields) id').2.trans ?_
        simp only [hlog.1, hlog.2, true_and]
        rfl
    · rw [hout hlog] at hafter
      have hsame : after.documents = cluster.documents := by rw [hafter]; rfl
      refine ⟨by rw [hsame], fun id' => ?_⟩
      rw [Holds, hsame]
      refine ⟨.inl, ?_⟩
      rintro (h | ⟨⟨h, h', -⟩, -⟩)
      · exact h
      · exact absurd ⟨h, h'⟩ hlog

/-- **The documents before an attempt** are those from before the call and those that the attempts
so far have stored. -/
theorem clusterAt_index (call : Call) (cluster : Cluster) (collection : String)
    (fields : ExtTreeMap String JsonValue) (hrequest : call.request = fun id => .index collection id fields)
    (i : Nat) :
    (∀ n, Accepts ((call.clusterAt cluster i).nodes n) collection fields ↔
        Accepts (cluster.nodes n) collection fields) ∧
      (((call.clusterAt cluster i).documents.collections collection).isSome ↔
        (cluster.documents.collections collection).isSome) ∧
      ∀ id, Holds (call.clusterAt cluster i) collection id ↔ Holds cluster collection id ∨
        ∃ k < i, call.StoresAs cluster collection fields k id := by
  induction i with
  | zero =>
      refine ⟨fun _ => .rfl, .rfl, fun id => ?_⟩
      simp [clusterAt]
  | succ i ih =>
      obtain ⟨haccepts, hexists, hholds⟩ := ih
      by_cases hhandled : ∃ newId proposal failure, call.attempt i = .handled newId proposal failure
      · obtain ⟨newId, proposal, failure, hattempt⟩ := hhandled
        obtain ⟨haccepts', hexists', hholds'⟩ := serve_index (call.clusterAt cluster i) (call.nodeAt i) collection
          newId fields proposal
        have hstores : ∀ id, call.StoresAs cluster collection fields i id ↔
            (Accepts (cluster.nodes (call.nodeAt i)) collection fields ∧ proposal.entersLog = true ∧
              (cluster.documents.collections collection).isSome) ∧ id = newId := by
          intro id
          constructor
          · rintro ⟨proposal', failure', h, hrest⟩
            obtain ⟨rfl, rfl, -⟩ := Attempt.handled.inj (hattempt.symm.trans h)
            exact ⟨hrest, rfl⟩
          · rintro ⟨hrest, rfl⟩
            exact ⟨proposal, failure, hattempt, hrest⟩
        rw [clusterAt_succ_of_handled hattempt, hrequest]
        refine ⟨fun n => (haccepts' n).trans (haccepts n), hexists'.trans hexists, fun id => ?_⟩
        rw [hholds' id, hholds id, Nat.exists_lt_succ_right, hstores, haccepts, hexists, or_assoc]
      · -- an attempt that no handler sees stores nothing
        have hnot : ∀ id, ¬ call.StoresAs cluster collection fields i id := by
          rintro id ⟨proposal, failure, h, -⟩
          exact hhandled ⟨id, proposal, failure, h⟩
        rw [clusterAt_succ_of_not_handled hhandled]
        refine ⟨haccepts, hexists, fun id => ?_⟩
        rw [Nat.exists_lt_succ_right, or_iff_left (hnot id)]
        exact hholds id

/-- **One document at most.** A call of `index` adds no second document exactly when no two
attempts that it makes both store one. -/
theorem addsAtMostOne_iff (client : PythonClient) (route : String → UInt64) (attempt : Nat → Attempt)
    (cluster : Cluster) (collection : String) (fields : ExtTreeMap String JsonValue)
    (hfresh : (index client route attempt collection fields).FreshIds cluster collection) :
    AddsAtMostOne collection cluster ((index client route attempt collection fields).sendRequest cluster).2 ↔
      ∀ i j, i < j → (index client route attempt collection fields).Made j →
        (index client route attempt collection fields).Stores cluster collection fields i →
          ¬ (index client route attempt collection fields).Stores cluster collection fields j := by
  generalize hcall : index client route attempt collection fields = call at hfresh ⊢
  have hrequest : call.request = fun id => .index collection id fields := by rw [← hcall]; rfl
  obtain ⟨count, hmade, hcluster, -⟩ := sendRequest_spec call cluster
  have hholds := (clusterAt_index call cluster collection fields hrequest count).2.2
  -- the new documents are those that the attempts have stored
  have hnew : ∀ id, (Holds (call.sendRequest cluster).2 collection id ∧ ¬ Holds cluster collection id) ↔
      ∃ k < count, call.StoresAs cluster collection fields k id := by
    intro id
    rw [hcluster, hholds id]
    constructor
    · rintro ⟨hold | hstored, hnot⟩
      · exact absurd hold hnot
      · exact hstored
    · rintro ⟨k, hk, hstores⟩
      have hstored := hstores
      obtain ⟨proposal, failure, hattempt, -⟩ := hstored
      exact ⟨.inr ⟨k, hk, hstores⟩, hfresh.fresh k _ proposal failure hattempt⟩
  constructor
  · rintro hone i j hij hj ⟨a, ha⟩ ⟨b, hb⟩
    have hjcount := (hmade j).2 hj
    obtain rfl : a = b := hone a b ((hnew a).2 ⟨i, hij.trans hjcount, ha⟩) ((hnew b).2 ⟨j, hjcount, hb⟩)
    obtain ⟨proposal, failure, hattempt, -⟩ := ha
    obtain ⟨proposal', failure', hattempt', -⟩ := hb
    exact absurd (hfresh.distinct i j a _ _ _ _ hattempt hattempt') (Nat.ne_of_lt hij)
  · intro hcond a b ha hb
    obtain ⟨i, hi, hia⟩ := (hnew a).1 ha
    obtain ⟨j, hj, hjb⟩ := (hnew b).1 hb
    rcases Nat.lt_trichotomy i j with hlt | rfl | hlt
    · exact absurd ⟨b, hjb⟩ (hcond i j hlt ((hmade j).1 hj) ⟨a, hia⟩)
    · obtain ⟨proposal, failure, hattempt, -⟩ := hia
      obtain ⟨proposal', failure', hattempt', -⟩ := hjb
      exact (Attempt.handled.inj (hattempt.symm.trans hattempt')).1
    · exact absurd ⟨a, hia⟩ (hcond j i hlt ((hmade i).1 hi) ⟨b, hjb⟩)

/-! ## Collections that a call creates -/

omit [BulkInput] in
/-- The proposal of the attempt is answered. -/
def AnsweredAt (call : Call) (i : Nat) : Prop :=
  ∃ id proposal failure, call.attempt i = .handled id proposal failure ∧ Answered proposal

omit [BulkInput] in
/-- The collection is registered on the node before the attempt: from before the call, or by an
attempt before. -/
def RegisteredAt (call : Call) (cluster : Cluster) (name : String) (i : Nat) (node : UInt64) : Prop :=
  ((cluster.nodes node).mappings name).isSome ∨ ∃ k < i, call.nodeAt k = node ∧ call.AnsweredAt k

omit [BulkInput] in
/-- The attempt creates the collection. -/
def Creates (call : Call) (cluster : Cluster) (name : String) (i : Nat) : Prop :=
  call.AnsweredAt i ∧ ¬ call.RegisteredAt cluster name i (call.nodeAt i)

omit [BulkInput] in
/-- The response to the attempt arrives, and the collection was registered, or the proposal fails
with a conflict. -/
def Conflicts (call : Call) (cluster : Cluster) (name : String) (i : Nat) : Prop :=
  ∃ id proposal, call.attempt i = .handled id proposal none ∧
    (call.RegisteredAt cluster name i (call.nodeAt i) ∨ FailsWithConflict proposal)

omit [BulkInput] in
/-- Some node has answered since that it has created a collection. -/
def HasCreated (before after : Cluster) : Prop := ∃ node, (after.nodes node).history ≠ (before.nodes node).history

omit [BulkInput] in
/-- Of a handled attempt it is the proposal that is answered. -/
theorem answeredAt_iff {call : Call} {i : Nat} {id : DocumentId} {proposal : Proposal} {failure : Option Failure}
    (hattempt : call.attempt i = .handled id proposal failure) : call.AnsweredAt i ↔ Answered proposal := by
  constructor
  · rintro ⟨id', proposal', failure', h, hproposal⟩
    obtain ⟨-, rfl, -⟩ := Attempt.handled.inj (hattempt.symm.trans h)
    exact hproposal
  · exact fun h => ⟨id, proposal, failure, hattempt, h⟩

omit [BulkInput] in
/-- A list that grows twice has changed when it has changed once. -/
theorem ne_iff_of_prefix {α : Type} {l m n : List α} (h : l <+: m) (h' : m <+: n) : n ≠ l ↔ m ≠ l ∨ n ≠ m := by
  constructor
  · intro hne
    by_contra hboth
    rw [not_or, not_not, not_not] at hboth
    exact hne (hboth.2.trans hboth.1)
  · rintro hor rfl
    have hsame := h'.eq_of_length_le h.length_le
    rcases hor with hne | hne
    · exact hne hsame
    · exact hne hsame.symm

/-- **The registries before an attempt**, and what the nodes have answered so far. -/
theorem clusterAt_createCollection (call : Call) (cluster : Cluster) (name : String) (schema : SchemaConfig)
    (hrequest : call.request = fun _ => .createCollection name schema) (i : Nat) :
    (∀ node, (((call.clusterAt cluster i).nodes node).mappings name).isSome ↔
        call.RegisteredAt cluster name i node) ∧
      ∀ node, (cluster.nodes node).history <+: ((call.clusterAt cluster i).nodes node).history ∧
        (((call.clusterAt cluster i).nodes node).history ≠ (cluster.nodes node).history ↔
          ∃ k < i, call.nodeAt k = node ∧ call.Creates cluster name k) := by
  induction i with
  | zero =>
      refine ⟨fun node => ?_, fun node => ⟨List.prefix_refl _, ?_⟩⟩
      · simp [clusterAt, RegisteredAt]
      · simp [clusterAt]
  | succ i ih =>
      obtain ⟨hregistered, hhistory⟩ := ih
      have hnext : ∀ node, call.RegisteredAt cluster name (i + 1) node ↔
          call.RegisteredAt cluster name i node ∨ call.nodeAt i = node ∧ call.AnsweredAt i := by
        intro node
        rw [RegisteredAt, RegisteredAt, Nat.exists_lt_succ_right, or_assoc]
      simp only [Nat.exists_lt_succ_right, hnext]
      by_cases hhandled : ∃ id proposal failure, call.attempt i = .handled id proposal failure
      · -- only the node that the attempt goes to may change
        obtain ⟨id, proposal, failure, hattempt⟩ := hhandled
        have hanswered := answeredAt_iff hattempt
        obtain ⟨hentry, hnew, hprefix, -⟩ := handle_createCollection
          ((call.clusterAt cluster i).nodes (call.nodeAt i)) name schema proposal
        have hnodes : (call.clusterAt cluster (i + 1)).nodes =
            Function.update (call.clusterAt cluster i).nodes (call.nodeAt i)
              (Cluster.handle ((call.clusterAt cluster i).nodes (call.nodeAt i)) (.createCollection name schema)
                proposal).2 := by
          rw [clusterAt_succ_of_handled hattempt, hrequest]
          rfl
        rw [hnodes]
        refine ⟨fun node => ?_, fun node => ?_⟩
        · by_cases hnode : node = call.nodeAt i
          · subst hnode
            rw [Function.update_self, hentry, hregistered, hanswered]
            simp
          · rw [Function.update_of_ne hnode, hregistered, or_iff_left fun h => hnode h.1.symm]
        · obtain ⟨hold, hchanged⟩ := hhistory node
          by_cases hnode : node = call.nodeAt i
          · subst hnode
            rw [Function.update_self]
            refine ⟨hold.trans hprefix, ?_⟩
            have hcreates : call.Creates cluster name i ↔
                (Cluster.handle ((call.clusterAt cluster i).nodes (call.nodeAt i)) (.createCollection name schema)
                  proposal).2.history ≠ ((call.clusterAt cluster i).nodes (call.nodeAt i)).history := by
              rw [hnew, Creates, hanswered, ← hregistered, Option.not_isSome_iff_eq_none, and_comm]
            -- a history only grows
            rw [← hchanged, hcreates, ne_iff_of_prefix hold hprefix, eq_self, true_and]
          · rw [Function.update_of_ne hnode, or_iff_left fun h => hnode h.1.symm]
            exact ⟨hold, hchanged⟩
      · -- an attempt that no handler sees changes nothing
        have hnot : ¬ call.AnsweredAt i := by
          rintro ⟨id, proposal, failure, h, -⟩
          exact hhandled ⟨id, proposal, failure, h⟩
        rw [clusterAt_succ_of_not_handled hhandled]
        refine ⟨fun node => ?_, fun node => ⟨(hhistory node).1, ?_⟩⟩
        · rw [or_iff_left fun h => hnot h.2]
          exact hregistered node
        · rw [or_iff_left fun h => hnot h.2.1]
          exact (hhistory node).2

/-- A conflict is answered to the attempts that conflict. -/
theorem answeredConflict_iff (call : Call) (cluster : Cluster) (name : String) (schema : SchemaConfig)
    (hrequest : call.request = fun _ => .createCollection name schema) (i : Nat) :
    call.AnsweredConflict cluster i ↔ call.Conflicts cluster name i := by
  have hregistered := (clusterAt_createCollection call cluster name schema hrequest i).1 (call.nodeAt i)
  have hstatus : ∀ (id : DocumentId) (proposal : Proposal),
      ((call.clusterAt cluster i).serve (call.nodeAt i) (call.request id) proposal).1.status = 409 ↔
        call.RegisteredAt cluster name i (call.nodeAt i) ∨ FailsWithConflict proposal := by
    intro id proposal
    rw [← hregistered, hrequest]
    exact (handle_createCollection _ name schema proposal).2.2.2
  simp only [AnsweredConflict, Conflicts, hstatus]

/-- **No conflict after a creation.** A call of `create_collection` that has created the collection
raises no conflict exactly when no attempt that it makes after the creation conflicts. -/
theorem noConflict_iff (client : PythonClient) (route : String → UInt64) (attempt : Nat → Attempt)
    (cluster : Cluster) (name : String) (schema : SchemaConfig) :
    (HasCreated cluster ((createCollection client route attempt name schema).sendRequest cluster).2 →
        ¬ ∃ message, ((createCollection client route attempt name schema).sendRequest cluster).1 =
          .error (.conflict message)) ↔
      ∀ i j, i < j → (createCollection client route attempt name schema).Made j →
        (createCollection client route attempt name schema).Creates cluster name i →
          ¬ (createCollection client route attempt name schema).Conflicts cluster name j := by
  generalize hcall : createCollection client route attempt name schema = call
  have hrequest : call.request = fun _ => .createCollection name schema := by rw [← hcall]; rfl
  obtain ⟨count, hmade, hcluster, hconflict⟩ := sendRequest_spec call cluster
  have hcreated : HasCreated cluster (call.sendRequest cluster).2 ↔ ∃ k < count, call.Creates cluster name k := by
    rw [HasCreated, hcluster]
    constructor
    · rintro ⟨node, hne⟩
      have hhistory := (clusterAt_createCollection call cluster name schema hrequest count).2 node
      obtain ⟨k, hk, -, hcreates⟩ := hhistory.2.1 hne
      exact ⟨k, hk, hcreates⟩
    · rintro ⟨k, hk, hcreates⟩
      exact ⟨call.nodeAt k, ((clusterAt_createCollection call cluster name schema hrequest count).2 _).2.2
        ⟨k, hk, rfl, hcreates⟩⟩
  rw [hcreated, hconflict]
  simp only [answeredConflict_iff call cluster name schema hrequest]
  constructor
  · intro hnone i j hij hj hcreates hconflicts
    exact hnone ⟨i, hij.trans ((hmade j).2 hj), hcreates⟩ ⟨j, hj, hconflicts⟩
  · rintro hcond ⟨i, hi, hcreates⟩ ⟨j, hj, hconflicts⟩
    have hnot : ¬ call.Retried j := by
      obtain ⟨id, proposal, hattempt, -⟩ := hconflicts
      rw [Retried, hattempt]
      exact not_false
    rcases Nat.lt_trichotomy i j with hlt | rfl | hlt
    · exact hcond i j hlt hj hcreates hconflicts
    · -- one attempt does not do both
      obtain ⟨id, proposal, hattempt, hregistered | hfails⟩ := hconflicts
      · exact hcreates.2 hregistered
      · obtain ⟨id', proposal', failure', hattempt', hanswered⟩ := hcreates.1
        obtain ⟨-, rfl, -⟩ := Attempt.handled.inj (hattempt.symm.trans hattempt')
        cases proposal with
        | answered resp => exact hfails
        | failed e appended => exact hanswered
    · -- the answer has ended the call
      exact hnot (((hmade i).1 hi).2 j hlt)

/-- **One client call.** For all that can happen to the attempts: a call of `index` without an id
adds one document at most exactly when no two attempts that it makes both store one, and a call of
`create_collection` that has created the collection raises no conflict exactly when no attempt
that it makes afterwards conflicts. -/
theorem one_call_iff (client : PythonClient) (route : String → UInt64) (attempt : Nat → Attempt)
    (cluster : Cluster) (collection : String) (fields : ExtTreeMap String JsonValue) (schema : SchemaConfig)
    (hfresh : (index client route attempt collection fields).FreshIds cluster collection) :
    (AddsAtMostOne collection cluster ((index client route attempt collection fields).sendRequest cluster).2 ↔
        ∀ i j, i < j → (index client route attempt collection fields).Made j →
          (index client route attempt collection fields).Stores cluster collection fields i →
            ¬ (index client route attempt collection fields).Stores cluster collection fields j) ∧
      ((HasCreated cluster ((createCollection client route attempt collection schema).sendRequest cluster).2 →
          ¬ ∃ message, ((createCollection client route attempt collection schema).sendRequest cluster).1 =
            .error (.conflict message)) ↔
        ∀ i j, i < j → (createCollection client route attempt collection schema).Made j →
          (createCollection client route attempt collection schema).Creates cluster collection i →
            ¬ (createCollection client route attempt collection schema).Conflicts cluster collection j) :=
  ⟨addsAtMostOne_iff client route attempt cluster collection fields hfresh,
    noConflict_iff client route attempt cluster collection schema⟩

end Call

/-! ## A lost response -/

namespace Call

/-- A client with one host and the default options. -/
def localClient : PythonClient := ⟨["http://localhost:9200"], by decide, 30, 3, true, 0⟩

/-- A cluster of one node with an empty collection. -/
def docsCluster : Cluster :=
  ⟨fun _ => .created "docs",
    ⟨fun _ => none, Function.update (fun _ => none) "docs" (some fun _ => none)⟩⟩

/-- The first attempt is lost with the connection, handled or not; the second is answered. -/
def secondAnswered (first : Attempt) : Nat → Attempt
  | 0 => first
  | 1 => .handled ⟨"b"⟩ (.answered (.ok ⟨"b"⟩)) none
  | _ => .lost .connectionError

theorem not_holds_docsCluster (id : DocumentId) : ¬ Holds docsCluster "docs" id := by
  rintro ⟨documents, doc, hdocs, hdoc⟩
  have hempty : docsCluster.documents.collections "docs" = some fun _ => none := by
    simp [docsCluster]
  rw [hempty] at hdocs
  rw [← Option.some.inj hdocs] at hdoc
  exact nomatch hdoc

theorem accepts_docsCluster (node : UInt64) : Accepts (docsCluster.nodes node) "docs" ∅ :=
  ⟨FieldMapping.new, FieldMapping.new, by simp [docsCluster, HandlerNode.created, HandlerNode.mappings], rfl⟩

theorem freshIds_secondAnswered (first : Attempt)
    (hfirst : ∀ proposal failure, first ≠ .handled ⟨"b"⟩ proposal failure) :
    (index localClient (fun _ => 1) (secondAnswered first) "docs" ∅).FreshIds docsCluster "docs" where
  fresh _ id _ _ _ := not_holds_docsCluster id
  distinct i j id proposal proposal' failure failure' hi hj := by
    have hcases : ∀ k p f, secondAnswered first k = .handled id p f → k = 0 ∧ id ≠ ⟨"b"⟩ ∨ k = 1 ∧ id = ⟨"b"⟩ := by
      intro k p f hk
      match k, hk with
      | 0, hk =>
          refine .inl ⟨rfl, ?_⟩
          rintro rfl
          exact hfirst p f hk
      | 1, hk => exact .inr ⟨rfl, (Attempt.handled.inj hk).1.symm⟩
    rcases hcases i _ _ hi with ⟨rfl, hne⟩ | ⟨rfl, heq⟩
    · rcases hcases j _ _ hj with ⟨rfl, -⟩ | ⟨-, heq⟩
      · rfl
      · exact absurd heq hne
    · rcases hcases j _ _ hj with ⟨-, hne⟩ | ⟨rfl, -⟩
      · exact absurd heq hne
      · rfl

/-- A request that is lost is sent again, and one document is added. -/
theorem one_call_iff_requestLost :
    (index localClient (fun _ => 1) (secondAnswered (.lost .connectionError)) "docs" ∅).FreshIds docsCluster
        "docs" ∧
      AddsAtMostOne "docs" docsCluster
        ((index localClient (fun _ => 1) (secondAnswered (.lost .connectionError)) "docs" ∅).sendRequest
          docsCluster).2 := by
  have hfresh := freshIds_secondAnswered (.lost .connectionError) nofun
  refine ⟨hfresh, (one_call_iff localClient (fun _ => 1) (secondAnswered (.lost .connectionError)) docsCluster "docs" ∅
    SchemaConfig.new hfresh).1.2 fun i j hij _ hi hj => ?_⟩
  -- only the second attempt is handled
  obtain ⟨id, proposal, failure, hattempt, -⟩ := hi
  obtain ⟨id', proposal', failure', hattempt', -⟩ := hj
  match i, j, hij, hattempt, hattempt' with
  | 1, j + 2, _, _, hattempt' => exact nomatch hattempt'

/-- A response that is lost is taken for a request that is lost, and two documents are added. -/
theorem not_one_document :
    let call := index localClient (fun _ => 1)
      (secondAnswered (.handled ⟨"a"⟩ (.answered (.ok ⟨"a"⟩)) (some .connectionError))) "docs" ∅
    call.FreshIds docsCluster "docs" ∧ ¬ AddsAtMostOne "docs" docsCluster (call.sendRequest docsCluster).2 := by
  have hfresh := freshIds_secondAnswered (.handled ⟨"a"⟩ (.answered (.ok ⟨"a"⟩)) (some .connectionError)) (by simp)
  refine ⟨hfresh, fun hone => ?_⟩
  have hexists : (docsCluster.documents.collections "docs").isSome := by simp [docsCluster]
  refine (addsAtMostOne_iff localClient _ _ docsCluster "docs" ∅ hfresh).1 hone 0 1 Nat.one_pos ⟨by decide, ?_⟩ ?_ ?_
  · intro k hk
    obtain rfl := Nat.lt_one_iff.1 hk
    exact nofun
  · exact ⟨⟨"a"⟩, _, _, rfl, accepts_docsCluster _, rfl, hexists⟩
  · exact ⟨⟨"b"⟩, _, _, rfl, accepts_docsCluster _, rfl, hexists⟩

end Call

end MSearchDB.Client
