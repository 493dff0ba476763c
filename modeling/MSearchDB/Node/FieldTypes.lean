import MSearchDB.Node.HandlerRuns

/-!
# The types of the fields of a collection

The mapping of a collection is read and written by `index_document` alone: it validates a
document against the mapping that it reads, and after the proposal writes the extended
mapping back. `upsert_document` and `bulk_index` neither look at the mapping nor extend it.

`oneType_sequential_iff` is about requests that do not overlap: the fields keep their types
exactly when the documents that those two endpoints store have no field that the mapping
does not list. `oneType_concurrent_iff` is about `index_document` requests beside each
other: exactly when no mapping that is written back lacks a field of the mapping in whose
place it is written.
-/

set_option autoImplicit false

namespace MSearchDB.Node

open MSearchDB.Lib
open MSearchDB.Core
open MSearchDB.Consensus
open MSearchDB.Index
open Std (ExtTreeMap)

/-- The mapping lists the fields of the document with their types. -/
def ListsFields (mapping : FieldMapping) (doc : Document) : Prop :=
  ∀ (name : String) (value : FieldValue), doc.fields[name]? = some value →
    mapping.fields[name]? = some (fieldValueToMappedType value)

theorem ListsFields.le {m m' : FieldMapping} {doc : Document} (h : ListsFields m doc) (hle : m.Le m') :
    ListsFields m' doc :=
  fun name value hvalue => hle _ _ (h name value hvalue)

/-- The field of the document that a mapping lists. -/
def GivesType (doc : Document) (name : String) (ty : MappedFieldType) : Prop :=
  ∃ value, doc.fields[name]? = some value ∧ fieldValueToMappedType value = ty

/-- The turns of the loop of `validate_and_update_mapping`. -/
theorem foldlM_registerField_ok (nvs : List (String × FieldValue)) {m m' : FieldMapping}
    (h : nvs.foldlM (fun updated nv => (updated.registerField nv.1 (fieldValueToMappedType nv.2)).map Prod.snd) m =
      .ok m') :
    m.Le m' ∧ (∀ nv ∈ nvs, m'.fields[nv.1]? = some (fieldValueToMappedType nv.2)) ∧
      ∀ (name : String) (ty : MappedFieldType), m'.fields[name]? = some ty →
        m.fields[name]? = some ty ∨ ∃ nv ∈ nvs, nv.1 = name ∧ fieldValueToMappedType nv.2 = ty := by
  induction nvs generalizing m with
  | nil =>
      cases h
      exact ⟨fun _ _ hold => hold, fun nv hnv => absurd hnv List.not_mem_nil, fun _ _ hold => .inl hold⟩
  | cons nv nvs ih =>
      rw [List.foldlM_cons] at h
      cases hregister : m.registerField nv.1 (fieldValueToMappedType nv.2) with
      | error e =>
          rw [hregister] at h
          cases h
      | ok res =>
          obtain ⟨isNew, mid⟩ := res
          rw [hregister] at h
          obtain ⟨hfield, hle, hnew⟩ := FieldMapping.registerField_ok hregister
          obtain ⟨hle', hrest, hnew'⟩ := ih h
          refine ⟨fun name ty hold => hle' _ _ (hle _ _ hold), fun nv' hnv' => ?_, fun name ty hty => ?_⟩
          · rcases List.mem_cons.1 hnv' with rfl | hnv'
            · exact hle' _ _ hfield
            · exact hrest nv' hnv'
          · rcases hnew' name ty hty with hmid | ⟨nv', hnv', hname⟩
            · rcases hnew name ty hmid with hold | ⟨rfl, rfl⟩
              · exact .inl hold
              · exact .inr ⟨nv, List.mem_cons_self, rfl, rfl⟩
            · exact .inr ⟨nv', List.mem_cons_of_mem _ hnv', hname⟩

/-- **A validated document.** The updated mapping extends the current one by the fields of
the document. -/
theorem validateAndUpdateMapping_ok {doc : Document} {m m' : FieldMapping}
    (h : validateAndUpdateMapping doc m = .ok m') :
    m.Le m' ∧ ListsFields m' doc ∧
      ∀ (name : String) (ty : MappedFieldType), m'.fields[name]? = some ty →
        m.fields[name]? = some ty ∨ GivesType doc name ty := by
  obtain ⟨hle, hfields, hnew⟩ := foldlM_registerField_ok doc.fields.toList h
  refine ⟨hle, fun name value hvalue => ?_, fun name ty hty => ?_⟩
  · exact hfields (name, value) (ExtTreeMap.mem_toList_iff_getElem?_eq_some.2 hvalue)
  · rcases hnew name ty hty with hold | ⟨⟨n, value⟩, hmem, rfl, htype⟩
    · exact .inl hold
    · exact .inr ⟨value, ExtTreeMap.mem_toList_iff_getElem?_eq_some.1 hmem, htype⟩

/-! ## The property -/

/-- The documents of a collection that have been accepted. -/
def acceptedIn (collection : String) (history : List NodeEvent) : List Document :=
  history.filterMap fun event =>
    match event with
    | .accepted c doc => if c = collection then some doc else none
    | _ => none

theorem acceptedIn_append (collection : String) (history events : List NodeEvent) :
    acceptedIn collection (history ++ events) = acceptedIn collection history ++ acceptedIn collection events :=
  List.filterMap_append

theorem acceptedIn_accepted (collection : String) (docs : List Document) :
    acceptedIn collection (docs.map (.accepted collection)) = docs := by
  simp [acceptedIn, List.filterMap_map]

theorem acceptedIn_other {collection c : String} (hne : c ≠ collection) (docs : List Document) :
    acceptedIn collection (docs.map (.accepted c)) = [] := by
  simp [acceptedIn, List.filterMap_map, hne]

namespace HandlerNode

/-- The mapping of the collection lists the accepted documents. -/
def Listed (collection : String) (s : HandlerNode) : Prop :=
  ∃ mapping, s.mappings collection = some mapping ∧
    ∀ doc ∈ acceptedIn collection s.history, ListsFields mapping doc

theorem Listed.congr {collection : String} {s s' : HandlerNode} (h : Listed collection s)
    (hcollections : s'.registries.collections = s.registries.collections) (hhistory : s'.history = s.history) :
    Listed collection s' := by
  rw [Listed, mappings, hcollections, hhistory]
  exact h

/-- Every field of the collection has one type. -/
structure OneType (collection : String) (s : HandlerNode) : Prop where
  /-- No two accepted documents disagree. -/
  agree : ∀ doc ∈ acceptedIn collection s.history, ∀ doc' ∈ acceptedIn collection s.history,
    ∀ (name : String) (value value' : FieldValue), doc.fields[name]? = some value →
      doc'.fields[name]? = some value' → fieldValueToMappedType value = fieldValueToMappedType value'
  /-- The mapping of the collection lists every field of every accepted document. -/
  listed : Listed collection s

theorem oneType_iff_listed {collection : String} {s : HandlerNode} : OneType collection s ↔ Listed collection s := by
  refine ⟨OneType.listed, fun h => ⟨?_, h⟩⟩
  obtain ⟨mapping, -, hcovers⟩ := h
  intro doc hdoc doc' hdoc' name value value' hvalue hvalue'
  have htype := hcovers doc hdoc name value hvalue
  rw [hcovers doc' hdoc' name value' hvalue'] at htype
  exact (Option.some.inj htype).symm

end HandlerNode

/-- The request is one to `index_document`. -/
def WriteRequest.isIndex : WriteRequest → Bool
  | .index _ _ _ => true
  | _ => false

/-- The request leaves the collection in the registry. -/
def WriteRequest.Keeps (collection : String) : WriteRequest → Prop
  | .createCollection name _ => name ≠ collection
  | .deleteCollection name => name ≠ collection
  | _ => True

/-- The request stores documents of the collection without a look at its mapping. -/
def WriteRequest.Unchecked (collection : String) : WriteRequest → Prop
  | .upsert c _ _ => c = collection
  | .bulk c _ => c = collection
  | _ => False

theorem WriteRequest.Unchecked.collection_eq {collection : String} {request : WriteRequest}
    (h : request.Unchecked collection) : request.collection = collection := by
  cases request with
  | upsert c docId fields => exact h
  | bulk c body => exact h
  | _ => exact absurd h not_false

theorem acceptedIn_events {collection : String} {w : TracedWrite} (hkeeps : w.request.Keeps collection)
    (entry : Option CollectionMeta) :
    acceptedIn collection (w.events entry) = if w.request.collection = collection then w.accepted else [] := by
  have hdocs : ∀ c, acceptedIn collection (w.accepted.map (.accepted c)) =
      if c = collection then w.accepted else [] := by
    intro c
    split
    next h => rw [h, acceptedIn_accepted]
    next h => exact acceptedIn_other h _
  cases hrequest : w.request with
  | createCollection name schema =>
      have hne : name ≠ collection := by
        rw [hrequest] at hkeeps
        exact hkeeps
      rw [WriteRequest.collection, if_neg hne, TracedWrite.events, hrequest]
      rfl
  | deleteCollection name =>
      have hne : name ≠ collection := by
        rw [hrequest] at hkeeps
        exact hkeeps
      rw [WriteRequest.collection, if_neg hne, TracedWrite.events, hrequest]
      rfl
  | _ => simpa only [TracedWrite.events, hrequest] using hdocs _

namespace HandlerNode

section Answer

variable {s : HandlerNode} {i : Nat} {w : TracedWrite} {collection : String}

theorem mappings_answer_index {id : DocumentId} {fields : ExtTreeMap String JsonValue}
    (hrequest : w.request = .index collection id fields) :
    (s.answer i w).mappings collection = (s.mappings collection).map fun _ => w.mapping := by
  simp only [mappings, answer, hrequest, WriteRequest.collection, Function.update_self, TracedWrite.updateMeta,
    Option.map_map]
  rfl

/-- No other request touches the mapping. -/
theorem mappings_answer_of_ne (hkeeps : w.request.Keeps collection)
    (hindex : ∀ id fields, w.request ≠ .index collection id fields) :
    (s.answer i w).mappings collection = s.mappings collection := by
  by_cases hcollection : w.request.collection = collection
  · simp only [mappings, answer, hcollection, Function.update_self, TracedWrite.updateMeta]
    cases hrequest : w.request with
    | index c id fields =>
        rw [hrequest] at hcollection
        exact absurd (hrequest.trans (by rw [← hcollection]; rfl)) (hindex id fields)
    | createCollection name schema =>
        rw [hrequest] at hcollection hkeeps
        exact absurd hcollection hkeeps
    | deleteCollection name =>
        rw [hrequest] at hcollection hkeeps
        exact absurd hcollection hkeeps
    | upsert c id fields => rfl
    | delete c id =>
        simp only [Option.map_map]
        rfl
    | bulk c body =>
        simp only [Option.map_map]
        rfl
  · simp only [mappings, answer, Function.update_of_ne (Ne.symm hcollection)]

theorem acceptedIn_answer (hkeeps : w.request.Keeps collection) :
    acceptedIn collection (s.answer i w).history =
      acceptedIn collection s.history ++ if w.request.collection = collection then w.accepted else [] := by
  simp only [answer, acceptedIn_append, acceptedIn_events hkeeps]

/-- The answer of `index_document`. -/
theorem listed_answer_index_iff (h : Listed collection s) {id : DocumentId}
    {fields : ExtTreeMap String JsonValue} (hrequest : w.request = .index collection id fields) :
    Listed collection (s.answer i w) ↔
      ∀ doc ∈ acceptedIn collection s.history ++ w.accepted, ListsFields w.mapping doc := by
  obtain ⟨mapping, hmapping, -⟩ := h
  have hkeeps : w.request.Keeps collection := by
    rw [hrequest]
    trivial
  have hcollection : w.request.collection = collection := by rw [hrequest]; rfl
  rw [Listed, mappings_answer_index hrequest, hmapping, acceptedIn_answer hkeeps, if_pos hcollection]
  simp

/-- The answer of any other handler. -/
theorem listed_answer_iff (h : Listed collection s) (hkeeps : w.request.Keeps collection)
    (hindex : ∀ id fields, w.request ≠ .index collection id fields) :
    Listed collection (s.answer i w) ↔
      (w.request.collection = collection →
        ∀ mapping, s.mappings collection = some mapping → ∀ doc ∈ w.accepted, ListsFields mapping doc) := by
  obtain ⟨mapping, hmapping, hcovers⟩ := h
  rw [Listed, mappings_answer_of_ne hkeeps hindex, hmapping, acceptedIn_answer hkeeps]
  split
  next hcollection =>
    simp only [Option.some.injEq, exists_eq_left', List.forall_mem_append, forall_eq', hcollection, true_imp_iff]
    exact ⟨fun hall => hall.2, fun hnew => ⟨hcovers, hnew⟩⟩
  next hcollection =>
    simp only [List.append_nil, Option.some.injEq, exists_eq_left', hcollection, false_imp_iff, iff_true]
    exact hcovers

end Answer

/-! ## Requests that do not overlap -/

section Sequential

variable [BulkInput] {s s' : HandlerNode} {a : HandlerStep} {collection : String}

/-- A request comes only when the ones before it have been answered, and none creates or
deletes the collection. -/
def OneAtATime (collection : String) (s : HandlerNode) : HandlerStep → Prop
  | .receive request => (∀ w ∈ s.writes, w.phase.Ended) ∧ request.Keeps collection
  | _ => True

/-- Documents that are stored without a look at the mapping have only fields that it
lists. -/
def StoresListed (collection : String) (s : HandlerNode) (w : TracedWrite) : Prop :=
  w.request.Unchecked collection →
    ∀ mapping, s.mappings collection = some mapping → ∀ doc ∈ w.accepted, ListsFields mapping doc

/-- One request is in progress at most, and the mapping that it has is that of the
collection with the fields of its document. -/
structure Sequential (collection : String) (s : HandlerNode) : Prop where
  planned : ∀ w ∈ s.writes, w.Planned
  keeps : ∀ w ∈ s.writes, w.request.Keeps collection
  alone : ∀ (i j : Nat) (w v : TracedWrite), s.writes[i]? = some w → s.writes[j]? = some v →
    ¬ w.phase.Ended → ¬ v.phase.Ended → i = j
  validated : ∀ w ∈ s.writes, ∀ id fields todo, w.request = .index collection id fields →
    w.phase = .running todo →
      validateAndUpdateMapping (documentOf id fields) ((s.mappings collection).getD FieldMapping.new) =
        .ok w.mapping

theorem sequential_created (collection : String) : Sequential collection (created collection) :=
  ⟨fun _ hw => absurd hw List.not_mem_nil, fun _ hw => absurd hw List.not_mem_nil,
    fun _ _ _ _ hw => absurd (List.mem_of_getElem? hw) List.not_mem_nil, fun _ hw => absurd hw List.not_mem_nil⟩

/-- A write in progress moves on. -/
theorem Sequential.alone_set (h : Sequential collection s) {i : Nat} {w w' : TracedWrite}
    (hw : s.writes[i]? = some w) (hactive : ¬ w.phase.Ended) (k j : Nat) (v v' : TracedWrite)
    (hv : (s.writes.set i w')[k]? = some v) (hv' : (s.writes.set i w')[j]? = some v')
    (hvactive : ¬ v.phase.Ended) (hvactive' : ¬ v'.phase.Ended) : k = j := by
  rw [getElem?_set_of_some hw] at hv hv'
  split at hv
  next hk =>
    split at hv'
    next hj => exact hk.symm.trans hj
    · rw [← hk]
      exact h.alone i j w v' hw hv' hactive hvactive'
  · split at hv'
    next hj =>
      rw [← hj]
      exact h.alone k i v w hv hw hvactive hactive
    · exact h.alone k j v v' hv hv' hvactive hvactive'

theorem Sequential.alone_step (h : Sequential collection s) (hone : OneAtATime collection s a) (hmoved : Moved s a s')
    (i j : Nat) (w v : TracedWrite) (hw : s'.writes[i]? = some w) (hv : s'.writes[j]? = some v)
    (hwactive : ¬ w.phase.Ended) (hvactive : ¬ v.phase.Ended) : i = j := by
  rcases hmoved.writes_cases with heq | ⟨request, rfl, heq⟩ | ⟨k, u, u', hu, huactive, heq, -⟩
  · rw [heq] at hw hv
    exact h.alone i j w v hw hv hwactive hvactive
  · -- all that came before have ended, so both are the new request
    have hlast : ∀ {k : Nat} {u : TracedWrite}, s'.writes[k]? = some u → ¬ u.phase.Ended → k = s.writes.length := by
      intro k u hu huactive
      rw [heq] at hu
      obtain ⟨hk, -⟩ := List.getElem?_eq_some_iff.1 hu
      rw [List.length_append, List.length_singleton] at hk
      by_contra hne
      rw [List.getElem?_append_left (by omega)] at hu
      exact huactive (hone.1 u (List.mem_of_getElem? hu))
    exact (hlast hw hwactive).trans (hlast hv hvactive).symm
  · rw [heq] at hw hv
    exact h.alone_set hu huactive i j w v hw hv hwactive hvactive

/-- `index_document` proposes nothing right after the look at the registry. -/
theorem check_index_ne_running {request : WriteRequest} {c : String} {id : DocumentId}
    {fields : ExtTreeMap String JsonValue} (hrequest : request = .index c id fields)
    (mappings : String → Option FieldMapping) (todo : List RaftCommand) : request.check mappings ≠ .running todo := by
  rw [hrequest]
  cases hmapping : mappings c with
  | none => simp [WriteRequest.check, WriteRequest.collection, hmapping]
  | some mapping => simp [WriteRequest.check, WriteRequest.collection, hmapping]

omit [BulkInput] in
/-- Nor after a proposal that failed. -/
theorem afterFailure_index_ne_running {request : WriteRequest} {c : String} {id : DocumentId}
    {fields : ExtTreeMap String JsonValue} (hrequest : request = .index c id fields) (left : List RaftCommand)
    (e : DbError) (todo : List RaftCommand) : request.afterFailure left e ≠ .running todo := by
  rw [hrequest]
  nofun

theorem Sequential.validated_step (h : Sequential collection s) (hmoved : Moved s a s') :
    ∀ w ∈ s'.writes, ∀ id fields todo, w.request = .index collection id fields → w.phase = .running todo →
      validateAndUpdateMapping (documentOf id fields) ((s'.mappings collection).getD FieldMapping.new) =
        .ok w.mapping := by
  cases hmoved with
  | idle => exact h.validated
  | receive request => exact forall_mem_concat h.validated (fun _ _ _ _ hphase => by cases hphase)
  | check hw hphase =>
      refine forall_mem_set h.validated fun id fields todo hrequest hrunning => ?_
      exact absurd hrunning (check_index_ne_running hrequest _ _)
  | validate hw hphase hrequest hvalid =>
      refine forall_mem_set h.validated fun id fields todo hindex _ => ?_
      have hindex' : _ = WriteRequest.index collection id fields := hindex
      rw [hrequest] at hindex'
      obtain ⟨rfl, rfl, rfl⟩ := WriteRequest.index.inj hindex'
      exact hvalid
  | conflict hw hphase => exact forall_mem_set h.validated (fun _ _ _ _ hrunning => by cases hrunning)
  | answered resp hw hphase =>
      refine forall_mem_set h.validated fun id fields todo hrequest _ => ?_
      exact h.validated _ (List.mem_of_getElem? hw) id fields _ hrequest hphase
  | failed e appended hw hphase =>
      refine forall_mem_set h.validated fun id fields todo hrequest hrunning => ?_
      exact absurd hrunning (afterFailure_index_ne_running hrequest _ _ _)
  | @respond i w hw hphase =>
      -- no other write runs while this one answers
      intro v hv id fields todo hrequest hrunning
      obtain ⟨k, hk⟩ := List.mem_iff_getElem?.1 hv
      have hset : (s.writes.set i { w with phase := .responded })[k]? = some v := hk
      rw [getElem?_set_of_some hw] at hset
      split at hset
      · obtain rfl := Option.some.inj hset
        cases hrunning
      next hne =>
        have hactive : ¬ w.phase.Ended := by rw [hphase]; exact not_false
        have hvactive : ¬ v.phase.Ended := by rw [hrunning]; exact not_false
        exact absurd (h.alone i k w v hw hset hactive hvactive) hne
  | search htargets => exact h.validated
  | aliases change => exact h.validated

theorem Sequential.step (h : Sequential collection s) (hone : OneAtATime collection s a) :
    Sequential collection (s.step a) where
  planned := planned_step h.planned (moved_step s a)
  keeps := (moved_step s a).forall_requests h.keeps fun request ha => by
    rw [ha] at hone
    exact hone.2
  alone := h.alone_step hone (moved_step s a)
  validated := h.validated_step (moved_step s a)

/-- The documents that `index_document` has reported as stored. -/
theorem mem_accepted_index {w : TracedWrite} (hplanned : w.Planned) (hphase : w.phase = .running [])
    {id : DocumentId} {fields : ExtTreeMap String JsonValue} (hrequest : w.request = .index collection id fields)
    {doc : Document} (hdoc : doc ∈ w.accepted) : doc = documentOf id fields := by
  obtain ⟨proposed, hcommands, haccepted⟩ := hplanned.running _ hphase
  rw [List.append_nil, hrequest] at hcommands
  have hmem := haccepted hdoc
  rw [hcommands] at hmem
  simpa [WriteRequest.commands, documentsOf] using hmem

/-- A request that deletes a document stores none. -/
theorem accepted_delete {w : TracedWrite} (hplanned : w.Planned) (hphase : w.phase = .running [])
    {c : String} {id : DocumentId} (hrequest : w.request = .delete c id) : w.accepted = [] := by
  obtain ⟨proposed, hcommands, haccepted⟩ := hplanned.running _ hphase
  rw [List.append_nil, hrequest] at hcommands
  rw [hcommands] at haccepted
  exact List.subset_nil.1 (by simpa [WriteRequest.commands, documentsOf] using haccepted)

/-- Documents of the collection are stored by `index_document` and the two endpoints that
do not look at the mapping. -/
theorem unchecked_of_accepted {w : TracedWrite} (hplanned : w.Planned) (hphase : w.phase = .running [])
    (hkeeps : w.request.Keeps collection) (hindex : ∀ id fields, w.request ≠ .index collection id fields)
    (hcollection : w.request.collection = collection) {doc : Document} (hdoc : doc ∈ w.accepted) :
    w.request.Unchecked collection := by
  cases hrequest : w.request with
  | index c id fields =>
      have hc : c = collection := by rwa [hrequest] at hcollection
      exact absurd (hc ▸ hrequest) (hindex id fields)
  | upsert c id fields => rwa [hrequest] at hcollection
  | bulk c body => rwa [hrequest] at hcollection
  | delete c id =>
      rw [accepted_delete hplanned hphase hrequest] at hdoc
      cases hdoc
  | createCollection name schema =>
      rw [hrequest] at hcollection hkeeps
      exact absurd hcollection hkeeps
  | deleteCollection name =>
      rw [hrequest] at hcollection hkeeps
      exact absurd hcollection hkeeps

/-- What the answer of a request that runs alone does to the mapping. -/
theorem Sequential.listed_answer_iff (h : Sequential collection s) (hlisted : Listed collection s) {i : Nat}
    {w : TracedWrite} (hw : s.writes[i]? = some w) (hphase : w.phase = .running []) :
    Listed collection (s.answer i w) ↔ StoresListed collection s w := by
  have hmem := List.mem_of_getElem? hw
  by_cases hindex : ∃ id fields, w.request = .index collection id fields
  · obtain ⟨id, fields, hrequest⟩ := hindex
    have ⟨mapping, hmapping, hcovers⟩ := hlisted
    have hvalid := h.validated w hmem id fields [] hrequest hphase
    rw [hmapping, Option.getD_some] at hvalid
    obtain ⟨hle, hdoc, -⟩ := validateAndUpdateMapping_ok hvalid
    rw [listed_answer_index_iff hlisted hrequest]
    refine iff_of_true (fun doc hmemdoc => ?_) fun hunchecked => ?_
    · rcases List.mem_append.1 hmemdoc with hold | hnew
      · exact (hcovers doc hold).le hle
      · rw [mem_accepted_index (h.planned w hmem) hphase hrequest hnew]
        exact hdoc
    · rw [hrequest] at hunchecked
      exact absurd hunchecked not_false
  · have hindex' : ∀ id fields, w.request ≠ .index collection id fields :=
      fun id fields hrequest => hindex ⟨id, fields, hrequest⟩
    rw [HandlerNode.listed_answer_iff hlisted (h.keeps w hmem) hindex']
    refine ⟨fun hall hunchecked => hall hunchecked.collection_eq, fun hall hcollection mapping hmapping doc hdoc => ?_⟩
    exact hall (unchecked_of_accepted (h.planned w hmem) hphase (h.keeps w hmem) hindex' hcollection hdoc)
      mapping hmapping doc hdoc

omit [BulkInput] in
theorem listed_created (collection : String) : Listed collection (created collection) :=
  ⟨FieldMapping.new, by simp [mappings, created], fun _ hdoc => absurd hdoc List.not_mem_nil⟩

/-- **A field keeps one type.** In every state of a run of requests that do not overlap the
fields of the collection have one type each, if and only if no answer of `upsert_document`
or `bulk_index` reports a document as stored that has a field which the mapping does not
list with its type. -/
theorem oneType_sequential_iff (collection : String) (steps : List HandlerStep)
    (hone : Along step (OneAtATime collection) (created collection) steps) :
    (∀ pre, pre <+: steps → OneType collection ((created collection).run pre)) ↔
      Along step (AtAnswer (StoresListed collection)) (created collection) steps := by
  simp only [oneType_iff_listed]
  refine hone.forall_prefix_iff (fun s a hs hV => Sequential.step hs hV) (fun s a hs hlisted _ => ?_)
    (sequential_created collection) (listed_created collection)
  exact step_iff_atAnswer (fun s' => hlisted.congr) (fun i w hw hphase => hs.listed_answer_iff hlisted hw hphase) a

end Sequential

/-- A request body with one field. -/
def oneField (v : JsonValue) : ExtTreeMap String JsonValue := (∅ : ExtTreeMap String JsonValue).insert "n" v

/-- The steps of a request that stores a document with one field through `index_document`. -/
def post (i : Nat) (id : String) (v : JsonValue) : List HandlerStep :=
  [.receive (.index "c" ⟨id⟩ (oneField v)), .check i, .validate i, .propose i (.answered (.ok ⟨id⟩)), .respond i]

/-- The steps of a request that stores a document with one field through `upsert_document`. -/
def put (i : Nat) (id : String) (v : JsonValue) : List HandlerStep :=
  [.receive (.upsert "c" ⟨id⟩ (oneField v)), .check i, .propose i (.answered (.ok ⟨id⟩)), .respond i]

theorem fields_oneField {v : JsonValue} {value : FieldValue} (hv : jsonToFieldValue v = some value)
    (id : DocumentId) (name : String) :
    (documentOf id (oneField v)).fields[name]? = if name = "n" then some value else none := by
  simp only [documentOf, oneField, ExtTreeMap.getElem?_filterMap, ExtTreeMap.getElem?_insert]
  by_cases hname : name = "n"
  · simp [hname, hv]
  · have hne : ¬ compare "n" name = .eq := mt Std.LawfulEqCmp.compare_eq_iff_eq.1 (Ne.symm hname)
    simp [hname, hne]

/-- A text and a truth value for one field. -/
theorem not_oneType_of_accepted {s : HandlerNode} (haccepted : acceptedIn "c" s.history =
      [documentOf ⟨"a"⟩ (oneField (.string "x")), documentOf ⟨"b"⟩ (oneField (.bool true))]) :
    ¬ OneType "c" s := by
  intro h
  have hagree := h.agree
  rw [haccepted] at hagree
  have htype := hagree _ List.mem_cons_self _ (List.mem_cons_of_mem _ List.mem_cons_self) "n" (.text "x")
    (.boolean true) (fields_oneField rfl _ _) (fields_oneField rfl _ _)
  cases htype

/-- A field that the mapping lists is stored again by `upsert_document`. -/
theorem oneType_post_put :
    Along step (OneAtATime "c") (created "c") (post 0 "a" (.string "x") ++ put 1 "b" (.string "y")) ∧
      OneType "c" ((created "c").run (post 0 "a" (.string "x") ++ put 1 "b" (.string "y"))) := by
  have hone : Along step (OneAtATime "c") (created "c") (post 0 "a" (.string "x") ++ put 1 "b" (.string "y")) := by
    refine ⟨⟨by rintro w ⟨⟩, trivial⟩, trivial, trivial, trivial, trivial, ⟨fun w hw => ?_, trivial⟩, trivial, trivial,
      trivial, trivial⟩
    have hphases : ((created "c").run (post 0 "a" (.string "x"))).writes.map (fun w => w.phase) = [.responded] := by
      decide +kernel
    have hphase : w.phase ∈ [WritePhase.responded] := hphases ▸ List.mem_map_of_mem hw
    rw [List.mem_singleton.1 hphase]
    trivial
  refine ⟨hone, (oneType_sequential_iff "c" _ hone).2 ?_ _ (List.prefix_refl _)⟩
  refine ⟨trivial, trivial, trivial, trivial, fun w hw _ hunchecked => ?_, trivial, trivial, trivial,
    fun w hw _ _ mapping hmapping doc hdoc => ?_, trivial⟩
  · -- the first request is no such request
    have hfirst : ((created "c").run ((post 0 "a" (.string "x")).take 4)).writes[0]?.map
        (fun w => w.request.isIndex) = some true := by decide +kernel
    have hw' : ((created "c").run ((post 0 "a" (.string "x")).take 4)).writes[0]? = some w := hw
    rw [hw', Option.map_some, Option.some.injEq] at hfirst
    cases hrequest : w.request with
    | index collection id fields =>
        rw [hrequest] at hunchecked
        exact absurd hunchecked not_false
    | _ =>
        rw [hrequest] at hfirst
        cases hfirst
  · have hsecond : ((created "c").run (post 0 "a" (.string "x") ++
        (put 1 "b" (.string "y")).take 3)).writes[1]?.map (fun w => w.accepted) =
          some [documentOf ⟨"b"⟩ (oneField (.string "y"))] := by decide +kernel
    have hw' : ((created "c").run (post 0 "a" (.string "x") ++ (put 1 "b" (.string "y")).take 3)).writes[1]? =
        some w := hw
    rw [hw', Option.map_some, Option.some.injEq] at hsecond
    have htype : (((created "c").run (post 0 "a" (.string "x") ++ (put 1 "b" (.string "y")).take 3)).mappings "c").map
        (fun m => m.fields["n"]?) = some (some .text) := by decide +kernel
    have hmapping' : ((created "c").run (post 0 "a" (.string "x") ++
        (put 1 "b" (.string "y")).take 3)).mappings "c" = some mapping := hmapping
    rw [hmapping', Option.map_some, Option.some.injEq] at htype
    rw [hsecond, List.mem_singleton] at hdoc
    intro name value hvalue
    have hy : jsonToFieldValue (.string "y") = some (.text "y") := rfl
    rw [hdoc, fields_oneField hy] at hvalue
    split at hvalue
    next hname =>
      obtain rfl := Option.some.inj hvalue
      rw [hname]
      exact htype
    · cases hvalue

/-- Two documents stored by `upsert_document` give a field a text and a truth value. -/
theorem not_oneType_put_put :
    Along step (OneAtATime "c") (created "c") (put 0 "a" (.string "x") ++ put 1 "b" (.bool true)) ∧
      ¬ OneType "c" ((created "c").run (put 0 "a" (.string "x") ++ put 1 "b" (.bool true))) := by
  refine ⟨⟨⟨nofun, trivial⟩, trivial, trivial, trivial, ⟨fun w hw => ?_, trivial⟩, trivial, trivial, trivial,
    trivial⟩, fun h => ?_⟩
  · have hphases : ((created "c").run (put 0 "a" (.string "x"))).writes.map (fun w => w.phase) = [.responded] := by
      decide
    have hphase : w.phase ∈ [WritePhase.responded] := hphases ▸ List.mem_map_of_mem hw
    rw [List.mem_singleton.1 hphase]
    trivial
  · have haccepted : acceptedIn "c"
        ((created "c").run (put 0 "a" (.string "x") ++ put 1 "b" (.bool true))).history =
          [documentOf ⟨"a"⟩ (oneField (.string "x")), documentOf ⟨"b"⟩ (oneField (.bool true))] := rfl
    exact not_oneType_of_accepted haccepted h

/-! ## Requests beside each other -/

section Concurrent

variable [BulkInput] {s s' : HandlerNode} {a : HandlerStep} {collection : String}

/-- The requests on the collection are `index_document` requests. -/
def IndexesOnly (collection : String) (_ : HandlerNode) : HandlerStep → Prop
  | .receive request => request.collection = collection → ∃ id fields, request = .index collection id fields
  | _ => True

/-- The mapping that is written back has the fields of the one in whose place it is
written. -/
def ExtendsCurrent (collection : String) (s : HandlerNode) (w : TracedWrite) : Prop :=
  ∀ id fields, w.request = .index collection id fields →
    ∀ mapping, s.mappings collection = some mapping → mapping.Le w.mapping

/-- A validated write: its mapping lists the fields of its document, and other fields only
where an accepted document has them. -/
structure Validated (collection : String) (accepted : List Document) (w : TracedWrite) : Prop where
  covers : ∀ id fields todo, w.request = .index collection id fields → w.phase = .running todo →
    ListsFields w.mapping (documentOf id fields)
  sourced : ∀ id fields todo, w.request = .index collection id fields → w.phase = .running todo →
    ∀ name ty, w.mapping.fields[name]? = some ty →
      (∃ doc ∈ accepted, GivesType doc name ty) ∨ GivesType (documentOf id fields) name ty
  stored : ∀ id fields, w.request = .index collection id fields → w.phase = .running [] →
    documentOf id fields ∈ w.accepted

omit [BulkInput] in
theorem Validated.mono {accepted accepted' : List Document} (hsub : accepted ⊆ accepted') {w : TracedWrite}
    (h : Validated collection accepted w) : Validated collection accepted' w where
  covers := h.covers
  sourced id fields todo hrequest hphase name ty hty :=
    (h.sourced id fields todo hrequest hphase name ty hty).imp_left fun ⟨doc, hdoc, hgives⟩ => ⟨doc, hsub hdoc, hgives⟩
  stored := h.stored

omit [BulkInput] in
/-- A write that is not past its validation, or is no `index_document` request. -/
theorem validated_of_not_running {accepted : List Document} {w : TracedWrite}
    (h : ∀ id fields todo, w.request = .index collection id fields → w.phase ≠ .running todo) :
    Validated collection accepted w where
  covers id fields todo hrequest hphase := absurd hphase (h id fields todo hrequest)
  sourced id fields todo hrequest hphase := absurd hphase (h id fields todo hrequest)
  stored id fields hrequest hphase := absurd hphase (h id fields [] hrequest)

/-- The fields of the mapping and of the mappings to be written come from documents. -/
structure Concurrent (collection : String) (s : HandlerNode) : Prop where
  planned : ∀ w ∈ s.writes, w.Planned
  indexes : ∀ w ∈ s.writes, w.request.collection = collection →
    ∃ id fields, w.request = .index collection id fields
  sourced : ∀ mapping, s.mappings collection = some mapping → ∀ name ty, mapping.fields[name]? = some ty →
    ∃ doc ∈ acceptedIn collection s.history, GivesType doc name ty
  validated : ∀ w ∈ s.writes, Validated collection (acceptedIn collection s.history) w

theorem concurrent_created (collection : String) : Concurrent collection (created collection) where
  planned _ hw := absurd hw List.not_mem_nil
  indexes _ hw := absurd hw List.not_mem_nil
  sourced mapping hmapping name ty hty := by
    have hnew : FieldMapping.new = mapping := by simpa [mappings, created] using hmapping
    rw [← hnew] at hty
    simp [FieldMapping.new] at hty
  validated _ hw := absurd hw List.not_mem_nil

theorem Concurrent.keeps (h : Concurrent collection s) {w : TracedWrite} (hw : w ∈ s.writes) :
    w.request.Keeps collection := by
  have hindexes := h.indexes w hw
  revert hindexes
  cases w.request with
  | createCollection name schema =>
      intro hindexes hname
      obtain ⟨_, _, heq⟩ := hindexes hname
      cases heq
  | deleteCollection name =>
      intro hindexes hname
      obtain ⟨_, _, heq⟩ := hindexes hname
      cases heq
  | _ => exact fun _ => trivial

/-- A write that has just been validated. -/
theorem Concurrent.validated_running (h : Concurrent collection s) {w : TracedWrite} {id : DocumentId}
    {fields : ExtTreeMap String JsonValue} {updated : FieldMapping} {c : String}
    (hrequest : w.request = .index c id fields)
    (hvalid : validateAndUpdateMapping (documentOf id fields) ((s.mappings c).getD FieldMapping.new) = .ok updated) :
    Validated collection (acceptedIn collection s.history)
      { w with mapping := updated, phase := .running w.request.commands } := by
  obtain ⟨-, hcovers, hnew⟩ := validateAndUpdateMapping_ok hvalid
  refine ⟨fun id' fields' todo hindex _ => ?_, fun id' fields' todo hindex _ name ty hty => ?_,
    fun id' fields' hindex hphase => ?_⟩
  · obtain ⟨-, rfl, rfl⟩ := WriteRequest.index.inj (hrequest.symm.trans hindex)
    exact hcovers
  · obtain ⟨rfl, rfl, rfl⟩ := WriteRequest.index.inj (hrequest.symm.trans hindex)
    refine (hnew name ty hty).imp_left fun hold => ?_
    cases hmapping : s.mappings c with
    | none => simp [hmapping, FieldMapping.new] at hold
    | some mapping =>
        rw [hmapping] at hold
        exact h.sourced mapping hmapping name ty hold
  · have hphase' : WritePhase.running w.request.commands = .running [] := hphase
    rw [hrequest] at hphase'
    cases hphase'

/-- The command of `index_document` is answered. -/
theorem validated_answered {accepted : List Document} {w : TracedWrite} (hplanned : w.Planned)
    (h : Validated collection accepted w) {cmd : RaftCommand} {todo : List RaftCommand}
    (hphase : w.phase = .running (cmd :: todo)) (resp : RaftResponse) :
    Validated collection accepted
      { w with phase := .running todo, accepted := w.accepted ++ stored resp cmd } := by
  refine ⟨fun id fields _ hrequest _ => h.covers id fields _ hrequest hphase,
    fun id fields _ hrequest _ => h.sourced id fields _ hrequest hphase, fun id fields hrequest hnil => ?_⟩
  obtain ⟨proposed, hcommands, -⟩ := hplanned.running _ hphase
  have hrequest' : w.request = .index collection id fields := hrequest
  rw [hrequest', WritePhase.running.inj hnil] at hcommands
  -- the only command of the request stores its document
  have hcmd : cmd = .insertDocument collection (documentOf id fields) := by
    have hmem : cmd ∈ (WriteRequest.index collection id fields).commands := by
      rw [← hcommands]
      exact List.mem_append_right _ List.mem_cons_self
    exact List.mem_singleton.1 hmem
  rw [hcmd]
  exact List.mem_append_right _ (List.mem_singleton.2 rfl)

theorem Concurrent.validated_step (h : Concurrent collection s) (hmoved : Moved s a s') :
    ∀ w ∈ s'.writes, Validated collection (acceptedIn collection s.history) w := by
  cases hmoved with
  | idle => exact h.validated
  | receive request =>
      exact forall_mem_concat h.validated (validated_of_not_running fun _ _ _ _ hphase => by cases hphase)
  | check hw hphase =>
      refine forall_mem_set h.validated (validated_of_not_running fun id fields todo hrequest => ?_)
      exact check_index_ne_running hrequest _ _
  | validate hw hphase hrequest hvalid => exact forall_mem_set h.validated (h.validated_running hrequest hvalid)
  | conflict hw hphase =>
      exact forall_mem_set h.validated (validated_of_not_running fun _ _ _ _ hrunning => by cases hrunning)
  | answered resp hw hphase =>
      have hmem := List.mem_of_getElem? hw
      exact forall_mem_set h.validated (validated_answered (h.planned _ hmem) (h.validated _ hmem) hphase resp)
  | failed e appended hw hphase =>
      refine forall_mem_set h.validated (validated_of_not_running fun id fields todo hrequest => ?_)
      exact afterFailure_index_ne_running hrequest _ _ _
  | respond hw hphase =>
      exact forall_mem_set h.validated (validated_of_not_running fun _ _ _ _ hrunning => by cases hrunning)
  | search htargets => exact h.validated
  | aliases change => exact h.validated

theorem Concurrent.sourced_answer (h : Concurrent collection s) {i : Nat} {w : TracedWrite}
    (hw : s.writes[i]? = some w) (hphase : w.phase = .running []) (mapping : FieldMapping)
    (hmapping : (s.answer i w).mappings collection = some mapping) (name : String) (ty : MappedFieldType)
    (hty : mapping.fields[name]? = some ty) :
    ∃ doc ∈ acceptedIn collection (s.answer i w).history, GivesType doc name ty := by
  have hmem := List.mem_of_getElem? hw
  have hkeeps := h.keeps hmem
  rw [acceptedIn_answer hkeeps]
  by_cases hindex : ∃ id fields, w.request = .index collection id fields
  · obtain ⟨id, fields, hrequest⟩ := hindex
    rw [mappings_answer_index hrequest] at hmapping
    obtain ⟨_, -, rfl⟩ := Option.map_eq_some_iff.1 hmapping
    have hcollection : w.request.collection = collection := by rw [hrequest]; rfl
    rw [if_pos hcollection]
    have hvalidated := h.validated w hmem
    rcases hvalidated.sourced id fields [] hrequest hphase name ty hty with ⟨doc, hdoc, hgives⟩ | hgives
    · exact ⟨doc, List.mem_append_left _ hdoc, hgives⟩
    · exact ⟨_, List.mem_append_right _ (hvalidated.stored id fields hrequest hphase), hgives⟩
  · rw [mappings_answer_of_ne hkeeps fun id fields hrequest => hindex ⟨id, fields, hrequest⟩] at hmapping
    obtain ⟨doc, hdoc, hgives⟩ := h.sourced mapping hmapping name ty hty
    exact ⟨doc, List.mem_append_left _ hdoc, hgives⟩

theorem Concurrent.step (h : Concurrent collection s) (hindex : IndexesOnly collection s a) :
    Concurrent collection (s.step a) where
  planned := planned_step h.planned (moved_step s a)
  indexes := by
    refine (moved_step s a).forall_requests (Q := fun request => request.collection = collection →
      ∃ id fields, request = .index collection id fields) h.indexes fun request ha => ?_
    rw [ha] at hindex
    exact hindex
  sourced := by
    refine step_of_answer (P := fun s => ∀ mapping, s.mappings collection = some mapping → ∀ name ty,
      mapping.fields[name]? = some ty → ∃ doc ∈ acceptedIn collection s.history, GivesType doc name ty)
      (fun s' hcollections hhistory => ?_) (fun i w hw hphase => h.sourced_answer hw hphase) a
    simp only [mappings, hcollections, hhistory]
    exact h.sourced
  validated w hw := by
    obtain ⟨events, hevents⟩ := (moved_step s a).history_grows
    refine (h.validated_step (moved_step s a) w hw).mono ?_
    rw [← hevents, acceptedIn_append]
    exact List.subset_append_left _ _

/-- What a mapping that is written back does to the mapping of the collection. -/
theorem Concurrent.listed_answer_iff (h : Concurrent collection s) (hlisted : Listed collection s) {i : Nat}
    {w : TracedWrite} (hw : s.writes[i]? = some w) (hphase : w.phase = .running []) :
    Listed collection (s.answer i w) ↔ ExtendsCurrent collection s w := by
  have hmem := List.mem_of_getElem? hw
  by_cases hindex : ∃ id fields, w.request = .index collection id fields
  · obtain ⟨id, fields, hrequest⟩ := hindex
    have ⟨mapping, hmapping, hcovers⟩ := hlisted
    rw [listed_answer_index_iff hlisted hrequest]
    constructor
    · -- a field of the current mapping is one of an accepted document
      intro hall id' fields' _ mapping' hmapping' name ty hty
      obtain ⟨doc, hdoc, value, hvalue, rfl⟩ := h.sourced mapping' hmapping' name ty hty
      exact hall doc (List.mem_append_left _ hdoc) name value hvalue
    · intro hextends doc hdoc
      rcases List.mem_append.1 hdoc with hold | hnew
      · exact (hcovers doc hold).le (hextends id fields hrequest mapping hmapping)
      · rw [mem_accepted_index (h.planned w hmem) hphase hrequest hnew]
        exact (h.validated w hmem).covers id fields [] hrequest hphase
  · have hindex' : ∀ id fields, w.request ≠ .index collection id fields :=
      fun id fields hrequest => hindex ⟨id, fields, hrequest⟩
    rw [HandlerNode.listed_answer_iff hlisted (h.keeps hmem) hindex']
    refine iff_of_true (fun hcollection => ?_) fun id fields hrequest => absurd hrequest (hindex' id fields)
    exact absurd (h.indexes w hmem hcollection) hindex

/-- **Concurrent updates of the mapping.** In every state of a run of `index_document`
requests beside each other the mapping of the collection lists every field of every accepted
document, and no two of them disagree, if and only if no mapping that is written back lacks
a field of the mapping in whose place it is written. -/
theorem oneType_concurrent_iff (collection : String) (steps : List HandlerStep)
    (hindexes : Along step (IndexesOnly collection) (created collection) steps) :
    (∀ pre, pre <+: steps → OneType collection ((created collection).run pre)) ↔
      Along step (AtAnswer (ExtendsCurrent collection)) (created collection) steps := by
  simp only [oneType_iff_listed]
  refine hindexes.forall_prefix_iff (fun s a hs hV => Concurrent.step hs hV) (fun s a hs hlisted _ => ?_)
    (concurrent_created collection) (listed_created collection)
  exact step_iff_atAnswer (fun s' => hlisted.congr) (fun i w hw hphase => hs.listed_answer_iff hlisted hw hphase) a

end Concurrent

/-- Two requests that store documents with one field, the second of which has been checked
before the first is answered. -/
def overlapping (x y : JsonValue) : List HandlerStep :=
  [.receive (.index "c" ⟨"a"⟩ (oneField x)), .receive (.index "c" ⟨"b"⟩ (oneField y)), .check 0, .check 1,
    .validate 0, .propose 0 (.answered (.ok ⟨"a"⟩)), .respond 0, .validate 1, .propose 1 (.answered (.ok ⟨"b"⟩)),
    .respond 1]

/-- The same requests, both validated before the first is answered. -/
def racing (x y : JsonValue) : List HandlerStep :=
  [.receive (.index "c" ⟨"a"⟩ (oneField x)), .receive (.index "c" ⟨"b"⟩ (oneField y)), .check 0, .check 1,
    .validate 0, .validate 1, .propose 0 (.answered (.ok ⟨"a"⟩)), .propose 1 (.answered (.ok ⟨"b"⟩)), .respond 0,
    .respond 1]

/-- The second request validates its document against what the first has written. -/
theorem oneType_overlapping :
    Along step (IndexesOnly "c") (created "c") (overlapping (.string "x") (.string "y")) ∧
      OneType "c" ((created "c").run (overlapping (.string "x") (.string "y"))) := by
  have hindexes : Along step (IndexesOnly "c") (created "c") (overlapping (.string "x") (.string "y")) :=
    ⟨fun _ => ⟨_, _, rfl⟩, fun _ => ⟨_, _, rfl⟩, trivial, trivial, trivial, trivial, trivial, trivial, trivial,
      trivial, trivial⟩
  refine ⟨hindexes, (oneType_concurrent_iff "c" _ hindexes).2 ?_ _ (List.prefix_refl _)⟩
  refine ⟨trivial, trivial, trivial, trivial, trivial, trivial, fun w hw _ id fields _ mapping hmapping => ?_, trivial,
    trivial, fun w hw _ id fields _ mapping hmapping => ?_, trivial⟩
  · -- the mapping is still empty
    have hempty : ((created "c").run ((overlapping (.string "x") (.string "y")).take 6)).mappings "c" =
        some FieldMapping.new := by decide +kernel
    have hmapping' : ((created "c").run ((overlapping (.string "x") (.string "y")).take 6)).mappings "c" =
        some mapping := hmapping
    rw [← Option.some.inj (hempty.symm.trans hmapping')]
    intro name ty hty
    simp [FieldMapping.new] at hty
  · have hsame : ((created "c").run ((overlapping (.string "x") (.string "y")).take 9)).mappings "c" =
        ((created "c").run ((overlapping (.string "x") (.string "y")).take 9)).writes[1]?.map (fun w => w.mapping) := by
      decide +kernel
    have hmapping' : ((created "c").run ((overlapping (.string "x") (.string "y")).take 9)).mappings "c" =
        some mapping := hmapping
    have hw' : ((created "c").run ((overlapping (.string "x") (.string "y")).take 9)).writes[1]? = some w := hw
    rw [hmapping', hw', Option.map_some, Option.some.injEq] at hsame
    rw [hsame]
    exact fun _ _ hty => hty

/-- Both requests are answered with success, and give a field a text and a truth value. -/
theorem not_oneType_racing :
    Along step (IndexesOnly "c") (created "c") (racing (.string "x") (.bool true)) ∧
      ((created "c").run (racing (.string "x") (.bool true))).writes.map (fun w => w.phase) =
        [.responded, .responded] ∧
      ¬ OneType "c" ((created "c").run (racing (.string "x") (.bool true))) := by
  refine ⟨⟨fun _ => ⟨_, _, rfl⟩, fun _ => ⟨_, _, rfl⟩, trivial, trivial, trivial, trivial, trivial, trivial, trivial,
    trivial, trivial⟩, by decide +kernel, fun h => ?_⟩
  have haccepted : acceptedIn "c" ((created "c").run (racing (.string "x") (.bool true))).history =
      [documentOf ⟨"a"⟩ (oneField (.string "x")), documentOf ⟨"b"⟩ (oneField (.bool true))] := by decide +kernel
  exact not_oneType_of_accepted haccepted h

end HandlerNode

end MSearchDB.Node
