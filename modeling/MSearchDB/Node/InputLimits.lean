import MSearchDB.Node.HandlerRuns

/-!
# Input limits

The validators of `crates/core/src/security.rs` for field names and for the depth of
queries. `AppState` carries a `ValidationConfig`, but no handler calls a validator.

`limitsHold_iff` says what that leaves of the limits: they hold in every state of a run
exactly when no request that exceeds them brings a command into the log, and no query that
is too deep finds the collections that it names.
-/

set_option autoImplicit false

namespace MSearchDB.Node

open MSearchDB.Lib
open MSearchDB.Core
open MSearchDB.Consensus

/-! ## The validators -/

/-- `&name[..n]` on the characters: the source panics where byte `n` is not the start of a
character. -/
def takeBytes : List Char → Nat → Option (List Char)
  | _, 0 => some []
  | [], _ + 1 => none
  | c :: cs, n + 1 => if c.utf8Size ≤ n + 1 then (takeBytes cs (n + 1 - c.utf8Size)).map (c :: ·) else none

/-- `validate_field_name`, or a panic. -/
def validateFieldName (name : String) : Option (DbResult Unit) :=
  if startsWith name "_" then
    some (.error (.invalidInput
      ("field name '" ++ name ++ "' must not start with '_' (reserved for system fields)")))
  else if name = "" then some (.error (.invalidInput "field name must not be empty"))
  else if 256 < name.utf8ByteSize then
    (takeBytes name.toList 32).map fun start =>
      .error (.invalidInput ("field name '" ++ String.ofList start ++ "...' exceeds 256 character limit"))
  else some (.ok ())

/-- `ValidationConfig`, of which the limits on the size of a request and on its time are
left out. -/
structure ValidationConfig where
  maxQueryDepth : Nat := 5

mutual
/-- `measure_query_depth`. -/
def measureQueryDepth : Query → Nat
  | .bool must should mustNot =>
      1 + max (max (deepest must) (deepest should)) (deepest mustNot)
  | _ => 1
/-- The depth of the deepest query of a list. -/
def deepest : List Query → Nat
  | [] => 0
  | q :: qs => max (measureQueryDepth q) (deepest qs)
end

/-- `validate_query_depth`. -/
def validateQueryDepth (query : Query) (config : ValidationConfig) : DbResult Unit :=
  let depth := measureQueryDepth query
  if config.maxQueryDepth < depth then
    .error (.invalidInput
      ("query nesting depth " ++ toString depth ++ " exceeds limit of " ++ toString config.maxQueryDepth))
  else .ok ()

theorem validateQueryDepth_ok_iff (query : Query) (config : ValidationConfig) :
    validateQueryDepth query config = .ok () ↔ measureQueryDepth query ≤ config.maxQueryDepth := by
  simp only [validateQueryDepth]
  split
  next h => exact iff_of_false nofun (Nat.not_le.2 h)
  next h => exact iff_of_true rfl (Nat.not_lt.1 h)

/-! ## The property -/

/-- The validator accepts the names of the fields of the document. -/
def AcceptsFields (doc : Document) : Prop := ∀ name ∈ doc.fields, validateFieldName name = some (.ok ())

/-- The request carries a document with a field whose name the validator does not accept. -/
def WriteRequest.Exceeds [BulkInput] (request : WriteRequest) : Prop :=
  ∃ cmd ∈ request.commands, ∃ doc ∈ documentsOf cmd, ¬ AcceptsFields doc

theorem mem_documentsOf {cmd : RaftCommand} {collection : String} {doc : Document}
    (h : .putInCollection collection doc ∈ cmd.storageCalls) : doc ∈ documentsOf cmd := by
  cases cmd with
  | batchInsert c docs =>
      obtain ⟨doc', hdoc', heq⟩ := List.mem_map.1 h
      obtain ⟨-, rfl⟩ := StorageCall.putInCollection.inj heq
      exact hdoc'
  | insertDocument c doc' =>
      obtain ⟨-, rfl⟩ := StorageCall.putInCollection.inj (List.mem_singleton.1 h)
      exact List.mem_singleton.2 rfl
  | updateDocument c doc' =>
      obtain ⟨-, rfl⟩ := StorageCall.putInCollection.inj (List.mem_singleton.1 h)
      exact List.mem_singleton.2 rfl
  | deleteDocument c id => cases List.mem_singleton.1 h
  | createCollection c schema => cases List.mem_singleton.1 h
  | deleteCollection c => cases List.mem_singleton.1 h
  | createAlias c targets => cases h
  | deleteAlias c => cases h

namespace HandlerNode

section Limits

variable [BulkInput]

/-- The limits hold on every endpoint. -/
structure LimitsHold (config : ValidationConfig) (s : HandlerNode) : Prop where
  /-- Every document that a command of a write puts into the storage has only field names
  that the validator accepts. -/
  stored : ∀ i cmd, (i, cmd) ∈ s.log → ∀ collection doc, .putInCollection collection doc ∈ cmd.storageCalls →
    AcceptsFields doc
  /-- Every query executed passes the check of its depth. -/
  executed : ∀ q ∈ s.executed, validateQueryDepth q config = .ok ()
  /-- A write that exceeds the limits changes nothing and has no document accepted. -/
  rejected : ∀ i w, s.writes[i]? = some w → w.request.Exceeds → w.accepted = [] ∧ ∀ cmd, (i, cmd) ∉ s.log

/-- A request that exceeds the limits brings no command into the log, and a query that is too
deep does not find the collections that it names. -/
def WithinLimits (config : ValidationConfig) (s : HandlerNode) : HandlerStep → Prop
  | .propose i outcome => outcome.entersLog = true → ∀ w cmd todo, s.writes[i]? = some w →
      w.phase = .running (cmd :: todo) → ¬ w.request.Exceeds
  | .search request => ∀ targets, resolveSearchTargets s.registries request.collection = .ok targets →
      measureQueryDepth request.coreQuery ≤ config.maxQueryDepth
  | _ => True

/-- Where the commands of the log and the accepted documents come from. -/
structure Logged (s : HandlerNode) : Prop where
  planned : ∀ w ∈ s.writes, w.Planned
  commands : ∀ i cmd, (i, cmd) ∈ s.log → ∃ request, s.requestAt i = some request ∧ cmd ∈ request.commands
  accepted : ∀ i w, s.writes[i]? = some w → w.accepted ≠ [] → ∃ cmd, (i, cmd) ∈ s.log

theorem logged_start : Logged start where
  planned _ hw := absurd hw List.not_mem_nil
  commands _ _ hmem := absurd hmem List.not_mem_nil
  accepted _ _ hw := absurd (List.mem_of_getElem? hw) List.not_mem_nil

/-- No request in the log exceeds the limits, and no query is too deep. -/
structure Clean (config : ValidationConfig) (s : HandlerNode) : Prop where
  log : ∀ i cmd, (i, cmd) ∈ s.log → ∀ request, s.requestAt i = some request → ¬ request.Exceeds
  executed : ∀ q ∈ s.executed, measureQueryDepth q ≤ config.maxQueryDepth

theorem Logged.limitsHold_iff_clean {config : ValidationConfig} {s : HandlerNode} (h : Logged s) :
    LimitsHold config s ↔ Clean config s := by
  constructor
  · intro hlimits
    refine ⟨fun i cmd hmem request hrequest hexceeds => ?_, fun q hq => ?_⟩
    · obtain ⟨w, hw, rfl⟩ := Option.map_eq_some_iff.1 hrequest
      exact (hlimits.rejected i w hw hexceeds).2 cmd hmem
    · exact (validateQueryDepth_ok_iff q config).1 (hlimits.executed q hq)
  · intro hclean
    have hrejected : ∀ i w, s.writes[i]? = some w → w.request.Exceeds → ∀ cmd, (i, cmd) ∉ s.log := by
      intro i w hw hexceeds cmd hmem
      exact hclean.log i cmd hmem w.request (by rw [requestAt, hw, Option.map_some]) hexceeds
    refine ⟨fun i cmd hmem collection doc hcall => ?_, fun q hq => ?_, fun i w hw hexceeds => ⟨?_, ?_⟩⟩
    · obtain ⟨request, hrequest, hcmd⟩ := h.commands i cmd hmem
      by_contra hnot
      exact hclean.log i cmd hmem request hrequest ⟨cmd, hcmd, doc, mem_documentsOf hcall, hnot⟩
    · exact (validateQueryDepth_ok_iff q config).2 (hclean.executed q hq)
    · by_contra hne
      obtain ⟨cmd, hmem⟩ := h.accepted i w hw hne
      exact hrejected i w hw hexceeds cmd hmem
    · exact hrejected i w hw hexceeds

section Steps

variable {s s' : HandlerNode} {a : HandlerStep} {config : ValidationConfig}

theorem command_mem {w : TracedWrite} (hplanned : w.Planned) {cmd : RaftCommand} {todo : List RaftCommand}
    (hphase : w.phase = .running (cmd :: todo)) : cmd ∈ w.request.commands := by
  obtain ⟨proposed, hcommands, -⟩ := hplanned.running _ hphase
  rw [← hcommands]
  exact List.mem_append_right _ List.mem_cons_self

/-- A command comes into the log when it is the next one of its request. -/
theorem Logged.commands_step (h : Logged s) (hmoved : Moved s a s') (i : Nat) (cmd : RaftCommand)
    (hmem : (i, cmd) ∈ s'.log) : ∃ request, s'.requestAt i = some request ∧ cmd ∈ request.commands := by
  have hold : (i, cmd) ∈ s.log → ∃ request, s'.requestAt i = some request ∧ cmd ∈ request.commands := by
    intro hmem
    obtain ⟨request, hrequest, hcmd⟩ := h.commands i cmd hmem
    exact ⟨request, hmoved.requestAt hrequest, hcmd⟩
  have hnew : ∀ {j : Nat} {w : TracedWrite} {cmd' : RaftCommand} {todo : List RaftCommand},
      s.writes[j]? = some w → w.phase = .running (cmd' :: todo) → (i, cmd) = (j, cmd') →
        ∃ request, s'.requestAt i = some request ∧ cmd ∈ request.commands := by
    intro j w cmd' todo hw hphase heq
    obtain ⟨rfl, rfl⟩ := Prod.mk.inj heq
    have hrequest : s.requestAt i = some w.request := by rw [requestAt, hw, Option.map_some]
    exact ⟨w.request, hmoved.requestAt hrequest, command_mem (h.planned w (List.mem_of_getElem? hw)) hphase⟩
  cases hmoved with
  | answered resp hw hphase =>
      rcases List.mem_append.1 hmem with hmem | hmem
      · exact hold hmem
      · exact hnew hw hphase (List.mem_singleton.1 hmem)
  | failed e appended hw hphase =>
      cases appended with
      | true =>
          rcases List.mem_append.1 hmem with hmem | hmem
          · exact hold hmem
          · exact hnew hw hphase (List.mem_singleton.1 hmem)
      | false => exact hold hmem
  | _ => exact hold hmem

/-- What has come into the log stays there. -/
theorem Moved.log_subset (h : Moved s a s') : s.log ⊆ s'.log := by
  cases h with
  | answered resp hw hphase => exact List.subset_append_left _ _
  | failed e appended hw hphase =>
      cases appended with
      | true => exact List.subset_append_left _ _
      | false => exact List.Subset.refl _
  | _ => exact List.Subset.refl _

/-- A step that leaves the accepted documents of a write alone. -/
theorem Logged.accepted_set (h : Logged s) (hlog : s.log ⊆ s'.log) {i : Nat} {w w' : TracedWrite}
    (hw : s.writes[i]? = some w) (hwrites : s'.writes = s.writes.set i w') (hsame : w'.accepted = w.accepted)
    (j : Nat) (v : TracedWrite) (hv : s'.writes[j]? = some v) (hne : v.accepted ≠ []) : ∃ cmd, (j, cmd) ∈ s'.log := by
  rw [hwrites, getElem?_set_of_some hw] at hv
  split at hv
  next hij =>
    obtain rfl := Option.some.inj hv
    rw [hsame] at hne
    obtain ⟨cmd, hmem⟩ := h.accepted i w hw hne
    exact ⟨cmd, hij ▸ hlog hmem⟩
  · obtain ⟨cmd, hmem⟩ := h.accepted j v hv hne
    exact ⟨cmd, hlog hmem⟩

theorem Logged.accepted_step (h : Logged s) (hmoved : Moved s a s') :
    ∀ i w, s'.writes[i]? = some w → w.accepted ≠ [] → ∃ cmd, (i, cmd) ∈ s'.log := by
  have hlog := hmoved.log_subset
  cases hmoved with
  | receive request =>
      intro i w hw hne
      rcases lt_trichotomy i s.writes.length with hlt | heq | hgt
      · rw [List.getElem?_append_left hlt] at hw
        exact h.accepted i w hw hne
      · rw [heq, List.getElem?_concat_length] at hw
        obtain rfl := Option.some.inj hw
        exact absurd rfl hne
      · rw [List.getElem?_eq_none (by simpa using hgt)] at hw
        cases hw
  | check hw hphase => exact h.accepted_set hlog hw rfl rfl
  | validate hw hphase hrequest hvalid => exact h.accepted_set hlog hw rfl rfl
  | conflict hw hphase => exact h.accepted_set hlog hw rfl rfl
  | @answered i w cmd todo resp hw hphase =>
      intro j v hv hne
      have hset : (s.writes.set i
          { w with phase := .running todo, accepted := w.accepted ++ Node.stored resp cmd })[j]? = some v := hv
      rw [getElem?_set_of_some hw] at hset
      split at hset
      next hij => exact ⟨cmd, List.mem_append_right _ (by rw [hij]; exact List.mem_singleton.2 rfl)⟩
      · obtain ⟨cmd', hmem⟩ := h.accepted j v hset hne
        exact ⟨cmd', hlog hmem⟩
  | failed e appended hw hphase => exact h.accepted_set hlog hw rfl rfl
  | respond hw hphase => exact h.accepted_set hlog hw rfl rfl
  | idle => exact h.accepted
  | search htargets => exact h.accepted
  | aliases change => exact h.accepted

theorem Logged.step (h : Logged s) (a : HandlerStep) : Logged (s.step a) where
  planned := planned_step h.planned (moved_step s a)
  commands := h.commands_step (moved_step s a)
  accepted := h.accepted_step (moved_step s a)

theorem Clean.log_of_moved (hclean : Clean config s) (h : Logged s) (hmoved : Moved s a s') (i : Nat)
    (cmd : RaftCommand) (hmem : (i, cmd) ∈ s.log) (request : WriteRequest) (hrequest : s'.requestAt i = some request) :
    ¬ request.Exceeds := by
  obtain ⟨old, hold, -⟩ := h.commands i cmd hmem
  rw [hmoved.requestAt hold] at hrequest
  exact Option.some.inj hrequest ▸ hclean.log i cmd hmem old hold

/-- The proposal of the next command of a write. -/
theorem Clean.propose_iff (hclean : Clean config s) (h : Logged s) {i : Nat} {w : TracedWrite} {cmd : RaftCommand}
    {todo : List RaftCommand} (hw : s.writes[i]? = some w) (hphase : w.phase = .running (cmd :: todo))
    (outcome : Proposal) :
    Clean config (s.step (.propose i outcome)) ↔ (outcome.entersLog = true → ¬ w.request.Exceeds) := by
  obtain ⟨hlog, hexecuted⟩ := step_propose hw hphase outcome
  have hmoved := moved_step s (.propose i outcome)
  have hrequest : (s.step (.propose i outcome)).requestAt i = some w.request := by
    refine hmoved.requestAt ?_
    rw [requestAt, hw, Option.map_some]
  constructor
  · intro hnext henters
    refine hnext.log i cmd ?_ w.request hrequest
    rw [hlog, if_pos henters]
    exact List.mem_append_right _ (List.mem_singleton.2 rfl)
  · intro hwithin
    refine ⟨fun j cmd' hmem request hrequest' => ?_, by rw [hexecuted]; exact hclean.executed⟩
    rw [hlog] at hmem
    rcases List.mem_append.1 hmem with hold | hnew
    · exact hclean.log_of_moved h hmoved j cmd' hold request hrequest'
    · split at hnew
      next henters =>
        obtain ⟨rfl, rfl⟩ := Prod.mk.inj (List.mem_singleton.1 hnew)
        rw [hrequest] at hrequest'
        exact Option.some.inj hrequest' ▸ hwithin henters
      · cases hnew

/-- A search that finds its targets executes its query. -/
theorem Clean.search_iff (hclean : Clean config s) (request : SearchEndpoint) :
    Clean config (s.step (.search request)) ↔ WithinLimits config s (.search request) := by
  simp only [HandlerNode.step, WithinLimits]
  cases htargets : resolveSearchTargets s.registries request.collection with
  | error e =>
      apply iff_of_true hclean
      rintro targets ⟨⟩
  | ok targets =>
      constructor
      · intro hnext _ _
        exact hnext.executed _ (List.mem_append_right _ (List.mem_singleton.2 rfl))
      · intro hwithin
        refine ⟨hclean.log, fun q hq => ?_⟩
        rcases List.mem_append.1 hq with hq | hq
        · exact hclean.executed q hq
        · rw [List.mem_singleton.1 hq]
          exact hwithin targets rfl

theorem Clean.step_iff (hclean : Clean config s) (h : Logged s) (a : HandlerStep) :
    Clean config (s.step a) ↔ WithinLimits config s a := by
  have hother : (∀ i outcome, a ≠ .propose i outcome) → (∀ request, a ≠ .search request) →
      Clean config (s.step a) := by
    intro hpropose hsearch
    have hmoved := moved_step s a
    obtain ⟨hlog, hexecuted⟩ := hmoved.log_executed hpropose hsearch
    refine ⟨fun i cmd hmem => ?_, by rw [hexecuted]; exact hclean.executed⟩
    rw [hlog] at hmem
    exact hclean.log_of_moved h hmoved i cmd hmem
  cases a with
  | propose i outcome =>
      by_cases hrunning : ∃ w cmd todo, s.writes[i]? = some w ∧ w.phase = .running (cmd :: todo)
      · obtain ⟨w, cmd, todo, hw, hphase⟩ := hrunning
        rw [hclean.propose_iff h hw hphase]
        refine ⟨fun hall henters w' _ _ hw' _ => ?_, fun hwithin henters => hwithin henters w cmd todo hw hphase⟩
        rw [hw] at hw'
        exact Option.some.inj hw' ▸ hall henters
      · have hne : ∀ w cmd todo, s.writes[i]? = some w → w.phase ≠ .running (cmd :: todo) :=
          fun w cmd todo hw hphase => hrunning ⟨w, cmd, todo, hw, hphase⟩
        rw [step_propose_of_ne hne]
        exact iff_of_true hclean fun _ w cmd todo hw hphase => absurd hphase (hne w cmd todo hw)
  | search request => exact hclean.search_iff request
  | _ => exact iff_of_true (hother nofun nofun) trivial

end Steps

/-- **Input limits.** In every state of a run the limits hold on every endpoint, if and only
if no request whose documents have a field name that the validator does not accept brings a
command into the log, and no query that is too deep finds its targets. -/
theorem limitsHold_iff (config : ValidationConfig) (steps : List HandlerStep) :
    (∀ pre, pre <+: steps → LimitsHold config (start.run pre)) ↔
      Along step (WithinLimits config) start steps := by
  have hlogged : ∀ pre : List HandlerStep, Logged (start.run pre) := by
    intro pre
    exact Along.invariant (I := Logged) (fun s a hs _ => hs.step a) (along_true pre start) logged_start
  have hclean : ∀ pre, LimitsHold config (start.run pre) ↔ Clean config (start.run pre) :=
    fun pre => (hlogged pre).limitsHold_iff_clean
  simp only [hclean]
  refine forall_prefix_iff_along (I := Logged) (fun s a hs => hs.step a) (fun s a hs hP => hP.step_iff hs a)
    logged_start ⟨nofun, nofun⟩ steps

end Limits

/-- A document with the field `_id` is stored through `index_document`. -/
def reservedField : List HandlerStep :=
  [.receive (.createCollection "c" .new), .check 0, .propose 0 (.answered .okNoId), .respond 0,
    .receive (.index "c" ⟨"a"⟩ ((∅ : Std.ExtTreeMap String JsonValue).insert "_id" (.string "x"))), .check 1,
    .validate 1, .propose 1 (.answered (.ok ⟨"a"⟩)), .respond 1]

/-- The document is in the log, and its field has a name that the validator refuses. -/
theorem not_limitsHold_reservedField : ¬ LimitsHold {} (start.run reservedField) := by
  intro h
  have hlog : (1, RaftCommand.insertDocument "c"
      (documentOf ⟨"a"⟩ ((∅ : Std.ExtTreeMap String JsonValue).insert "_id" (.string "x")))) ∈
        (start.run reservedField).log := by decide +kernel
  have hname := h.stored _ _ hlog "c" _ (List.mem_singleton.2 rfl) "_id" (by decide +kernel)
  exact absurd hname (by decide)

end HandlerNode

end MSearchDB.Node
