import MSearchDB.Lib.WriteLog
import MSearchDB.Consensus.Types
import MSearchDB.Node.State

/-!
# The registries of collections and aliases

`AppState.collections` and `AppState.aliases`, and the handlers that create and delete
collections and aliases (`crates/node/src/handlers/collections.rs` and `aliases.rs`).

Every node has registries of its own. A handler reads them, proposes a command, and
after the answer changes those of its own node; between these steps the handlers of all
nodes run in any order. The state machine applies the commands on every node, but its
arms for them do not touch the registries (`AppState` is not known to it), so `apply`
moves the node's position in the log and nothing else here.

`registriesAgree_iff` says what this leaves of replication: a registry is the outcome of
the requests that its own node has answered, so two nodes agree exactly where the last
request that each of them answered had the same outcome.
-/

set_option autoImplicit false

namespace MSearchDB.Node

open MSearchDB.Lib
open MSearchDB.Core
open MSearchDB.Consensus

/-- `CollectionAlias`. -/
structure CollectionAlias where
  name : String
  collections : List String
  deriving DecidableEq

/-- The two registries of `AppState`. -/
structure Registries where
  collections : String → Option CollectionMeta
  aliases : String → Option CollectionAlias

/-- A request to one of the four handlers. -/
inductive RegistryRequest where
  | createCollection (name : String) (schema : SchemaConfig)
  | deleteCollection (name : String)
  | createAlias (name : String) (collections : List String)
  | deleteAlias (name : String)

/-- What a handler answers. -/
inductive RegistryResponse where
  | acknowledged
  | refused (e : ErrorResponse)
  | failed (e : DbError)

/-- How far the handler of a request has come. -/
inductive RequestPhase where
  | received
  /-- The alias is free; its targets are still to be looked up. -/
  | nameChecked
  | checked
  | committed
  | responded (response : RegistryResponse)

/-- `ErrorResponse` of a name that is taken. -/
def alreadyExists (kind name : String) : ErrorResponse :=
  ⟨409, "resource_already_exists", kind ++ " '" ++ name ++ "' already exists"⟩

/-- `ErrorResponse::bad_request`. -/
def ErrorResponse.badRequest (reason : String) : ErrorResponse := ⟨400, "invalid_input", reason⟩

namespace RegistryRequest

/-- The command that the handler proposes. -/
def command : RegistryRequest → RaftCommand
  | createCollection name schema => .createCollection name schema
  | deleteCollection name => .deleteCollection name
  | createAlias name collections => .createAlias name collections
  | deleteAlias name => .deleteAlias name

/-- The first look at the registries. -/
def checkName (r : Registries) : RegistryRequest → RequestPhase
  | createCollection name _ =>
      if (r.collections name).isSome then .responded (.refused (alreadyExists "collection" name))
      else .checked
  | deleteCollection name =>
      if (r.collections name).isSome then .checked
      else .responded (.refused (collectionNotFound name))
  | createAlias name _ =>
      if (r.aliases name).isSome then .responded (.refused (alreadyExists "alias" name))
      else .nameChecked
  | deleteAlias name =>
      if (r.aliases name).isSome then .checked
      else .responded (.refused (.notFound ("alias '" ++ name ++ "' not found")))

/-- The second look of `create_alias`: its targets. -/
def checkTargets (r : Registries) : RegistryRequest → RequestPhase
  | createAlias _ collections =>
      match collections.find? fun c => (r.collections c).isNone with
      | some missing =>
          .responded (.refused (.notFound ("target collection '" ++ missing ++ "' not found")))
      | none =>
          if collections = [] then
            .responded (.refused (.badRequest "alias must point to at least one collection"))
          else .checked
  | _ => .checked

end RegistryRequest

/-- A change of a registry. -/
inductive RegistryWrite where
  | collections (w : Write String CollectionMeta)
  | aliases (w : Write String CollectionAlias)

/-- What the handler does to the registries of its node after the answer. -/
def RegistryRequest.registryWrite : RegistryRequest → RegistryWrite
  | createCollection name _ => .collections (.put name ⟨0, FieldMapping.new⟩)
  | deleteCollection name => .collections (.delete name)
  | createAlias name collections => .aliases (.put name ⟨name, collections⟩)
  | deleteAlias name => .aliases (.delete name)

/-- The registries after a change. -/
def Registries.write (r : Registries) : RegistryWrite → Registries
  | .collections w => { r with collections := Write.exec r.collections w }
  | .aliases w => { r with aliases := Write.exec r.aliases w }

/-- A request that a node has received. -/
structure HandledRequest (ν : Type) where
  node : ν
  request : RegistryRequest
  phase : RequestPhase

/-- What a proposal returns: an answer, or an error, after which the command may be in
the log all the same. -/
inductive ProposalOutcome where
  | ok
  | failed (e : DbError) (appended : Bool)

/-- The nodes of a cluster, the log, and the requests received so far. The history is
the sequence of changes that the handlers have made. -/
structure RegistryCluster (ν : Type) where
  log : List RaftCommand
  applied : ν → Nat
  registries : ν → Registries
  requests : List (HandledRequest ν)
  history : List (ν × RegistryWrite)

/-- A step of one of the parties. A request is named by its number. -/
inductive RegistryStep (ν : Type) where
  | receive (node : ν) (request : RegistryRequest)
  | checkName (request : Nat)
  | checkTargets (request : Nat)
  | propose (request : Nat) (outcome : ProposalOutcome)
  | update (request : Nat)
  | apply (node : ν)

namespace RegistryCluster

variable {ν : Type}

/-- No node knows a collection or an alias. -/
def start : RegistryCluster ν :=
  ⟨[], fun _ => 0, fun _ => ⟨fun _ => none, fun _ => none⟩, [], []⟩

/-- Move the handler of a request on. -/
def setPhase (s : RegistryCluster ν) (i : Nat) (r : HandledRequest ν) (phase : RequestPhase) :
    RegistryCluster ν :=
  { s with requests := s.requests.set i { r with phase := phase } }

variable [DecidableEq ν]

/-- The cluster after a step; a step that is not possible changes nothing. -/
def step (s : RegistryCluster ν) : RegistryStep ν → RegistryCluster ν
  | .receive node request => { s with requests := s.requests ++ [⟨node, request, .received⟩] }
  | .checkName i =>
      match s.requests[i]? with
      | some r =>
          match r.phase with
          | .received => s.setPhase i r (r.request.checkName (s.registries r.node))
          | _ => s
      | none => s
  | .checkTargets i =>
      match s.requests[i]? with
      | some r =>
          match r.phase with
          | .nameChecked => s.setPhase i r (r.request.checkTargets (s.registries r.node))
          | _ => s
      | none => s
  | .propose i outcome =>
      match s.requests[i]? with
      | some r =>
          match r.phase, outcome with
          | .checked, .ok =>
              { s.setPhase i r .committed with log := s.log ++ [r.request.command] }
          | .checked, .failed e appended =>
              -- an error after the append leaves the command in the log
              { s.setPhase i r (.responded (.failed e)) with
                log := if appended then s.log ++ [r.request.command] else s.log }
          | _, _ => s
      | none => s
  | .update i =>
      match s.requests[i]? with
      | some r =>
          match r.phase with
          | .committed =>
              -- the handler changes the registries of its own node only
              let change := r.request.registryWrite
              { s.setPhase i r (.responded .acknowledged) with
                registries := Function.update s.registries r.node ((s.registries r.node).write change)
                history := s.history ++ [(r.node, change)] }
          | _ => s
      | none => s
  | .apply node =>
      if s.applied node < s.log.length then
        { s with applied := Function.update s.applied node (s.applied node + 1) }
      else s

/-- The cluster after a sequence of steps. -/
def run (s : RegistryCluster ν) (steps : List (RegistryStep ν)) : RegistryCluster ν :=
  steps.foldl step s

/-- All nodes have applied the same log and no request is in progress. -/
def Quiet (s : RegistryCluster ν) : Prop :=
  (∀ node, s.applied node = s.log.length) ∧
    ∀ r ∈ s.requests, ∃ response, r.phase = .responded response

/-- The registries of all nodes have the same names with the same targets. -/
def RegistriesAgree (s : RegistryCluster ν) : Prop :=
  ∀ n n' name,
    ((s.registries n).collections name).isSome = ((s.registries n').collections name).isSome ∧
      (s.registries n).aliases name = (s.registries n').aliases name

/-! ## Registries and the requests that were answered -/

/-- The changes of the collections that a node has made. -/
def collectionWrites (n : ν) (history : List (ν × RegistryWrite)) : List (Write String CollectionMeta) :=
  history.filterMap fun change =>
    match change with
    | (m, .collections w) => if m = n then some w else none
    | (_, .aliases _) => none

/-- The changes of the aliases that a node has made. -/
def aliasWrites (n : ν) (history : List (ν × RegistryWrite)) : List (Write String CollectionAlias) :=
  history.filterMap fun change =>
    match change with
    | (_, .collections _) => none
    | (m, .aliases w) => if m = n then some w else none

/-- The outcome of the last write to a key, where there is one. -/
def lastOutcome {α : Type} (name : String) (ws : List (Write String α)) : Option α :=
  (Write.lastTo name ws).bind Write.outcome

/-- For every name, the last request that each node has answered for it had the same
outcome: created, with the same targets for an alias, or deleted, which a node that has
answered none counts as. -/
def SameLast (history : List (ν × RegistryWrite)) : Prop :=
  ∀ n n' name,
    (lastOutcome name (collectionWrites n history)).isSome =
        (lastOutcome name (collectionWrites n' history)).isSome ∧
      lastOutcome name (aliasWrites n history) = lastOutcome name (aliasWrites n' history)

/-- The registries of a node are the outcome of its own changes. -/
def Local (s : RegistryCluster ν) : Prop :=
  ∀ n, (s.registries n).collections = Write.execAll (fun _ => none) (collectionWrites n s.history) ∧
    (s.registries n).aliases = Write.execAll (fun _ => none) (aliasWrites n s.history)

theorem local_update {s : RegistryCluster ν} (h : Local s) (node : ν) (change : RegistryWrite)
    (requests : List (HandledRequest ν)) :
    Local { s with
      requests := requests
      registries := Function.update s.registries node ((s.registries node).write change)
      history := s.history ++ [(node, change)] } := by
  intro n
  by_cases hn : node = n
  · subst hn
    cases change with
    | collections w =>
        simp only [Function.update_self, Registries.write, collectionWrites, aliasWrites,
          List.filterMap_append, List.filterMap_cons, List.filterMap_nil, if_true, List.append_nil]
        refine ⟨?_, (h node).2⟩
        rw [Write.execAll_append, (h node).1]
        rfl
    | aliases w =>
        simp only [Function.update_self, Registries.write, collectionWrites, aliasWrites,
          List.filterMap_append, List.filterMap_cons, List.filterMap_nil, if_true, List.append_nil]
        refine ⟨(h node).1, ?_⟩
        rw [Write.execAll_append, (h node).2]
        rfl
  · -- the other nodes see nothing of it
    simp only [Function.update_of_ne (Ne.symm hn)]
    cases change with
    | collections w => simpa [collectionWrites, aliasWrites, hn] using h n
    | aliases w => simpa [collectionWrites, aliasWrites, hn] using h n

/-- **One step.** Only a handler changes a registry, and only that of its own node. -/
theorem local_step {s : RegistryCluster ν} (h : Local s) (a : RegistryStep ν) : Local (s.step a) := by
  cases a with
  | receive node request => exact h
  | checkName i =>
      simp only [step]
      split
      · split
        · exact h
        · exact h
      · exact h
  | checkTargets i =>
      simp only [step]
      split
      · split
        · exact h
        · exact h
      · exact h
  | propose i outcome =>
      simp only [step]
      split
      · split
        · exact h
        · exact h
        · exact h
      · exact h
  | update i =>
      simp only [step]
      split
      · split
        · exact local_update h _ _ _
        · exact h
      · exact h
  | apply node =>
      simp only [step]
      split
      · exact h
      · exact h

theorem local_run (steps : List (RegistryStep ν)) : Local ((start : RegistryCluster ν).run steps) := by
  have hstart : Local (start : RegistryCluster ν) := fun n => ⟨rfl, rfl⟩
  induction steps using List.reverseRecOn with
  | nil => exact hstart
  | append_singleton steps a ih =>
      rw [run, List.foldl_append]
      exact local_step ih a

theorem execAll_none_apply {α : Type} (ws : List (Write String α)) (name : String) :
    Write.execAll (fun _ => none) ws name = lastOutcome name ws := by
  rw [Write.execAll_apply, lastOutcome]
  cases Write.lastTo name ws with
  | none => rfl
  | some w => rfl

theorem Local.agree_iff {s : RegistryCluster ν} (h : Local s) :
    RegistriesAgree s ↔ SameLast s.history := by
  refine forall_congr' fun n => forall_congr' fun n' => forall_congr' fun name => ?_
  rw [(h n).1, (h n).2, (h n').1, (h n').2]
  simp only [execAll_none_apply]

/-- **What replicates.** Whenever all nodes have applied the same log and no request is
in progress, their registries agree, if and only if at these times the last requests
that each node has answered for a name had the same outcome. -/
theorem registriesAgree_iff (steps : List (RegistryStep ν)) :
    (∀ pre, pre <+: steps → Quiet ((start : RegistryCluster ν).run pre) →
        RegistriesAgree ((start : RegistryCluster ν).run pre)) ↔
      ∀ pre, pre <+: steps → Quiet ((start : RegistryCluster ν).run pre) →
        SameLast ((start : RegistryCluster ν).run pre).history := by
  refine forall_congr' fun pre => forall_congr' fun _ => forall_congr' fun _ => ?_
  exact (local_run pre).agree_iff

/-- A node that leads creates a collection, and the other node applies the command. -/
def createAtOne : List (RegistryStep Bool) :=
  [.receive true (.createCollection "c" SchemaConfig.new), .checkName 0, .propose 0 .ok, .update 0,
    .apply true, .apply false]

/-- The other node does not know the collection. -/
theorem not_registriesAgree :
    Quiet ((start : RegistryCluster Bool).run createAtOne) ∧
      ¬ RegistriesAgree ((start : RegistryCluster Bool).run createAtOne) := by
  have hquiet : Quiet ((start : RegistryCluster Bool).run createAtOne) := by
    refine ⟨fun node => ?_, fun r hr => ?_⟩
    · cases node <;> rfl
    · have hmem : r ∈ [(⟨true, .createCollection "c" SchemaConfig.new,
          .responded .acknowledged⟩ : HandledRequest Bool)] := hr
      rw [List.mem_singleton.1 hmem]
      exact ⟨_, rfl⟩
  refine ⟨hquiet, fun h => ?_⟩
  have hagree := (h true false "c").1
  exact absurd hagree (by decide)

end RegistryCluster

end MSearchDB.Node
