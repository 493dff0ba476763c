import MSearchDB.Lib.Run
import MSearchDB.Node.Registries

/-!
# Aliases and the collections they point to

The registries of a node are sound when every alias points to collections that exist, to
at least one of them and to none twice, and when no alias has the name of a collection
(`resolve_search_targets` looks among the collections first, so such an alias is never
reached).

`create_alias` looks at the alias registry and at the targets and then proposes; the
update comes later and looks at nothing. `delete_collection` does not look at the aliases,
nor does `create_collection`. `sound_iff_admitted` says what has to hold when a handler
updates the registries: in a run, the registries of a node are sound all along exactly
when every update that its handlers make is admitted by the registries it finds.
-/

set_option autoImplicit false

namespace MSearchDB.Node

open MSearchDB.Lib
open MSearchDB.Core
open MSearchDB.Consensus

namespace Registries

/-- Aliases do not dangle. -/
structure Sound (r : Registries) : Prop where
  registered : ∀ name a, r.aliases name = some a → ∀ c ∈ a.collections, (r.collections c).isSome
  nonempty : ∀ name a, r.aliases name = some a → a.collections ≠ []
  nodup : ∀ name a, r.aliases name = some a → a.collections.Nodup
  apart : ∀ name a, r.aliases name = some a → r.collections name = none

/-- The registries at the time of the update that a request asks for. -/
def Admits (r : Registries) : RegistryRequest → Prop
  | .createCollection name _ => r.aliases name = none
  | .deleteCollection name => ∀ key a, r.aliases key = some a → name ∉ a.collections
  | .createAlias name targets =>
      targets.Nodup ∧ (∀ c ∈ targets, (r.collections c).isSome) ∧ r.collections name = none
  | .deleteAlias _ => True

theorem sound_empty : Sound ⟨fun _ => none, fun _ => none⟩ :=
  ⟨nofun, nofun, nofun, nofun⟩

variable {r : Registries}

/-! ## The registries after an update -/

theorem collections_createCollection (name : String) (schema : SchemaConfig) (c : String) :
    (r.write (RegistryRequest.createCollection name schema).registryWrite).collections c =
      if c = name then some ⟨0, FieldMapping.new⟩ else r.collections c :=
  Function.update_apply r.collections name (some ⟨0, FieldMapping.new⟩) c

theorem collections_deleteCollection (name c : String) :
    (r.write (RegistryRequest.deleteCollection name).registryWrite).collections c =
      if c = name then none else r.collections c :=
  Function.update_apply r.collections name none c

theorem aliases_createAlias (name : String) (targets : List String) (key : String) :
    (r.write (RegistryRequest.createAlias name targets).registryWrite).aliases key =
      if key = name then some ⟨name, targets⟩ else r.aliases key :=
  Function.update_apply r.aliases name (some ⟨name, targets⟩) key

theorem aliases_deleteAlias (name key : String) :
    (r.write (RegistryRequest.deleteAlias name).registryWrite).aliases key =
      if key = name then none else r.aliases key :=
  Function.update_apply r.aliases name none key

theorem sound_createCollection_iff (h : r.Sound) (name : String) (schema : SchemaConfig) :
    (r.write (RegistryRequest.createCollection name schema).registryWrite).Sound ↔
      r.Admits (.createCollection name schema) := by
  constructor
  · intro hnext
    by_contra hsome
    obtain ⟨a, ha⟩ : ∃ a, r.aliases name = some a := Option.ne_none_iff_exists'.1 hsome
    have hnone := hnext.apart name a ha
    rw [collections_createCollection, if_pos rfl] at hnone
    exact nomatch hnone
  · intro hfree
    refine ⟨fun key a ha c hc => ?_, h.nonempty, h.nodup, fun key a ha => ?_⟩
    · rw [collections_createCollection]
      split
      · rfl
      · exact h.registered key a ha c hc
    · rw [collections_createCollection, if_neg]
      · exact h.apart key a ha
      · -- the name of the collection is not that of an alias
        rintro rfl
        have hnone : r.aliases key = none := hfree
        exact nomatch hnone.symm.trans ha

theorem sound_deleteCollection_iff (h : r.Sound) (name : String) :
    (r.write (RegistryRequest.deleteCollection name).registryWrite).Sound ↔
      r.Admits (.deleteCollection name) := by
  constructor
  · intro hnext key a ha hmem
    have hsome := hnext.registered key a ha name hmem
    rw [collections_deleteCollection, if_pos rfl] at hsome
    exact nomatch hsome
  · intro hunused
    refine ⟨fun key a ha c hc => ?_, h.nonempty, h.nodup, fun key a ha => ?_⟩
    · have hne : c ≠ name := fun heq => hunused key a ha (heq ▸ hc)
      rw [collections_deleteCollection, if_neg hne]
      exact h.registered key a ha c hc
    · rw [collections_deleteCollection]
      split
      · rfl
      · exact h.apart key a ha

theorem sound_createAlias_iff (h : r.Sound) (name : String) {targets : List String}
    (htargets : targets ≠ []) :
    (r.write (RegistryRequest.createAlias name targets).registryWrite).Sound ↔
      r.Admits (.createAlias name targets) := by
  constructor
  · intro hnext
    have hself : (r.write (RegistryRequest.createAlias name targets).registryWrite).aliases name =
        some ⟨name, targets⟩ := by
      rw [aliases_createAlias, if_pos rfl]
    exact ⟨hnext.nodup name _ hself, hnext.registered name _ hself, hnext.apart name _ hself⟩
  · rintro ⟨hnodup, hregistered, hapart⟩
    -- an alias after the update is the new one or one of before
    have hcases : ∀ key a,
        (r.write (RegistryRequest.createAlias name targets).registryWrite).aliases key = some a →
          (key = name ∧ a = ⟨name, targets⟩) ∨ r.aliases key = some a := by
      intro key a ha
      rw [aliases_createAlias] at ha
      split at ha
      · exact .inl ⟨‹_›, (Option.some.inj ha).symm⟩
      · exact .inr ha
    refine ⟨fun key a ha => ?_, fun key a ha => ?_, fun key a ha => ?_, fun key a ha => ?_⟩
    · rcases hcases key a ha with ⟨-, rfl⟩ | hold
      · exact hregistered
      · exact h.registered key a hold
    · rcases hcases key a ha with ⟨-, rfl⟩ | hold
      · exact htargets
      · exact h.nonempty key a hold
    · rcases hcases key a ha with ⟨-, rfl⟩ | hold
      · exact hnodup
      · exact h.nodup key a hold
    · rcases hcases key a ha with ⟨rfl, -⟩ | hold
      · exact hapart
      · exact h.apart key a hold

theorem sound_deleteAlias (h : r.Sound) (name : String) :
    (r.write (RegistryRequest.deleteAlias name).registryWrite).Sound := by
  have hold : ∀ key a,
      (r.write (RegistryRequest.deleteAlias name).registryWrite).aliases key = some a →
        r.aliases key = some a := by
    intro key a ha
    rw [aliases_deleteAlias] at ha
    split at ha
    · exact nomatch ha
    · exact ha
  exact ⟨fun key a ha => h.registered key a (hold key a ha),
    fun key a ha => h.nonempty key a (hold key a ha),
    fun key a ha => h.nodup key a (hold key a ha),
    fun key a ha => h.apart key a (hold key a ha)⟩

/-- An update keeps sound registries sound exactly where they admit it. -/
theorem sound_write_iff (h : r.Sound) {request : RegistryRequest}
    (htargets : ∀ name targets, request = .createAlias name targets → targets ≠ []) :
    (r.write request.registryWrite).Sound ↔ r.Admits request := by
  cases request with
  | createCollection name schema => exact sound_createCollection_iff h name schema
  | deleteCollection name => exact sound_deleteCollection_iff h name
  | createAlias name targets => exact sound_createAlias_iff h name (htargets name targets rfl)
  | deleteAlias name => exact ⟨fun _ => trivial, fun _ => sound_deleteAlias h name⟩

end Registries

namespace RegistryCluster

variable {ν : Type}

/-- A request that is past the checks of its handler has a target if it creates an
alias. -/
def TargetsChecked (r : HandledRequest ν) : Prop :=
  r.phase = .checked ∨ r.phase = .committed →
    ∀ name targets, r.request = .createAlias name targets → targets ≠ []

theorem targetsChecked_checkName (r : HandledRequest ν) (registries : Registries) :
    TargetsChecked { r with phase := r.request.checkName registries } := by
  rintro hphase name targets hrequest
  have hrequest : r.request = .createAlias name targets := hrequest
  simp only [hrequest, RegistryRequest.checkName] at hphase
  split at hphase
  · simp at hphase
  · simp at hphase

theorem targetsChecked_checkTargets (r : HandledRequest ν) (registries : Registries) :
    TargetsChecked { r with phase := r.request.checkTargets registries } := by
  rintro hphase name targets hrequest
  have hrequest : r.request = .createAlias name targets := hrequest
  simp only [hrequest, RegistryRequest.checkTargets] at hphase
  split at hphase
  · simp at hphase
  · split at hphase
    · simp at hphase
    · assumption

theorem targetsChecked_responded (r : HandledRequest ν) (response : RegistryResponse) :
    TargetsChecked { r with phase := .responded response } := by
  intro hphase
  simp at hphase

variable [DecidableEq ν]

/-- **One step.** No handler gets past its checks with an alias for nothing. -/
theorem targetsChecked_step (s : RegistryCluster ν) (a : RegistryStep ν)
    (h : ∀ r ∈ s.requests, TargetsChecked r) : ∀ r ∈ (s.step a).requests, TargetsChecked r := by
  cases a with
  | receive node request =>
      refine forall_mem_concat h ?_
      intro hphase
      simp at hphase
  | checkName i =>
      simp only [step]
      split
      · split
        · exact forall_mem_set h (targetsChecked_checkName _ _)
        · exact h
      · exact h
  | checkTargets i =>
      simp only [step]
      split
      · split
        · exact forall_mem_set h (targetsChecked_checkTargets _ _)
        · exact h
      · exact h
  | propose i outcome =>
      simp only [step]
      split
      · rename_i r hr
        split
        · rename_i hchecked
          -- the request is past its checks and waits for the answer
          refine forall_mem_set h fun _ => ?_
          exact h r (List.mem_of_getElem? hr) (.inl hchecked)
        · exact forall_mem_set h (targetsChecked_responded _ _)
        · exact h
      · exact h
  | update i =>
      simp only [step]
      split
      · split
        · exact forall_mem_set h (targetsChecked_responded _ _)
        · exact h
      · exact h
  | apply node =>
      simp only [step]
      split
      · exact h
      · exact h

/-- An update that a handler makes on the node is admitted by the registries that it
finds there. -/
def UpdateAdmitted (n : ν) (s : RegistryCluster ν) : RegistryStep ν → Prop
  | .update i =>
      ∀ r, s.requests[i]? = some r → r.phase = .committed → r.node = n →
        (s.registries n).Admits r.request
  | _ => True

/-- Only an update changes registries. -/
theorem registries_step (s : RegistryCluster ν) (a : RegistryStep ν) (h : ∀ i, a ≠ .update i) :
    (s.step a).registries = s.registries := by
  cases a with
  | receive node request => rfl
  | checkName i =>
      simp only [step]
      split
      · split
        · rfl
        · rfl
      · rfl
  | checkTargets i =>
      simp only [step]
      split
      · split
        · rfl
        · rfl
      · rfl
  | propose i outcome =>
      simp only [step]
      split
      · split
        · rfl
        · rfl
        · rfl
      · rfl
  | update i => exact absurd rfl (h i)
  | apply node =>
      simp only [step]
      split
      · rfl
      · rfl

theorem sound_update_iff (n : ν) {s : RegistryCluster ν} (hchecked : ∀ r ∈ s.requests, TargetsChecked r)
    (hsound : (s.registries n).Sound) (i : Nat) :
    ((s.step (.update i)).registries n).Sound ↔ UpdateAdmitted n s (.update i) := by
  simp only [step, UpdateAdmitted]
  split
  · rename_i r hr
    split
    · rename_i hphase
      by_cases hn : r.node = n
      · have htargets := hchecked r (List.mem_of_getElem? hr) (.inr hphase)
        subst hn
        simp only [Function.update_self, Registries.sound_write_iff hsound htargets]
        constructor
        · intro hadmits r' hr' _ _
          rw [hr] at hr'
          rwa [← Option.some.inj hr']
        · exact fun hadmits => hadmits r hr hphase rfl
      · simp only [Function.update_of_ne (Ne.symm hn), hsound, true_iff]
        intro r' hr' _ hn'
        rw [hr] at hr'
        exact absurd (Option.some.inj hr' ▸ hn') hn
    · rename_i hphase
      refine iff_of_true hsound fun r' hr' hphase' => ?_
      rw [hr] at hr'
      exact absurd (Option.some.inj hr' ▸ hphase') hphase
  · rename_i hnone
    refine iff_of_true hsound fun r' hr' => ?_
    rw [hnone] at hr'
    cases hr'

/-- **When aliases never dangle.** In every run of the handlers of all nodes, the
registries of a node are sound after every step, if and only if every update that the
handlers of the node make is admitted by the registries before it. -/
theorem sound_iff_admitted (n : ν) (steps : List (RegistryStep ν)) :
    (∀ pre, pre <+: steps → (((start : RegistryCluster ν).run pre).registries n).Sound) ↔
      Along step (UpdateAdmitted n) (start : RegistryCluster ν) steps := by
  have hstart : ∀ r ∈ (start : RegistryCluster ν).requests, TargetsChecked r := by simp [start]
  refine forall_prefix_iff_along (I := fun s : RegistryCluster ν => ∀ r ∈ s.requests, TargetsChecked r)
    (P := fun s => (s.registries n).Sound) targetsChecked_step ?_ hstart Registries.sound_empty steps
  intro s a hchecked hsound
  cases a with
  | update i => exact sound_update_iff n hchecked hsound i
  | receive node request =>
      rw [registries_step s (.receive node request) nofun]
      exact iff_of_true hsound trivial
  | checkName i =>
      rw [registries_step s (.checkName i) nofun]
      exact iff_of_true hsound trivial
  | checkTargets i =>
      rw [registries_step s (.checkTargets i) nofun]
      exact iff_of_true hsound trivial
  | propose i outcome =>
      rw [registries_step s (.propose i outcome) nofun]
      exact iff_of_true hsound trivial
  | apply node =>
      rw [registries_step s (.apply node) nofun]
      exact iff_of_true hsound trivial

/-- A collection with an alias is deleted. -/
def deleteTarget : List (RegistryStep Unit) :=
  [.receive () (.createCollection "c" SchemaConfig.new), .checkName 0, .propose 0 .ok, .update 0,
    .receive () (.createAlias "a" ["c"]), .checkName 1, .checkTargets 1, .propose 1 .ok, .update 1,
    .receive () (.deleteCollection "c"), .checkName 2, .propose 2 .ok, .update 2]

/-- The alias is left with a target that does not exist. -/
theorem not_sound_deleteTarget :
    ¬ (((start : RegistryCluster Unit).run deleteTarget).registries ()).Sound := by
  intro h
  have halias : (((start : RegistryCluster Unit).run deleteTarget).registries ()).aliases "a" =
      some ⟨"a", ["c"]⟩ := by decide
  have hsome := h.registered "a" _ halias "c" (by decide)
  exact absurd hsome (by decide)

end RegistryCluster

end MSearchDB.Node
