import MSearchDB.Node.FieldTypes

/-!
# Creating a collection twice

`create_collection` looks for the name in the registry, proposes its command, and then puts
a new entry into the registry without a second look. The command succeeds for a collection
that exists already, so the entry of the registry is all that tells two creations apart.

`createdOnce_iff` says when that is enough: exactly when no entry is in the registry at the
moment at which a new one is put there.
-/

set_option autoImplicit false

namespace MSearchDB.Node

open MSearchDB.Lib
open MSearchDB.Core
open MSearchDB.Consensus

/-! ## Counting in the history -/

namespace NodeEvent

/-- The count of creations of a collection since its last deletion. -/
def countCreated (name : String) (n : Nat) : NodeEvent → Nat
  | created c _ => if c = name then n + 1 else n
  | deleted c => if c = name then 0 else n
  | accepted _ _ => n

/-- The documents accepted into a collection since its last deletion. -/
def addAccepted (name : String) (docs : List Document) : NodeEvent → List Document
  | created _ _ => docs
  | deleted c => if c = name then [] else docs
  | accepted c doc => if c = name then docs ++ [doc] else docs

end NodeEvent

/-- How often a collection has been created since it was last deleted. -/
def createdSince (name : String) (history : List NodeEvent) : Nat := history.foldl (NodeEvent.countCreated name) 0

/-- The documents that have been accepted into a collection since it was last deleted. -/
def acceptedSince (name : String) (history : List NodeEvent) : List Document :=
  history.foldl (NodeEvent.addAccepted name) []

/-- No creation has replaced an entry after a document had been accepted. -/
def NeverReset (name : String) (history : List NodeEvent) : Prop :=
  ∀ before replaced after, history = before ++ .created name (some replaced) :: after →
    acceptedSince name before = []

theorem createdSince_append (name : String) (history events : List NodeEvent) :
    createdSince name (history ++ events) = events.foldl (NodeEvent.countCreated name) (createdSince name history) :=
  List.foldl_append

theorem foldl_countCreated_accepted (name c : String) (docs : List Document) (n : Nat) :
    (docs.map (NodeEvent.accepted c)).foldl (NodeEvent.countCreated name) n = n := by
  induction docs with
  | nil => rfl
  | cons doc docs ih => exact ih

/-- Events that replace no entry. -/
theorem NeverReset.append {name : String} {history events : List NodeEvent} (h : NeverReset name history)
    (hevents : ∀ replaced, .created name (some replaced) ∉ events) : NeverReset name (history ++ events) := by
  intro before replaced after heq
  rcases List.append_eq_append_iff.1 heq with ⟨mid, -, htail⟩ | ⟨mid, hhistory, htail⟩
  · refine absurd ?_ (hevents replaced)
    rw [htail]
    exact List.mem_append_right _ List.mem_cons_self
  · cases mid with
    | nil =>
        refine absurd ?_ (hevents replaced)
        rw [List.nil_append] at htail
        rw [← htail]
        exact List.mem_cons_self
    | cons event mid =>
        obtain ⟨rfl, -⟩ := List.cons.inj htail
        exact h before replaced mid hhistory

namespace TracedWrite

/-- The count after the answer of a write. -/
def countAfter (name : String) (w : TracedWrite) (n : Nat) : Nat :=
  match w.request with
  | .createCollection c _ => if c = name then n + 1 else n
  | .deleteCollection c => if c = name then 0 else n
  | _ => n

theorem foldl_countCreated_events (name : String) (w : TracedWrite) (entry : Option CollectionMeta) (n : Nat) :
    (w.events entry).foldl (NodeEvent.countCreated name) n = w.countAfter name n := by
  unfold events countAfter
  cases w.request with
  | createCollection c schema => rfl
  | deleteCollection c => rfl
  | _ => exact foldl_countCreated_accepted _ _ _ _

/-- Only a creation replaces an entry. -/
theorem created_mem_events {name : String} {w : TracedWrite} {entry : Option CollectionMeta} {replaced : CollectionMeta}
    (h : .created name (some replaced) ∈ w.events entry) :
    (∃ schema, w.request = .createCollection name schema) ∧ entry = some replaced := by
  unfold events at h
  cases hrequest : w.request with
  | createCollection c schema =>
      simp only [hrequest, List.mem_singleton, NodeEvent.created.injEq] at h
      exact ⟨⟨schema, by rw [h.1]⟩, h.2.symm⟩
  | _ => simp [hrequest] at h

end TracedWrite

namespace HandlerNode

/-! ## The property -/

/-- A collection is created at most once between two deletions, and not reset. -/
structure CreatedOnce (name : String) (s : HandlerNode) : Prop where
  /-- At most one creation is acknowledged between two deletions. -/
  once : createdSince name s.history ≤ 1
  /-- A creation that is refused answers that the collection exists. -/
  conflict : ∀ w ∈ s.writes, ∀ schema e, w.request = .createCollection name schema → w.phase = .refused e →
    e.status = 409
  /-- No creation resets the entry after a document has been accepted. -/
  kept : NeverReset name s.history

/-- A creation finds no entry in the place where it puts a new one. -/
def FindsNone (name : String) (s : HandlerNode) (w : TracedWrite) : Prop :=
  ∀ schema, w.request = .createCollection name schema → s.registries.collections name = none

/-- The entry of a collection is there since its creation. -/
structure Registered (name : String) (s : HandlerNode) : Prop where
  entry : (s.registries.collections name).isSome ↔ 0 < createdSince name s.history
  conflict : ∀ w ∈ s.writes, ∀ schema e, w.request = .createCollection name schema → w.phase = .refused e →
    e.status = 409

theorem registered_start (name : String) : Registered name start :=
  ⟨by simp [start, createdSince], fun _ hw => absurd hw List.not_mem_nil⟩

section Steps

variable {s s' : HandlerNode} {a : HandlerStep} {name : String}

theorem entry_answer (h : Registered name s) (i : Nat) (w : TracedWrite) :
    ((s.answer i w).registries.collections name).isSome ↔ 0 < createdSince name (s.answer i w).history := by
  simp only [answer, createdSince_append, TracedWrite.foldl_countCreated_events]
  by_cases hcollection : w.request.collection = name
  · rw [hcollection, Function.update_self, TracedWrite.updateMeta, TracedWrite.countAfter]
    cases hrequest : w.request with
    | createCollection c schema =>
        rw [hrequest] at hcollection
        simp [show c = name from hcollection]
    | deleteCollection c =>
        rw [hrequest] at hcollection
        simp [show c = name from hcollection]
    | upsert c id fields => exact h.entry
    | _ => simpa using h.entry
  · rw [Function.update_of_ne (Ne.symm hcollection), TracedWrite.countAfter]
    cases hrequest : w.request with
    | createCollection c schema =>
        rw [hrequest] at hcollection
        simpa [show c ≠ name from hcollection] using h.entry
    | deleteCollection c =>
        rw [hrequest] at hcollection
        simpa [show c ≠ name from hcollection] using h.entry
    | _ => exact h.entry

variable [BulkInput]

/-- A creation is refused for one reason only. -/
theorem check_create_refused {request : WriteRequest} {schema : SchemaConfig}
    (hrequest : request = .createCollection name schema) {mappings : String → Option FieldMapping} {e : ErrorResponse}
    (h : request.check mappings = .refused e) : e.status = 409 := by
  rw [hrequest] at h
  cases hmapping : mappings name with
  | none => simp [WriteRequest.check, WriteRequest.collection, hmapping] at h
  | some mapping =>
      simp only [WriteRequest.check, WriteRequest.collection, hmapping, WritePhase.refused.injEq] at h
      rw [← h]
      rfl

theorem conflict_step (h : Registered name s) (hmoved : Moved s a s') :
    ∀ w ∈ s'.writes, ∀ schema e, w.request = .createCollection name schema → w.phase = .refused e →
      e.status = 409 := by
  cases hmoved with
  | idle => exact h.conflict
  | receive request => exact forall_mem_concat h.conflict (fun _ _ _ hphase => by cases hphase)
  | check hw hphase =>
      exact forall_mem_set h.conflict fun schema e hrequest hrefused => check_create_refused hrequest hrefused
  | validate hw hphase hrequest hvalid => exact forall_mem_set h.conflict (fun _ _ _ hphase => by cases hphase)
  | conflict hw hphase => exact forall_mem_set h.conflict (fun _ _ _ hphase => by cases hphase)
  | answered resp hw hphase => exact forall_mem_set h.conflict (fun _ _ _ hphase => by cases hphase)
  | failed e appended hw hphase =>
      refine forall_mem_set h.conflict fun schema e' hrequest hrefused => ?_
      have hfailed : WriteRequest.afterFailure _ e _ = .refused e' := hrefused
      rw [show _ = WriteRequest.createCollection name schema from hrequest] at hfailed
      cases hfailed
  | respond hw hphase => exact forall_mem_set h.conflict (fun _ _ _ hphase => by cases hphase)
  | search htargets => exact h.conflict
  | aliases change => exact h.conflict

theorem Registered.step (h : Registered name s) (a : HandlerStep) : Registered name (s.step a) where
  entry := by
    refine step_of_answer (P := fun s => (s.registries.collections name).isSome ↔ 0 < createdSince name s.history)
      (fun s' hcollections hhistory => ?_) (fun i w _ _ => entry_answer h i w) a
    rw [hcollections, hhistory]
    exact h.entry
  conflict := conflict_step h (moved_step s a)

omit [BulkInput] in
/-- What the answer of a write does to the count and to the entry. -/
theorem Registered.answer_iff (h : Registered name s) (honce : createdSince name s.history ≤ 1)
    (hkept : NeverReset name s.history) (i : Nat) (w : TracedWrite) :
    createdSince name (s.answer i w).history ≤ 1 ∧ NeverReset name (s.answer i w).history ↔ FindsNone name s w := by
  have hcount : createdSince name (s.answer i w).history = w.countAfter name (createdSince name s.history) := by
    simp only [answer, createdSince_append, TracedWrite.foldl_countCreated_events]
  have hzero : s.registries.collections name = none ↔ createdSince name s.history = 0 := by
    rw [← Option.not_isSome_iff_eq_none, h.entry, Nat.pos_iff_ne_zero, not_not]
  constructor
  · intro hafter schema hrequest
    rw [hcount, TracedWrite.countAfter, hrequest] at hafter
    have hle : createdSince name s.history + 1 ≤ 1 := by simpa using hafter.1
    exact hzero.2 (by omega)
  · intro hfinds
    constructor
    · rw [hcount, TracedWrite.countAfter]
      cases hrequest : w.request with
      | createCollection c schema =>
          by_cases hc : c = name
          · rw [hc] at hrequest
            simp [hc, hzero.1 (hfinds schema hrequest)]
          · simpa [hc] using honce
      | deleteCollection c =>
          by_cases hc : c = name
          · simp [hc]
          · simpa [hc] using honce
      | _ => exact honce
    · refine hkept.append fun replaced hmem => ?_
      obtain ⟨⟨schema, hrequest⟩, hentry⟩ := TracedWrite.created_mem_events hmem
      have hreplaced : s.registries.collections name = some replaced := by
        rw [hrequest] at hentry
        exact hentry
      cases hreplaced.symm.trans (hfinds schema hrequest)

/-- **Creating a collection twice.** In every state of a run a collection has been created
at most once since its last deletion, the other creations have been refused with 409, and no
creation has reset the entry after a document had been accepted, if and only if no creation
puts its entry in the place of another. -/
theorem createdOnce_iff (name : String) (steps : List HandlerStep) :
    (∀ pre, pre <+: steps → CreatedOnce name (start.run pre)) ↔
      Along HandlerNode.step (AtAnswer (FindsNone name)) start steps := by
  refine forall_prefix_iff_along (I := Registered name) (fun s a hs => hs.step a) (fun s a hs hP => ?_)
    (registered_start name) ?_ steps
  · have hsplit : CreatedOnce name (s.step a) ↔
        createdSince name (s.step a).history ≤ 1 ∧ NeverReset name (s.step a).history :=
      ⟨fun hnext => ⟨hnext.once, hnext.kept⟩, fun hnext => ⟨hnext.1, (hs.step a).conflict, hnext.2⟩⟩
    rw [hsplit]
    refine step_iff_atAnswer (P := fun s => createdSince name s.history ≤ 1 ∧ NeverReset name s.history)
      (fun s' _ hhistory => ?_) (fun i w _ _ => hs.answer_iff hP.once hP.kept i w) a
    rw [hhistory]
    exact ⟨hP.once, hP.kept⟩
  · refine ⟨Nat.zero_le 1, fun _ hw => absurd hw List.not_mem_nil, fun before replaced after heq => ?_⟩
    cases before <;> cases heq

end Steps

/-- Two requests create the collection; a document is accepted before the second of them puts
its entry into the registry. -/
def createTwice : List HandlerStep :=
  [.receive (.createCollection "c" .new), .receive (.createCollection "c" .new), .check 0, .check 1,
    .propose 0 (.answered .okNoId), .respond 0] ++ post 2 "a" (.string "x") ++
    [.propose 1 (.answered .okNoId), .respond 1]

/-- Both are answered with 200, and the count and the mapping are as in a new collection. -/
theorem not_createdOnce_createTwice :
    (start.run createTwice).writes.map (fun w => w.phase) = [.responded, .responded, .responded] ∧
      (start.run createTwice).registries.collections "c" = some ⟨0, FieldMapping.new⟩ ∧
      ¬ CreatedOnce "c" (start.run createTwice) := by
  have hcount : createdSince "c" (start.run createTwice).history = 2 := by decide +kernel
  refine ⟨by decide +kernel, by decide +kernel, fun h => ?_⟩
  exact absurd h.once (by rw [hcount]; decide)

end HandlerNode

end MSearchDB.Node
