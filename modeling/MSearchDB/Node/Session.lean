import MSearchDB.Lib.Run
import MSearchDB.Core.Error

/-!
# Session tokens

`SessionToken` and `SessionManager` of `crates/node/src/session.rs`, and the part of
the document handlers that makes a token after a write and waits for one before a
read.

A cluster is a log that grows, the number of its entries that each node's state
machine has applied, and the session manager of each node. A document write appends an
entry, is answered once some node, the leader, has applied it, and then its handler
takes three steps on the session manager of its own node: it loads the counter,
advances it to the value loaded plus one, and returns that value as the token. Any
number of handlers run at the same time, on any nodes, and nodes apply the log as late
as they like.

The counter of a node counts writes handled there, not entries of the log, so a token
of one node says nothing about another. `readYourWrites_of_along` says which runs have
the guarantee all the same: those in which the nodes that handle document writes are
never behind a write that has returned.
-/

set_option autoImplicit false

namespace MSearchDB.Node

open MSearchDB.Lib
open MSearchDB.Core

/-! ## Tokens and counters -/

/-- `SessionToken`. -/
structure SessionToken where
  committedIndex : UInt64
  deriving DecidableEq

/-- `SessionToken::encode`. -/
def SessionToken.encode (t : SessionToken) : String :=
  "msearchdb:" ++ Nat.repr t.committedIndex.toNat

/-- `str::parse::<u64>`: decimal digits after at most one plus sign. -/
def parseU64 (cs : List Char) : Option UInt64 :=
  let digits := match cs with
    | '+' :: cs => cs
    | cs => cs
  if digits ≠ [] ∧ digits.all Char.isDigit then
    let n := Nat.ofDigitChars 10 digits 0
    if n < 2 ^ 64 then some (UInt64.ofNat n) else none
  else none

/-- `SessionToken::decode`. -/
def SessionToken.decode (s : String) : Option SessionToken :=
  (s.toList.dropPrefix? "msearchdb:".toList).bind fun rest =>
    (parseU64 rest).map SessionToken.mk

/-- `SessionManager`. -/
structure SessionManager where
  appliedIndex : UInt64

namespace SessionManager

/-- `SessionManager::new`. -/
def new : SessionManager := ⟨0⟩

/-- `SessionManager::advance_applied_index`. -/
def advanceAppliedIndex (s : SessionManager) (index : UInt64) : SessionManager :=
  ⟨max s.appliedIndex index⟩

/-- `SessionManager::current_applied_index`. -/
def currentAppliedIndex (s : SessionManager) : UInt64 := s.appliedIndex

/-- The check of `SessionManager::wait_for_index`, which returns `Ok` at the first time
that it succeeds. -/
def reached (s : SessionManager) (targetIndex : UInt64) : Bool := s.appliedIndex ≥ targetIndex

end SessionManager

theorem parseU64_repr (n : UInt64) : parseU64 (Nat.repr n.toNat).toList = some n := by
  have hdigits : ∀ c ∈ Nat.toDigits 10 n.toNat, c.isDigit := fun c hc =>
    Nat.isDigit_of_mem_toDigits (by decide) (by decide) hc
  have hlt := n.toNat_lt
  rw [Nat.toList_repr, parseU64]
  · simp [Nat.toDigits_ne_nil, hlt, List.all_eq_true.2 hdigits]
  · -- the first digit is not a plus sign
    intro cs hcs
    have hplus := hdigits '+' (by rw [hcs]; exact List.mem_cons_self)
    exact absurd hplus (by decide)

/-- A token comes back as it was sent. -/
theorem SessionToken.decode_encode (t : SessionToken) : SessionToken.decode t.encode = some t := by
  have hdrop : t.encode.toList.dropPrefix? "msearchdb:".toList =
      some (Nat.repr t.committedIndex.toNat).toList := by
    rw [List.dropPrefix?_eq_some_iff]
    exact ⟨_, String.toList_append, beq_self_eq_true _⟩
  rw [decode, hdrop, Option.bind_some, parseU64_repr]
  rfl

/-- The part of `get_document` that honours a token: whether the handler goes on to
read. -/
def tokenPasses (s : SessionManager) (header : Option String) : Bool :=
  match header.bind SessionToken.decode with
  | none => true
  | some token => s.reached token.committedIndex

theorem tokenPasses_encode (s : SessionManager) (t : SessionToken) :
    tokenPasses s (some t.encode) = true ↔ t.committedIndex ≤ s.appliedIndex := by
  simp [tokenPasses, SessionToken.decode_encode, SessionManager.reached]

/-! ## A cluster -/

/-- How far the handler of a document write has come. -/
inductive Phase where
  | proposed
  | answered
  | loaded (applied : UInt64)
  | advanced (token : SessionToken)
  | returned (token : SessionToken)
  deriving DecidableEq

/-- A document write: the node that handles it and the index of its log entry. -/
structure DocumentWrite (ν : Type) where
  node : ν
  entry : Nat
  phase : Phase

/-- The cluster: the length of the log, and for each node the entries it has applied
and its session manager. -/
structure Cluster (ν : Type) where
  log : Nat
  applied : ν → Nat
  sessions : ν → SessionManager
  writes : List (DocumentWrite ν)

/-- A step of one of the parties. A write is named by its number. -/
inductive ClusterStep (ν : Type) where
  /-- An entry that is no document write enters the log. -/
  | append
  /-- A handler proposes a document write. -/
  | propose (node : ν)
  /-- A state machine applies the next entry. -/
  | apply (node : ν)
  /-- The proposal returns, after the leader has applied the entry. -/
  | answer (write : Nat) (leader : ν)
  | load (write : Nat)
  | advance (write : Nat)
  | respond (write : Nat)

namespace Cluster

variable {ν : Type}

/-- Nothing has been written. -/
def start : Cluster ν := ⟨0, fun _ => 0, fun _ => .new, []⟩

/-- Move the handler of a write on. -/
def setPhase (s : Cluster ν) (write : Nat) (w : DocumentWrite ν) (phase : Phase) : Cluster ν :=
  { s with writes := s.writes.set write { w with phase := phase } }

variable [DecidableEq ν]

/-- The cluster after a step; a step that is not possible changes nothing. -/
def step (s : Cluster ν) : ClusterStep ν → Cluster ν
  | .append => { s with log := s.log + 1 }
  | .propose node =>
      { s with
        log := s.log + 1
        writes := s.writes ++ [⟨node, s.log + 1, .proposed⟩] }
  | .apply node =>
      if s.applied node < s.log then
        { s with applied := Function.update s.applied node (s.applied node + 1) }
      else s
  | .answer i leader =>
      match s.writes[i]? with
      | some w =>
          match w.phase with
          -- `client_write` returns what the state machine of the leader answered
          | .proposed => if w.entry ≤ s.applied leader then s.setPhase i w .answered else s
          | _ => s
      | none => s
  | .load i =>
      match s.writes[i]? with
      | some w =>
          match w.phase with
          | .answered => s.setPhase i w (.loaded (s.sessions w.node).currentAppliedIndex)
          | _ => s
      | none => s
  | .advance i =>
      match s.writes[i]? with
      | some w =>
          match w.phase with
          | .loaded applied =>
              -- the token is one more than the local counter, whatever the index of the entry
              let token : SessionToken := ⟨applied + 1⟩
              let session := (s.sessions w.node).advanceAppliedIndex token.committedIndex
              { s.setPhase i w (.advanced token) with
                sessions := Function.update s.sessions w.node session }
          | _ => s
      | none => s
  | .respond i =>
      match s.writes[i]? with
      | some w =>
          match w.phase with
          | .advanced token => s.setPhase i w (.returned token)
          | _ => s
      | none => s

/-- The cluster after a sequence of steps. -/
def run (s : Cluster ν) (steps : List (ClusterStep ν)) : Cluster ν := steps.foldl step s

/-- A read that carries the token of a write passes only where the entry of the write
has been applied. -/
def ReadYourWrites (s : Cluster ν) : Prop :=
  ∀ w ∈ s.writes, ∀ token, w.phase = .returned token →
    ∀ node, tokenPasses (s.sessions node) (some token.encode) = true → w.entry ≤ s.applied node

/-- A node with a counter above zero, one that has handled a document write, is up to
date: when a handler advances the counter of its node, the node has applied every write
that has returned, and when a handler returns, all such nodes have applied its write.
The counter does not overflow. -/
def UpToDate (s : Cluster ν) : ClusterStep ν → Prop
  | .advance i => ∀ w applied, s.writes[i]? = some w → w.phase = .loaded applied →
      applied + 1 ≠ 0 ∧
        ∀ w' ∈ s.writes, ∀ token, w'.phase = .returned token → w'.entry ≤ s.applied w.node
  | .respond i => ∀ w token, s.writes[i]? = some w → w.phase = .advanced token →
      ∀ node, (s.sessions node).appliedIndex ≠ 0 → w.entry ≤ s.applied node
  | _ => True

/-- The invariant of such runs. -/
structure Synced (s : Cluster ν) : Prop where
  advanced : ∀ w ∈ s.writes, ∀ token, w.phase = .advanced token → token.committedIndex ≠ 0
  returned : ∀ w ∈ s.writes, ∀ token, w.phase = .returned token → token.committedIndex ≠ 0 ∧
    ∀ node, (s.sessions node).appliedIndex ≠ 0 → w.entry ≤ s.applied node

omit [DecidableEq ν] in
theorem Synced.readYourWrites {s : Cluster ν} (h : Synced s) : ReadYourWrites s := by
  intro w hw token hphase node hpasses
  obtain ⟨hpos, happlied⟩ := h.returned w hw token hphase
  apply happlied node
  intro hzero
  rw [tokenPasses_encode, hzero] at hpasses
  exact hpos (UInt64.le_antisymm hpasses (UInt64.zero_le))

omit [DecidableEq ν] in
/-- A handler moves on. -/
theorem Synced.setPhase {s : Cluster ν} (h : Synced s) {i : Nat} {w : DocumentWrite ν} {phase : Phase}
    (hadvanced : ∀ token, phase = .advanced token → token.committedIndex ≠ 0)
    (hreturned : ∀ token, phase = .returned token → token.committedIndex ≠ 0 ∧
      ∀ node, (s.sessions node).appliedIndex ≠ 0 → w.entry ≤ s.applied node) :
    Synced (s.setPhase i w phase) where
  advanced w' hw' token hphase := by
    rcases List.mem_or_eq_of_mem_set hw' with hold | rfl
    · exact h.advanced w' hold token hphase
    · exact hadvanced token hphase
  returned w' hw' token hphase := by
    rcases List.mem_or_eq_of_mem_set hw' with hold | rfl
    · exact h.returned w' hold token hphase
    · exact hreturned token hphase

omit [DecidableEq ν] in
/-- A handler moves on without a token. -/
theorem Synced.setWaiting {s : Cluster ν} (h : Synced s) (i : Nat) (w : DocumentWrite ν) {phase : Phase}
    (hadvanced : ∀ token, phase ≠ .advanced token) (hreturned : ∀ token, phase ≠ .returned token) :
    Synced (s.setPhase i w phase) :=
  h.setPhase (fun token hphase => absurd hphase (hadvanced token)) fun token hphase => absurd hphase (hreturned token)

/-- A new write has no token yet. -/
theorem Synced.propose {s : Cluster ν} (h : Synced s) (node : ν) : Synced (s.step (.propose node)) := by
  refine ⟨fun w hw token hphase => ?_, fun w hw token hphase => ?_⟩
  · rcases List.mem_append.1 hw with hold | hnew
    · exact h.advanced w hold token hphase
    · rw [List.mem_singleton.1 hnew] at hphase
      cases hphase
  · rcases List.mem_append.1 hw with hold | hnew
    · exact h.returned w hold token hphase
    · rw [List.mem_singleton.1 hnew] at hphase
      cases hphase

/-- A state machine never goes back. -/
theorem Synced.apply {s : Cluster ν} (h : Synced s) (node : ν) :
    Synced { s with applied := Function.update s.applied node (s.applied node + 1) } := by
  refine ⟨h.advanced, fun w hw token hphase => ?_⟩
  obtain ⟨hpos, happlied⟩ := h.returned w hw token hphase
  refine ⟨hpos, fun node' hnode' => (happlied node' hnode').trans ?_⟩
  show s.applied node' ≤ Function.update s.applied node (s.applied node + 1) node'
  by_cases hn : node' = node
  · subst hn
    simp
  · simp [hn]

/-- A handler advances the counter of a node that has applied every write that has returned. -/
theorem Synced.advance {s : Cluster ν} (h : Synced s) (i : Nat) {w : DocumentWrite ν} {token : SessionToken}
    (hpos : token.committedIndex ≠ 0)
    (hdate : ∀ w' ∈ s.writes, ∀ token', w'.phase = .returned token' → w'.entry ≤ s.applied w.node)
    (session : SessionManager) :
    Synced { s.setPhase i w (.advanced token) with sessions := Function.update s.sessions w.node session } := by
  have hset : Synced (s.setPhase i w (.advanced token)) := by
    refine h.setPhase (fun token' htoken => ?_) fun token' htoken => ?_
    · cases htoken
      exact hpos
    · cases htoken
  refine ⟨hset.advanced, fun w' hw' token' htoken => ?_⟩
  obtain ⟨hpos', happlied⟩ := hset.returned w' hw' token' htoken
  refine ⟨hpos', fun node hnode => ?_⟩
  by_cases hn : node = w.node
  · -- the counter that has been advanced
    rw [hn]
    rcases List.mem_or_eq_of_mem_set hw' with hold | rfl
    · exact hdate w' hold token' htoken
    · cases htoken
  · simp only [Function.update_of_ne hn] at hnode
    exact happlied node hnode

/-- **One step.** -/
theorem Synced.step {s : Cluster ν} (h : Synced s) {a : ClusterStep ν} (ha : s.UpToDate a) :
    Synced (s.step a) := by
  cases a with
  | append => exact ⟨h.advanced, h.returned⟩
  | propose node => exact h.propose node
  | apply node =>
      simp only [Cluster.step]
      split
      · exact h.apply node
      · exact h
  | answer i leader =>
      simp only [Cluster.step]
      split
      · split
        · split
          · exact h.setWaiting i _ (by simp) (by simp)
          · exact h
        · exact h
      · exact h
  | load i =>
      simp only [Cluster.step]
      split
      · split
        · exact h.setWaiting i _ (by simp) (by simp)
        · exact h
      · exact h
  | advance i =>
      simp only [Cluster.step]
      split
      · next w hw =>
          split
          · next applied hphase =>
              obtain ⟨hpos, hdate⟩ := ha w applied hw hphase
              exact h.advance i hpos hdate _
          · exact h
      · exact h
  | respond i =>
      simp only [Cluster.step]
      split
      · next w hw =>
          split
          · next token hphase =>
              -- the token that the counter was advanced to is returned
              refine h.setPhase (fun token' htoken' => ?_) fun token' htoken' => ?_
              · cases htoken'
              · cases htoken'
                exact ⟨h.advanced w (List.mem_of_getElem? hw) token hphase, ha w token hw hphase⟩
          · exact h
      · exact h

/-- **Read your writes.** In every run whose steps meet the condition, and in each of
its states, a read that carries the token of a write passes only at nodes that have
applied the write. -/
theorem readYourWrites_of_along {steps : List (ClusterStep ν)}
    (halong : Along step UpToDate start steps) :
    ∀ pre, pre <+: steps → ReadYourWrites ((start : Cluster ν).run pre) := by
  intro pre hpre
  have hstart : Synced (start : Cluster ν) := ⟨by simp [start], by simp [start]⟩
  exact ((halong.of_prefix hpre).invariant (fun _ _ h ha => h.step ha) hstart).readYourWrites

/-- A document write at the node `true`, which is the leader. -/
def oneWrite : List (ClusterStep Bool) :=
  [.propose true, .apply true, .answer 0 true, .load 0, .advance 0, .respond 0]

/-- Its token is good at both nodes. -/
theorem readYourWrites_oneWrite :
    Along step UpToDate start oneWrite ∧ ReadYourWrites ((start : Cluster Bool).run oneWrite) := by
  have halong : Along step UpToDate (start : Cluster Bool) oneWrite := by
    refine ⟨trivial, trivial, trivial, trivial, fun w applied hw hphase => ?_,
      fun w token hw hphase node hnode => ?_, trivial⟩
    · have hw' : some ⟨true, 1, .loaded 0⟩ = some w := hw
      cases hw'
      cases hphase
      refine ⟨by decide, fun w' hw' token htoken => ?_⟩
      have hmem : w' ∈ [(⟨true, 1, .loaded 0⟩ : DocumentWrite Bool)] := hw'
      rw [List.mem_singleton.1 hmem] at htoken
      cases htoken
    · have hw' : some ⟨true, 1, .advanced ⟨1⟩⟩ = some w := hw
      cases hw'
      cases node with
      | true => exact le_refl 1
      | false => exact absurd rfl hnode
  exact ⟨halong, readYourWrites_of_along halong _ (List.prefix_refl _)⟩

/-- Then the other node handles a write before it has applied anything. -/
def twoWrites : List (ClusterStep Bool) :=
  oneWrite ++ [.propose false, .apply true, .answer 1 true, .load 1, .advance 1]

/-- The token of the first write passes at a node that has not applied it. -/
theorem not_readYourWrites :
    ¬ ReadYourWrites ((start : Cluster Bool).run twoWrites) := by
  intro h
  have hmem : (⟨true, 1, .returned ⟨1⟩⟩ : DocumentWrite Bool) ∈
      ((start : Cluster Bool).run twoWrites).writes := List.mem_cons_self
  have hpasses : tokenPasses (((start : Cluster Bool).run twoWrites).sessions false)
      (some (SessionToken.encode ⟨1⟩)) = true := (tokenPasses_encode _ _).2 (by decide)
  have hbehind : (1 : Nat) ≤ 0 := h _ hmem ⟨1⟩ rfl false hpasses
  exact absurd hbehind (by decide)

end Cluster

end MSearchDB.Node
