import MSearchDB.Core.Error
import MSearchDB.Core.VectorClock
import Mathlib.Data.Finset.Card

/-!
# Read coordination

`ConsistencyLevel` of `crates/core/src/consistency.rs`, `QuorumTracker` of
`crates/consensus/src/quorum.rs` and `ReadCoordinator` of
`crates/core/src/read_coordinator.rs`, which resolves the answers of the replicas of a
document into one.

`pick_winner` keeps the better of two answers as it goes through them. Where the
versions are a chain, the better of two covers both (`covers_better`), so the winner
covers every answer (`covers_pickWinner`). Any two majorities of the replicas share one
(`exists_common`), hence a quorum read covers whatever a quorum of replicas covers.
-/

set_option autoImplicit false

namespace MSearchDB.Core

/-- `ConsistencyLevel`. -/
inductive ConsistencyLevel where
  | one
  | quorum
  | all
  deriving DecidableEq, Repr

namespace ConsistencyLevel

/-- `ConsistencyLevel::from_str_param`. -/
def fromStrParam (s : String) : ConsistencyLevel :=
  match s.toLower with
  | "one" => one
  | "quorum" => quorum
  | "all" => all
  | _ => quorum

/-- `ConsistencyLevel::to_string`. -/
def toString : ConsistencyLevel → String
  | one => "ONE"
  | quorum => "QUORUM"
  | all => "ALL"

/-- `required_responses`. -/
def requiredResponses (level : ConsistencyLevel) (replicationFactor : UInt8) : Nat :=
  let rf := replicationFactor.toNat
  match level with
  | one => 1
  | quorum => rf / 2 + 1
  | all => rf

end ConsistencyLevel

/-- `QuorumTracker::quorum_size`. -/
def quorumSize (replicationFactor : UInt8) : UInt8 := replicationFactor / 2 + 1

/-- The two modules count a quorum alike. -/
theorem toNat_quorumSize (rf : UInt8) :
    (quorumSize rf).toNat = ConsistencyLevel.quorum.requiredResponses rf := by
  have hlt := rf.toNat_lt
  rw [quorumSize, UInt8.toNat_add, UInt8.toNat_div, ConsistencyLevel.requiredResponses]
  show (rf.toNat / 2 + 1) % 2 ^ 8 = rf.toNat / 2 + 1
  omega

/-- `ReplicaResponse`. -/
structure ReplicaResponse where
  nodeId : NodeId
  document : Document
  version : VectorClock
  deriving DecidableEq

/-- `ReadResolution`. -/
structure ReadResolution where
  document : Document
  version : VectorClock
  staleNodes : List NodeId
  responseCount : Nat
  deriving DecidableEq

/-- `ReadCoordinator`. -/
structure ReadCoordinator where
  replicationFactor : UInt8

namespace ReadCoordinator

open VectorClock

/-- `validate_response_count`. -/
def validateResponseCount (c : ReadCoordinator) (level : ConsistencyLevel) (responseCount : Nat) :
    DbResult Unit :=
  let required := level.requiredResponses c.replicationFactor
  if required ≤ responseCount then .ok ()
  else .error (.consistencyError
    ("consistency level " ++ level.toString ++ " requires " ++ ToString.toString required ++
      " responses but only " ++ ToString.toString responseCount ++ " received (replication_factor=" ++
      ToString.toString c.replicationFactor.toNat ++ ")"))

/-- One iteration of the loop of `pick_winner`. -/
def better (responses : List ReplicaResponse) (bestIdx i : Fin responses.length) : Fin responses.length :=
  let currentBest := (responses.get bestIdx).version
  let candidate := (responses.get i).version
  if candidate.dominates currentBest then i
  else if currentBest.dominates candidate then bestIdx
  else if currentBest.total < candidate.total then i
  else bestIdx

/-- `pick_winner`: the loop over the responses after the first. -/
def pickWinner (responses : List ReplicaResponse) (h : 0 < responses.length) : Fin responses.length :=
  (List.finRange responses.length).tail.foldl (better responses) ⟨0, h⟩

/-- `resolve`. -/
def resolve (c : ReadCoordinator) (responses : List ReplicaResponse) (level : ConsistencyLevel) :
    DbResult ReadResolution :=
  if h : 0 < responses.length then do
    c.validateResponseCount level responses.length
    let winner := responses.get (pickWinner responses h)
    let mergedClock := responses.foldl (fun clock resp => clock.mergeInPlace resp.version) winner.version
    let staleNodes := (responses.filter fun r =>
      r.nodeId ≠ winner.nodeId ∧ winner.version.dominates r.version = true).map ReplicaResponse.nodeId
    return ⟨winner.document, mergedClock, staleNodes, responses.length⟩
  else .error (.notFound "no replica responses received")

/-! ## The winner -/

section Winner

variable {responses : List ReplicaResponse}

/-- Of any two versions, one covers the other. -/
def Chain (responses : List ReplicaResponse) : Prop :=
  ∀ r ∈ responses, ∀ r' ∈ responses, CoversClock r.version r'.version ∨ CoversClock r'.version r.version

/-- The version of a response covers that of another. -/
def CoversAt (responses : List ReplicaResponse) (i j : Fin responses.length) : Prop :=
  CoversClock (responses.get i).version (responses.get j).version

theorem covers_better (hchain : Chain responses) (bestIdx i : Fin responses.length) :
    CoversAt responses (better responses bestIdx i) bestIdx ∧
      CoversAt responses (better responses bestIdx i) i := by
  rw [better]
  split
  case isTrue h => exact ⟨.inr h, .inl rfl⟩
  split
  case isTrue h => exact ⟨.inl rfl, .inr h⟩
  case isFalse hcand hbest =>
      -- neither dominates, so that the chain makes them equal
      have heq : (responses.get bestIdx).version = (responses.get i).version := by
        rcases hchain _ (responses.get_mem bestIdx) _ (responses.get_mem i) with (h | h) | (h | h)
        · exact h
        · exact absurd h hbest
        · exact h.symm
        · exact absurd h hcand
      split
      · exact ⟨.inl heq.symm, .inl rfl⟩
      · exact ⟨.inl rfl, .inl heq⟩

theorem covers_foldl_better (hchain : Chain responses) (is : List (Fin responses.length)) :
    ∀ bestIdx, CoversAt responses (is.foldl (better responses) bestIdx) bestIdx ∧
      ∀ i ∈ is, CoversAt responses (is.foldl (better responses) bestIdx) i := by
  induction is with
  | nil => exact fun bestIdx => ⟨.inl rfl, by simp⟩
  | cons i is ih =>
      intro bestIdx
      obtain ⟨hbest, hi⟩ := covers_better hchain bestIdx i
      obtain ⟨hrest, his⟩ := ih (better responses bestIdx i)
      refine ⟨hrest.trans hbest, fun j hj => ?_⟩
      rcases List.mem_cons.1 hj with rfl | hj
      · exact hrest.trans hi
      · exact his j hj

/-- The winner covers every answer of a chain. -/
theorem covers_pickWinner (hchain : Chain responses) (h : 0 < responses.length)
    (i : Fin responses.length) : CoversAt responses (pickWinner responses h) i := by
  obtain ⟨hfirst, hrest⟩ := covers_foldl_better hchain (List.finRange responses.length).tail ⟨0, h⟩
  have hmem : i = ⟨0, h⟩ ∨ i ∈ (List.finRange responses.length).tail := by
    have hi := List.mem_finRange i
    cases hrange : List.finRange responses.length with
    | nil => simp [hrange] at hi
    | cons j js =>
        have hzero : j = ⟨0, h⟩ := by
          have hget : (List.finRange responses.length)[0]? = some j := by rw [hrange]; rfl
          rw [List.getElem?_eq_getElem (by simpa using h)] at hget
          simpa [eq_comm, Fin.ext_iff] using hget
        rw [hrange] at hi
        rcases List.mem_cons.1 hi with rfl | hi
        · exact .inl hzero
        · exact .inr hi
  rcases hmem with rfl | hmem
  · exact hfirst
  · exact hrest i hmem

end Winner

/-! ## Majorities -/

/-- Two quorums of the replicas share a replica. -/
theorem exists_common {replicas s t : Finset NodeId} {rf : UInt8} (hcard : replicas.card = rf.toNat)
    (hs : s ⊆ replicas) (ht : t ⊆ replicas)
    (hsq : ConsistencyLevel.quorum.requiredResponses rf ≤ s.card)
    (htq : ConsistencyLevel.quorum.requiredResponses rf ≤ t.card) : ∃ n, n ∈ s ∧ n ∈ t := by
  have hlt : replicas.card < s.card + t.card := by
    simp only [ConsistencyLevel.requiredResponses] at hsq htq
    omega
  obtain ⟨n, hn⟩ := Finset.inter_nonempty_of_card_lt_card_add_card hs ht hlt
  exact ⟨n, Finset.mem_inter.1 hn⟩

/-- The replicas of a document: as many as the replication factor says, with copies
of which any two are equal or one dominates the other. -/
structure ReplicaSet (rf : UInt8) where
  nodes : Finset NodeId
  card_eq : nodes.card = rf.toNat
  copy : NodeId → Document
  chain : ∀ n ∈ nodes, ∀ n' ∈ nodes,
    CoversClock (copy n).version (copy n').version ∨ CoversClock (copy n').version (copy n).version

/-- The responses are the copies of different replicas. -/
structure AnswersOf {rf : UInt8} (R : ReplicaSet rf) (responses : List ReplicaResponse) : Prop where
  distinct : (responses.map ReplicaResponse.nodeId).Nodup
  mem : ∀ r ∈ responses, r.nodeId ∈ R.nodes
  document : ∀ r ∈ responses, r.document = R.copy r.nodeId
  version : ∀ r ∈ responses, r.version = (R.copy r.nodeId).version

section Quorum

variable {rf : UInt8} {R : ReplicaSet rf} {responses : List ReplicaResponse}

theorem AnswersOf.chain (h : AnswersOf R responses) : Chain responses := by
  intro r hr r' hr'
  rw [h.version r hr, h.version r' hr']
  exact R.chain _ (h.mem r hr) _ (h.mem r' hr')

/-- Enough answers include one of a replica that a quorum acknowledged. -/
theorem AnswersOf.exists_acked (h : AnswersOf R responses) {acked : Finset NodeId}
    (hsub : acked ⊆ R.nodes) (hquorum : (quorumSize rf).toNat ≤ acked.card)
    (henough : ConsistencyLevel.quorum.requiredResponses rf ≤ responses.length) :
    ∃ r ∈ responses, r.nodeId ∈ acked := by
  have hcard : (responses.map ReplicaResponse.nodeId).toFinset.card = responses.length := by
    rw [List.toFinset_card_of_nodup h.distinct, List.length_map]
  have hfrom : (responses.map ReplicaResponse.nodeId).toFinset ⊆ R.nodes := by
    intro n hn
    obtain ⟨r, hr, rfl⟩ := List.mem_map.1 (List.mem_toFinset.1 hn)
    exact h.mem r hr
  obtain ⟨n, hacked, hn⟩ := exists_common R.card_eq hsub hfrom (by rwa [← toNat_quorumSize])
    (by rwa [hcard])
  obtain ⟨r, hr, rfl⟩ := List.mem_map.1 (List.mem_toFinset.1 hn)
  exact ⟨r, hr, hacked⟩

theorem resolve_ok {c : ReadCoordinator} {level : ConsistencyLevel} (h : 0 < responses.length)
    (henough : level.requiredResponses c.replicationFactor ≤ responses.length) :
    ∃ res, c.resolve responses level = .ok res ∧
      res.document = (responses.get (pickWinner responses h)).document := by
  rw [resolve, dif_pos h, validateResponseCount]
  simp only [if_pos henough]
  exact ⟨_, rfl, rfl⟩

/-- Two answers of one version: the first is returned, and none is stale. -/
theorem resolve_pair {c : ReadCoordinator} {level : ConsistencyLevel} {a b : ReplicaResponse}
    (hversion : a.version = b.version) (henough : level.requiredResponses c.replicationFactor ≤ 2) :
    ∃ res, c.resolve [a, b] level = .ok res ∧ res.document = a.document ∧ res.staleNodes = [] := by
  have hwinner : ([a, b] : List ReplicaResponse).get (pickWinner [a, b] (by simp)) = a := by
    have hbetter : better [a, b] 0 1 = 0 := by
      simp [better, ← hversion, dominates_irrefl, UInt64.lt_irrefl]
    show ([a, b] : List ReplicaResponse).get (better [a, b] 0 1) = a
    rw [hbetter]
    rfl
  have hcount : level.requiredResponses c.replicationFactor ≤ [a, b].length := henough
  rw [resolve, dif_pos (by simp), validateResponseCount]
  simp only [if_pos hcount, hwinner]
  refine ⟨_, rfl, rfl, ?_⟩
  simp [← hversion, dominates_irrefl]

/-- Too few answers are an error. -/
theorem resolve_error (c : ReadCoordinator) {level : ConsistencyLevel}
    (hfew : responses.length < level.requiredResponses c.replicationFactor) :
    ∃ e, c.resolve responses level = .error e := by
  rw [resolve]
  split
  · rw [validateResponseCount]
    simp only [if_neg (Nat.not_le.2 hfew)]
    exact ⟨_, rfl⟩
  · exact ⟨_, rfl⟩

/-- **Quorum reads see quorum writes.** A version that the copies of a quorum of
replicas equal or dominate is equalled or dominated by the document of every quorum
read, and answers of fewer replicas are refused. -/
theorem quorum_read_covers (R : ReplicaSet rf) (v : VectorClock) (acked : Finset NodeId)
    (hsub : acked ⊆ R.nodes) (hquorum : (quorumSize rf).toNat ≤ acked.card)
    (hacked : ∀ n ∈ acked, CoversClock (R.copy n).version v) (responses : List ReplicaResponse)
    (hanswers : AnswersOf R responses) :
    (ConsistencyLevel.quorum.requiredResponses rf ≤ responses.length →
      ∃ res, resolve ⟨rf⟩ responses .quorum = .ok res ∧ CoversClock res.document.version v) ∧
    (responses.length < ConsistencyLevel.quorum.requiredResponses rf →
      ∃ e, resolve ⟨rf⟩ responses .quorum = .error e) := by
  refine ⟨fun henough => ?_, resolve_error ⟨rf⟩⟩
  obtain ⟨r, hr, hmem⟩ := hanswers.exists_acked hsub hquorum henough
  have hpos : 0 < responses.length := List.length_pos_of_mem hr
  obtain ⟨res, hres, hdoc⟩ := resolve_ok (c := ⟨rf⟩) hpos henough
  refine ⟨res, hres, ?_⟩
  obtain ⟨i, rfl⟩ := List.get_of_mem hr
  have hwinner := responses.get_mem (pickWinner responses hpos)
  have hcover := covers_pickWinner hanswers.chain hpos i
  rw [CoversAt, hanswers.version _ hwinner, hanswers.version _ hr] at hcover
  rw [hdoc, hanswers.document _ hwinner]
  exact hcover.trans (hacked _ hmem)

end Quorum

/-- Three replicas, of which the third has an older copy. -/
def laggingReplicas : ReplicaSet 3 where
  nodes := {1, 2, 3}
  card_eq := by decide
  copy n :=
    { Document.new ⟨"a"⟩ with
      version := ⟨(∅ : Std.ExtTreeMap UInt64 UInt64).insert 7 (if n = 3 then 1 else 2)⟩ }
  chain := by
    intro n hn n' hn'
    simp only [Finset.mem_insert, Finset.mem_singleton] at hn hn'
    rcases hn with rfl | rfl | rfl <;> rcases hn' with rfl | rfl | rfl <;> decide

/-- The newer copy is read although the older one answers first. -/
theorem quorum_read_lagging :
    let answer n : ReplicaResponse :=
      ⟨n, laggingReplicas.copy n, (laggingReplicas.copy n).version⟩
    ∃ res, resolve ⟨3⟩ [answer 3, answer 2] .quorum = .ok res ∧
      CoversClock res.document.version (laggingReplicas.copy 1).version := by
  refine (quorum_read_covers laggingReplicas (laggingReplicas.copy 1).version {1, 2} ?_ ?_ ?_ _ ?_).1 ?_
  · exact Finset.insert_subset_insert 1 (by simp)
  · decide
  · intro n hn
    simp only [Finset.mem_insert, Finset.mem_singleton] at hn
    rcases hn with rfl | rfl
    · decide
    · decide
  · constructor
    · decide
    · decide
    · simp
    · simp
  · decide

end ReadCoordinator

end MSearchDB.Core
