import Mathlib.Tactic
import MSearchDB.Lib.Trailing

/-!
# The circuit breaker

`CircuitBreaker` of `crates/network/src/connection_pool.rs`. Instants and durations are
numbers of nanoseconds, and the current time is an argument of the methods that read it.

Half-open is no state of its own: an open circuit is half-open from the moment on at
which the open duration has elapsed. The counter wraps in 32 bits, which the state does
not notice, since a circuit that is open stays open until a success. `Follows` compares
the breaker with the calls it received, and `circuit_breaker_law` is what they decide.
-/

set_option autoImplicit false

namespace MSearchDB.Network

open MSearchDB.Lib

/-- `CircuitState`; `Open` is `opened`. -/
inductive CircuitState where
  | closed
  | opened
  | halfOpen
  deriving DecidableEq, Repr

/-- `CircuitBreaker`. -/
structure CircuitBreaker where
  state : CircuitState
  consecutiveFailures : UInt32
  failureThreshold : UInt32
  lastFailureTime : Option Nat
  openDuration : Nat
  deriving DecidableEq, Repr

/-- `Instant::elapsed`, which saturates. -/
def elapsed (last now : Nat) : Nat := now - last

namespace CircuitBreaker

/-- `CircuitBreaker::new`. -/
def new (failureThreshold : UInt32) (openDuration : Nat) : CircuitBreaker where
  state := .closed
  consecutiveFailures := 0
  failureThreshold := failureThreshold
  lastFailureTime := none
  openDuration := openDuration

/-- `state`. -/
def stateAt (b : CircuitBreaker) (now : Nat) : CircuitState :=
  match b.state with
  | .opened =>
      match b.lastFailureTime with
      | some last => if b.openDuration ≤ elapsed last now then .halfOpen else .opened
      | none => .opened
  | other => other

/-- `allow_request`. -/
def allowRequest (b : CircuitBreaker) (now : Nat) : Bool :=
  match b.stateAt now with
  | .closed => true
  | .halfOpen => true
  | .opened => false

/-- `record_success`. -/
def recordSuccess (b : CircuitBreaker) : CircuitBreaker :=
  { b with consecutiveFailures := 0, state := .closed, lastFailureTime := none }

/-- `record_failure`. -/
def recordFailure (b : CircuitBreaker) (now : Nat) : CircuitBreaker :=
  let b := { b with consecutiveFailures := b.consecutiveFailures + 1, lastFailureTime := some now }
  if b.failureThreshold ≤ b.consecutiveFailures then { b with state := .opened } else b

theorem recordFailure_eq (b : CircuitBreaker) (now : Nat) :
    b.recordFailure now =
      { b with
        consecutiveFailures := b.consecutiveFailures + 1
        lastFailureTime := some now
        state := if b.failureThreshold ≤ b.consecutiveFailures + 1 then .opened else b.state } := by
  rw [recordFailure]
  split
  · rfl
  · rfl

/-! ## What the calls decide -/

/-- The breaker after `failures` failures since the last success, the last of them at the
time `last`. -/
structure Follows (b : CircuitBreaker) (threshold : UInt32) (openDuration failures : Nat)
    (last : Option Nat) : Prop where
  threshold_eq : b.failureThreshold = threshold
  duration_eq : b.openDuration = openDuration
  counter_eq : b.consecutiveFailures.toNat = failures % 2 ^ 32
  state_eq : b.state = if threshold.toNat ≤ failures ∧ 0 < failures then .opened else .closed
  last_eq : 0 < failures → b.lastFailureTime = last

section Follows

variable {b : CircuitBreaker} {threshold : UInt32} {openDuration failures : Nat} {last : Option Nat}

theorem follows_new (threshold : UInt32) (openDuration : Nat) (last : Option Nat) :
    (new threshold openDuration).Follows threshold openDuration 0 last where
  threshold_eq := rfl
  duration_eq := rfl
  counter_eq := rfl
  state_eq := by simp [new]
  last_eq h := absurd h (lt_irrefl 0)

theorem Follows.recordSuccess (h : b.Follows threshold openDuration failures last) (last' : Option Nat) :
    b.recordSuccess.Follows threshold openDuration 0 last' where
  threshold_eq := h.threshold_eq
  duration_eq := h.duration_eq
  counter_eq := rfl
  state_eq := by simp [CircuitBreaker.recordSuccess]
  last_eq h := absurd h (lt_irrefl 0)

/-- The threshold is reached now, by a counter that wraps, or was reached before: the first
failure that reaches it comes before the counter can wrap. -/
theorem reached_iff {threshold : UInt32} {counter : UInt32} (hcounter : counter.toNat = (failures + 1) % 2 ^ 32) :
    threshold ≤ counter ∨ (threshold.toNat ≤ failures ∧ 0 < failures) ↔ threshold.toNat ≤ failures + 1 := by
  have hbound := threshold.toNat_lt
  rw [UInt32.le_iff_toNat_le, hcounter]
  constructor
  · rintro (hnow | ⟨hbefore, -⟩)
    · exact hnow.trans (Nat.mod_le _ _)
    · exact Nat.le_succ_of_le hbefore
  · intro hreached
    rcases Nat.lt_or_ge failures threshold.toNat with hlt | hge
    · left
      omega
    · by_cases hpos : 0 < failures
      · exact .inr ⟨hge, hpos⟩
      · left
        omega

/-- One more failure. The first one that reaches the threshold opens the circuit, and later
ones leave it open. -/
theorem Follows.recordFailure (h : b.Follows threshold openDuration failures last) (now : Nat) :
    (b.recordFailure now).Follows threshold openDuration (failures + 1) (some now) := by
  have hcounter : (b.consecutiveFailures + 1).toNat = (failures + 1) % 2 ^ 32 := by
    rw [UInt32.toNat_add, h.counter_eq]
    show (failures % 2 ^ 32 + 1) % 2 ^ 32 = (failures + 1) % 2 ^ 32
    omega
  rw [recordFailure_eq]
  refine ⟨h.threshold_eq, h.duration_eq, hcounter, ?_, fun _ => rfl⟩
  show (if b.failureThreshold ≤ b.consecutiveFailures + 1 then CircuitState.opened else b.state) = _
  have hreached : _ ↔ threshold.toNat ≤ failures + 1 := reached_iff hcounter
  rw [h.threshold_eq, h.state_eq]
  split
  next hnow => exact (if_pos ⟨hreached.1 (.inl hnow), Nat.succ_pos _⟩).symm
  next hnot =>
    refine if_congr ?_ rfl rfl
    rw [and_iff_left (Nat.succ_pos failures), ← hreached, or_iff_right hnot]

theorem Follows.closed_iff (h : b.Follows threshold openDuration failures last) (hthreshold : 1 ≤ threshold.toNat)
    (now : Nat) : b.stateAt now = .closed ↔ failures < threshold.toNat := by
  rw [stateAt, h.state_eq]
  by_cases hopen : threshold.toNat ≤ failures ∧ 0 < failures
  · rw [if_pos hopen, h.last_eq hopen.2]
    refine iff_of_false ?_ (by omega)
    cases last with
    | none => simp
    | some last =>
        simp only
        split
        · simp
        · simp
  · rw [if_neg hopen]
    exact iff_of_true rfl (by omega)

/-- A request is refused while the open duration has not elapsed. -/
theorem Follows.refused_iff (h : b.Follows threshold openDuration failures last) (hlast : 0 < failures → last.isSome)
    (now : Nat) : b.allowRequest now = false ↔ (threshold.toNat ≤ failures ∧ 0 < failures) ∧
      ∃ t, last = some t ∧ elapsed t now < openDuration := by
  rw [allowRequest, stateAt, h.state_eq]
  by_cases hopen : threshold.toNat ≤ failures ∧ 0 < failures
  · obtain ⟨t, rfl⟩ := Option.isSome_iff_exists.1 (hlast hopen.2)
    rw [if_pos hopen, h.last_eq hopen.2]
    simp only [h.duration_eq]
    by_cases helapsed : openDuration ≤ elapsed t now
    · simp [helapsed]
    · simp [helapsed, hopen, not_le.1 helapsed]
  · rw [if_neg hopen]
    simp [hopen]

end Follows

end CircuitBreaker

/-! ## Timed calls -/

/-- A recorded outcome. -/
inductive Outcome where
  | success
  | failure
  deriving DecidableEq, Repr

/-- An outcome and the time at which it is recorded. -/
structure TimedOutcome where
  time : Nat
  outcome : Outcome
  deriving DecidableEq, Repr

/-- The outcome is a failure. -/
def TimedOutcome.isFailure (o : TimedOutcome) : Bool := o.outcome = .failure

namespace CircuitBreaker

/-- The breaker after an outcome. -/
def record (b : CircuitBreaker) (o : TimedOutcome) : CircuitBreaker :=
  match o.outcome with
  | .success => b.recordSuccess
  | .failure => b.recordFailure o.time

/-- A new breaker after a sequence of outcomes. -/
def recordAll (threshold : UInt32) (openDuration : Nat) (outcomes : List TimedOutcome) : CircuitBreaker :=
  outcomes.foldl record (new threshold openDuration)

/-- The time of the last failure. -/
def lastFailure (outcomes : List TimedOutcome) : Option Nat :=
  (lastOf TimedOutcome.isFailure outcomes).map TimedOutcome.time

theorem follows_recordAll (threshold : UInt32) (openDuration : Nat) (outcomes : List TimedOutcome) :
    (recordAll threshold openDuration outcomes).Follows threshold openDuration
      (trailing TimedOutcome.isFailure outcomes) (lastFailure outcomes) := by
  induction outcomes using List.reverseRecOn with
  | nil => exact follows_new threshold openDuration none
  | append_singleton outcomes o ih =>
      rw [recordAll, List.foldl_append, ← recordAll]
      obtain ⟨time, outcome⟩ := o
      cases outcome with
      | success =>
          rw [trailing_concat_of_neg outcomes rfl]
          exact ih.recordSuccess _
      | failure =>
          rw [trailing_concat_of_pos outcomes rfl, lastFailure, lastOf_concat_of_pos outcomes rfl]
          exact ih.recordFailure time

theorem isSome_lastFailure {outcomes : List TimedOutcome}
    (h : 0 < trailing TimedOutcome.isFailure outcomes) : (lastFailure outcomes).isSome := by
  rw [lastFailure, Option.isSome_map]
  exact isSome_lastOf h

/-- **The law of the circuit breaker.** For a threshold of at least one failure and after
any outcomes: at every time a request is refused exactly when as many failures as the
threshold were recorded since the last success and less than the open duration has
elapsed since the last of them, and the circuit is closed exactly when there were fewer. -/
theorem circuit_breaker_law {threshold : UInt32} (hthreshold : 1 ≤ threshold.toNat) (openDuration : Nat)
    (outcomes : List TimedOutcome) (now : Nat) :
    let b := recordAll threshold openDuration outcomes
    let failures := trailing TimedOutcome.isFailure outcomes
    (b.allowRequest now = false ↔ threshold.toNat ≤ failures ∧
        ∃ t, lastFailure outcomes = some t ∧ elapsed t now < openDuration) ∧
      (b.stateAt now = .closed ↔ failures < threshold.toNat) := by
  intro b failures
  have hfollows := follows_recordAll threshold openDuration outcomes
  refine ⟨(hfollows.refused_iff isSome_lastFailure now).trans ?_, hfollows.closed_iff hthreshold now⟩
  rw [and_iff_left_of_imp fun hreached => lt_of_lt_of_le hthreshold hreached]

/-- Two failures open a circuit for ten nanoseconds. -/
theorem circuit_breaker_law_two_failures :
    let b := recordAll 2 10 [⟨1, .failure⟩, ⟨5, .failure⟩]
    b.allowRequest 14 = false ∧ b.stateAt 15 ≠ .closed := by
  intro b
  have hlaw := circuit_breaker_law (show 1 ≤ (2 : UInt32).toNat by decide) 10 [⟨1, .failure⟩, ⟨5, .failure⟩]
  refine ⟨(hlaw 14).1.2 ⟨by decide, 5, by decide, by decide⟩, fun hclosed => ?_⟩
  exact absurd ((hlaw 15).2.1 hclosed) (by decide)

end CircuitBreaker

end MSearchDB.Network
