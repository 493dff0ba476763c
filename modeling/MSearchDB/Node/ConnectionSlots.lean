import MSearchDB.Lib.Run
import MSearchDB.Node.State

/-!
# Connection slots

`ConnectionCounter` of `crates/core/src/security.rs` and `connection_limit_middleware` of
`crates/node/src/middleware.rs`. A request loads the counter, exchanges it, runs, and releases
its slot; requests interleave at each atomic access. The future of a request can be dropped
before it is first polled and while it awaits the inner layers, as `TimeoutLayer` does after
thirty seconds and a client that disconnects.

The counter is the number of the admitted requests that run or were dropped, and at most the
maximum (`Counted`). It is the number of those that run as long as none is dropped, and no
longer (`slotsKept_iff`).
-/

set_option autoImplicit false

namespace MSearchDB.Node

open MSearchDB.Lib

/-- `ConnectionCounter`. -/
structure ConnectionCounter where
  current : UInt64
  max : UInt64

namespace ConnectionCounter

/-- `ConnectionCounter::new`. -/
def new (max : UInt64) : ConnectionCounter := ⟨0, max⟩

/-- The load of `try_acquire`, which answers nothing at the maximum. -/
def load (counter : ConnectionCounter) : Option UInt64 :=
  if counter.current ≥ counter.max then none else some counter.current

/-- The `compare_exchange` of `try_acquire`. -/
def compareExchange (counter : ConnectionCounter) (current : UInt64) : Option ConnectionCounter :=
  if counter.current = current then some { counter with current := current + 1 } else none

/-- `release`. -/
def release (counter : ConnectionCounter) : ConnectionCounter := { counter with current := counter.current - 1 }

/-- `active`. -/
def active (counter : ConnectionCounter) : UInt64 := counter.current

end ConnectionCounter

/-- The answer at the limit. -/
def connectionLimit : ErrorResponse := ⟨503, "connection_limit", "maximum connection limit reached"⟩

/-! ## One request -/

/-- How far a request is in `connection_limit_middleware`. -/
inductive SlotPhase where
  | arrived
  | retrying
  | loaded (current : UInt64)
  | running
  | rejected (response : ErrorResponse)
  | completed
  | dropped (admitted : Bool)
  deriving DecidableEq

/-- What a request does next. -/
inductive SlotAct where
  | load
  | exchange
  | complete
  | drop
  deriving DecidableEq

namespace SlotPhase

/-- The load decides. -/
def afterLoad (counter : ConnectionCounter) : SlotPhase :=
  match counter.load with
  | some current => .loaded current
  | none => .rejected connectionLimit

/-- One step of a request. There is no await point within `try_acquire`. -/
def act (counter : ConnectionCounter) : SlotPhase → SlotAct → SlotPhase × ConnectionCounter
  | .arrived, .load => (afterLoad counter, counter)
  | .retrying, .load => (afterLoad counter, counter)
  | .loaded current, .exchange =>
      match counter.compareExchange current with
      | some counter => (.running, counter)
      | none => (.retrying, counter)
  | .running, .complete => (.completed, counter.release)
  | .arrived, .drop => (.dropped false, counter)
  | .running, .drop => (.dropped true, counter)
  | phase, _ => (phase, counter)

/-- The request has been admitted and runs. -/
def isRunning (phase : SlotPhase) : Bool := phase = .running

/-- The request was dropped while it ran. -/
def isLeak (phase : SlotPhase) : Bool := phase = .dropped true

end SlotPhase

/-! ## All requests -/

/-- The counter and the requests. -/
structure ConnectionSlots where
  counter : ConnectionCounter
  requests : List SlotPhase

/-- A request arrives, or one takes a step. -/
inductive SlotEvent where
  | arrive
  | act (i : Nat) (a : SlotAct)
  deriving DecidableEq

namespace ConnectionSlots

/-- Before the first request. -/
def init (max : UInt64) : ConnectionSlots := ⟨.new max, []⟩

/-- One event. -/
def step (s : ConnectionSlots) : SlotEvent → ConnectionSlots
  | .arrive => { s with requests := s.requests ++ [.arrived] }
  | .act i a =>
      match s.requests[i]? with
      | some phase => ⟨(phase.act s.counter a).2, s.requests.set i (phase.act s.counter a).1⟩
      | none => s

/-- The number of admitted requests that run. -/
def running (s : ConnectionSlots) : Nat := s.requests.countP SlotPhase.isRunning

/-- The number of requests that were dropped while they ran. -/
def leaks (s : ConnectionSlots) : Nat := s.requests.countP SlotPhase.isLeak

/-- The counter is the number of requests that run, at most the maximum, and a request that runs can
release its slot without wrapping. -/
structure Kept (s : ConnectionSlots) : Prop where
  active_eq : s.counter.active.toNat = s.running
  active_le : s.counter.active ≤ s.counter.max
  release_ne : ∀ i : Nat, s.requests[i]? = some .running → 1 ≤ s.counter.active

/-- The event drops an admitted request that runs. -/
def Drops (s : ConnectionSlots) (event : SlotEvent) : Prop :=
  ∃ i, event = .act i .drop ∧ s.requests[i]? = some .running

/-- A load is below the maximum. -/
def Below (max : UInt64) (phase : SlotPhase) : Prop := ∀ current, phase = .loaded current → current < max

/-- The counter is the number of admitted requests that run or were dropped, at most the
maximum. -/
structure Counted (s : ConnectionSlots) : Prop where
  current_eq : s.counter.current.toNat = s.running + s.leaks
  current_le : s.counter.current ≤ s.counter.max
  below : ∀ phase ∈ s.requests, Below s.counter.max phase

/-! ## One step of a request -/

/-- The step neither takes nor gives back a slot. -/
structure Neutral (counter : ConnectionCounter) (phase : SlotPhase) (a : SlotAct) : Prop where
  counter_eq : (phase.act counter a).2 = counter
  running_eq : (phase.act counter a).1.isRunning = phase.isRunning
  leak_eq : (phase.act counter a).1.isLeak = phase.isLeak
  below : Below counter.max phase → Below counter.max (phase.act counter a).1
  keeps : ¬ (phase = .running ∧ a = .drop)

theorem below_of_ne {max : UInt64} {phase : SlotPhase} (h : ∀ current, phase ≠ .loaded current) : Below max phase :=
  fun current heq => absurd heq (h current)

theorem afterLoad_cases (counter : ConnectionCounter) :
    (counter.current < counter.max ∧ SlotPhase.afterLoad counter = .loaded counter.current) ∨
      SlotPhase.afterLoad counter = .rejected connectionLimit := by
  rw [SlotPhase.afterLoad, ConnectionCounter.load]
  by_cases hmax : counter.current ≥ counter.max
  · rw [if_pos hmax]
    exact .inr rfl
  · rw [if_neg hmax]
    exact .inl ⟨UInt64.not_le.1 hmax, rfl⟩

/-- A request that loads has no slot before or after. -/
theorem neutral_load {counter : ConnectionCounter} {phase : SlotPhase}
    (hact : phase.act counter .load = (SlotPhase.afterLoad counter, counter)) (hrunning : phase.isRunning = false)
    (hleak : phase.isLeak = false) : Neutral counter phase .load := by
  rcases afterLoad_cases counter with ⟨hlt, hload⟩ | hload
  · rw [hload] at hact
    refine ⟨by rw [hact], by rw [hact, hrunning]; rfl, by rw [hact, hleak]; rfl, fun _ current heq => ?_, by simp⟩
    rw [hact] at heq
    cases heq
    exact hlt
  · rw [hload] at hact
    refine ⟨by rw [hact], by rw [hact, hrunning]; rfl, by rw [hact, hleak]; rfl, fun _ => ?_, by simp⟩
    rw [hact]
    exact below_of_ne (by simp)

/-- A step that is not enabled. -/
theorem neutral_idle {counter : ConnectionCounter} {phase : SlotPhase} {a : SlotAct}
    (hact : phase.act counter a = (phase, counter)) (hkeeps : ¬ (phase = .running ∧ a = .drop)) :
    Neutral counter phase a :=
  ⟨by rw [hact], by rw [hact], by rw [hact], by rw [hact]; exact id, hkeeps⟩

theorem act_exchange (counter : ConnectionCounter) (current : UInt64) :
    (SlotPhase.loaded current).act counter .exchange =
      match counter.compareExchange current with
      | some counter => (.running, counter)
      | none => (.retrying, counter) := rfl

/-- The steps of a request. -/
theorem act_cases (counter : ConnectionCounter) (phase : SlotPhase) (a : SlotAct) :
    Neutral counter phase a ∨
      (phase = .loaded counter.current ∧
        phase.act counter a = (.running, { counter with current := counter.current + 1 })) ∨
      (phase = .running ∧ a = .complete ∧ phase.act counter a = (.completed, counter.release)) ∨
      (phase = .running ∧ a = .drop ∧ phase.act counter a = (.dropped true, counter)) := by
  cases phase with
  | arrived =>
      cases a with
      | load => exact .inl (neutral_load rfl rfl rfl)
      | drop => exact .inl ⟨rfl, rfl, rfl, fun _ => below_of_ne (fun _ heq => by cases heq), by simp⟩
      | exchange => exact .inl (neutral_idle rfl (by simp))
      | complete => exact .inl (neutral_idle rfl (by simp))
  | retrying =>
      cases a with
      | load => exact .inl (neutral_load rfl rfl rfl)
      | exchange => exact .inl (neutral_idle rfl (by simp))
      | complete => exact .inl (neutral_idle rfl (by simp))
      | drop => exact .inl (neutral_idle rfl (by simp))
  | loaded current =>
      cases a with
      | exchange =>
          by_cases hcurrent : counter.current = current
          · subst hcurrent
            refine .inr (.inl ⟨rfl, ?_⟩)
            rw [act_exchange, ConnectionCounter.compareExchange, if_pos rfl]
          · have hact : (SlotPhase.loaded current).act counter .exchange = (.retrying, counter) := by
              rw [act_exchange, ConnectionCounter.compareExchange, if_neg hcurrent]
            refine .inl ⟨by rw [hact], by rw [hact]; rfl, by rw [hact]; rfl, fun _ => ?_, by simp⟩
            rw [hact]
            exact below_of_ne (by simp)
      | load => exact .inl (neutral_idle rfl (by simp))
      | complete => exact .inl (neutral_idle rfl (by simp))
      | drop => exact .inl (neutral_idle rfl (by simp))
  | running =>
      cases a with
      | complete => exact .inr (.inr (.inl ⟨rfl, rfl, rfl⟩))
      | drop => exact .inr (.inr (.inr ⟨rfl, rfl, rfl⟩))
      | load => exact .inl (neutral_idle rfl (by simp))
      | exchange => exact .inl (neutral_idle rfl (by simp))
  | rejected response => cases a <;> exact .inl (neutral_idle rfl (by simp))
  | completed => cases a <;> exact .inl (neutral_idle rfl (by simp))
  | dropped admitted => cases a <;> exact .inl (neutral_idle rfl (by simp))

/-! ## One event -/

section Step

variable {s : ConnectionSlots} {i : Nat} {a : SlotAct} {phase : SlotPhase}

theorem step_act (hphase : s.requests[i]? = some phase) {q : SlotPhase} {counter : ConnectionCounter}
    (hact : phase.act s.counter a = (q, counter)) : s.step (.act i a) = ⟨counter, s.requests.set i q⟩ := by
  rw [step, hphase]
  dsimp only
  rw [hact]

/-- A request that drops while it runs. -/
theorem drops_act_iff (hphase : s.requests[i]? = some phase) :
    Drops s (.act i a) ↔ phase = .running ∧ a = .drop := by
  constructor
  · rintro ⟨j, hevent, hrunning⟩
    cases hevent
    rw [hphase] at hrunning
    exact ⟨Option.some.inj hrunning, rfl⟩
  · rintro ⟨rfl, rfl⟩
    exact ⟨i, rfl, hphase⟩

/-- One request and the counter change together. -/
theorem Counted.set (h : Counted s) (hphase : s.requests[i]? = some phase) {q : SlotPhase} {current : UInt64}
    (hle : current ≤ s.counter.max) (hbelow : Below s.counter.max q)
    (hcount : current.toNat + (if phase.isRunning then 1 else 0) + (if phase.isLeak then 1 else 0) =
      s.counter.current.toNat + (if q.isRunning then 1 else 0) + if q.isLeak then 1 else 0) :
    Counted ⟨{ s.counter with current }, s.requests.set i q⟩ where
  current_eq := by
    have hcurrent := h.current_eq
    have hrunning := countP_set_of_some hphase SlotPhase.isRunning q
    have hleaks := countP_set_of_some hphase SlotPhase.isLeak q
    rw [running, leaks] at hcurrent ⊢
    dsimp only
    omega
  current_le := hle
  below := forall_mem_set h.below hbelow

theorem leaks_set (hphase : s.requests[i]? = some phase) {q : SlotPhase} {counter : ConnectionCounter} {l : Bool}
    (hleak : phase.isLeak = l) (hq : q.isLeak = l) :
    (⟨counter, s.requests.set i q⟩ : ConnectionSlots).leaks = s.leaks := by
  have hleaks := countP_set_of_some hphase SlotPhase.isLeak q
  rw [hleak, hq] at hleaks
  exact Nat.add_right_cancel hleaks

/-- A request that runs has a slot. -/
theorem Counted.one_le (h : Counted s) (hrunning : s.requests[i]? = some .running) : 1 ≤ s.counter.current.toNat := by
  have hpos : 0 < s.running :=
    List.countP_pos_iff.2 ⟨.running, List.mem_of_getElem? hrunning, by simp [SlotPhase.isRunning]⟩
  rw [h.current_eq]
  omega

/-- A request arrives. -/
theorem Counted.arrive (h : Counted s) : Counted (s.step .arrive) ∧ (s.step .arrive).leaks = s.leaks := by
  have hleaks : (s.step .arrive).leaks = s.leaks := by
    rw [leaks, step, List.countP_append]
    rfl
  have hrunning : (s.step .arrive).running = s.running := by
    rw [running, step, List.countP_append]
    rfl
  refine ⟨⟨?_, h.current_le, forall_mem_concat h.below (below_of_ne (by simp))⟩, hleaks⟩
  rw [hrunning, hleaks]
  exact h.current_eq

/-- A slot is taken, below the maximum. -/
theorem Counted.take (h : Counted s) (hphase : s.requests[i]? = some (.loaded s.counter.current)) :
    Counted ⟨{ s.counter with current := s.counter.current + 1 }, s.requests.set i .running⟩ := by
  have hbelow := h.below _ (List.mem_of_getElem? hphase)
  have hlt := UInt64.lt_iff_toNat_lt.1 (hbelow s.counter.current rfl)
  have hadd : (s.counter.current + 1).toNat = s.counter.current.toNat + 1 := by
    have hmax := s.counter.max.toNat_lt
    rw [UInt64.toNat_add, UInt64.toNat_one, Nat.mod_eq_of_lt (by omega)]
  refine h.set hphase ?_ (below_of_ne (by simp)) ?_
  · rw [UInt64.le_iff_toNat_le, hadd]
    exact hlt
  · rw [hadd]
    rfl

/-- A slot is given back, and the subtraction does not wrap. -/
theorem Counted.release (h : Counted s) (hphase : s.requests[i]? = some .running) :
    Counted ⟨s.counter.release, s.requests.set i .completed⟩ := by
  have hone := h.one_le hphase
  have hsub : (s.counter.current - 1).toNat + 1 = s.counter.current.toNat := by
    have hle : (1 : UInt64) ≤ s.counter.current := UInt64.le_iff_toNat_le.2 hone
    rw [UInt64.toNat_sub_of_le _ _ hle, UInt64.toNat_one]
    omega
  refine h.set hphase ?_ (below_of_ne (by simp)) hsub
  have hle := UInt64.le_iff_toNat_le.1 h.current_le
  rw [UInt64.le_iff_toNat_le]
  omega

/-- A request that is dropped while it runs leaks its slot. -/
theorem leaks_drop_ne (hphase : s.requests[i]? = some phase) (counter : ConnectionCounter) :
    (⟨counter, s.requests.set i (.dropped true)⟩ : ConnectionSlots).leaks ≠ 0 := by
  intro hnone
  have hmem : SlotPhase.dropped true ∈ s.requests.set i (.dropped true) :=
    List.mem_set (List.getElem?_eq_some_iff.1 hphase).1 _
  exact absurd rfl (List.countP_eq_zero.1 hnone _ hmem)

/-- One step of a request keeps the count. A request leaks its slot exactly when it is dropped while
it runs. -/
theorem Counted.act (h : Counted s) (hphase : s.requests[i]? = some phase) (a : SlotAct) :
    Counted (s.step (.act i a)) ∧
      (s.leaks = 0 → ((s.step (.act i a)).leaks = 0 ↔ ¬ (phase = .running ∧ a = .drop))) := by
  rcases act_cases s.counter phase a with hneutral | ⟨rfl, hact⟩ | ⟨rfl, rfl, hact⟩ | ⟨rfl, rfl, hact⟩
  · have hact : phase.act s.counter a = ((phase.act s.counter a).1, s.counter) :=
      Prod.ext_iff.2 ⟨rfl, hneutral.counter_eq⟩
    have hbelow := h.below phase (List.mem_of_getElem? hphase)
    rw [step_act hphase hact, leaks_set hphase rfl hneutral.leak_eq]
    refine ⟨h.set hphase h.current_le (hneutral.below hbelow) ?_, fun hleaks => ?_⟩
    · rw [hneutral.running_eq, hneutral.leak_eq]
    · exact ⟨fun _ => hneutral.keeps, fun _ => hleaks⟩
  · rw [step_act hphase hact, leaks_set hphase (l := false) rfl rfl]
    exact ⟨h.take hphase, fun hleaks => ⟨fun _ => by simp, fun _ => hleaks⟩⟩
  · rw [step_act hphase hact, leaks_set hphase (l := false) rfl rfl]
    exact ⟨h.release hphase, fun hleaks => ⟨fun _ => by simp, fun _ => hleaks⟩⟩
  · -- the slot stays taken
    rw [step_act hphase hact]
    refine ⟨h.set hphase h.current_le (below_of_ne (by simp)) rfl, fun _ => ⟨fun hnone => ?_, fun hnot => ?_⟩⟩
    · exact absurd hnone (leaks_drop_ne hphase _)
    · exact absurd ⟨rfl, rfl⟩ hnot

/-- **One event** keeps the count, and another request leaks its slot exactly when one is dropped. -/
theorem Counted.step (h : Counted s) (event : SlotEvent) :
    Counted (s.step event) ∧ (s.leaks = 0 → ((s.step event).leaks = 0 ↔ ¬ Drops s event)) := by
  cases event with
  | arrive =>
      have hnot : ¬ Drops s .arrive := by
        rintro ⟨i, hevent, -⟩
        cases hevent
      obtain ⟨hcounted, hleaks⟩ := h.arrive
      rw [hleaks]
      exact ⟨hcounted, fun hzero => ⟨fun _ => hnot, fun _ => hzero⟩⟩
  | act i a =>
      cases hphase : s.requests[i]? with
      | none =>
          have hsame : s.step (.act i a) = s := by rw [ConnectionSlots.step, hphase]
          have hnot : ¬ Drops s (.act i a) := by
            rintro ⟨j, hevent, hrunning⟩
            cases hevent
            rw [hphase] at hrunning
            cases hrunning
          rw [hsame]
          exact ⟨h, fun hzero => ⟨fun _ => hnot, fun _ => hzero⟩⟩
      | some phase =>
          rw [drops_act_iff hphase]
          exact h.act hphase a

/-- Without a leak the counter is the number of requests that run, and only then. -/
theorem Counted.kept_iff (h : Counted s) : Kept s ↔ s.leaks = 0 := by
  have hcurrent := h.current_eq
  constructor
  · intro hkept
    have hactive : s.counter.current.toNat = s.running := hkept.active_eq
    omega
  · intro hleaks
    refine ⟨?_, h.current_le, fun i hrunning => UInt64.le_iff_toNat_le.2 (h.one_le hrunning)⟩
    rw [ConnectionCounter.active, hcurrent, hleaks, Nat.add_zero]

end Step

/-! ## Runs -/

theorem counted_init (max : UInt64) : Counted (init max) where
  current_eq := rfl
  current_le := UInt64.le_iff_toNat_le.2 (Nat.zero_le _)
  below phase hphase := by cases hphase

/-- Whatever is dropped, the counter stays at most the maximum and never wraps. -/
theorem counted_run (max : UInt64) (events : List SlotEvent) : Counted (events.foldl step (init max)) :=
  (along_true events (init max)).invariant (I := Counted) (fun _ event hs _ => (hs.step event).1) (counted_init max)

/-- **Connection slots.** For any interleaving of requests, the counter is throughout the number of
admitted requests that run, at most the maximum, and never wraps, if and only if no admitted
request is dropped while it runs. -/
theorem slotsKept_iff (max : UInt64) (events : List SlotEvent) :
    (∀ pre, pre <+: events → Kept (pre.foldl step (init max))) ↔
      Along step (fun s event => ¬ Drops s event) (init max) events := by
  have hcounted := counted_init max
  refine forall_prefix_iff_along (I := Counted) (P := Kept) (fun s event hs => (hs.step event).1)
    (fun s event hs hkept => ?_) hcounted (hcounted.kept_iff.2 rfl) events
  obtain ⟨hnext, hleaks⟩ := hs.step event
  rw [hnext.kept_iff]
  exact hleaks (hs.kept_iff.1 hkept)

/-- One admitted request that the timeout drops. -/
theorem not_slotsKept :
    ¬ Kept ([.arrive, .act 0 .load, .act 0 .exchange, .act 0 .drop].foldl step (init 1)) := by
  intro hkept
  exact absurd hkept.active_eq (by decide)

end ConnectionSlots

end MSearchDB.Node
