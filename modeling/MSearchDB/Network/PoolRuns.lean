import MSearchDB.Network.ConnectionPool

/-!
# Concurrent calls of the connection pool

The lock of the pool is not held while `get` connects, so a call of `get` has two steps:
its look into the cache, and the insertion of the client it connected in between. Any
number of calls may be connecting at a time, for the same node as well.

What a step does to the entry of one node is a `SlotChange`. A ledger keeps, beside the
pool, what was recorded for that node: the failures since the last success or removal
and the time of the last one. The breaker in the entry follows the ledger as long as no
insertion replaces it after a failure (`open_circuit_refuses`). Once the open duration
has elapsed, every `get` returns a client until an outcome is recorded, so that a single
one does only where a single one is made (`single_probe_iff`).
-/

set_option autoImplicit false

namespace MSearchDB.Network

open MSearchDB.Lib
open MSearchDB.Core
open MSearchDB.Node (NodeAddress)
open Std (ExtTreeMap)

/-- A step of a call. -/
inductive PoolStep where
  | beginGet (nodeId : NodeId) (addr : NodeAddress)
  | finishGet (call : Nat) (net : Dialing)
  | insert (nodeId : NodeId) (client : ChannelClient)
  | recordSuccess (nodeId : NodeId)
  | recordFailure (nodeId : NodeId)
  | remove (nodeId : NodeId)

/-- A step and the time at which it is taken. -/
structure TimedStep where
  time : Nat
  step : PoolStep

/-- The pool and the calls of `get` that are connecting. -/
structure PoolRun where
  pool : ConnectionPool
  connecting : List (NodeId × NodeAddress)

/-- What a step does to the entry of a node. -/
inductive SlotChange where
  | keep
  | insert (client : ChannelClient)
  | success
  | failure (time : Nat)
  | remove
  deriving DecidableEq, Repr

namespace PoolRun

/-- No entry and no call. -/
def start (config : PoolConfig) : PoolRun := ⟨.withConfig config, []⟩

/-- A step, with the node and the result of the `get` that returns in it. -/
def exec (r : PoolRun) : TimedStep → PoolRun × Option (NodeId × DbResult ChannelClient)
  | ⟨now, .beginGet nodeId addr⟩ =>
      match r.pool.cached now nodeId with
      | some result => (r, some (nodeId, result))
      | none => ({ r with connecting := r.connecting ++ [(nodeId, addr)] }, none)
  | ⟨_, .finishGet call net⟩ =>
      match r.connecting[call]? with
      | none => (r, none)
      | some (nodeId, addr) =>
          -- the lock was free during the connect: other calls may have changed the entry
          let connecting := r.connecting.eraseIdx call
          match ChannelClient.connect net addr with
          | .error e => (⟨r.pool, connecting⟩, some (nodeId, .error e))
          | .ok client => (⟨r.pool.insert nodeId client, connecting⟩, some (nodeId, .ok client))
  | ⟨_, .insert nodeId client⟩ => ({ r with pool := r.pool.insert nodeId client }, none)
  | ⟨_, .recordSuccess nodeId⟩ => ({ r with pool := r.pool.recordSuccess nodeId }, none)
  | ⟨now, .recordFailure nodeId⟩ => ({ r with pool := r.pool.recordFailure now nodeId }, none)
  | ⟨_, .remove nodeId⟩ => ({ r with pool := r.pool.remove nodeId }, none)

/-- A call of `get` that begins and ends without others in between is `get`. -/
theorem exec_get (pool : ConnectionPool) (now : Nat) (net : Dialing) (nodeId : NodeId) (addr : NodeAddress) :
    let first := PoolRun.exec ⟨pool, []⟩ ⟨now, .beginGet nodeId addr⟩
    let second := first.1.exec ⟨now, .finishGet 0 net⟩
    (first.2.or second.2, second.1) =
      (some (nodeId, (pool.get now net nodeId addr).1), ⟨(pool.get now net nodeId addr).2, []⟩) := by
  intro first second
  cases hcached : pool.cached now nodeId with
  | some result => simp [second, first, exec, ConnectionPool.get, hcached]
  | none =>
      rcases hconnect : ChannelClient.connect net addr with e | client
      · simp [second, first, exec, ConnectionPool.get, hcached, hconnect]
      · simp [second, first, exec, ConnectionPool.get, hcached, hconnect]

/-- What a step does to the entry of the node `id`. -/
def changeAt (r : PoolRun) (id : NodeId) : TimedStep → SlotChange
  | ⟨_, .beginGet _ _⟩ => .keep
  | ⟨_, .finishGet call net⟩ =>
      match r.connecting[call]? with
      | none => .keep
      | some (nodeId, addr) =>
          match ChannelClient.connect net addr with
          | .error _ => .keep
          | .ok client => if nodeId = id then .insert client else .keep
  | ⟨_, .insert nodeId client⟩ => if nodeId = id then .insert client else .keep
  | ⟨_, .recordSuccess nodeId⟩ => if nodeId = id then .success else .keep
  | ⟨now, .recordFailure nodeId⟩ => if nodeId = id then .failure now else .keep
  | ⟨_, .remove nodeId⟩ => if nodeId = id then .remove else .keep

end PoolRun

/-- The entry after a change. -/
def SlotChange.apply (config : PoolConfig) (slot : Option PoolEntry) : SlotChange → Option PoolEntry
  | .keep => slot
  | .insert client => some ⟨client, .new config.failureThreshold config.openDuration⟩
  | .success => slot.map fun entry => { entry with breaker := entry.breaker.recordSuccess }
  | .failure time => slot.map fun entry => { entry with breaker := entry.breaker.recordFailure time }
  | .remove => none

namespace PoolRun

theorem config_exec (r : PoolRun) (s : TimedStep) : (r.exec s).1.pool.config = r.pool.config := by
  obtain ⟨time, step⟩ := s
  cases step with
  | beginGet nodeId addr =>
      rw [exec]
      cases r.pool.cached time nodeId with
      | some result => rfl
      | none => rfl
  | finishGet call net =>
      rw [exec]
      rcases r.connecting[call]? with _ | ⟨nodeId, addr⟩
      · rfl
      · simp only
        cases ChannelClient.connect net addr with
        | error e => rfl
        | ok client => rfl
  | insert nodeId client => rfl
  | recordSuccess nodeId => exact ConnectionPool.config_modifyBreaker _ _ _
  | recordFailure nodeId => exact ConnectionPool.config_modifyBreaker _ _ _
  | remove nodeId => rfl

/-- **One entry at a time.** -/
theorem slot_exec (r : PoolRun) (id : NodeId) (s : TimedStep) :
    (r.exec s).1.pool.entries[id]? = (r.changeAt id s).apply r.pool.config r.pool.entries[id]? := by
  obtain ⟨time, step⟩ := s
  cases step with
  | beginGet nodeId addr =>
      rw [exec, changeAt]
      cases r.pool.cached time nodeId with
      | some result => rfl
      | none => rfl
  | finishGet call net =>
      rw [exec, changeAt]
      rcases r.connecting[call]? with _ | ⟨nodeId, addr⟩
      · rfl
      · simp only
        cases ChannelClient.connect net addr with
        | error e => rfl
        | ok client =>
            simp only [ConnectionPool.getElem?_insert]
            split
            · rfl
            · rfl
  | insert nodeId client =>
      simp only [exec, changeAt, ConnectionPool.getElem?_insert]
      split
      · rfl
      · rfl
  | recordSuccess nodeId =>
      simp only [exec, changeAt, ConnectionPool.recordSuccess, ConnectionPool.getElem?_modifyBreaker]
      split
      · rfl
      · rfl
  | recordFailure nodeId =>
      simp only [exec, changeAt, ConnectionPool.recordFailure, ConnectionPool.getElem?_modifyBreaker]
      split
      · rfl
      · rfl
  | remove nodeId =>
      simp only [exec, changeAt, ConnectionPool.getElem?_remove]
      split
      · rfl
      · rfl

end PoolRun

/-! ## What was recorded for a node -/

/-- The failures recorded for a node since its last success or removal, the time of the
last one, and since the last outcome and after the open duration has elapsed: the calls
of `get` that were made or that connected, and those that returned a client. -/
structure Ledger where
  failures : Nat
  last : Option Nat
  asked : Nat
  admitted : Nat
  deriving DecidableEq, Repr

/-- Nothing was recorded. -/
def Ledger.empty : Ledger := ⟨0, none, 0, 0⟩

/-- The failures have reached the threshold, and the open duration has not elapsed since
the last one. -/
def Ledger.Blocking (l : Ledger) (config : PoolConfig) (now : Nat) : Prop :=
  (config.failureThreshold.toNat ≤ l.failures ∧ 0 < l.failures) ∧
    ∃ t, l.last = some t ∧ elapsed t now < config.openDuration

/-- The failures have reached the threshold, and the open duration has elapsed. -/
def Ledger.Expired (l : Ledger) (config : PoolConfig) (now : Nat) : Prop :=
  (config.failureThreshold.toNat ≤ l.failures ∧ 0 < l.failures) ∧
    ∃ t ∈ l.last, config.openDuration ≤ elapsed t now

instance (l : Ledger) (config : PoolConfig) (now : Nat) : Decidable (l.Expired config now) := by
  unfold Ledger.Expired
  infer_instance

/-- The ledger after a change of the entry. The pool records outcomes for the nodes it
holds alone. -/
def Ledger.record (l : Ledger) (held : Bool) : SlotChange → Ledger
  | .keep => l
  | .insert _ => l
  | .success => if held then .empty else l
  | .failure time => if held then ⟨l.failures + 1, some time, 0, 0⟩ else l
  | .remove => .empty

/-- A run with the ledger of a node. -/
structure Watched where
  run : PoolRun
  ledger : Ledger

/-- The step begins a `get` for the node, or inserts the client of one. -/
def PoolRun.asks (r : PoolRun) (id : NodeId) : TimedStep → Bool
  | ⟨_, .beginGet nodeId _⟩ => nodeId = id
  | ⟨_, .finishGet call net⟩ =>
      match r.connecting[call]? with
      | none => false
      | some (nodeId, addr) => nodeId = id ∧ (ChannelClient.connect net addr).isOk
  | _ => false

/-- A `get` for the node returned a client. -/
def admits (id : NodeId) : Option (NodeId × DbResult ChannelClient) → Bool
  | some (nodeId, .ok _) => nodeId = id
  | _ => false

namespace Watched

/-- No entry, no call and nothing recorded. -/
def start (config : PoolConfig) : Watched := ⟨.start config, .empty⟩

/-- The ledger of the node `id` with the `get` of a step counted. -/
def counted (id : NodeId) (w : Watched) (s : TimedStep) : Ledger :=
  if w.ledger.Expired w.run.pool.config s.time then
    { w.ledger with
      asked := w.ledger.asked + (w.run.asks id s).toNat
      admitted := w.ledger.admitted + (admits id (w.run.exec s).2).toNat }
  else w.ledger

/-- A step, with the ledger of the node `id`. -/
def step (id : NodeId) (w : Watched) (s : TimedStep) : Watched where
  run := (w.run.exec s).1
  ledger := (w.counted id s).record w.run.pool.entries[id]?.isSome (w.run.changeAt id s)

end Watched

/-- The ledger against the entry of the node: a breaker knows of some of the failures. -/
structure Ledger.Known (config : PoolConfig) (l : Ledger) (slot : Option PoolEntry) : Prop where
  held : 0 < l.failures → slot.isSome
  last_isSome : 0 < l.failures → l.last.isSome
  follows : ∀ entry ∈ slot, ∃ known ≤ l.failures,
    entry.breaker.Follows config.failureThreshold config.openDuration known l.last

/-- The breaker knows of all failures. -/
def Ledger.Exact (config : PoolConfig) (l : Ledger) (slot : Option PoolEntry) : Prop :=
  ∀ entry ∈ slot, entry.breaker.Follows config.failureThreshold config.openDuration l.failures l.last

section Changes

variable {config : PoolConfig} {l l' : Ledger} {slot : Option PoolEntry}

theorem Ledger.Known.congr (h : l.Known config slot) (hfailures : l'.failures = l.failures)
    (hlast : l'.last = l.last) : l'.Known config slot where
  held := hfailures ▸ h.held
  last_isSome := hfailures ▸ hlast ▸ h.last_isSome
  follows := hfailures ▸ hlast ▸ h.follows

theorem Ledger.known_empty (config : PoolConfig) : Ledger.empty.Known config none where
  held hpos := absurd hpos (lt_irrefl 0)
  last_isSome hpos := absurd hpos (lt_irrefl 0)
  follows _ hentry := by cases hentry

/-- What a change keeps. -/
theorem Ledger.Known.record (h : l.Known config slot) (c : SlotChange) :
    (l.record slot.isSome c).Known config (c.apply config slot) := by
  cases c with
  | keep => exact h
  | insert client =>
      -- a new breaker knows of no failure
      refine ⟨fun _ => rfl, h.last_isSome, ?_⟩
      rintro _ ⟨⟩
      exact ⟨0, Nat.zero_le _, CircuitBreaker.follows_new _ _ _⟩
  | success =>
      cases slot with
      | none => exact h
      | some entry =>
          refine ⟨fun _ => rfl, fun hpos => absurd hpos (lt_irrefl 0), ?_⟩
          rintro _ ⟨⟩
          obtain ⟨known, -, hfollows⟩ := h.follows entry rfl
          exact ⟨0, le_rfl, hfollows.recordSuccess _⟩
  | failure time =>
      cases slot with
      | none => exact h
      | some entry =>
          -- one failure more for both
          refine ⟨fun _ => rfl, fun _ => rfl, ?_⟩
          rintro _ ⟨⟩
          obtain ⟨known, hknown, hfollows⟩ := h.follows entry rfl
          exact ⟨known + 1, Nat.succ_le_succ hknown, hfollows.recordFailure time⟩
  | remove => exact Ledger.known_empty config

/-- An insertion makes the breaker forget, and nothing else does. -/
theorem Ledger.Exact.record (h : l.Exact config slot) {c : SlotChange}
    (hinsert : ∀ client, c = .insert client → l.failures = 0) :
    (l.record slot.isSome c).Exact config (c.apply config slot) := by
  cases c with
  | keep => exact h
  | insert client =>
      rintro _ ⟨⟩
      rw [show (l.record slot.isSome (.insert client)).failures = 0 from hinsert client rfl]
      exact CircuitBreaker.follows_new _ _ _
  | success =>
      cases slot with
      | none => exact h
      | some entry =>
          rintro _ ⟨⟩
          exact (h entry rfl).recordSuccess _
  | failure time =>
      cases slot with
      | none => exact h
      | some entry =>
          rintro _ ⟨⟩
          exact (h entry rfl).recordFailure time
  | remove =>
      rintro _ ⟨⟩

end Changes

namespace Watched

variable {config : PoolConfig} {id : NodeId} {w : Watched}

/-- The configuration stays, and the ledger is that of the entry. -/
structure Ledgered (config : PoolConfig) (id : NodeId) (w : Watched) : Prop where
  config_eq : w.run.pool.config = config
  known : w.ledger.Known config w.run.pool.entries[id]?
  counts : w.ledger.admitted = w.ledger.asked

theorem ledgered_start (config : PoolConfig) (id : NodeId) : (start config).Ledgered config id where
  config_eq := rfl
  known := by
    rw [show (start config).run.pool.entries[id]? = none by simp [start, PoolRun.start, ConnectionPool.withConfig]]
    exact Ledger.known_empty config
  counts := rfl

/-- Once the open duration has elapsed the node's client is returned. -/
theorem Ledgered.cached (h : w.Ledgered config id) {now : Nat} (hexpired : w.ledger.Expired config now) :
    ∃ client, w.run.pool.cached now id = some (.ok client) := by
  obtain ⟨⟨-, hpos⟩, t, hlast, helapsed⟩ := hexpired
  obtain ⟨entry, hentry⟩ := Option.isSome_iff_exists.1 (h.known.held hpos)
  obtain ⟨known, -, hfollows⟩ := h.known.follows entry hentry
  -- however few of the failures the breaker knows of, its last one is the ledger's
  have hallow : entry.breaker.allowRequest now = true := by
    refine Bool.eq_true_of_not_eq_false fun hrefused => ?_
    obtain ⟨-, t', ht', hbefore⟩ := (hfollows.refused_iff (fun _ => h.known.last_isSome hpos) now).1 hrefused
    rw [Option.mem_def.1 hlast] at ht'
    cases ht'
    exact absurd helapsed (not_le.2 hbefore)
  exact ⟨entry.client, by rw [ConnectionPool.cached, hentry]; exact if_pos hallow⟩

/-- Then every call of `get` returns a client, as one that connected does. -/
theorem Ledgered.asks_eq_admits (h : w.Ledgered config id) {s : TimedStep}
    (hexpired : w.ledger.Expired config s.time) : w.run.asks id s = admits id (w.run.exec s).2 := by
  obtain ⟨time, step⟩ := s
  cases step with
  | beginGet nodeId addr =>
      rw [PoolRun.asks, PoolRun.exec]
      by_cases hid : nodeId = id
      · subst hid
        obtain ⟨client, hclient⟩ := h.cached hexpired
        simp [hclient, admits]
      · rcases w.run.pool.cached time nodeId with _ | e | client
        · simp [admits, hid]
        · simp [admits, hid]
        · simp [admits, hid]
  | finishGet call net =>
      rw [PoolRun.asks, PoolRun.exec]
      rcases w.run.connecting[call]? with _ | ⟨nodeId, addr⟩
      · rfl
      · simp only
        rcases ChannelClient.connect net addr with e | client
        · simp [admits, Except.isOk, Except.toBool]
        · simp [admits, Except.isOk, Except.toBool]
  | insert nodeId client => rfl
  | recordSuccess nodeId => rfl
  | recordFailure nodeId => rfl
  | remove nodeId => rfl

theorem counted_facts (id : NodeId) (w : Watched) (s : TimedStep) :
    (w.counted id s).failures = w.ledger.failures ∧ (w.counted id s).last = w.ledger.last := by
  rw [counted]
  split
  · exact ⟨rfl, rfl⟩
  · exact ⟨rfl, rfl⟩

theorem Ledgered.counted_counts (h : w.Ledgered config id) (s : TimedStep) :
    (w.counted id s).admitted = (w.counted id s).asked := by
  rw [counted]
  split
  next hexpired =>
    rw [h.config_eq] at hexpired
    simp only
    rw [h.counts, h.asks_eq_admits hexpired]
  next => exact h.counts

/-- A change of the entry keeps both counts or begins them anew. -/
theorem counts_record (l : Ledger) (held : Bool) (c : SlotChange) :
    ((l.record held c).asked = l.asked ∧ (l.record held c).admitted = l.admitted) ∨
      ((l.record held c).asked = 0 ∧ (l.record held c).admitted = 0) := by
  cases c with
  | keep => exact .inl ⟨rfl, rfl⟩
  | insert client => exact .inl ⟨rfl, rfl⟩
  | success =>
      cases held with
      | false => exact .inl ⟨rfl, rfl⟩
      | true => exact .inr ⟨rfl, rfl⟩
  | failure time =>
      cases held with
      | false => exact .inl ⟨rfl, rfl⟩
      | true => exact .inr ⟨rfl, rfl⟩
  | remove => exact .inr ⟨rfl, rfl⟩

theorem Ledgered.step (h : w.Ledgered config id) (s : TimedStep) : (w.step id s).Ledgered config id where
  config_eq := (w.run.config_exec s).trans h.config_eq
  known := by
    obtain ⟨hfailures, hlast⟩ := counted_facts id w s
    have hslot := w.run.slot_exec id s
    rw [h.config_eq] at hslot
    rw [show (w.step id s).run = (w.run.exec s).1 from rfl, hslot]
    exact (h.known.congr hfailures hlast).record _
  counts := by
    rcases counts_record (w.counted id s) w.run.pool.entries[id]?.isSome (w.run.changeAt id s) with
      ⟨hasked, hadmitted⟩ | ⟨hasked, hadmitted⟩
    · exact hadmitted.trans ((h.counted_counts s).trans hasked.symm)
    · exact hadmitted.trans hasked.symm

/-! ## While the circuit is open -/

/-- A client is inserted for the node only where no failure is recorded for it. -/
def Undisturbed (id : NodeId) (w : Watched) (s : TimedStep) : Prop :=
  ∀ client, w.run.changeAt id s = .insert client → w.ledger.failures = 0

theorem exact_step (hledger : w.Ledgered config id) (h : w.ledger.Exact config w.run.pool.entries[id]?)
    {s : TimedStep} (hs : Undisturbed id w s) :
    (w.step id s).ledger.Exact config (w.step id s).run.pool.entries[id]? := by
  obtain ⟨hfailures, hlast⟩ := counted_facts id w s
  have hslot := w.run.slot_exec id s
  rw [hledger.config_eq] at hslot
  rw [show (w.step id s).run = (w.run.exec s).1 from rfl, hslot]
  refine Ledger.Exact.record (fun entry hentry => ?_) fun client hclient => ?_
  · rw [hfailures, hlast]
    exact h entry hentry
  · rw [hfailures]
    exact hs client hclient

/-- **An open circuit refuses where no insertion replaced it.** In a run in which every
client is inserted for the node while no failure is recorded for it: as long as the
failures since the last success or removal have reached the threshold and the open
duration has not elapsed since the last one, a `get` that looks into the cache returns
the error of the circuit breaker. -/
theorem open_circuit_refuses (config : PoolConfig) (id : NodeId) {steps : List TimedStep}
    (h : Along (step id) (Undisturbed id) (start config) steps) (now : Nat) (addr : NodeAddress) :
    let w := steps.foldl (step id) (start config)
    w.ledger.Blocking config now →
      w.run.exec ⟨now, .beginGet id addr⟩ = (w.run, some (id, .error (circuitOpen id))) := by
  intro w hblocking
  have hinv : w.Ledgered config id ∧ w.ledger.Exact config w.run.pool.entries[id]? := by
    refine h.invariant (I := fun w => w.Ledgered config id ∧ w.ledger.Exact config w.run.pool.entries[id]?)
      (fun w s hw hs => ⟨hw.1.step s, exact_step hw.1 hw.2 hs⟩) ⟨ledgered_start config id, ?_⟩
    intro entry hentry
    simp [start, PoolRun.start, ConnectionPool.withConfig] at hentry
  obtain ⟨hledger, hexact⟩ := hinv
  obtain ⟨entry, hentry⟩ := Option.isSome_iff_exists.1 (hledger.known.held hblocking.1.2)
  have hrefused : entry.breaker.allowRequest now = false :=
    ((hexact entry hentry).refused_iff hledger.known.last_isSome now).2 hblocking
  have hcached : w.run.pool.cached now id = some (.error (circuitOpen id)) := by
    rw [ConnectionPool.cached, hentry]
    simp [hrefused]
  rw [PoolRun.exec, hcached]

/-! ## After the open duration -/

/-- After the open duration has elapsed, the first `get` since the last outcome is made,
or connects. -/
def SingleCall (id : NodeId) (w : Watched) (s : TimedStep) : Prop :=
  w.run.asks id s = true → w.ledger.Expired w.run.pool.config s.time → w.ledger.asked = 0

/-- A `get` records no outcome. -/
theorem record_of_asks {r : PoolRun} {s : TimedStep} (h : r.asks id s = true) (l : Ledger) (held : Bool) :
    l.record held (r.changeAt id s) = l := by
  obtain ⟨time, step⟩ := s
  cases step with
  | beginGet nodeId addr => rfl
  | finishGet call net =>
      rw [PoolRun.changeAt]
      rcases r.connecting[call]? with _ | ⟨nodeId, addr⟩
      · rfl
      · simp only
        rcases ChannelClient.connect net addr with e | client
        · rfl
        · simp only
          split
          · rfl
          · rfl
  | insert nodeId client => cases h
  | recordSuccess nodeId => cases h
  | recordFailure nodeId => cases h
  | remove nodeId => cases h

theorem admitted_record_le (l : Ledger) (held : Bool) (c : SlotChange) :
    (l.record held c).admitted ≤ l.admitted := by
  rcases counts_record l held c with ⟨-, hkept⟩ | ⟨-, hcleared⟩
  · exact hkept.le
  · exact hcleared ▸ Nat.zero_le _

/-- A step leaves at most one `get` admitted exactly when it is a single call. -/
theorem admitted_step_iff (h : w.Ledgered config id) (hadmitted : w.ledger.admitted ≤ 1) (s : TimedStep) :
    (w.step id s).ledger.admitted ≤ 1 ↔ SingleCall id w s := by
  by_cases hexpired : w.ledger.Expired w.run.pool.config s.time
  · have hcounted : (w.counted id s).admitted = w.ledger.admitted + (w.run.asks id s).toNat := by
      rw [counted, if_pos hexpired, h.asks_eq_admits (h.config_eq ▸ hexpired)]
    cases hasks : w.run.asks id s with
    | true =>
        -- the call returns a client and records no outcome
        have hstep : (w.step id s).ledger.admitted = w.ledger.asked + 1 := by
          rw [step, record_of_asks hasks, hcounted, hasks, h.counts]
          rfl
        rw [hstep, SingleCall]
        exact ⟨fun hle _ _ => by omega, fun hsingle => by rw [hsingle hasks hexpired]⟩
    | false =>
        -- no call, and an outcome only takes from the count
        refine iff_of_true ((admitted_record_le _ _ _).trans ?_) fun htrue => absurd htrue (by simp [hasks])
        rw [hcounted, hasks]
        exact hadmitted
  · have hcounted : w.counted id s = w.ledger := by rw [counted, if_neg hexpired]
    refine iff_of_true ((admitted_record_le _ _ _).trans ?_) fun _ hthere => absurd hthere hexpired
    rw [hcounted]
    exact hadmitted

/-- **A half-open circuit admits a single probe exactly where a single one is asked for.**
In every run at most one `get` returns a client between the end of an open period and the
next outcome, if and only if in all of these intervals at most one `get` is made or
connects. -/
theorem single_probe_iff (config : PoolConfig) (id : NodeId) (steps : List TimedStep) :
    (∀ pre, pre <+: steps → (pre.foldl (step id) (start config)).ledger.admitted ≤ 1) ↔
      Along (step id) (SingleCall id) (start config) steps := by
  refine forall_prefix_iff_along (I := Ledgered config id) (P := fun w : Watched => w.ledger.admitted ≤ 1)
    (fun w s h => h.step s) (fun w s h hadmitted => admitted_step_iff h hadmitted s)
    (ledgered_start config id) (Nat.zero_le 1) steps

/-! ## A threshold of one failure -/

/-- One failure opens a circuit for ten nanoseconds. -/
def oneFailure : PoolConfig := ⟨10, 1, 10⟩

/-- The address of the node 1. -/
def firstNode : NodeAddress := ⟨"10.0.0.1", 9300⟩

/-- A node that is connected and fails. -/
def connectAndFail : List TimedStep :=
  [⟨0, .beginGet 1 firstNode⟩, ⟨0, .finishGet 0 ConnectionPool.openNetwork⟩, ⟨1, .recordFailure 1⟩]

/-- In the open period the node's `get` is refused. -/
theorem open_circuit_refuses_after_failure :
    let w := connectAndFail.foldl (step 1) (start oneFailure)
    w.run.exec ⟨5, .beginGet 1 firstNode⟩ = (w.run, some (1, .error (circuitOpen 1))) := by
  have halong : Along (step 1) (Undisturbed 1) (start oneFailure) connectAndFail := by
    refine ⟨fun client h => ?_, fun client _ => by decide, fun client h => ?_, trivial⟩
    · cases h
    · have hfailure : ((([⟨0, .beginGet 1 firstNode⟩, ⟨0, .finishGet 0 ConnectionPool.openNetwork⟩] :
          List TimedStep).foldl (step 1) (start oneFailure)).run.changeAt 1 ⟨1, .recordFailure 1⟩) =
            .failure 1 := rfl
      cases hfailure.symm.trans h
  exact open_circuit_refuses oneFailure 1 halong 5 firstNode ⟨by decide, 1, by decide, by decide⟩

/-- A second call that was connecting all the time replaces the breaker. -/
theorem insertion_closes_open_circuit :
    let steps : List TimedStep := [⟨0, .beginGet 1 firstNode⟩] ++ connectAndFail ++
      [⟨2, .finishGet 0 ConnectionPool.openNetwork⟩]
    let w := steps.foldl (step 1) (start oneFailure)
    w.ledger.Blocking oneFailure 5 ∧
      ¬ ∃ e : DbError, (w.run.exec ⟨5, .beginGet 1 firstNode⟩).2 = some (1, .error e) := by
  refine ⟨⟨by decide, 1, by decide, by decide⟩, ?_⟩
  rintro ⟨e, he⟩
  have hclient : (some (1, .ok ⟨⟨"http://10.0.0.1:9300"⟩, "http://10.0.0.1:9300"⟩) :
      Option (NodeId × DbResult ChannelClient)) = some (1, .error e) := by
    rw [← he]
    decide
  cases hclient

/-- Two calls after the open period get a client each. -/
theorem two_probes :
    let steps : List TimedStep := connectAndFail ++ [⟨11, .beginGet 1 firstNode⟩, ⟨12, .beginGet 1 firstNode⟩]
    (steps.foldl (step 1) (start oneFailure)).ledger.admitted = 2 := by
  decide

end Watched

end MSearchDB.Network
