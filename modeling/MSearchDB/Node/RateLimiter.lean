import MSearchDB.Core.TokenBucket
import MSearchDB.Node.Roles

/-!
# Rate limits

`RateLimiter` of `crates/core/src/security.rs` and `rate_limit_middleware` of
`crates/node/src/middleware.rs`, which runs before `auth_middleware`. A request looks for the
bucket of its key under the read lock, and where there is none it waits for the write lock and
creates one. Between the two other requests run. The calls on one bucket come one after the
other, as in `TokenBucket`.

Every key has a bucket of its own. Requests whose keys are not registered are within one
default bucket in every window of time when they all carry the same key (`unknownKeys_bound`).
Three keys that nobody registered already pass three requests at once where the default is
one (`not_unknownKeys_bound`).
-/

set_option autoImplicit false

namespace MSearchDB.Node

open Std MSearchDB.Lib MSearchDB.Core

/-- `RateLimiter`. -/
structure RateLimiter where
  buckets : ExtTreeMap String TokenBucket
  defaultCapacity : UInt64
  defaultRefillRate : ℚ

namespace RateLimiter

/-- `RateLimiter::new`. -/
def new (defaultCapacity : UInt64) (defaultRefillRate : ℚ) : RateLimiter := ⟨∅, defaultCapacity, defaultRefillRate⟩

/-- `TokenBucket::try_acquire` on the bucket of the key. -/
def acquireFrom (limiter : RateLimiter) (key : String) (bucket : TokenBucket) (now : ℚ) : Bool × RateLimiter :=
  ((bucket.tryAcquire now).1, { limiter with buckets := limiter.buckets.insert key (bucket.tryAcquire now).2 })

/-- The fast path of `RateLimiter::try_acquire`. -/
def tryAcquireFast (limiter : RateLimiter) (key : String) (now : ℚ) : Option (Bool × RateLimiter) :=
  limiter.buckets[key]?.map fun bucket => limiter.acquireFrom key bucket now

/-- The bucket that a request finds under the write lock, or creates. -/
def entry (limiter : RateLimiter) (key : String) (created : ℚ) : TokenBucket :=
  limiter.buckets[key]?.getD (.new limiter.defaultCapacity limiter.defaultRefillRate created)

/-- The slow path of `RateLimiter::try_acquire`. -/
def tryAcquireSlow (limiter : RateLimiter) (key : String) (created now : ℚ) : Bool × RateLimiter :=
  limiter.acquireFrom key (limiter.entry key created) now

end RateLimiter

/-- The key of a request. -/
def rateLimitKey (headers : AuthHeaders) : String := headers.xApiKey.getD "anonymous"

/-- The answer of `rate_limit_middleware` to a request that goes no further. -/
def rateLimited : ErrorResponse := ⟨429, "rate_limited", "rate limit exceeded — try again later"⟩

/-- `rate_limit_middleware`, by what the limiter answers. -/
def rateLimitMiddleware (allowed : Bool) : Except ErrorResponse Unit := if allowed then .ok () else .error rateLimited

/-! ## Requests -/

/-- The limiter, and the keys of the requests that wait for its write lock. -/
structure Limiting where
  limiter : RateLimiter
  waiting : List String

/-- A request arrives and takes the fast path, or one that waits has the write lock. -/
inductive LimitEvent where
  | fast (headers : AuthHeaders) (now : ℚ)
  | slow (i : Nat) (created now : ℚ)

namespace LimitEvent

/-- The time of the event. -/
def now : LimitEvent → ℚ
  | fast _ now => now
  | slow _ _ now => now

/-- A bucket is created before it is asked. -/
def Timed : LimitEvent → Prop
  | fast _ _ => True
  | slow _ created now => created ≤ now

/-- The key that a request arrives with. -/
def asks : LimitEvent → Option String
  | fast headers _ => some (rateLimitKey headers)
  | slow _ _ _ => none

end LimitEvent

namespace Limiting

/-- Before the first request. -/
def init (defaultCapacity : UInt64) (defaultRefillRate : ℚ) : Limiting := ⟨.new defaultCapacity defaultRefillRate, []⟩

/-- One event. -/
def step (s : Limiting) : LimitEvent → Limiting
  | .fast headers now =>
      match s.limiter.tryAcquireFast (rateLimitKey headers) now with
      | some (_, limiter) => { s with limiter }
      | none => { s with waiting := s.waiting ++ [rateLimitKey headers] }
  | .slow i created now =>
      match s.waiting[i]? with
      | some key => ⟨(s.limiter.tryAcquireSlow key created now).2, s.waiting.eraseIdx i⟩
      | none => s

/-- The key of the request that an event answers, with what the middleware makes of the
answer. -/
def answer (s : Limiting) : LimitEvent → Option (String × Except ErrorResponse Unit)
  | .fast headers now =>
      (s.limiter.tryAcquireFast (rateLimitKey headers) now).map fun r =>
        (rateLimitKey headers, rateLimitMiddleware r.1)
  | .slow i created now =>
      s.waiting[i]?.map fun key => (key, rateLimitMiddleware (s.limiter.tryAcquireSlow key created now).1)

/-- The event allows a request whose key is not registered. -/
def allowsUnknown (registry : ApiKeyRegistry) (s : Limiting) (event : LimitEvent) : Bool :=
  match s.answer event with
  | some (key, .ok ()) => !registry.contains key
  | _ => false

/-! ## One event -/

section Step

variable {s : Limiting} {event : LimitEvent}

/-- The event is one call on a bucket, that is there or that it creates, of a key that the event asks
for or that waits. -/
structure Calls (s : Limiting) (event : LimitEvent) (key : String) (bucket : TokenBucket) : Prop where
  key_of : key ∈ s.waiting ∨ event.asks = some key
  bucket_of : s.limiter.buckets[key]? = some bucket ∨
    s.limiter.buckets[key]? = none ∧ ∃ created, (event.Timed → created ≤ event.now) ∧
      bucket = .new s.limiter.defaultCapacity s.limiter.defaultRefillRate created
  answer_eq : s.answer event = some (key, rateLimitMiddleware (bucket.tryAcquire event.now).1)
  limiter_eq : (s.step event).limiter = (s.limiter.acquireFrom key bucket event.now).2

/-- The fast path. -/
theorem fast_cases (s : Limiting) (headers : AuthHeaders) (now : ℚ) :
    (s.answer (.fast headers now) = none ∧
        s.step (.fast headers now) = { s with waiting := s.waiting ++ [rateLimitKey headers] }) ∨
      ((s.step (.fast headers now)).waiting = s.waiting ∧
        ∃ bucket, Calls s (.fast headers now) (rateLimitKey headers) bucket) := by
  cases hfound : s.limiter.buckets[rateLimitKey headers]? with
  | none =>
      have hfast : s.limiter.tryAcquireFast (rateLimitKey headers) now = none := by
        rw [RateLimiter.tryAcquireFast, hfound]
        rfl
      refine .inl ⟨?_, ?_⟩
      · rw [answer, hfast]
        rfl
      · rw [step, hfast]
  | some bucket =>
      have hfast : s.limiter.tryAcquireFast (rateLimitKey headers) now =
          some (s.limiter.acquireFrom (rateLimitKey headers) bucket now) := by
        rw [RateLimiter.tryAcquireFast, hfound]
        rfl
      refine .inr ⟨?_, bucket, ⟨.inr rfl, .inl hfound, ?_, ?_⟩⟩
      · rw [step, hfast]
      · rw [answer, hfast]
        rfl
      · rw [step, hfast]
        rfl

/-- The slow path. -/
theorem slow_cases (s : Limiting) (i : Nat) (created now : ℚ) :
    (s.answer (.slow i created now) = none ∧ s.step (.slow i created now) = s) ∨
      ((s.step (.slow i created now)).waiting = s.waiting.eraseIdx i ∧
        ∃ key bucket, Calls s (.slow i created now) key bucket) := by
  cases hwaiting : s.waiting[i]? with
  | none =>
      refine .inl ⟨?_, ?_⟩
      · rw [answer, hwaiting]
        rfl
      · rw [step, hwaiting]
  | some key =>
      refine .inr ⟨?_, key, s.limiter.entry key created, ⟨.inl (List.mem_of_getElem? hwaiting), ?_, ?_, ?_⟩⟩
      · rw [step, hwaiting]
      · rw [RateLimiter.entry]
        cases hfound : s.limiter.buckets[key]? with
        | none => exact .inr ⟨rfl, created, fun htimed => htimed, rfl⟩
        | some bucket => exact .inl rfl
      · rw [answer, hwaiting]
        rfl
      · rw [step, hwaiting]
        rfl

/-- What an event does: nothing to the limiter, or one call on a bucket. -/
theorem step_cases (s : Limiting) (event : LimitEvent) :
    (∀ key ∈ (s.step event).waiting, key ∈ s.waiting ∨ event.asks = some key) ∧
      ((s.answer event = none ∧ (s.step event).limiter = s.limiter) ∨ ∃ key bucket, Calls s event key bucket) := by
  cases event with
  | fast headers now =>
      rcases fast_cases s headers now with ⟨hanswer, hstep⟩ | ⟨hwaiting, bucket, hcalls⟩
      · rw [hstep]
        refine ⟨fun key hkey => ?_, .inl ⟨hanswer, rfl⟩⟩
        rcases List.mem_append.1 hkey with hkey | hkey
        · exact .inl hkey
        · rw [List.mem_singleton.1 hkey]
          exact .inr rfl
      · rw [hwaiting]
        exact ⟨fun key hkey => .inl hkey, .inr ⟨_, bucket, hcalls⟩⟩
  | slow i created now =>
      rcases slow_cases s i created now with ⟨hanswer, hstep⟩ | ⟨hwaiting, key, bucket, hcalls⟩
      · rw [hstep]
        exact ⟨fun key hkey => .inl hkey, .inl ⟨hanswer, rfl⟩⟩
      · rw [hwaiting]
        exact ⟨fun k hk => .inl (List.mem_of_mem_eraseIdx hk), .inr ⟨key, bucket, hcalls⟩⟩

/-- A request leaves the buckets of all other keys alone. -/
theorem buckets_step {k : String} (h : ∀ key response, s.answer event = some (key, response) → key ≠ k) :
    (s.step event).limiter.buckets[k]? = s.limiter.buckets[k]? := by
  rcases (step_cases s event).2 with ⟨-, hsame⟩ | ⟨key, bucket, hcalls⟩
  · rw [hsame]
  · rw [hcalls.limiter_eq, RateLimiter.acquireFrom, ExtTreeMap.getElem?_insert, if_neg]
    exact fun heq => h key _ hcalls.answer_eq (LawfulEqOrd.eq_of_compare heq)

theorem limiter_step (s : Limiting) (event : LimitEvent) :
    (s.step event).limiter.defaultCapacity = s.limiter.defaultCapacity ∧
      (s.step event).limiter.defaultRefillRate = s.limiter.defaultRefillRate := by
  rcases (step_cases s event).2 with ⟨-, hsame⟩ | ⟨key, bucket, hcalls⟩
  · rw [hsame]
    exact ⟨rfl, rfl⟩
  · rw [hcalls.limiter_eq]
    exact ⟨rfl, rfl⟩

end Step

/-! ## One key for all that are not registered -/

section Shared

variable {registry : ApiKeyRegistry} {shared : String} {capacity : UInt64} {rate : ℚ}

/-- The request carries a registered key, or the shared one. -/
def Shares (registry : ApiKeyRegistry) (shared : String) (event : LimitEvent) : Prop :=
  ∀ key, event.asks = some key → key ∉ registry → key = shared

/-- The shared bucket is filled once it is there, and no other key without registration waits. -/
structure SharedFilled (registry : ApiKeyRegistry) (shared : String) (capacity : UInt64) (rate : ℚ) (s : Limiting)
    (t : ℚ) : Prop where
  capacity_eq : s.limiter.defaultCapacity = capacity
  rate_eq : s.limiter.defaultRefillRate = rate
  filled : ∀ bucket, s.limiter.buckets[shared]? = some bucket → bucket.Filled capacity rate t
  waiting : ∀ key ∈ s.waiting, key ∉ registry → key = shared

/-- What the shared bucket can still hand out, in milli-tokens. Before it is there that is a full
bucket. -/
def credit (shared : String) (capacity : UInt64) (s : Limiting) (t : ℚ) : ℚ :=
  match s.limiter.buckets[shared]? with
  | some bucket => min (bucket.credit t) (capacity.toNat * 1000 + 1)
  | none => capacity.toNat * 1000 + 1

theorem credit_of_some {s : Limiting} {bucket : TokenBucket} (h : s.limiter.buckets[shared]? = some bucket) (t : ℚ) :
    s.credit shared capacity t = min (bucket.credit t) (capacity.toNat * 1000 + 1) := by
  rw [credit, h]

theorem credit_of_none {s : Limiting} (h : s.limiter.buckets[shared]? = none) (t : ℚ) :
    s.credit shared capacity t = capacity.toNat * 1000 + 1 := by
  rw [credit, h]

theorem credit_le (s : Limiting) (t : ℚ) : s.credit shared capacity t ≤ capacity.toNat * 1000 + 1 := by
  cases h : s.limiter.buckets[shared]? with
  | none => exact (credit_of_none h t).le
  | some bucket =>
      rw [credit_of_some h]
      exact min_le_right _ _

/-- The bucket that a request on the shared key is answered from, with the credit it has. -/
theorem SharedFilled.filled_of_calls {s : Limiting} {event : LimitEvent} {bucket : TokenBucket}
    (h : SharedFilled registry shared capacity rate s event.now) (htimed : event.Timed)
    (hcalls : Calls s event shared bucket) :
    bucket.Filled capacity rate event.now ∧
      min (bucket.credit event.now) (capacity.toNat * 1000 + 1) ≤ s.credit shared capacity event.now := by
  rcases hcalls.bucket_of with hfound | ⟨hnone, created, hcreated, rfl⟩
  · rw [credit_of_some hfound]
    exact ⟨h.filled bucket hfound, le_rfl⟩
  · rw [credit_of_none hnone, h.capacity_eq, h.rate_eq]
    exact ⟨(TokenBucket.filled_new capacity rate created).later (hcreated htimed), min_le_right _ _⟩

/-- A call on a bucket is allowed when the bucket grants it. -/
theorem Calls.allowsUnknown {s : Limiting} {event : LimitEvent} {key : String} {bucket : TokenBucket}
    (hcalls : Calls s event key bucket) :
    s.allowsUnknown registry event = ((bucket.tryAcquire event.now).1 && !registry.contains key) := by
  rw [Limiting.allowsUnknown, hcalls.answer_eq, rateLimitMiddleware]
  cases (bucket.tryAcquire event.now).1 <;> rfl

/-- The settings and the keys that wait, after an event. -/
theorem SharedFilled.of_filled {s : Limiting} {event : LimitEvent}
    (h : SharedFilled registry shared capacity rate s event.now) (hshares : Shares registry shared event)
    (hfilled : ∀ bucket, (s.step event).limiter.buckets[shared]? = some bucket →
      bucket.Filled capacity rate event.now) :
    SharedFilled registry shared capacity rate (s.step event) event.now where
  capacity_eq := (limiter_step s event).1.trans h.capacity_eq
  rate_eq := (limiter_step s event).2.trans h.rate_eq
  filled := hfilled
  waiting key hkey hunknown :=
    ((step_cases s event).1 key hkey).elim (fun hkey => h.waiting key hkey hunknown) fun hasks =>
      hshares key hasks hunknown

/-- An event that does not touch the shared bucket and allows no request without registration. -/
theorem SharedFilled.untouched {s : Limiting} {event : LimitEvent}
    (h : SharedFilled registry shared capacity rate s event.now) (hshares : Shares registry shared event)
    (hbucket : (s.step event).limiter.buckets[shared]? = s.limiter.buckets[shared]?)
    (hnot : s.allowsUnknown registry event = false) :
    SharedFilled registry shared capacity rate (s.step event) event.now ∧
      (s.step event).credit shared capacity event.now + (if s.allowsUnknown registry event then 1000 else 0) ≤
        s.credit shared capacity event.now := by
  refine ⟨h.of_filled hshares fun bucket hfound => h.filled bucket (hbucket ▸ hfound), ?_⟩
  rw [hnot, if_neg Bool.false_ne_true, add_zero, credit, hbucket]
  exact le_rfl

/-- A call on the shared bucket. -/
theorem SharedFilled.called {s : Limiting} {event : LimitEvent} {bucket : TokenBucket}
    (h : SharedFilled registry shared capacity rate s event.now) (hrate : 0 ≤ rate) (htimed : event.Timed)
    (hshares : Shares registry shared event) (hcalls : Calls s event shared bucket) :
    SharedFilled registry shared capacity rate (s.step event) event.now ∧
      (s.step event).credit shared capacity event.now + (if s.allowsUnknown registry event then 1000 else 0) ≤
        s.credit shared capacity event.now := by
  obtain ⟨hfilled, hfound⟩ := h.filled_of_calls htimed hcalls
  obtain ⟨hnext, hpaid⟩ := hfilled.tryAcquire hrate
  have hself : (s.step event).limiter.buckets[shared]? = some (bucket.tryAcquire event.now).2 := by
    rw [hcalls.limiter_eq, RateLimiter.acquireFrom]
    exact ExtTreeMap.getElem?_insert_self
  refine ⟨h.of_filled hshares fun b hb => ?_, ?_⟩
  · rw [hself] at hb
    cases hb
    exact hnext
  · -- what the event counts, the bucket has granted
    have hcount : (if s.allowsUnknown registry event then 1000 else 0 : ℚ) ≤
        if (bucket.tryAcquire event.now).1 then 1000 else 0 := by
      rw [hcalls.allowsUnknown]
      cases (bucket.tryAcquire event.now).1 <;> cases registry.contains shared <;> norm_num
    have hcredit : (s.step event).credit shared capacity event.now ≤
        (bucket.tryAcquire event.now).2.credit event.now := by
      rw [credit_of_some hself]
      exact min_le_left _ _
    linarith

/-- **One event**: a request without registration is paid from the shared bucket. -/
theorem SharedFilled.step {s : Limiting} {event : LimitEvent}
    (h : SharedFilled registry shared capacity rate s event.now) (hrate : 0 ≤ rate) (htimed : event.Timed)
    (hshares : Shares registry shared event) :
    SharedFilled registry shared capacity rate (s.step event) event.now ∧
      (s.step event).credit shared capacity event.now + (if s.allowsUnknown registry event then 1000 else 0) ≤
        min (s.credit shared capacity event.now) (capacity.toNat * 1000 + 1) := by
  rw [min_eq_left (credit_le s event.now)]
  rcases (step_cases s event).2 with ⟨hanswer, hsame⟩ | ⟨key, bucket, hcalls⟩
  · -- the request waits, or there is none
    exact h.untouched hshares (by rw [hsame]) (by rw [allowsUnknown, hanswer])
  · by_cases hshared : key = shared
    · subst hshared
      exact h.called hrate htimed hshares hcalls
    · -- the key is registered: nothing is counted, and the shared bucket stays
      have hregistered : registry.contains key = true := by
        by_contra hunknown
        have hunknown : key ∉ registry := by rwa [ExtTreeMap.mem_iff_contains]
        exact hshared (hcalls.key_of.elim (fun hkey => h.waiting key hkey hunknown) fun hasks =>
          hshares key hasks hunknown)
      refine h.untouched hshares (buckets_step fun k response hk => ?_) ?_
      · rw [hcalls.answer_eq] at hk
        cases hk
        exact hshared
      · rw [hcalls.allowsUnknown, hregistered, Bool.not_true, Bool.and_false]

theorem SharedFilled.later {s : Limiting} {t t' : ℚ} (h : SharedFilled registry shared capacity rate s t)
    (hrate : 0 ≤ rate) (hle : t ≤ t') :
    SharedFilled registry shared capacity rate s t' ∧
      s.credit shared capacity t' ≤ s.credit shared capacity t + rate * 1000 * (t' - t) := by
  refine ⟨⟨h.capacity_eq, h.rate_eq, fun bucket hbucket => (h.filled bucket hbucket).later hle, h.waiting⟩, ?_⟩
  have haccrued : 0 ≤ rate * 1000 * (t' - t) := mul_nonneg (by linarith) (by linarith)
  cases hbucket : s.limiter.buckets[shared]? with
  | none =>
      rw [credit_of_none hbucket, credit_of_none hbucket]
      linarith
  | some bucket =>
      have hcredit : bucket.credit t' = bucket.credit t + rate * 1000 * (t' - t) := by
        rw [TokenBucket.credit, TokenBucket.credit, (h.filled bucket hbucket).rate_eq]
        ring
      rw [credit_of_some hbucket, credit_of_some hbucket, hcredit, ← min_add_add_right]
      exact min_le_min le_rfl (by linarith)

theorem SharedFilled.credit_nonneg {s : Limiting} {t : ℚ} (h : SharedFilled registry shared capacity rate s t)
    (hrate : 0 ≤ rate) : 0 ≤ s.credit shared capacity t := by
  have hmax : (0 : ℚ) ≤ capacity.toNat * 1000 + 1 := by positivity
  cases hbucket : s.limiter.buckets[shared]? with
  | none => rwa [credit_of_none hbucket]
  | some bucket =>
      rw [credit_of_some hbucket]
      exact le_min ((h.filled bucket hbucket).credit_nonneg hrate) hmax

theorem sharedFilled_init (registry : ApiKeyRegistry) (shared : String) (capacity : UInt64) (rate t : ℚ) :
    SharedFilled registry shared capacity rate (init capacity rate) t where
  capacity_eq := rfl
  rate_eq := rfl
  filled bucket hbucket := by
    rw [init, RateLimiter.new, ExtTreeMap.getElem?_empty] at hbucket
    cases hbucket
  waiting key hkey := by cases hkey

/-- The requests without registration are metered by the shared bucket. -/
theorem metered (registry : ApiKeyRegistry) (shared : String) (capacity : UInt64) (hrate : 0 ≤ rate) :
    Metered step LimitEvent.now (allowsUnknown registry) (SharedFilled registry shared capacity rate)
      (fun _ event => event.Timed ∧ Shares registry shared event) (credit shared capacity)
      (rate * 1000) 1000 (capacity.toNat * 1000 + 1) where
  nonneg _ _ h := h.credit_nonneg hrate
  later _ _ _ h hle := h.later hrate hle
  spent _ _ h hvalid := h.step hrate hvalid.1 hvalid.2

end Shared

/-! ## Runs -/

/-- The times of the events: none is before the last, none before the start. -/
def Ordered (start : ℚ) (events : List LimitEvent) : Prop :=
  (events.map LimitEvent.now).Pairwise (· ≤ ·) ∧ ∀ event ∈ events, start ≤ event.now ∧ event.Timed

/-- **Unknown keys.** Where the requests whose keys are not registered all carry the same key, those
allowed in a window of time are at most a default bucket, what is refilled and one. Whatever
key they carry, they leave the bucket of every registered key alone. -/
theorem unknownKeys_bound (registry : ApiKeyRegistry) (shared : String) (capacity : UInt64) (rate start : ℚ)
    (hrate : 0 ≤ rate) (events : List LimitEvent) (hordered : Ordered start events)
    (hshares : ∀ event ∈ events, Shares registry shared event) :
    (∀ t₀ T : ℚ, 0 ≤ T →
        (((grantTimes step LimitEvent.now (allowsUnknown registry) (init capacity rate) events).countP fun x =>
          t₀ ≤ x ∧ x ≤ t₀ + T : ℕ) : ℚ) ≤ capacity.toNat + rate * T + 1) ∧
      ∀ (pre : List LimitEvent) (event : LimitEvent), pre ++ [event] <+: events →
        (∀ key response, (pre.foldl step (init capacity rate)).answer event = some (key, response) → key ∉ registry) →
        ∀ key ∈ registry, ((pre ++ [event]).foldl step (init capacity rate)).limiter.buckets[key]? =
          (pre.foldl step (init capacity rate)).limiter.buckets[key]? := by
  refine ⟨fun t₀ T hT => ?_, fun pre event _ hunknown key hkey => ?_⟩
  · have hmax : (0 : ℚ) ≤ capacity.toNat * 1000 + 1 := by positivity
    have hle : t₀ ≤ t₀ + T := le_add_of_nonneg_right hT
    have hvalid : Along step (fun _ event => event.Timed ∧ Shares registry shared event) (init capacity rate) events :=
      along_of_forall_mem (fun event hevent _ => ⟨(hordered.2 event hevent).2, hshares event hevent⟩) _
    have hwindow := (metered registry shared capacity hrate).window (by linarith) (by norm_num) hmax hle
      (sharedFilled_init registry shared capacity rate start) hvalid hordered.1 fun event hevent =>
        (hordered.2 event hevent).1
    rw [add_sub_cancel_left] at hwindow
    linarith
  · rw [List.foldl_append]
    refine buckets_step fun k response hanswer heq => hunknown k response hanswer ?_
    rwa [heq]

/-- One key that nobody registered, with a second request while the first waits. -/
theorem unknownKeys_bound_one :
    (((grantTimes step LimitEvent.now (allowsUnknown ∅) (init 1 2)
        [.fast ⟨some "a", none⟩ 0, .fast ⟨some "a", none⟩ 0, .slow 0 0 0, .slow 0 0 0, .fast ⟨some "a", none⟩ 1]).countP
          fun x => (0 : ℚ) ≤ x ∧ x ≤ 0 + 1 : ℕ) : ℚ) ≤ (1 : UInt64).toNat + 2 * 1 + 1 := by
  refine (unknownKeys_bound ∅ "a" 1 2 0 (by norm_num) _ ⟨by decide +kernel, ?_⟩ ?_).1 0 1 (by norm_num)
  · intro event hevent
    fin_cases hevent <;> exact ⟨by decide +kernel, by simp [LimitEvent.Timed]⟩
  · intro event hevent key hkey _
    fin_cases hevent <;> simp_all [LimitEvent.asks, rateLimitKey]

/-- Three requests at once with keys that nobody registered. -/
def threeKeys : List LimitEvent :=
  [.fast ⟨some "a", none⟩ 0, .slow 0 0 0, .fast ⟨some "b", none⟩ 0, .slow 0 0 0, .fast ⟨some "c", none⟩ 0, .slow 0 0 0]

/-- All three are allowed at one time, where the default is one token. -/
theorem not_unknownKeys_bound :
    Ordered 0 threeKeys ∧
      ¬ (((grantTimes step LimitEvent.now (allowsUnknown ∅) (init 1 1) threeKeys).countP fun x =>
        (0 : ℚ) ≤ x ∧ x ≤ 0 + 0 : ℕ) : ℚ) ≤ (1 : UInt64).toNat + 1 * 0 + 1 := by
  refine ⟨⟨by decide +kernel, fun event hevent => ?_⟩, by decide +kernel⟩
  fin_cases hevent <;> exact ⟨by decide +kernel, by simp [LimitEvent.Timed]⟩

end Limiting

end MSearchDB.Node
