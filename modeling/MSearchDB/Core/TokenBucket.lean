import MSearchDB.Lib.Metered

/-!
# Token buckets

`TokenBucket` of `crates/core/src/security.rs`. Times are rational seconds, the product of a
refill is exact and truncated to whole milli-tokens, and the counters are 64 bits wide. The
calls come one after the other, so no compare-and-swap fails.

What a bucket can still hand out is a credit: its tokens, and what has accrued since the last
refill and is not a whole milli-token yet. Truncation neither adds to it nor loses of it, so the
grants of a window are bounded however often the bucket is polled
(`tokenBucket_bound`).
-/

set_option autoImplicit false

namespace MSearchDB.Core

open MSearchDB.Lib

/-- `TokenBucket`. -/
structure TokenBucket where
  capacity : UInt64
  refillRate : ℚ
  tokens : UInt64
  lastRefill : ℚ

/-- `x as u64`. -/
def asU64 (x : ℚ) : UInt64 := UInt64.ofNat (min x.floor.toNat 18446744073709551615)

namespace TokenBucket

/-- `TokenBucket::new`. -/
def new (capacity : UInt64) (refillRate now : ℚ) : TokenBucket := ⟨capacity, refillRate, capacity * 1000, now⟩

/-- The whole milli-tokens that have accrued. -/
def newTokens (b : TokenBucket) (now : ℚ) : UInt64 := asU64 (max 0 (now - b.lastRefill) * b.refillRate * 1000)

/-- `refill`. -/
def refill (b : TokenBucket) (now : ℚ) : TokenBucket :=
  if b.newTokens now > 0 then
    { b with lastRefill := now, tokens := min (b.tokens + b.newTokens now) (b.capacity * 1000) }
  else b

/-- `try_acquire`. -/
def tryAcquire (b : TokenBucket) (now : ℚ) : Bool × TokenBucket :=
  let b := b.refill now
  if b.tokens < 1000 then (false, b) else (true, { b with tokens := b.tokens - 1000 })

/-- `available`. -/
def available (b : TokenBucket) (now : ℚ) : UInt64 × TokenBucket :=
  let b := b.refill now
  (b.tokens / 1000, b)

end TokenBucket

/-- A call on a bucket, at a time. -/
inductive BucketCall where
  | tryAcquire (now : ℚ)
  | available (now : ℚ)

namespace BucketCall

/-- The time of the call. -/
def now : BucketCall → ℚ
  | .tryAcquire now => now
  | .available now => now

end BucketCall

namespace TokenBucket

/-- One call. -/
def step (b : TokenBucket) : BucketCall → TokenBucket
  | .tryAcquire now => (b.tryAcquire now).2
  | .available now => (b.available now).2

/-- A successful `try_acquire`. -/
def grants (b : TokenBucket) : BucketCall → Bool
  | .tryAcquire now => (b.tryAcquire now).1
  | .available _ => false

/-- The tokens, and what has accrued since the last refill, in milli-tokens. -/
def credit (b : TokenBucket) (t : ℚ) : ℚ := b.tokens.toNat + (t - b.lastRefill) * (b.refillRate * 1000)

/-- The bucket is not overfull, and its last refill is over. -/
structure Filled (capacity : UInt64) (rate : ℚ) (b : TokenBucket) (t : ℚ) : Prop where
  capacity_eq : b.capacity = capacity
  rate_eq : b.refillRate = rate
  tokens_le : b.tokens.toNat ≤ capacity.toNat * 1000
  refilled : b.lastRefill ≤ t

/-! ## One refill -/

section Refill

variable {b : TokenBucket} {capacity : UInt64} {rate t : ℚ}

theorem toNat_asU64 (x : ℚ) : (asU64 x).toNat = min x.floor.toNat 18446744073709551615 := by
  rw [asU64, UInt64.toNat_ofNat_of_lt']
  exact lt_of_le_of_lt (Nat.min_le_right _ _) (by decide)

/-- The cast truncates. -/
theorem toNat_asU64_le {x : ℚ} (hx : 0 ≤ x) : ((asU64 x).toNat : ℚ) ≤ x := by
  have hle : (asU64 x).toNat ≤ x.floor.toNat := by
    rw [toNat_asU64]
    exact Nat.min_le_left _ _
  have hfloor : ((x.floor.toNat : ℤ) : ℚ) ≤ x := by
    rw [Int.toNat_of_nonneg (Rat.le_floor_iff.2 (by simpa using hx))]
    exact Rat.floor_le x
  exact le_trans (by exact_mod_cast hle) hfloor

/-- What is in range is truncated by less than one. -/
theorem lt_toNat_asU64_add_one {x : ℚ} (hx : x < 18446744073709551616) : x < (asU64 x).toNat + 1 := by
  have hlt : x < ((x.floor + 1 : ℤ) : ℚ) := Rat.lt_floor_add_one x
  rw [Int.cast_add, Int.cast_one] at hlt
  have hrange : x.floor < 18446744073709551616 := by
    have : (x.floor : ℚ) < 18446744073709551616 := lt_of_le_of_lt (Rat.floor_le x) hx
    exact_mod_cast this
  have htoNat : (x.floor : ℤ) ≤ ((asU64 x).toNat : ℤ) := by
    rw [toNat_asU64]
    omega
  have hcast : (x.floor : ℚ) ≤ ((asU64 x).toNat : ℚ) := by exact_mod_cast htoNat
  linarith

theorem toNat_min (x y : UInt64) : (min x y).toNat = min x.toNat y.toNat := by
  have hmin : min x y = if x ≤ y then x else y := rfl
  rw [hmin]
  split
  case isTrue hle => rw [Nat.min_eq_left (UInt64.le_iff_toNat_le.1 hle)]
  case isFalse hlt =>
    rw [UInt64.le_iff_toNat_le] at hlt
    rw [Nat.min_eq_right (by omega)]

/-- The product of a refill of a filled bucket. -/
theorem Filled.elapsed (h : b.Filled capacity rate t) :
    max 0 (t - b.lastRefill) * b.refillRate * 1000 = (t - b.lastRefill) * (b.refillRate * 1000) := by
  rw [max_eq_right (by linarith [h.refilled]), mul_assoc]

theorem Filled.accrued_nonneg (h : b.Filled capacity rate t) (hrate : 0 ≤ rate) :
    0 ≤ (t - b.lastRefill) * (b.refillRate * 1000) := by
  have hnonneg : 0 ≤ b.refillRate := by rw [h.rate_eq]; exact hrate
  exact mul_nonneg (by linarith [h.refilled]) (by linarith)

theorem Filled.toNat_newTokens_le (h : b.Filled capacity rate t) (hrate : 0 ≤ rate) :
    ((b.newTokens t).toNat : ℚ) ≤ (t - b.lastRefill) * (b.refillRate * 1000) := by
  rw [newTokens, h.elapsed]
  exact toNat_asU64_le (h.accrued_nonneg hrate)

/-- A refill of less than a milli-token does not count, whatever the range of the cast. -/
theorem Filled.accrued_lt_one (h : b.Filled capacity rate t) (hzero : (b.newTokens t).toNat = 0) :
    (t - b.lastRefill) * (b.refillRate * 1000) < 1 := by
  rw [newTokens, h.elapsed] at hzero
  by_cases hrange : (t - b.lastRefill) * (b.refillRate * 1000) < 18446744073709551616
  · have hlt := lt_toNat_asU64_add_one hrange
    rw [hzero] at hlt
    simpa using hlt
  · rw [toNat_asU64] at hzero
    have hfloor : (18446744073709551616 : ℤ) ≤ ((t - b.lastRefill) * (b.refillRate * 1000)).floor :=
      Rat.le_floor_iff.2 (by simpa using hrange)
    omega

theorem refill_of_pos (h : b.newTokens t > 0) :
    b.refill t = { b with lastRefill := t, tokens := min (b.tokens + b.newTokens t) (b.capacity * 1000) } := if_pos h

theorem refill_of_not_pos (h : ¬ b.newTokens t > 0) : b.refill t = b := if_neg h

/-- A refill that counts adds at most the new tokens, and fills at most the bucket. -/
theorem Filled.toNat_refill_of_pos (h : b.Filled capacity rate t) (hpos : b.newTokens t > 0) :
    (b.refill t).tokens.toNat ≤ b.tokens.toNat + (b.newTokens t).toNat ∧
      (b.refill t).tokens.toNat ≤ capacity.toNat * 1000 := by
  rw [refill_of_pos hpos]
  constructor
  · rw [toNat_min, UInt64.toNat_add]
    exact le_trans (Nat.min_le_left _ _) (Nat.mod_le _ _)
  · rw [toNat_min, UInt64.toNat_mul, h.capacity_eq]
    exact le_trans (Nat.min_le_right _ _) (Nat.mod_le _ _)

/-- **One refill** of a filled bucket: it adds nothing to the credit and leaves less than a
milli-token above the tokens. -/
theorem Filled.refill (h : b.Filled capacity rate t) (hrate : 0 ≤ rate) :
    (b.refill t).Filled capacity rate t ∧ (b.refill t).credit t ≤ b.credit t ∧
      (b.refill t).credit t ≤ capacity.toNat * 1000 + 1 := by
  by_cases hpos : b.newTokens t > 0
  · have hnew := h.toNat_newTokens_le hrate
    obtain ⟨hadded, hmax⟩ := h.toNat_refill_of_pos hpos
    have hadded' : ((b.refill t).tokens.toNat : ℚ) ≤ b.tokens.toNat + (b.newTokens t).toNat := by
      exact_mod_cast hadded
    have hmax' : ((b.refill t).tokens.toNat : ℚ) ≤ capacity.toNat * 1000 := by exact_mod_cast hmax
    have hcredit : (b.refill t).credit t = (b.refill t).tokens.toNat := by
      have hlast : (b.refill t).lastRefill = t := by rw [refill_of_pos hpos]
      rw [credit, hlast, sub_self, zero_mul, add_zero]
    rw [hcredit]
    refine ⟨⟨?_, ?_, hmax, ?_⟩, ?_, ?_⟩
    · rw [refill_of_pos hpos]
      exact h.capacity_eq
    · rw [refill_of_pos hpos]
      exact h.rate_eq
    · rw [refill_of_pos hpos]
    · rw [credit]
      linarith
    · linarith
  · rw [refill_of_not_pos hpos]
    have hzero : (b.newTokens t).toNat = 0 := by
      rw [gt_iff_lt, UInt64.lt_iff_toNat_lt] at hpos
      exact Nat.eq_zero_of_not_pos hpos
    have hsmall := h.accrued_lt_one hzero
    have htokens : (b.tokens.toNat : ℚ) ≤ capacity.toNat * 1000 := by exact_mod_cast h.tokens_le
    refine ⟨h, le_rfl, ?_⟩
    rw [credit]
    linarith

end Refill

/-! ## One call -/

section Call

variable {b : TokenBucket} {capacity : UInt64} {rate t : ℚ}

/-- A refused call leaves the refilled bucket. -/
theorem tryAcquire_of_lt (h : (b.refill t).tokens < 1000) : b.tryAcquire t = (false, b.refill t) := if_pos h

/-- A granted call takes a token from the refilled bucket. -/
theorem tryAcquire_of_not_lt (h : ¬ (b.refill t).tokens < 1000) :
    b.tryAcquire t = (true, { b.refill t with tokens := (b.refill t).tokens - 1000 }) := if_neg h

/-- The subtraction does not wrap. -/
theorem toNat_sub_of_not_lt {x : UInt64} (h : ¬ x < 1000) : (x - 1000).toNat + 1000 = x.toNat := by
  have hle : (1000 : UInt64) ≤ x := UInt64.not_lt.1 h
  have hle' : 1000 ≤ x.toNat := UInt64.le_iff_toNat_le.1 hle
  rw [UInt64.toNat_sub_of_le x 1000 hle]
  exact Nat.sub_add_cancel hle'

/-- A call that grants has found a whole token and takes it. -/
theorem toNat_tokens_step {call : BucketCall} (hgrant : grants b call = true) :
    (step b call).tokens.toNat + 1000 = (b.refill call.now).tokens.toNat := by
  cases call with
  | available now => cases hgrant
  | tryAcquire now =>
      rw [grants] at hgrant
      rw [step, BucketCall.now]
      by_cases hlt : (b.refill now).tokens < 1000
      · rw [tryAcquire_of_lt hlt] at hgrant
        cases hgrant
      · rw [tryAcquire_of_not_lt hlt]
        exact toNat_sub_of_not_lt hlt

/-- A call that does not grant only refills. -/
theorem step_of_not_grants {call : BucketCall} (hgrant : grants b call = false) :
    step b call = b.refill call.now := by
  cases call with
  | available now => rfl
  | tryAcquire now =>
      rw [grants] at hgrant
      rw [step, BucketCall.now]
      by_cases hlt : (b.refill now).tokens < 1000
      · rw [tryAcquire_of_lt hlt]
      · rw [tryAcquire_of_not_lt hlt] at hgrant
        cases hgrant

/-- A call keeps the time of the refill, the capacity and the rate. -/
theorem step_of_grants {call : BucketCall} (hgrant : grants b call = true) :
    step b call = { b.refill call.now with tokens := (step b call).tokens } := by
  cases call with
  | available now => cases hgrant
  | tryAcquire now =>
      rw [grants] at hgrant
      rw [step, BucketCall.now]
      by_cases hlt : (b.refill now).tokens < 1000
      · rw [tryAcquire_of_lt hlt] at hgrant
        cases hgrant
      · rw [tryAcquire_of_not_lt hlt]

theorem Filled.later (h : b.Filled capacity rate t) {t' : ℚ} (hle : t ≤ t') : b.Filled capacity rate t' :=
  ⟨h.capacity_eq, h.rate_eq, h.tokens_le, le_trans h.refilled hle⟩

theorem Filled.credit_nonneg (h : b.Filled capacity rate t) (hrate : 0 ≤ rate) : 0 ≤ b.credit t :=
  add_nonneg (Nat.cast_nonneg _) (h.accrued_nonneg hrate)

/-- **One call**: what it grants is paid from the credit, of which there is at most a full bucket
and a milli-token. -/
theorem Filled.step {call : BucketCall} (h : b.Filled capacity rate call.now) (hrate : 0 ≤ rate) :
    (step b call).Filled capacity rate call.now ∧
      (TokenBucket.step b call).credit call.now + (if grants b call then 1000 else 0) ≤
        min (b.credit call.now) (capacity.toNat * 1000 + 1) := by
  obtain ⟨hfilled, hcredit, hmax⟩ := h.refill hrate
  by_cases hgrant : grants b call = true
  · have htokens := toNat_tokens_step hgrant
    rw [step_of_grants hgrant, if_pos hgrant]
    refine ⟨⟨hfilled.capacity_eq, hfilled.rate_eq, ?_, hfilled.refilled⟩, ?_⟩
    · exact le_trans (le_trans (Nat.le_add_right _ 1000) htokens.le) hfilled.tokens_le
    · have hpaid : ((TokenBucket.step b call).tokens.toNat : ℚ) + 1000 = (b.refill call.now).tokens.toNat := by
        exact_mod_cast htokens
      refine le_trans (le_of_eq ?_) (le_min hcredit hmax)
      simp only [credit]
      linarith
  · rw [step_of_not_grants (Bool.eq_false_iff.2 hgrant), if_neg hgrant, add_zero]
    exact ⟨hfilled, le_min hcredit hmax⟩

theorem Filled.tryAcquire (h : b.Filled capacity rate t) (hrate : 0 ≤ rate) :
    (b.tryAcquire t).2.Filled capacity rate t ∧
      (b.tryAcquire t).2.credit t + (if (b.tryAcquire t).1 then 1000 else 0) ≤
        min (b.credit t) (capacity.toNat * 1000 + 1) := by
  have hcall : b.Filled capacity rate (BucketCall.tryAcquire t).now := h
  exact hcall.step hrate

theorem filled_new (capacity : UInt64) (rate start : ℚ) : (new capacity rate start).Filled capacity rate start where
  capacity_eq := rfl
  rate_eq := rfl
  tokens_le := by
    rw [new, UInt64.toNat_mul]
    exact Nat.mod_le _ _
  refilled := le_rfl

/-- A bucket is metered by its credit. -/
theorem metered (capacity : UInt64) (hrate : 0 ≤ rate) :
    Metered TokenBucket.step BucketCall.now grants (Filled capacity rate) (fun _ _ => True) credit
      (rate * 1000) 1000 (capacity.toNat * 1000 + 1) where
  nonneg _ _ h := h.credit_nonneg hrate
  later b t t' h hle := by
    refine ⟨h.later hle, le_of_eq ?_⟩
    rw [credit, credit, h.rate_eq]
    ring
  spent _ _ h _ := h.step hrate

end Call

/-! ## Waiting -/

section Wait

variable {b : TokenBucket} {capacity : UInt64} {rate t : ℚ}

/-- More than a token accrues in the time of one. -/
theorem Filled.le_newTokens (h : b.Filled capacity rate t) (hrate : 0 < rate) {now : ℚ}
    (hwait : t + 1 / rate + 1 / 1000 / rate ≤ now) : 1000 ≤ (b.newTokens now).toNat := by
  have hone : 1 / rate * rate = 1 := div_mul_cancel₀ 1 (ne_of_gt hrate)
  have hmilli : 1 / 1000 / rate * rate = 1 / 1000 := div_mul_cancel₀ _ (ne_of_gt hrate)
  have hpos : 0 < 1 / rate := by positivity
  have hpos' : 0 < 1 / 1000 / rate := by positivity
  have hrefilled := h.refilled
  have helapsed : 1 / rate + 1 / 1000 / rate ≤ now - b.lastRefill := by linarith
  have hproduct : 1000 ≤ (now - b.lastRefill) * (rate * 1000) :=
    calc (1000 : ℚ) ≤ (1 / rate * rate + 1 / 1000 / rate * rate) * 1000 := by rw [hone, hmilli]; norm_num
      _ = (1 / rate + 1 / 1000 / rate) * (rate * 1000) := by ring
      _ ≤ (now - b.lastRefill) * (rate * 1000) := mul_le_mul_of_nonneg_right helapsed (by linarith)
  have hfloor : (1000 : ℤ) ≤ ((now - b.lastRefill) * (rate * 1000)).floor := Rat.le_floor_iff.2 hproduct
  have hlater : b.Filled capacity rate now := h.later (by linarith)
  rw [newTokens, hlater.elapsed, h.rate_eq, toNat_asU64]
  omega

/-- A bucket whose refill fits serves a caller after the time of a token. -/
theorem Filled.serves (h : b.Filled capacity rate t) (hrate : 0 < rate) (hcapacity : 1 ≤ capacity)
    (hfits : capacity.toNat * 1000 < 2 ^ 64) {now : ℚ} (hwait : t + 1 / rate + 1 / 1000 / rate ≤ now)
    (hsum : b.tokens.toNat + (b.newTokens now).toNat < 2 ^ 64) : (b.tryAcquire now).1 = true := by
  have hnew := h.le_newTokens hrate hwait
  have hpos : b.newTokens now > 0 := UInt64.lt_iff_toNat_lt.2 (Nat.lt_of_lt_of_le (by decide) hnew)
  have hone : 1 ≤ capacity.toNat := UInt64.le_iff_toNat_le.1 hcapacity
  have hrefill : ¬ (b.refill now).tokens < 1000 := by
    have hmax : (b.capacity * 1000).toNat = capacity.toNat * 1000 := by
      rw [UInt64.toNat_mul, h.capacity_eq]
      exact Nat.mod_eq_of_lt hfits
    have hthousand : (1000 : UInt64).toNat = 1000 := rfl
    rw [refill_of_pos hpos, UInt64.lt_iff_toNat_lt, toNat_min, hmax, UInt64.toNat_add, Nat.mod_eq_of_lt hsum,
      hthousand]
    omega
  rw [tryAcquire_of_not_lt hrefill]

end Wait

/-! ## Runs -/

section Run

variable {capacity : UInt64} {rate start : ℚ}

/-- The bucket after a sequence of calls. -/
def run (capacity : UInt64) (rate start : ℚ) (calls : List BucketCall) : TokenBucket :=
  calls.foldl TokenBucket.step (new capacity rate start)

theorem run_concat (capacity : UInt64) (rate start : ℚ) (calls : List BucketCall) (call : BucketCall) :
    run capacity rate start (calls ++ [call]) = (run capacity rate start calls).step call := by
  rw [run, List.foldl_append]
  rfl

/-- The times of the calls: none is before the last, and none before the start. -/
def Ordered (start : ℚ) (calls : List BucketCall) : Prop :=
  (calls.map BucketCall.now).Pairwise (· ≤ ·) ∧ ∀ call ∈ calls, start ≤ call.now

/-- The bucket stays filled, and no later than the last call. -/
theorem Filled.run (hrate : 0 ≤ rate) {calls : List BucketCall} {b : TokenBucket} {t : ℚ}
    (h : b.Filled capacity rate t) (hsorted : (calls.map BucketCall.now).Pairwise (· ≤ ·))
    (hfrom : ∀ call ∈ calls, t ≤ call.now) :
    ∃ t', (calls.foldl TokenBucket.step b).Filled capacity rate t' ∧
      ∀ t₁, t ≤ t₁ → (∀ call ∈ calls, call.now ≤ t₁) → t' ≤ t₁ := by
  induction calls generalizing b t with
  | nil => exact ⟨t, h, fun _ hle _ => hle⟩
  | cons call calls ih =>
      rw [List.map_cons, List.pairwise_cons] at hsorted
      have hnow := h.later (hfrom call List.mem_cons_self)
      obtain ⟨t', hfilled, hlast⟩ := ih (hnow.step hrate).1 hsorted.2 fun c hc =>
        hsorted.1 _ (List.mem_map_of_mem hc)
      refine ⟨t', hfilled, fun t₁ _ hall => hlast t₁ (hall call List.mem_cons_self) fun c hc => ?_⟩
      exact hall c (List.mem_cons_of_mem _ hc)

/-- A prefix of ordered calls is ordered. -/
theorem Ordered.of_prefix {pre calls : List BucketCall} (h : Ordered start calls) (hpre : pre <+: calls) :
    Ordered start pre :=
  ⟨h.1.sublist (hpre.sublist.map _), fun call hcall => h.2 call (hpre.subset hcall)⟩

/-- The bucket at the time of the next call. -/
theorem Ordered.filled (hrate : 0 ≤ rate) {calls : List BucketCall} {call : BucketCall}
    (h : Ordered start (calls ++ [call])) : (run capacity rate start calls).Filled capacity rate call.now := by
  have hcalls := h.of_prefix (List.prefix_append calls [call])
  obtain ⟨t, hfilled, hlast⟩ := (filled_new capacity rate start).run hrate hcalls.1 hcalls.2
  refine hfilled.later (hlast call.now (h.2 call (by simp)) fun c hc => ?_)
  have hsorted := h.1
  rw [List.map_append, List.pairwise_append] at hsorted
  exact hsorted.2.2 _ (List.mem_map_of_mem hc) _ (by simp)

/-- **The token bucket.** In every sequence of calls the tokens are at most the capacity and a
call that is granted takes a whole token; in every window of time the calls granted are at most
the capacity, what is refilled in it and a milli-token; and a caller that waits for a token after
a rejection, with no call in between, is served when the refill and the tokens left fit 64
bits. -/
theorem tokenBucket_bound (capacity : UInt64) (rate start : ℚ) (hrate : 0 < rate) (calls : List BucketCall)
    (hordered : Ordered start calls) :
    (∀ pre, pre <+: calls → (run capacity rate start pre).tokens.toNat ≤ capacity.toNat * 1000) ∧
      (∀ (pre : List BucketCall) (call : BucketCall), pre ++ [call] <+: calls →
        grants (run capacity rate start pre) call = true →
        (run capacity rate start (pre ++ [call])).tokens.toNat + 1000 =
          ((run capacity rate start pre).refill call.now).tokens.toNat) ∧
      (∀ t₀ T : ℚ, 0 ≤ T →
        (((grantTimes step BucketCall.now grants (new capacity rate start) calls).countP fun x =>
          t₀ ≤ x ∧ x ≤ t₀ + T : ℕ) : ℚ) ≤ capacity.toNat + rate * T + 1 / 1000) ∧
      (1 ≤ capacity → capacity.toNat * 1000 < 2 ^ 64 → ∀ (pre : List BucketCall) (now now' : ℚ),
        pre ++ [BucketCall.tryAcquire now, BucketCall.tryAcquire now'] <+: calls →
        grants (run capacity rate start pre) (BucketCall.tryAcquire now) = false →
        now + 1 / rate + 1 / 1000 / rate ≤ now' →
        (run capacity rate start (pre ++ [BucketCall.tryAcquire now])).tokens.toNat +
          ((run capacity rate start (pre ++ [BucketCall.tryAcquire now])).newTokens now').toNat < 2 ^ 64 →
        grants (run capacity rate start (pre ++ [BucketCall.tryAcquire now])) (BucketCall.tryAcquire now') = true) := by
  refine ⟨fun pre hpre => ?_, fun pre call _ hgrant => ?_, fun t₀ T hT => ?_, ?_⟩
  · have hprefix := hordered.of_prefix hpre
    obtain ⟨t, hfilled, -⟩ := (filled_new capacity rate start).run hrate.le hprefix.1 hprefix.2
    exact hfilled.tokens_le
  · rw [run_concat]
    exact toNat_tokens_step hgrant
  · have hmax : (0 : ℚ) ≤ capacity.toNat * 1000 + 1 := by positivity
    have hle : t₀ ≤ t₀ + T := le_add_of_nonneg_right hT
    have hwindow := (metered capacity hrate.le).window (by linarith) (by norm_num) hmax hle
      (filled_new capacity rate start) (along_true calls _) hordered.1 hordered.2
    rw [add_sub_cancel_left] at hwindow
    linarith
  · intro hcapacity hfits pre now now' hpre hrejected hwait hsum
    have hrun : Ordered start (pre ++ [.tryAcquire now]) :=
      hordered.of_prefix ((List.prefix_append _ [.tryAcquire now']).trans (by simpa using hpre))
    have hbefore : (run capacity rate start pre).Filled capacity rate now := hrun.filled hrate.le
    have hfilled : ((run capacity rate start pre).step (.tryAcquire now)).Filled capacity rate now :=
      (hbefore.step hrate.le).1
    rw [run_concat] at hsum ⊢
    exact hfilled.serves hrate hcapacity hfits hwait hsum

/-- A token, a rejection, and the next token a second later. -/
theorem tokenBucket_bound_two :
    (((grantTimes step BucketCall.now grants (new 1 2 0) [.tryAcquire 0, .tryAcquire 0, .tryAcquire 1]).countP
        fun x => (0 : ℚ) ≤ x ∧ x ≤ 0 + 1 : ℕ) : ℚ) ≤ (1 : UInt64).toNat + 2 * 1 + 1 / 1000 ∧
      grants (run 1 2 0 [.tryAcquire 0, .tryAcquire 0]) (.tryAcquire 1) = true := by
  have hbound := tokenBucket_bound 1 2 0 (by norm_num) [.tryAcquire 0, .tryAcquire 0, .tryAcquire 1]
    ⟨by decide +kernel, by decide +kernel⟩
  refine ⟨hbound.2.2.1 0 1 (by norm_num), ?_⟩
  exact hbound.2.2.2 (by decide) (by decide) [.tryAcquire 0] 0 1 (by simp) (by decide +kernel) (by norm_num)
    (by decide +kernel)

/-- Half a token is left when the wait begins. The product of the refill fits 64 bits, the sum
wraps, and the bucket refuses after almost six years. -/
theorem not_tokenBucket_bound :
    let now : ℚ := 5 / 1000000000
    let now' : ℚ := 184467440737095521 / 1000000000
    let refused := run 1 100000000 0 [.tryAcquire 0, .tryAcquire now]
    Ordered 0 [.tryAcquire 0, .tryAcquire now, .tryAcquire now'] ∧
      grants (run 1 100000000 0 [.tryAcquire 0]) (.tryAcquire now) = false ∧
      now + 1 / 100000000 + 1 / 1000 / 100000000 ≤ now' ∧
      (now' - refused.lastRefill) * 100000000 * 1000 < 2 ^ 64 ∧
      grants refused (.tryAcquire now') = false := by
  refine ⟨⟨by decide +kernel, by decide +kernel⟩, by decide +kernel, by norm_num, ?_, ?_⟩
  · decide +kernel
  · decide +kernel

end Run

end TokenBucket

end MSearchDB.Core
