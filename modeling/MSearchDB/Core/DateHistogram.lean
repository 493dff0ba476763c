import MSearchDB.Lib.OrderedMap
import MSearchDB.Core.Buckets
import MSearchDB.Node.Session

/-!
# Date histograms

`compute_date_histogram` casts a number of seconds to `u64` and rounds it down to a multiple
of the interval. A cast of a negative number gives zero, so that every time before 1970 is
counted in the bucket that starts with 1970.

For numbers that are whole seconds the buckets partition time exactly when none of them is
negative (`partitionsTime_iff`). The keys are sorted as the numbers they are parsed back to,
which is the order in which they were made (`histogramOf_eq`).
-/

set_option autoImplicit false

namespace MSearchDB.Core

open MSearchDB.Lib
open MSearchDB.Node (parseU64 parseU64_repr)
open Std

/-! ## Seconds -/

/-- A number is a whole number. -/
def F64.IsWhole (x : F64) : Prop := x.isFinite = true ∧ x.toRatio.2 ∣ x.toRatio.1

instance : DecidablePred F64.IsWhole := fun x =>
  inferInstanceAs (Decidable (x.isFinite = true ∧ x.toRatio.2 ∣ x.toRatio.1))

/-- The whole number that a number is. -/
def F64.seconds (x : F64) : Int :=
  if x.negative then -((x.toRatio.1 / x.toRatio.2 : Nat) : Int) else (x.toRatio.1 / x.toRatio.2 : Nat)

/-- The documents of a time span. -/
def docsBetween (docs : List ScoredDocument) (field : String) (start stop : Int) : List ScoredDocument :=
  docs.filter fun scored => (extractNumber scored.document field).any fun x => start ≤ x.seconds ∧ x.seconds < stop

/-- The buckets start at different multiples of the interval, in order; every number falls
into one of them, and a bucket has the number of its documents. -/
structure PartitionsTime (docs : List ScoredDocument) (field : String) (interval : DateInterval)
    (buckets : List AggregationBucket) (starts : List Int) : Prop where
  keys : buckets.map AggregationBucket.key = starts.map toString
  ascending : starts.Pairwise fun start start' => start < start'
  multiple : ∀ start ∈ starts, (interval.asSecs.toNat : Int) ∣ start
  covered : ∀ x ∈ numbersIn docs field, ∃ start ∈ starts,
    start ≤ x.seconds ∧ x.seconds < start + interval.asSecs.toNat
  counts : buckets.map AggregationBucket.docCount =
    starts.map fun start => (docsBetween docs field start (start + interval.asSecs.toNat)).length
  total : (buckets.map AggregationBucket.docCount).sum = (numbersIn docs field).length

/-! ## Sorting by the parsed keys -/

/-- `key.parse::<u64>().unwrap_or(0)`. -/
def parsedKey (bucket : AggregationBucket) : UInt64 := (parseU64 bucket.key.toList).getD 0

/-- What `compute_date_histogram` makes of the entries of its map, in the order in which the
map hands them out. -/
def histogramOf (entries : List (UInt64 × Nat)) : List AggregationBucket :=
  sortBy (fun a b => compare (parsedKey a) (parsedKey b))
    (entries.map fun (key, docCount) => ⟨toString key.toNat, docCount⟩)

/-- The keys that the loop counts. -/
def bucketKeys (docs : List ScoredDocument) (field : String) (interval : DateInterval) : List UInt64 :=
  (numbersIn docs field).map fun x => x.toU64 / interval.asSecs * interval.asSecs

section Sorting

variable {docs : List ScoredDocument} {field : String} {interval : DateInterval}

theorem computeDateHistogram_eq (docs : List ScoredDocument) (field : String) (interval : DateInterval) :
    computeDateHistogram docs field interval =
      .buckets ((tally (bucketKeys docs field interval)).toList.map
        fun (key, docCount) => ⟨toString key.toNat, docCount⟩) := by
  rw [bucketKeys, tally, List.foldl_map]
  rfl

theorem parsedKey_mk (key : UInt64) (docCount : Nat) : parsedKey ⟨toString key.toNat, docCount⟩ = key :=
  congrArg (fun parsed => parsed.getD 0) (parseU64_repr key)

/-- **Sorting by the parsed keys is sorting by the keys.** -/
theorem histogramOf_eq {entries : List (UInt64 × Nat)}
    (h : entries.Perm (tally (bucketKeys docs field interval)).toList) :
    computeDateHistogram docs field interval = .buckets (histogramOf entries) := by
  have htrans : TransCmp fun a b : AggregationBucket => compare (parsedKey a) (parsedKey b) := transCmp_on parsedKey
  rw [computeDateHistogram_eq, histogramOf, sortBy_eq_of_perm (h.map _), sortBy_of_pairwise]
  · -- the map is in the order of its keys
    refine List.pairwise_map.2 ((ascending_toList _).imp fun {a b} hlt => ?_)
    rw [parsedKey_mk, parsedKey_mk, hlt]
    rfl
  · intro a ha b hb heq
    obtain ⟨⟨key, n⟩, hn, rfl⟩ := List.mem_map.1 ha
    obtain ⟨⟨key', n'⟩, hn', rfl⟩ := List.mem_map.1 hb
    rw [parsedKey_mk, parsedKey_mk, Std.compare_eq_iff_eq] at heq
    obtain rfl : key = key' := heq
    rw [ExtTreeMap.mem_toList_iff_getElem?_eq_some] at hn hn'
    rw [hn] at hn'
    rw [Option.some.inj hn']

end Sorting

/-! ## Partitions of time -/

section Partition

variable {docs : List ScoredDocument} {field : String} {interval : DateInterval} {x : F64}

theorem DateInterval.asSecs_pos (interval : DateInterval) : 0 < interval.asSecs.toNat := by
  cases interval with
  | _ => decide

/-- The cast of whole seconds that are not negative. -/
theorem toNat_toU64 (hwhole : x.IsWhole) (hbound : x.seconds.natAbs < 2 ^ 64) (hpos : 0 ≤ x.seconds) :
    (x.toU64.toNat : Int) = x.seconds := by
  have hnan : x.isNan = false := F64.isNan_of_isFinite hwhole.1
  unfold F64.seconds at hbound hpos ⊢
  cases hneg : x.negative with
  | true =>
      -- a negative zero
      rw [hneg, if_pos rfl] at hbound hpos
      rw [if_pos rfl, F64.toU64, hneg, Bool.or_true, if_pos rfl]
      have hzero : ((x.toRatio.1 / x.toRatio.2 : Nat) : Int) = 0 :=
        Int.le_antisymm (neg_nonneg.1 hpos) (Int.natCast_nonneg _)
      rw [hzero]
      rfl
  | false =>
      rw [hneg, if_neg (by simp)] at hbound
      rw [if_neg (by simp), F64.toU64, hnan, hneg, Bool.or_false, if_neg (by simp), if_pos hwhole.1]
      dsimp only
      rw [Int.natAbs_natCast] at hbound
      have hmin : Nat.min (x.toRatio.1 / x.toRatio.2) (2 ^ 64 - 1) = x.toRatio.1 / x.toRatio.2 :=
        Nat.min_eq_left (by omega)
      rw [hmin, UInt64.toNat_ofNat_of_lt' hbound]

/-- The key of a bucket is the multiple of the interval at or before the number. -/
theorem toNat_bucketKey (interval : DateInterval) (hwhole : x.IsWhole) (hbound : x.seconds.natAbs < 2 ^ 64)
    (hpos : 0 ≤ x.seconds) :
    ((x.toU64 / interval.asSecs * interval.asSecs).toNat : Int) =
      x.seconds / interval.asSecs.toNat * interval.asSecs.toNat := by
  have hcast := toNat_toU64 hwhole hbound hpos
  have hle : x.toU64.toNat / interval.asSecs.toNat * interval.asSecs.toNat ≤ x.toU64.toNat := Nat.div_mul_le_self _ _
  have hlt := x.toU64.toNat_lt
  rw [UInt64.toNat_mul, UInt64.toNat_div, Nat.mod_eq_of_lt (by omega), ← hcast]
  norm_cast

/-- A number is rounded down to the multiple at or before it. -/
theorem roundDown_eq_iff {time start width : Int} (hwidth : 0 < width) (hstart : width ∣ start) :
    time / width * width = start ↔ start ≤ time ∧ time < start + width := by
  constructor
  · rintro rfl
    refine ⟨Int.ediv_mul_le time hwidth.ne', ?_⟩
    have hlt := Int.lt_ediv_add_one_mul_self time hwidth
    rwa [add_mul, one_mul] at hlt
  · rintro ⟨hle, hlt⟩
    obtain ⟨q, rfl⟩ := hstart
    have hquotient : time / width = q := by
      refine Int.le_antisymm (Int.lt_add_one_iff.1 (Int.ediv_lt_of_lt_mul hwidth ?_)) ?_
      · rwa [add_mul, one_mul, mul_comm q]
      · exact Int.le_ediv_of_mul_le hwidth (by rwa [mul_comm])
    rw [hquotient, mul_comm]

/-- The documents of a bucket are those of its time span. -/
theorem count_bucketKeys (hwhole : ∀ x ∈ numbersIn docs field, x.IsWhole ∧ x.seconds.natAbs < 2 ^ 64)
    (hpos : ∀ x ∈ numbersIn docs field, 0 ≤ x.seconds) {key : UInt64}
    (hkey : (interval.asSecs.toNat : Int) ∣ key.toNat) :
    (bucketKeys docs field interval).count key =
      (docsBetween docs field key.toNat (key.toNat + interval.asSecs.toNat)).length := by
  rw [bucketKeys, docsBetween, ← length_filter_numbersIn, List.count, List.countP_map, List.countP_eq_length_filter]
  congr 1
  refine List.filter_congr fun x hx => ?_
  have hround := toNat_bucketKey interval (hwhole x hx).1 (hwhole x hx).2 (hpos x hx)
  rw [Function.comp_apply, Bool.beq_eq_decide_eq]
  refine decide_eq_decide.2 ?_
  rw [← UInt64.toNat_inj, ← Int.natCast_inj, hround]
  exact roundDown_eq_iff (Int.natCast_pos.2 interval.asSecs_pos) hkey

/-- Numbers that are not negative are partitioned. -/
theorem partitionsTime_of_nonneg (hwhole : ∀ x ∈ numbersIn docs field, x.IsWhole ∧ x.seconds.natAbs < 2 ^ 64)
    (hpos : ∀ x ∈ numbersIn docs field, 0 ≤ x.seconds) :
    PartitionsTime docs field interval
      ((tally (bucketKeys docs field interval)).toList.map fun (key, docCount) => ⟨toString key.toNat, docCount⟩)
      ((tally (bucketKeys docs field interval)).toList.map fun entry => (entry.1.toNat : Int)) := by
  -- a bucket starts where one of its numbers was rounded to
  have hround : ∀ x ∈ numbersIn docs field, ((x.toU64 / interval.asSecs * interval.asSecs).toNat : Int) =
      x.seconds / interval.asSecs.toNat * interval.asSecs.toNat :=
    fun x hx => toNat_bucketKey interval (hwhole x hx).1 (hwhole x hx).2 (hpos x hx)
  have hmultiple : ∀ entry ∈ (tally (bucketKeys docs field interval)).toList,
      (interval.asSecs.toNat : Int) ∣ entry.1.toNat := by
    rintro ⟨key, n⟩ hmem
    obtain ⟨hn, hcount⟩ := mem_toList_tally.1 hmem
    obtain ⟨x, hx, rfl⟩ := List.mem_map.1 (List.count_pos_iff.1 (hcount ▸ hn))
    rw [hround x hx]
    exact Int.dvd_mul_left _ _
  refine ⟨?_, ?_, ?_, fun x hx => ?_, ?_, ?_⟩
  · rw [List.map_map, List.map_map]
    rfl
  · refine List.pairwise_map.2 ((ascending_toList _).imp fun {a b} hlt => ?_)
    exact Int.ofNat_lt.2 (UInt64.lt_iff_toNat_lt.1 (compare_eq_lt.1 hlt))
  · intro start hstart
    obtain ⟨entry, hmem, rfl⟩ := List.mem_map.1 hstart
    exact hmultiple entry hmem
  · have hmem : x.toU64 / interval.asSecs * interval.asSecs ∈ bucketKeys docs field interval :=
      List.mem_map_of_mem hx
    refine ⟨_, List.mem_map.2 ⟨(_, _), mem_toList_tally.2 ⟨List.count_pos_iff.2 hmem, rfl⟩, rfl⟩, ?_⟩
    refine (roundDown_eq_iff (Int.natCast_pos.2 interval.asSecs_pos) ?_).1 (hround x hx).symm
    rw [hround x hx]
    exact Int.dvd_mul_left _ _
  · rw [List.map_map, List.map_map]
    refine List.map_congr_left fun entry hmem => ?_
    rw [Function.comp_apply, Function.comp_apply, ← count_bucketKeys hwhole hpos (hmultiple entry hmem)]
    exact (mem_toList_tally.1 hmem).2.symm
  · rw [List.map_map]
    exact (sum_tally _).trans (List.length_map _)

/-- No key of a bucket reads as a negative number. -/
theorem nonneg_of_partitionsTime {entries : List (UInt64 × Nat)} {starts : List Int}
    (h : PartitionsTime docs field interval
      (entries.map fun (key, docCount) => ⟨toString key.toNat, docCount⟩) starts)
    (hx : x ∈ numbersIn docs field) : 0 ≤ x.seconds := by
  obtain ⟨start, hstart, hle, -⟩ := h.covered x hx
  have hkey : toString start ∈ starts.map toString := List.mem_map_of_mem hstart
  rw [← h.keys, List.map_map] at hkey
  obtain ⟨⟨key, n⟩, -, heq⟩ := List.mem_map.1 hkey
  cases start with
  | ofNat m => exact (Int.natCast_nonneg m).trans hle
  | negSucc m =>
      have hsign : '-' ∈ (toString (Int.negSucc m)).toList := by
        change '-' ∈ ("-" ++ Nat.repr (m + 1)).toList
        simp
      rw [← heq] at hsign
      have hdigits : '-' ∈ Nat.toDigits 10 key.toNat := by simpa using hsign
      have hdigit := Nat.isDigit_of_mem_toDigits (by decide) (by decide) hdigits
      exact absurd hdigit (by decide)

/-- **When a date histogram partitions time.** Over numbers that are whole seconds, as far
as a double counts exactly, the buckets are a partition of time if and only if no number
is negative. The order of the map does not matter. -/
theorem partitionsTime_iff (docs : List ScoredDocument) (field : String) (interval : DateInterval)
    (hwhole : ∀ x ∈ numbersIn docs field, x.IsWhole ∧ x.seconds.natAbs ≤ 2 ^ 53) :
    (∀ entries : List (UInt64 × Nat),
      entries.Perm ((numbersIn docs field).foldl
        (fun counts x => countOne counts (x.toU64 / interval.asSecs * interval.asSecs)) ∅).toList →
      computeDateHistogram docs field interval = .buckets (histogramOf entries)) ∧
    ((∃ buckets starts, computeDateHistogram docs field interval = .buckets buckets ∧
        PartitionsTime docs field interval buckets starts) ↔
      ∀ x ∈ numbersIn docs field, 0 ≤ x.seconds) := by
  refine ⟨fun entries hentries => histogramOf_eq ?_, ?_, fun hpos => ?_⟩
  · rwa [bucketKeys, tally, List.foldl_map]
  · rintro ⟨buckets, starts, hbuckets, hpartition⟩ x hx
    rw [computeDateHistogram_eq] at hbuckets
    obtain rfl := AggregationResult.buckets.inj hbuckets
    exact nonneg_of_partitionsTime hpartition hx
  · refine ⟨_, _, computeDateHistogram_eq docs field interval, partitionsTime_of_nonneg (fun x hx => ?_) hpos⟩
    exact ⟨(hwhole x hx).1, (hwhole x hx).2.trans_lt (by norm_num)⟩

end Partition

/-- `-1.0`. -/
def F64.minusOne : F64 := ⟨0xbff0000000000000⟩

theorem seconds_samples :
    F64.one.IsWhole ∧ F64.negZero.IsWhole ∧ F64.one.seconds = 1 ∧ F64.negZero.seconds = 0 ∧
      F64.minusOne.seconds = -1 := by
  decide +kernel

/-- One second after 1970, and 1970 itself as a negative zero. -/
theorem partitionsTime_epoch :
    ∃ buckets starts, computeDateHistogram [measured "a" F64.one, measured "b" F64.negZero] "depth" .day =
        .buckets buckets ∧
      PartitionsTime [measured "a" F64.one, measured "b" F64.negZero] "depth" .day buckets starts := by
  obtain ⟨hone, hzero, hone', hzero', -⟩ := seconds_samples
  have hnumbers : numbersIn [measured "a" F64.one, measured "b" F64.negZero] "depth" = [F64.one, F64.negZero] := by
    decide
  refine (partitionsTime_iff _ "depth" .day fun x hx => ?_).2.2 fun x hx => ?_
  · rw [hnumbers] at hx
    rcases List.mem_pair.1 hx with rfl | rfl
    · exact ⟨hone, by rw [hone']; norm_num⟩
    · exact ⟨hzero, by rw [hzero']; norm_num⟩
  · rw [hnumbers] at hx
    rcases List.mem_pair.1 hx with rfl | rfl
    · rw [hone']; norm_num
    · rw [hzero']

/-- One second before 1970 is counted as 1970. -/
theorem beforeEpoch_not_partitioned :
    ¬ ∃ buckets starts, computeDateHistogram [measured "a" F64.minusOne] "depth" .day = .buckets buckets ∧
      PartitionsTime [measured "a" F64.minusOne] "depth" .day buckets starts := by
  rintro ⟨buckets, starts, hbuckets, hpartition⟩
  rw [computeDateHistogram_eq] at hbuckets
  obtain rfl := AggregationResult.buckets.inj hbuckets
  have hmem : F64.minusOne ∈ numbersIn [measured "a" F64.minusOne] "depth" := by decide
  have hpos := nonneg_of_partitionsTime hpartition hmem
  rw [seconds_samples.2.2.2.2] at hpos
  exact absurd hpos (by decide)

end MSearchDB.Core
