import MSearchDB.Lib.Counting
import MSearchDB.Core.Aggregation
import MSearchDB.Core.FloatArith

/-!
# The results of aggregations

`compute_terms` counts in a `HashMap`, sorts what the map hands out and cuts it. The order
by count and key tells any two buckets apart, so neither the order of the map nor that of
the documents can be seen in the result (`termsOf_eq`). Counts of terms and ranges are
numbers of documents (`ExactTerms`, `computeRange_eq`), and those of a concatenation are
sums.

The smallest and the largest number are found by `f64::min` and `f64::max`, for which zeros
of both signs are equal: their results depend on the order of the documents, though not as
numbers (`sameNumber_computeBest`).
-/

set_option autoImplicit false

namespace MSearchDB.Core

open MSearchDB.Lib
open Std

/-! ## Terms -/

/-- The order of the buckets of `compute_terms`. -/
def bucketCmp : AggregationBucket → AggregationBucket → Ordering :=
  lexCompare [fun a b => compare b.docCount a.docCount, fun a b => compare a.key b.key]

/-- What `compute_terms` makes of the entries of its map, in the order in which the map
hands them out. -/
def termsOf (entries : List (String × Nat)) (size : UInt64) : List AggregationBucket :=
  (sortBy (fun a b => (compare b.docCount a.docCount).then (compare a.key b.key))
    (entries.map fun (key, docCount) => AggregationBucket.mk key docCount)).take size.toNat

/-- The documents whose field prints as a text. -/
def docsWithText (docs : List ScoredDocument) (field key : String) : List ScoredDocument :=
  docs.filter fun scored => extractString scored.document field = some key

/-- The list has a bucket for every text that occurs, with the number of its documents, the
largest counts first and the buckets of one count by their keys. -/
structure ExactTerms (docs : List ScoredDocument) (field : String) (all : List AggregationBucket) : Prop where
  ordered : all.Pairwise fun a b => b.docCount < a.docCount ∨ a.docCount = b.docCount ∧ a.key < b.key
  mem_iff : ∀ bucket, bucket ∈ all ↔
    0 < bucket.docCount ∧ bucket.docCount = (docsWithText docs field bucket.key).length

/-- The number of documents of a key. -/
def AggregationResult.countOf (key : String) : AggregationResult → Nat
  | .buckets bs => ((bs.find? fun bucket => bucket.key = key).map AggregationBucket.docCount).getD 0
  | .metric _ => 0

/-- The numbers of documents of the buckets. -/
def AggregationResult.docCounts : AggregationResult → List Nat
  | .buckets bs => bs.map AggregationBucket.docCount
  | .metric _ => []

section Terms

variable {docs docs' : List ScoredDocument} {field : String} {size : UInt64}

instance transCmpBuckets : TransCmp bucketCmp := by
  refine transCmp_lexCompare _ fun cmp hcmp => ?_
  simp only [List.mem_cons, List.not_mem_nil, or_false] at hcmp
  rcases hcmp with rfl | rfl
  · exact @TransCmp.opposite _ _ (transCmp_on AggregationBucket.docCount)
  · exact transCmp_on AggregationBucket.key

theorem bucketCmp_eq (a b : AggregationBucket) :
    (compare b.docCount a.docCount).then (compare a.key b.key) = bucketCmp a b := by
  simp [bucketCmp, lexCompare]

/-- The order tells any two buckets apart. -/
theorem eq_of_bucketCmp_eq {a b : AggregationBucket} (h : bucketCmp a b = .eq) : a = b := by
  rw [← bucketCmp_eq, Ordering.then_eq_eq, Std.compare_eq_iff_eq, Std.compare_eq_iff_eq] at h
  obtain ⟨key, docCount⟩ := a
  obtain ⟨key', docCount'⟩ := b
  obtain ⟨hcount, hkey⟩ := h
  cases hcount
  cases hkey
  rfl

theorem bucketCmp_eq_lt {a b : AggregationBucket} :
    bucketCmp a b = .lt ↔ b.docCount < a.docCount ∨ a.docCount = b.docCount ∧ a.key < b.key := by
  have hkey : compare a.key b.key = .lt ↔ a.key < b.key := compareOfLessAndEq_eq_lt
  rw [← bucketCmp_eq, Ordering.then_eq_lt, Std.compare_eq_iff_eq, compare_lt_iff_lt, hkey, eq_comm]

/-- The counts of `compute_terms` and `compute_cardinality`. -/
theorem foldl_countOne {κ : Type} [Ord κ] [TransOrd κ] (l : List κ) : l.foldl countOne ∅ = tally l := rfl

theorem count_stringsIn (docs : List ScoredDocument) (field key : String) :
    (stringsIn docs field).count key = (docsWithText docs field key).length := by
  rw [stringsIn, docsWithText, List.count_filterMap, List.countP_eq_length_filter]
  congr 1
  exact List.filter_congr fun scored _ => Bool.beq_eq_decide_eq _ _

/-- All buckets of `compute_terms`. -/
def allBuckets (docs : List ScoredDocument) (field : String) : List AggregationBucket :=
  sortBy bucketCmp ((tally (stringsIn docs field)).toList.map fun (key, docCount) => AggregationBucket.mk key docCount)

theorem exactTerms_allBuckets (docs : List ScoredDocument) (field : String) :
    ExactTerms docs field (allBuckets docs field) where
  ordered := by
    have hnodup : ((tally (stringsIn docs field)).toList.map fun (key, docCount) =>
        AggregationBucket.mk key docCount).Nodup := by
      refine (nodup_toList_tally _).map ?_
      rintro ⟨key, docCount⟩ ⟨key', docCount'⟩ h
      cases h
      rfl
    refine List.Pairwise.imp (fun {a b} => bucketCmp_eq_lt.1) ?_
    exact pairwise_lt_sortBy hnodup fun a _ b _ => eq_of_bucketCmp_eq
  mem_iff := by
    rintro ⟨key, docCount⟩
    rw [allBuckets, mem_sortBy, List.mem_map, ← count_stringsIn]
    constructor
    · rintro ⟨⟨k, n⟩, hmem, heq⟩
      cases heq
      obtain ⟨hpos, hcount⟩ := mem_toList_tally.1 hmem
      exact ⟨hpos, hcount.symm⟩
    · rintro ⟨hpos, hcount⟩
      exact ⟨(key, docCount), mem_toList_tally.2 ⟨hpos, hcount.symm⟩, rfl⟩

/-- **Neither the order of the map nor that of the documents can be seen.** -/
theorem termsOf_eq {entries : List (String × Nat)}
    (h : entries.Perm ((stringsIn docs field).foldl countOne ∅).toList) :
    termsOf entries size = (allBuckets docs field).take size.toNat := by
  have hcmp : (fun a b : AggregationBucket => (compare b.docCount a.docCount).then (compare a.key b.key)) =
      bucketCmp := by
    funext a b
    exact bucketCmp_eq a b
  rw [termsOf, hcmp, allBuckets, sortBy_eq_of_perm (h.map _) fun a _ b _ => eq_of_bucketCmp_eq, foldl_countOne]

theorem computeTerms_eq (docs : List ScoredDocument) (field : String) (size : UInt64) :
    computeTerms docs field size = .buckets ((allBuckets docs field).take size.toNat) :=
  congrArg AggregationResult.buckets (termsOf_eq (List.Perm.refl _))

theorem allBuckets_eq_of_perm (h : docs'.Perm docs) : allBuckets docs' field = allBuckets docs field := by
  rw [allBuckets, allBuckets, stringsIn, tally_eq_of_perm (h.filterMap _), stringsIn]

theorem length_docsWithText_append (docs docs' : List ScoredDocument) (field key : String) :
    (docsWithText (docs ++ docs') field key).length =
      (docsWithText docs field key).length + (docsWithText docs' field key).length := by
  rw [docsWithText, List.filter_append, List.length_append, ← docsWithText, ← docsWithText]

theorem length_allBuckets (docs : List ScoredDocument) (field : String) :
    (allBuckets docs field).length = (stringsIn docs field).dedup.length := by
  rw [allBuckets, length_sortBy, List.length_map, ExtTreeMap.length_toList, size_tally]

/-- Without a cut every text has its number of documents. -/
theorem countOf_computeTerms (h : (stringsIn docs field).dedup.length ≤ size.toNat) (key : String) :
    (computeTerms docs field size).countOf key = (docsWithText docs field key).length := by
  have hexact := exactTerms_allBuckets docs field
  rw [computeTerms_eq, List.take_of_length_le ((length_allBuckets docs field).trans_le h)]
  cases hfind : (allBuckets docs field).find? fun bucket => bucket.key = key with
  | none =>
      -- a text of some document would have a bucket
      have hnone := List.find?_eq_none.1 hfind
      rw [AggregationResult.countOf, hfind]
      by_contra hne
      have hmem := (hexact.mem_iff ⟨key, (docsWithText docs field key).length⟩).2
        ⟨Nat.pos_of_ne_zero fun hzero => hne hzero.symm, rfl⟩
      exact hnone _ hmem (by simp)
  | some bucket =>
      have hkey : bucket.key = key := by simpa using List.find?_some hfind
      obtain ⟨-, hcount⟩ := (hexact.mem_iff bucket).1 (List.mem_of_find?_eq_some hfind)
      rw [AggregationResult.countOf, hfind, ← hkey]
      exact hcount

end Terms

/-! ## Ranges -/

section Ranges

variable {docs docs' : List ScoredDocument} {field : String} {ranges : List RangeBucketDef}

/-- The key of the bucket of a range. -/
def RangeBucketDef.name (r : RangeBucketDef) : String :=
  r.key.getD (boundText r.from' ++ "-" ++ boundText r.to')

/-- The documents whose number is in a range. -/
def docsInRange (docs : List ScoredDocument) (field : String) (r : RangeBucketDef) : List ScoredDocument :=
  docs.filter fun scored => (extractNumber scored.document field).any r.covers

/-- The turns of the loop of `compute_range`. -/
theorem foldl_rangeBuckets (ranges : List RangeBucketDef) (xs : List F64) (count : RangeBucketDef → Nat) :
    xs.foldl (fun buckets x => List.zipWith
        (fun bucket (r : RangeBucketDef) =>
          if r.covers x then { bucket with docCount := bucket.docCount + 1 } else bucket)
        buckets ranges)
      (ranges.map fun r => AggregationBucket.mk r.name (count r)) =
      ranges.map fun r => ⟨r.name, count r + (xs.filter r.covers).length⟩ := by
  induction xs generalizing count with
  | nil => rfl
  | cons x xs ih =>
      have hturn : List.zipWith
          (fun (bucket : AggregationBucket) (r : RangeBucketDef) =>
            if r.covers x then { bucket with docCount := bucket.docCount + 1 } else bucket)
          (ranges.map fun r => ⟨r.name, count r⟩) ranges =
          ranges.map fun r => ⟨r.name, if r.covers x then count r + 1 else count r⟩ := by
        rw [List.zipWith_map_left, List.zipWith_self]
        refine List.map_congr_left fun r _ => ?_
        split
        · rfl
        · rfl
      rw [List.foldl_cons, hturn, ih]
      refine List.map_congr_left fun r _ => ?_
      rw [List.filter_cons]
      split
      · rw [List.length_cons, Nat.add_assoc, Nat.add_comm 1]
      · rfl

theorem length_filter_numbersIn (p : F64 → Bool) :
    ((numbersIn docs field).filter p).length =
      (docs.filter fun scored => (extractNumber scored.document field).any p).length := by
  induction docs with
  | nil => rfl
  | cons scored docs ih =>
      rw [numbersIn, List.filterMap_cons, List.filter_cons]
      cases extractNumber scored.document field with
      | none => exact ih
      | some x =>
          rw [List.filter_cons, Option.any_some]
          split
          · exact congrArg (· + 1) ih
          · exact ih

/-- **Each range has the documents in it.** -/
theorem computeRange_eq (docs : List ScoredDocument) (field : String) (ranges : List RangeBucketDef) :
    computeRange docs field ranges =
      .buckets (ranges.map fun r => ⟨r.name, (docsInRange docs field r).length⟩) := by
  have hloop := foldl_rangeBuckets ranges (numbersIn docs field) fun _ => 0
  rw [computeRange]
  refine congrArg AggregationResult.buckets (hloop.trans (List.map_congr_left fun r _ => ?_))
  rw [Nat.zero_add, length_filter_numbersIn, docsInRange]

theorem length_docsInRange_append (docs docs' : List ScoredDocument) (field : String) (r : RangeBucketDef) :
    (docsInRange (docs ++ docs') field r).length =
      (docsInRange docs field r).length + (docsInRange docs' field r).length := by
  rw [docsInRange, List.filter_append, List.length_append, ← docsInRange, ← docsInRange]

theorem docCounts_computeRange (docs : List ScoredDocument) (field : String) (ranges : List RangeBucketDef) :
    (computeRange docs field ranges).docCounts = ranges.map fun r => (docsInRange docs field r).length := by
  rw [computeRange_eq, AggregationResult.docCounts, List.map_map]
  rfl

end Ranges

/-! ## The smallest and the largest number -/

/-- The two numbers compare equal, or both are NaNs. -/
def SameNumber (x y : F64) : Prop := x.partialCmp y = some .eq ∨ x.isNan = true ∧ y.isNan = true

/-- The choice between two numbers leaves NaNs aside and goes for the least key. -/
structure ChoosesLeast (choose : F64 → F64 → F64) (key : F64 → Int) : Prop where
  left_nan : ∀ m x, m.isNan = true → choose m x = x
  right_nan : ∀ m x, m.isNan = false → x.isNan = true → choose m x = m
  numbers : ∀ m x, m.isNan = false → x.isNan = false →
    (choose m x = m ∧ key m ≤ key x) ∨ (choose m x = x ∧ key x ≤ key m)

/-- A member with the least key, and a NaN only when there is nothing else. -/
structure LeastNumber (key : F64 → Int) (xs : List F64) (m : F64) : Prop where
  mem : m ∈ xs
  nan : m.isNan = true → ∀ x ∈ xs, x.isNan = true
  least : ∀ x ∈ xs, x.isNan = false → key m ≤ key x

section Metrics

variable {choose : F64 → F64 → F64} {key : F64 → Int} {docs docs' : List ScoredDocument} {field : String}

theorem F64.lt_iff {x y : F64} (hx : x.isNan = false) (hy : y.isNan = false) :
    x.lt y = true ↔ x.rank < y.rank := by
  rw [F64.lt, F64.partialCmp_of_not_nan hx hy, decide_eq_true_iff, Option.some.injEq, compare_lt_iff_lt]

theorem choosesLeast_min : ChoosesLeast F64.min F64.rank where
  left_nan m x hm := by rw [F64.min, if_pos hm]
  right_nan m x hm hx := by rw [F64.min, if_neg (Bool.eq_false_iff.1 hm), hx, Bool.true_or, if_pos rfl]
  numbers m x hm hx := by
    rw [F64.min, if_neg (Bool.eq_false_iff.1 hm), hx, Bool.false_or]
    by_cases hlt : m.rank < x.rank
    · rw [if_pos ((F64.lt_iff hm hx).2 hlt)]
      exact .inl ⟨rfl, hlt.le⟩
    · rw [if_neg (mt (F64.lt_iff hm hx).1 hlt)]
      exact .inr ⟨rfl, Int.not_lt.1 hlt⟩

theorem choosesLeast_max : ChoosesLeast F64.max fun x => -x.rank where
  left_nan m x hm := by rw [F64.max, if_pos hm]
  right_nan m x hm hx := by rw [F64.max, if_neg (Bool.eq_false_iff.1 hm), hx, Bool.true_or, if_pos rfl]
  numbers m x hm hx := by
    rw [F64.max, if_neg (Bool.eq_false_iff.1 hm), hx, Bool.false_or]
    by_cases hlt : x.rank < m.rank
    · rw [if_pos ((F64.lt_iff hx hm).2 hlt)]
      exact .inl ⟨rfl, by omega⟩
    · rw [if_neg (mt (F64.lt_iff hx hm).1 hlt)]
      exact .inr ⟨rfl, by omega⟩

theorem LeastNumber.singleton (key : F64 → Int) (x : F64) : LeastNumber key [x] x where
  mem := List.mem_singleton_self x
  nan hx y hy := by rwa [List.mem_singleton.1 hy]
  least y hy _ := by rw [List.mem_singleton.1 hy]

/-- One more number. -/
theorem LeastNumber.concat (hchoose : ChoosesLeast choose key) {xs : List F64} {m : F64}
    (h : LeastNumber key xs m) (x : F64) : LeastNumber key (xs ++ [x]) (choose m x) := by
  have hall : ∀ {p : F64 → Prop}, (∀ y ∈ xs, p y) → p x → ∀ y ∈ xs ++ [x], p y := by
    intro p hxs hx y hy
    rcases List.mem_append.1 hy with hy | hy
    · exact hxs y hy
    · rwa [List.mem_singleton.1 hy]
  -- whether the best number so far, or the new one, is a NaN
  cases hm : m.isNan with
  | true =>
      rw [hchoose.left_nan m x hm]
      refine ⟨by simp, fun hx => hall (h.nan hm) hx, hall (fun y hy hnot => ?_) fun _ => le_rfl⟩
      rw [h.nan hm y hy] at hnot
      cases hnot
  | false =>
      cases hx : x.isNan with
      | true =>
          rw [hchoose.right_nan m x hm hx]
          refine ⟨List.mem_append_left _ h.mem, fun hnan => ?_, hall h.least fun hnot => ?_⟩
          · rw [hm] at hnan
            cases hnan
          · rw [hx] at hnot
            cases hnot
      | false =>
          rcases hchoose.numbers m x hm hx with ⟨heq, hle⟩ | ⟨heq, hle⟩
          · rw [heq]
            refine ⟨List.mem_append_left _ h.mem, fun hnan => ?_, hall h.least fun _ => hle⟩
            rw [hm] at hnan
            cases hnan
          · rw [heq]
            refine ⟨by simp, fun hnan => ?_, hall (fun y hy hnot => hle.trans (h.least y hy hnot)) fun _ => le_rfl⟩
            rw [hx] at hnan
            cases hnan

/-- The loop finds a least number when there is one. -/
theorem leastNumber_foldl (hchoose : ChoosesLeast choose key) (xs : List F64) :
    (xs = [] ∧ xs.foldl (fun best x => some (match best with | none => x | some m => choose m x)) none = none) ∨
      ∃ m, xs.foldl (fun best x => some (match best with | none => x | some m => choose m x)) none = some m ∧
        LeastNumber key xs m := by
  induction xs using List.reverseRecOn with
  | nil => exact .inl ⟨rfl, rfl⟩
  | append_singleton xs x ih =>
      right
      rw [List.foldl_append, List.foldl_cons, List.foldl_nil]
      rcases ih with ⟨rfl, hnone⟩ | ⟨m, hsome, hm⟩
      · rw [hnone]
        exact ⟨x, rfl, LeastNumber.singleton key x⟩
      · rw [hsome]
        exact ⟨choose m x, rfl, hm.concat hchoose x⟩

theorem LeastNumber.sameNumber (hkey : ∀ x y, key x = key y → x.rank = y.rank) {xs ys : List F64} {m n : F64}
    (hperm : ys.Perm xs) (hm : LeastNumber key xs m) (hn : LeastNumber key ys n) : SameNumber m n := by
  -- each is a member of the other's list, so that neither key is below the other
  have hmys : m ∈ ys := hperm.mem_iff.2 hm.mem
  have hnxs : n ∈ xs := hperm.mem_iff.1 hn.mem
  cases hmnan : m.isNan with
  | true => exact .inr ⟨hmnan, hm.nan hmnan n hnxs⟩
  | false =>
      have hnnan : n.isNan = false := by
        refine Bool.eq_false_iff.2 fun h => ?_
        rw [hn.nan h m hmys] at hmnan
        cases hmnan
      have hrank : m.rank = n.rank := hkey m n (Int.le_antisymm (hm.least n hnxs hnnan) (hn.least m hmys hmnan))
      left
      rw [F64.partialCmp_of_not_nan hmnan hnnan, hrank, compare_self]

/-- **The best number is the same number in every order of the documents.** -/
theorem sameNumber_computeBest (hchoose : ChoosesLeast choose key) (hkey : ∀ x y, key x = key y → x.rank = y.rank)
    (hperm : docs'.Perm docs) :
    (computeBest choose docs field = .metric none ∧ computeBest choose docs' field = .metric none) ∨
      ∃ m n, computeBest choose docs field = .metric (some m) ∧ computeBest choose docs' field = .metric (some n) ∧
        SameNumber m n := by
  have hnumbers : (numbersIn docs' field).Perm (numbersIn docs field) := hperm.filterMap _
  rcases leastNumber_foldl hchoose (numbersIn docs field) with ⟨hnil, hnone⟩ | ⟨m, hsome, hm⟩
  · have hnil' : numbersIn docs' field = [] := by rwa [hnil, List.perm_nil] at hnumbers
    refine .inl ⟨congrArg AggregationResult.metric hnone, ?_⟩
    rw [computeBest, hnil']
    rfl
  · rcases leastNumber_foldl hchoose (numbersIn docs' field) with ⟨hnil', -⟩ | ⟨n, hsome', hn⟩
    · rw [hnil', List.nil_perm] at hnumbers
      exact absurd hm.mem (by simp [hnumbers])
    · exact .inr ⟨m, n, congrArg AggregationResult.metric hsome, congrArg AggregationResult.metric hsome',
        hm.sameNumber hkey hnumbers hn⟩

theorem computeCardinality_eq_of_perm (h : docs'.Perm docs) :
    computeCardinality docs' field = computeCardinality docs field := by
  have hstrings : (stringsIn docs' field).Perm (stringsIn docs field) := h.filterMap _
  rw [computeCardinality, computeCardinality, foldl_countOne, foldl_countOne, tally_eq_of_perm hstrings]

end Metrics

/-! ## All aggregations -/

/-- Two results of one metric are the same number, or both are missing. -/
def SameMetric (r r' : Option AggregationResult) : Prop :=
  (r = some (.metric none) ∧ r' = some (.metric none)) ∨
    ∃ m n, r = some (.metric (some m)) ∧ r' = some (.metric (some n)) ∧ SameNumber m n

/-- The results of an aggregation on two orders of the documents agree. Sums and averages
are left out, since rounding depends on the order. -/
def Aggregation.AgreeOn : Aggregation → Option AggregationResult → Option AggregationResult → Prop
  | .terms _ _, r, r' => r = r'
  | .range _ _, r, r' => r = r'
  | .cardinality _, r, r' => r = r'
  | .min _, r, r' => SameMetric r r'
  | .max _, r, r' => SameMetric r r'
  | _, _, _ => True

section All

variable {docs docs' : List ScoredDocument} {field : String}

theorem sameMetric_computeBest {choose : F64 → F64 → F64} {key : F64 → Int} (hchoose : ChoosesLeast choose key)
    (hkey : ∀ x y, key x = key y → x.rank = y.rank) (hperm : docs'.Perm docs) :
    SameMetric (some (computeBest choose docs field)) (some (computeBest choose docs' field)) := by
  rcases sameNumber_computeBest hchoose hkey hperm with ⟨h, h'⟩ | ⟨m, n, h, h', hsame⟩
  · exact .inl ⟨congrArg some h, congrArg some h'⟩
  · exact .inr ⟨m, n, congrArg some h, congrArg some h', hsame⟩

theorem agreeOn_compute (h : docs'.Perm docs) (agg : Aggregation) :
    agg.AgreeOn (some (agg.compute docs)) (some (agg.compute docs')) := by
  cases agg with
  | terms field size =>
      refine congrArg some ?_
      rw [Aggregation.compute, Aggregation.compute, computeTerms_eq, computeTerms_eq, allBuckets_eq_of_perm h]
  | range field ranges =>
      refine congrArg some ?_
      rw [Aggregation.compute, Aggregation.compute, computeRange_eq, computeRange_eq]
      refine congrArg AggregationResult.buckets (List.map_congr_left fun r _ => ?_)
      rw [docsInRange, docsInRange, (h.filter _).length_eq]
  | cardinality field => exact congrArg some (computeCardinality_eq_of_perm h).symm
  | min field => exact sameMetric_computeBest choosesLeast_min (fun _ _ hrank => hrank) h
  | max field => exact sameMetric_computeBest choosesLeast_max (fun _ _ hrank => Int.neg_inj.1 hrank) h
  | dateHistogram field interval => trivial
  | avg field => trivial
  | sum field => trivial

theorem length_dedup_stringsIn_le (field : String) {docs docs' : List ScoredDocument} (h : docs ⊆ docs') :
    (stringsIn docs field).dedup.length ≤ (stringsIn docs' field).dedup.length := by
  have hsub : (stringsIn docs field).dedup ⊆ (stringsIn docs' field).dedup := by
    intro s hs
    obtain ⟨scored, hscored, hstring⟩ := List.mem_filterMap.1 (List.mem_dedup.1 hs)
    exact List.mem_dedup.2 (List.mem_filterMap.2 ⟨scored, h hscored, hstring⟩)
  exact ((List.nodup_dedup _).subperm hsub).length_le

/-- **Bucket aggregations are order-independent and exact.** -/
theorem computeAggregations_exact (docs : List ScoredDocument) :
    (∀ (docs' : List ScoredDocument) (aggregations : ExtTreeMap String Aggregation) (name : String)
        (agg : Aggregation), docs'.Perm docs → aggregations[name]? = some agg →
      agg.AgreeOn (computeAggregations docs aggregations)[name]? (computeAggregations docs' aggregations)[name]?) ∧
    (∀ field : String, ∃ all : List AggregationBucket, ExactTerms docs field all ∧
      ∀ size : UInt64, computeTerms docs field size = .buckets (all.take size.toNat) ∧
        ∀ entries : List (String × Nat), entries.Perm ((stringsIn docs field).foldl countOne ∅).toList →
          termsOf entries size = all.take size.toNat) ∧
    (∀ (field : String) (ranges : List RangeBucketDef), computeRange docs field ranges =
      .buckets (ranges.map fun r => ⟨r.name, (docsInRange docs field r).length⟩)) ∧
    (∀ (docs' : List ScoredDocument) (field : String) (ranges : List RangeBucketDef),
      (computeRange (docs ++ docs') field ranges).docCounts =
        List.zipWith (fun n n' => n + n') (computeRange docs field ranges).docCounts
          (computeRange docs' field ranges).docCounts) ∧
    (∀ (docs' : List ScoredDocument) (field : String) (size : UInt64) (key : String),
      (stringsIn (docs ++ docs') field).dedup.length ≤ size.toNat →
        (computeTerms (docs ++ docs') field size).countOf key =
          (computeTerms docs field size).countOf key + (computeTerms docs' field size).countOf key) := by
  refine ⟨fun docs' aggregations name agg hperm hagg => ?_, fun field => ?_, computeRange_eq docs,
    fun docs' field ranges => ?_, fun docs' field size key huncut => ?_⟩
  · rw [computeAggregations, computeAggregations, ExtTreeMap.getElem?_map, ExtTreeMap.getElem?_map, hagg]
    exact agreeOn_compute hperm agg
  · exact ⟨allBuckets docs field, exactTerms_allBuckets docs field,
      fun size => ⟨computeTerms_eq docs field size, fun entries hentries => termsOf_eq hentries⟩⟩
  · rw [docCounts_computeRange, docCounts_computeRange, docCounts_computeRange, List.zipWith_map, List.zipWith_self]
    exact List.map_congr_left fun r _ => length_docsInRange_append docs docs' field r
  · have hleft := length_dedup_stringsIn_le field (List.subset_append_left docs docs')
    have hright := length_dedup_stringsIn_le field (List.subset_append_right docs docs')
    rw [countOf_computeTerms huncut, countOf_computeTerms (hleft.trans huncut),
      countOf_computeTerms (hright.trans huncut), length_docsWithText_append]

end All

/-- A document with a number. -/
def measured (id : String) (x : F64) : ScoredDocument :=
  ⟨(Document.new ⟨id⟩).withField "depth" (.number x), ⟨0⟩, []⟩

/-- `-0.0`. -/
def F64.negZero : F64 := ⟨0x8000000000000000⟩

/-- Two documents in both orders, and one after the other. -/
theorem computeAggregations_exact_two :
    (Aggregation.cardinality "depth").AgreeOn
        (computeAggregations [measured "a" F64.one, measured "b" F64.zero]
          ((∅ : ExtTreeMap String Aggregation).insert "depths" (.cardinality "depth")))["depths"]?
        (computeAggregations [measured "b" F64.zero, measured "a" F64.one]
          ((∅ : ExtTreeMap String Aggregation).insert "depths" (.cardinality "depth")))["depths"]? ∧
      (computeTerms ([measured "a" F64.one] ++ [measured "b" F64.one]) "depth" 10).countOf "1" =
        (computeTerms [measured "a" F64.one] "depth" 10).countOf "1" +
          (computeTerms [measured "b" F64.one] "depth" 10).countOf "1" := by
  constructor
  · exact (computeAggregations_exact [measured "a" F64.one, measured "b" F64.zero]).1 _ _ _ _
      (List.Perm.swap _ _ _) (by simp)
  · have hshort : (stringsIn ([measured "a" F64.one] ++ [measured "b" F64.one]) "depth").length ≤ 10 :=
      List.length_filterMap_le _ _ |>.trans (by decide)
    exact (computeAggregations_exact [measured "a" F64.one]).2.2.2.2 _ _ _ _
      ((List.dedup_sublist _).length_le.trans hshort)

/-- The least of two zeros has the sign of the last one. -/
theorem computeAggregations_zeros :
    let least : ExtTreeMap String Aggregation := (∅ : ExtTreeMap String Aggregation).insert "least" (.min "depth")
    let one := (computeAggregations [measured "a" F64.zero, measured "b" F64.negZero] least)["least"]?
    let other := (computeAggregations [measured "b" F64.negZero, measured "a" F64.zero] least)["least"]?
    one = some (.metric (some F64.negZero)) ∧ other = some (.metric (some F64.zero)) ∧ one ≠ other := by
  decide

end MSearchDB.Core
