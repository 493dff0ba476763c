import MSearchDB.Core.Query

/-!
# Aggregations

The aggregation engine of `crates/core/src/query.rs`, and the options and results of a
search, which carry aggregations. Counts are numbers of documents in memory and do not
overflow. Where the source sorts what it takes out of a `HashMap`, the keys tell all
entries apart, so the order of the map leaves no trace.
-/

set_option autoImplicit false

namespace MSearchDB.Core

open MSearchDB.Lib
open Std (ExtTreeMap)

/-- `RangeBucketDef`. -/
structure RangeBucketDef where
  key : Option String
  from' : Option F64
  to' : Option F64
  deriving DecidableEq, Repr

/-- `DateInterval`. -/
inductive DateInterval where
  | second
  | minute
  | hour
  | day
  | week
  | month
  deriving DecidableEq, Repr

/-- `DateInterval::as_secs`. -/
def DateInterval.asSecs : DateInterval → UInt64
  | .second => 1
  | .minute => 60
  | .hour => 3600
  | .day => 86400
  | .week => 604800
  | .month => 2592000

/-- `Aggregation`. -/
inductive Aggregation where
  | terms (field : String) (size : UInt64)
  | range (field : String) (ranges : List RangeBucketDef)
  | dateHistogram (field : String) (interval : DateInterval)
  | avg (field : String)
  | sum (field : String)
  | min (field : String)
  | max (field : String)
  | cardinality (field : String)
  deriving DecidableEq, Repr

/-- `AggregationBucket`. -/
structure AggregationBucket where
  key : String
  docCount : Nat
  deriving DecidableEq, Repr

/-- `AggregationResult`. -/
inductive AggregationResult where
  | buckets (buckets : List AggregationBucket)
  | metric (value : Option F64)
  deriving DecidableEq, Repr

/-- `SearchOptions`. -/
structure SearchOptions where
  size : UInt64
  from' : UInt64
  sort : List SortClause
  searchAfter : Option (List SortValue)
  aggregations : ExtTreeMap String Aggregation
  collapse : Option CollapseOptions

/-- `SearchResult`, without the time it took. -/
structure SearchResult where
  documents : List ScoredDocument
  total : Nat
  aggregations : ExtTreeMap String AggregationResult
  deriving DecidableEq

/-- `SearchResult::empty`. -/
def SearchResult.empty : SearchResult := ⟨[], 0, ∅⟩

/-- `extract_number`. -/
def extractNumber (doc : Document) (field : String) : Option F64 :=
  match doc.fields[field]? with
  | some (.number x) => some x
  | _ => none

/-- The numbers that the documents have in a field, in their order. -/
def numbersIn (docs : List ScoredDocument) (field : String) : List F64 :=
  docs.filterMap fun scored => extractNumber scored.document field

/-- The texts that the documents have in a field, in their order. -/
def stringsIn (docs : List ScoredDocument) (field : String) : List String :=
  docs.filterMap fun scored => extractString scored.document field

/-- `*counts.entry(key).or_insert(0) += 1`. -/
def countOne {κ : Type} [Ord κ] [Std.TransOrd κ] (counts : ExtTreeMap κ Nat) (key : κ) :
    ExtTreeMap κ Nat :=
  counts.insert key (counts[key]?.getD 0 + 1)

/-- `compute_terms`. -/
def computeTerms (docs : List ScoredDocument) (field : String) (size : UInt64) : AggregationResult :=
  let counts := (stringsIn docs field).foldl countOne ∅
  let buckets := counts.toList.map fun (key, docCount) => AggregationBucket.mk key docCount
  let buckets := sortBy (fun a b => (compare b.docCount a.docCount).then (compare a.key b.key)) buckets
  .buckets (buckets.take size.toNat)

/-- The text of an end of a range. -/
def boundText (bound : Option F64) : String := (bound.map F64.display).getD "*"

/-- A number is in a range. -/
def RangeBucketDef.covers (r : RangeBucketDef) (x : F64) : Bool :=
  (r.from'.all fun f => f.le x) && (r.to'.all fun t => x.lt t)

/-- `compute_range`. -/
def computeRange (docs : List ScoredDocument) (field : String) (ranges : List RangeBucketDef) :
    AggregationResult :=
  let buckets := ranges.map fun r => AggregationBucket.mk (r.key.getD (boundText r.from' ++ "-" ++ boundText r.to')) 0
  .buckets ((numbersIn docs field).foldl
    (fun buckets x => List.zipWith
      (fun bucket (r : RangeBucketDef) =>
        if r.covers x then { bucket with docCount := bucket.docCount + 1 } else bucket)
      buckets ranges)
    buckets)

/-- `compute_date_histogram`. The source sorts the buckets by the number it parses back
from the key. -/
def computeDateHistogram (docs : List ScoredDocument) (field : String) (interval : DateInterval) :
    AggregationResult :=
  let secs := interval.asSecs
  let counts := (numbersIn docs field).foldl (fun counts x => countOne counts (x.toU64 / secs * secs)) ∅
  .buckets (counts.toList.map fun (key, docCount) => ⟨toString key.toNat, docCount⟩)

/-- `compute_avg`. -/
def computeAvg (docs : List ScoredDocument) (field : String) : AggregationResult :=
  let xs := numbersIn docs field
  .metric (if 0 < xs.length then some ((xs.foldl F64.add F64.zero).divNat xs.length) else none)

/-- `compute_sum`. -/
def computeSum (docs : List ScoredDocument) (field : String) : AggregationResult :=
  let xs := numbersIn docs field
  .metric (if xs = [] then none else some (xs.foldl F64.add F64.zero))

/-- `compute_min` and `compute_max`, with the choice between two numbers. -/
def computeBest (choose : F64 → F64 → F64) (docs : List ScoredDocument) (field : String) :
    AggregationResult :=
  .metric ((numbersIn docs field).foldl
    (fun best x => some (match best with | none => x | some m => choose m x)) none)

/-- `compute_min`. -/
def computeMin : List ScoredDocument → String → AggregationResult := computeBest F64.min

/-- `compute_max`. -/
def computeMax : List ScoredDocument → String → AggregationResult := computeBest F64.max

/-- `compute_cardinality`. -/
def computeCardinality (docs : List ScoredDocument) (field : String) : AggregationResult :=
  let seen := (stringsIn docs field).foldl countOne ∅
  .metric (if seen.isEmpty then none else some (F64.ofNat seen.size))

/-- The result of one aggregation. -/
def Aggregation.compute (docs : List ScoredDocument) : Aggregation → AggregationResult
  | .terms field size => computeTerms docs field size
  | .range field ranges => computeRange docs field ranges
  | .dateHistogram field interval => computeDateHistogram docs field interval
  | .avg field => computeAvg docs field
  | .sum field => computeSum docs field
  | .min field => computeMin docs field
  | .max field => computeMax docs field
  | .cardinality field => computeCardinality docs field

/-- `compute_aggregations`. -/
def computeAggregations (docs : List ScoredDocument) (aggregations : ExtTreeMap String Aggregation) :
    ExtTreeMap String AggregationResult :=
  aggregations.map fun _ agg => agg.compute docs

end MSearchDB.Core
