import MSearchDB.Lib.Sorting
import MSearchDB.Core.FloatArith

/-!
# Queries, sorting and cursors

`Query` and the search types of `crates/core/src/query.rs`, and the functions that
order, cut and collapse a list of scored documents: `apply_sort`, `apply_search_after`
and `apply_collapse`. `slice::sort_by` is a stable sort (`Lib.sortBy`).

Sorting compares what `extract_sort_value_raw` makes of the documents, and a cursor is
compared with what `extract_sort_value` makes of them. `SortRaw.cmp` is a transitive
comparator that agrees with the one of the source on numbers that are not NaNs
(`compareSortRaw_eq`).
-/

set_option autoImplicit false

namespace MSearchDB.Core

open MSearchDB.Lib
open Std

/-! ## Queries -/

/-- `Operator`. -/
inductive Operator where
  | and
  | or
  deriving DecidableEq, Repr

/-- `FullTextQuery`. -/
structure FullTextQuery where
  field : String
  query : String
  operator : Operator
  deriving DecidableEq, Repr

/-- `TermQuery`. -/
structure TermQuery where
  field : String
  value : String
  deriving DecidableEq, Repr

/-- `RangeQuery`. -/
structure RangeQuery where
  field : String
  gte : Option F64
  lte : Option F64
  deriving DecidableEq, Repr

/-- `Query`. -/
inductive Query where
  | fullText (q : FullTextQuery)
  | term (q : TermQuery)
  | range (q : RangeQuery)
  | bool (must should mustNot : List Query)
  deriving Repr

/-! ## Options and results of a search -/

/-- `SortOrder`. -/
inductive SortOrder where
  | asc
  | desc
  deriving DecidableEq, Repr

/-- `SortClause`. -/
structure SortClause where
  field : String
  order : SortOrder
  deriving DecidableEq, Repr

/-- `SortValue`. -/
inductive SortValue where
  | number (x : F64)
  | text (s : String)
  deriving DecidableEq, Repr

/-- `CollapseOptions`. -/
structure CollapseOptions where
  field : String
  deriving DecidableEq, Repr

/-- `ScoredDocument`. -/
structure ScoredDocument where
  document : Document
  score : F32
  sort : List SortValue
  deriving DecidableEq

/-! ## Sorting -/

/-- `SortRaw`. -/
inductive SortRaw where
  | number (x : F64)
  | text (s : String)
  | missing
  deriving DecidableEq, Repr

/-- `Boolean` fields are sorted as numbers. -/
def boolNumber (b : Bool) : F64 := if b then F64.one else F64.zero

/-- `extract_sort_value_raw`. -/
def extractSortValueRaw (doc : Document) (field : String) (score : F32) : SortRaw :=
  if field = "_score" then .number score.toF64
  else if field = "_id" then .text doc.id.val
  else
    match doc.fields[field]? with
    | some (.number x) => .number x
    | some (.text s) => .text s
    | some (.boolean b) => .number (boolNumber b)
    | _ => .missing

/-- `compare_sort_raw`. -/
def compareSortRaw : SortRaw → SortRaw → Ordering
  | .number x, .number y => (x.partialCmp y).getD .eq
  | .text s, .text t => compare s t
  | .missing, .missing => .eq
  | .missing, _ => .gt
  | _, .missing => .lt
  | .number _, _ => .lt
  | _, .number _ => .gt

/-- An ordering in the direction of a clause. -/
def SortOrder.apply : SortOrder → Ordering → Ordering
  | .asc, ord => ord
  | .desc, ord => ord.swap

/-- `compare_by_clause`. -/
def compareByClause (clause : SortClause) (a b : ScoredDocument) : Ordering :=
  clause.order.apply (compareSortRaw (extractSortValueRaw a.document clause.field a.score)
    (extractSortValueRaw b.document clause.field b.score))

/-- The comparison of `apply_sort` without clauses. -/
def compareByScore (a b : ScoredDocument) : Ordering := (b.score.partialCmp a.score).getD .eq

/-- `extract_sort_value`. -/
def extractSortValue (doc : Document) (field : String) (score : F32) : SortValue :=
  if field = "_score" then .number score.toF64
  else if field = "_id" then .text doc.id.val
  else
    match doc.fields[field]? with
    | some (.number x) => .number x
    | some (.text s) => .text s
    | some (.boolean b) => .number (boolNumber b)
    | _ => .text ""

/-- The sort values of a document. -/
def sortValues (clauses : List SortClause) (doc : ScoredDocument) : List SortValue :=
  clauses.map fun clause => extractSortValue doc.document clause.field doc.score

/-- The comparison of `apply_sort` with its clauses. -/
def compareByClauses (clauses : List SortClause) : ScoredDocument → ScoredDocument → Ordering :=
  lexCompare (clauses.map compareByClause)

/-- `apply_sort`. -/
def applySort (docs : List ScoredDocument) (clauses : List SortClause) : List ScoredDocument :=
  if clauses = [] then sortBy compareByScore docs
  else (sortBy (compareByClauses clauses) docs).map fun doc => { doc with sort := sortValues clauses doc }

/-! ## Cursors -/

/-- `compare_sort_values`. -/
def compareSortValues : SortValue → SortValue → Ordering
  | .number x, .number y => (x.partialCmp y).getD .eq
  | .text s, .text t => compare s t
  | .number _, .text _ => .lt
  | .text _, .number _ => .gt

/-- `compare_doc_to_cursor`: the loop from a clause on, with the rest of the cursor. A
value that the cursor lacks is the empty text. -/
def compareDocToCursor (doc : ScoredDocument) : List SortValue → List SortClause → Ordering
  | _, [] => .eq
  | cursor, clause :: clauses =>
      (clause.order.apply (compareSortValues (extractSortValue doc.document clause.field doc.score)
        (cursor.headD (.text "")))).then (compareDocToCursor doc cursor.tail clauses)

/-- `apply_search_after`. -/
def applySearchAfter (docs : List ScoredDocument) (searchAfter : List SortValue)
    (clauses : List SortClause) : List ScoredDocument :=
  if searchAfter = [] ∨ clauses = [] then docs
  else docs.filter fun doc => compareDocToCursor doc searchAfter clauses = .gt

/-! ## Collapsing -/

/-- `extract_string`. -/
def extractString (doc : Document) (field : String) : Option String :=
  match doc.fields[field]? with
  | some (.text s) => some s
  | some (.number x) => some x.display
  | some (.boolean b) => some (if b then "true" else "false")
  | _ => none

/-- The key by which a document is collapsed. -/
def collapseKey (collapse : CollapseOptions) (doc : ScoredDocument) : String :=
  (extractString doc.document collapse.field).getD doc.document.id.val

/-- The loop of `apply_collapse`, with the keys seen so far. -/
def collapseLoop (key : ScoredDocument → String) : List String → List ScoredDocument → List ScoredDocument
  | _, [] => []
  | seen, doc :: docs =>
      if key doc ∈ seen then collapseLoop key seen docs
      else doc :: collapseLoop key (key doc :: seen) docs

/-- `apply_collapse`. -/
def applyCollapse (docs : List ScoredDocument) (collapse : CollapseOptions) : List ScoredDocument :=
  collapseLoop (collapseKey collapse) [] docs

/-! ## The comparators of sorting -/

/-- The kinds of values in their order. -/
def SortRaw.kind : SortRaw → Nat
  | .number _ => 0
  | .text _ => 1
  | .missing => 2

/-- The place of a number, and nothing for other values. -/
def SortRaw.rank : SortRaw → Int
  | .number x => x.rank
  | _ => 0

/-- A text, and the empty text for other values. -/
def SortRaw.str : SortRaw → String
  | .text s => s
  | _ => ""

/-- By kind, then by number, then by text. -/
def SortRaw.cmp : SortRaw → SortRaw → Ordering :=
  lexCompare [fun a b => compare a.kind b.kind, fun a b => compare a.rank b.rank,
    fun a b => compare a.str b.str]

/-- No number is a NaN. -/
def SortRaw.Comparable : SortRaw → Prop
  | .number x => x.isNan = false
  | _ => True

instance transCmpSortRaw : TransCmp SortRaw.cmp := by
  refine transCmp_lexCompare _ fun cmp hcmp => ?_
  simp only [List.mem_cons, List.not_mem_nil, or_false] at hcmp
  rcases hcmp with rfl | rfl | rfl
  · exact transCmp_on SortRaw.kind
  · exact transCmp_on SortRaw.rank
  · exact transCmp_on SortRaw.str

/-- **The comparison of the source is transitive without NaNs.** -/
theorem compareSortRaw_eq {a b : SortRaw} (ha : a.Comparable) (hb : b.Comparable) :
    compareSortRaw a b = SortRaw.cmp a b := by
  cases a with
  | number x =>
      cases b with
      | number y =>
          rw [compareSortRaw, F64.partialCmp_of_not_nan ha hb]
          simp [SortRaw.cmp, lexCompare, SortRaw.kind, SortRaw.rank, SortRaw.str]
      | text t => rfl
      | missing => rfl
  | text s =>
      cases b with
      | number y => rfl
      | text t => simp [compareSortRaw, SortRaw.cmp, lexCompare, SortRaw.kind, SortRaw.rank, SortRaw.str]
      | missing => rfl
  | missing =>
      cases b with
      | number y => rfl
      | text t => rfl
      | missing => rfl

/-- The comparison by a clause, with a transitive comparator. -/
def clauseCmp (clause : SortClause) (a b : ScoredDocument) : Ordering :=
  clause.order.apply (SortRaw.cmp (extractSortValueRaw a.document clause.field a.score)
    (extractSortValueRaw b.document clause.field b.score))

/-- The comparison by clauses, with transitive comparators. -/
def clausesCmp (clauses : List SortClause) : ScoredDocument → ScoredDocument → Ordering :=
  lexCompare (clauses.map clauseCmp)

/-- No value by which the document is sorted is a NaN. -/
def ScoredDocument.Comparable (clauses : List SortClause) (doc : ScoredDocument) : Prop :=
  ∀ clause ∈ clauses, (extractSortValueRaw doc.document clause.field doc.score).Comparable

theorem transCmp_clauseCmp (clause : SortClause) : TransCmp (clauseCmp clause) := by
  obtain ⟨field, order⟩ := clause
  have hasc : TransCmp fun a b : ScoredDocument => SortRaw.cmp
      (extractSortValueRaw a.document field a.score) (extractSortValueRaw b.document field b.score) :=
    transCmp_on fun doc : ScoredDocument => extractSortValueRaw doc.document field doc.score
  cases order with
  | asc => exact hasc
  | desc =>
      have hswap : clauseCmp ⟨field, .desc⟩ = fun a b : ScoredDocument => SortRaw.cmp
          (extractSortValueRaw b.document field b.score) (extractSortValueRaw a.document field a.score) := by
        funext a b
        exact hasc.eq_swap.symm
      rw [hswap]
      exact @TransCmp.opposite _ _ hasc

instance transCmpClauses (clauses : List SortClause) : TransCmp (clausesCmp clauses) := by
  refine transCmp_lexCompare _ fun cmp hcmp => ?_
  obtain ⟨clause, -, rfl⟩ := List.mem_map.1 hcmp
  exact transCmp_clauseCmp clause

theorem compareByClauses_eq {clauses : List SortClause} {a b : ScoredDocument}
    (ha : a.Comparable clauses) (hb : b.Comparable clauses) :
    compareByClauses clauses a b = clausesCmp clauses a b := by
  refine lexCompare_congr fun clause hclause => ?_
  rw [compareByClause, clauseCmp, compareSortRaw_eq (ha clause hclause) (hb clause hclause)]

/-- By score, best first. -/
def scoreCmp (a b : ScoredDocument) : Ordering := compare b.score.rank a.score.rank

instance transCmpScore : TransCmp scoreCmp := by
  have hasc : TransCmp fun a b : ScoredDocument => compare a.score.rank b.score.rank :=
    transCmp_on fun doc : ScoredDocument => doc.score.rank
  exact @TransCmp.opposite _ _ hasc

theorem compareByScore_eq {a b : ScoredDocument} (ha : a.score.isNan = false)
    (hb : b.score.isNan = false) : compareByScore a b = scoreCmp a b := by
  rw [compareByScore, F32.partialCmp_of_not_nan hb ha]
  rfl

end MSearchDB.Core
