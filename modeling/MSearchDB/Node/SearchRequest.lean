import MSearchDB.Core.Aggregation
import MSearchDB.Index.CollectionIndex
import MSearchDB.Node.State

/-!
# Search requests and hits

The search payloads of `crates/node/src/dto.rs`: the query DSL and its conversion to a
`Query`, `SearchRequest::to_search_options`, and `scored_doc_to_hit`. A field of the
request that no modelled function reads (`highlight`) is left out. The text of a JSON
value is a parameter (`JsonDisplay`), and so is what arrives of a JSON value that is
sent (`JsonWire`).
-/

set_option autoImplicit false

namespace MSearchDB.Node

open MSearchDB.Core
open MSearchDB.Index (HashOrder)
open Std (ExtTreeMap)

/-- `Display` of `serde_json::Value`. -/
class JsonDisplay where
  display : JsonValue → String

/-- A JSON value that is written, sent and parsed again. -/
class JsonWire where
  send : JsonValue → JsonValue
  send_string : ∀ s, send (.string s) = .string s
  /-- Finite numbers survive. -/
  send_number : ∀ x : F64, x.isFinite = true → send (.number (some x)) = .number (some x)

/-! ## Queries -/

/-- `MatchFieldQuery`. -/
structure MatchFieldQuery where
  query : String
  operator : String
  deriving DecidableEq, Repr

/-- `RangeFieldQuery`. -/
structure RangeFieldQuery where
  gte : Option F64
  lte : Option F64
  deriving DecidableEq, Repr

/-- `QueryDsl`. -/
inductive QueryDsl where
  | match (fields : ExtTreeMap String MatchFieldQuery)
  | term (fields : ExtTreeMap String String)
  | range (fields : ExtTreeMap String RangeFieldQuery)
  | bool (must should mustNot : List QueryDsl)

/-- The orders in which the maps of a query are iterated. -/
structure DslOrder where
  matchFields : HashOrder MatchFieldQuery
  termFields : HashOrder String
  rangeFields : HashOrder RangeFieldQuery

/-- The operator that a text names. -/
def operatorOf (s : String) : Operator := if s.toLower = "and" then .and else .or

mutual
/-- `QueryDsl::into_core_query`. -/
def QueryDsl.intoCoreQuery (order : DslOrder) : QueryDsl → Query
  | .match fields =>
      let (field, opts) := (order.matchFields.iter fields).headD ("_body", ⟨"", "or"⟩)
      .fullText ⟨field, opts.query, operatorOf opts.operator⟩
  | .term fields =>
      let (field, value) := (order.termFields.iter fields).headD ("", "")
      .term ⟨field, value⟩
  | .range fields =>
      let (field, bounds) := (order.rangeFields.iter fields).headD ("", ⟨none, none⟩)
      .range ⟨field, bounds.gte, bounds.lte⟩
  | .bool must should mustNot =>
      .bool (intoCoreQueries order must) (intoCoreQueries order should) (intoCoreQueries order mustNot)
/-- The queries of a list. -/
def QueryDsl.intoCoreQueries (order : DslOrder) : List QueryDsl → List Query
  | [] => []
  | q :: qs => q.intoCoreQuery order :: intoCoreQueries order qs
end

/-! ## Requests -/

/-- `SortField`. -/
structure SortField where
  field : String
  order : String
  deriving DecidableEq, Repr

/-- `AggregationDsl`, with the fields of its variants. -/
inductive AggregationDsl where
  | terms (field : String) (size : UInt64)
  | range (field : String) (ranges : List RangeBucketDef)
  | dateHistogram (field : String) (interval : String)
  | avg (field : String)
  | sum (field : String)
  | min (field : String)
  | max (field : String)
  | cardinality (field : String)
  deriving DecidableEq, Repr

/-- `to_lowercase`, as far as it gives ASCII: besides the ASCII letters, the sign for kelvin becomes
a `k`. -/
def toLowercase (c : Char) : Char := if c = Char.ofNat 0x212A then 'k' else c.toLower

/-- The interval that a text names. -/
def intervalOf (s : String) : DateInterval :=
  match s.map toLowercase with
  | "second" => .second
  | "minute" => .minute
  | "hour" => .hour
  | "day" => .day
  | "week" => .week
  | "month" => .month
  | _ => .day

/-- `AggregationDsl::into_core_aggregation`. -/
def AggregationDsl.intoCoreAggregation : AggregationDsl → Aggregation
  | .terms field size => .terms field size
  | .range field ranges => .range field ranges
  | .dateHistogram field interval => .dateHistogram field (intervalOf interval)
  | .avg field => .avg field
  | .sum field => .sum field
  | .min field => .min field
  | .max field => .max field
  | .cardinality field => .cardinality field

/-- `SearchRequest`. -/
structure SearchRequest where
  query : QueryDsl
  size : Option UInt64
  from' : Option UInt64
  sort : Option (List SortField)
  aggs : Option (ExtTreeMap String AggregationDsl)
  searchAfter : Option (List JsonValue)
  collapse : Option String

/-- The clause of a field of the request. -/
def SortField.clause (sf : SortField) : SortClause :=
  ⟨sf.field, if sf.order.toLower = "asc" then .asc else .desc⟩

section

variable [JsonDisplay]

/-- The sort value that a value of the cursor stands for. -/
def sortValueOf : JsonValue → SortValue
  | .number asF64 => .number (asF64.getD F64.zero)
  | .string s => .text s
  | v => .text (JsonDisplay.display v)

/-- `SearchRequest::to_search_options`. -/
def SearchRequest.toSearchOptions (request : SearchRequest) : SearchOptions where
  size := request.size.getD 10
  from' := request.from'.getD 0
  sort := (request.sort.map fun fields => fields.map SortField.clause).getD []
  searchAfter := request.searchAfter.map fun vals => vals.map sortValueOf
  aggregations :=
    (request.aggs.map fun aggs => aggs.map fun _ dsl => dsl.intoCoreAggregation).getD ∅
  collapse := request.collapse.map CollapseOptions.mk

end

/-! ## Hits -/

/-- `serde_json::Number::from_f64`, as a value: JSON has no infinities and no NaNs. -/
def jsonNumber (x : F64) : JsonValue := if x.isFinite then .number (some x) else .null

mutual
/-- `field_value_to_json`. -/
def fieldValueToJson : FieldValue → JsonValue
  | .text s => .string s
  | .number x => jsonNumber x
  | .boolean b => .bool b
  | .array vs => .array (fieldValuesToJson vs)
/-- The values of an array. -/
def fieldValuesToJson : List FieldValue → List JsonValue
  | [] => []
  | v :: vs => fieldValueToJson v :: fieldValuesToJson vs
end

/-- `fields_to_value`. -/
def fieldsToValue (fields : ExtTreeMap String FieldValue) : JsonValue :=
  .object (fields.toList.map fun nv => (nv.1, fieldValueToJson nv.2))

/-- `Hit`, whose `highlight` is never set. -/
structure Hit where
  id : String
  score : F32
  source : JsonValue
  sort : List JsonValue

/-- The JSON of a sort value. -/
def sortValueToJson : SortValue → JsonValue
  | .number x => jsonNumber x
  | .text s => .string s

/-- `scored_doc_to_hit`. -/
def scoredDocToHit (scored : ScoredDocument) : Hit where
  id := scored.document.id.val
  score := scored.score
  source := fieldsToValue scored.document.fields
  sort := scored.sort.map sortValueToJson

/-- A sort value without infinities and NaNs. -/
def SortValue.Finite : SortValue → Prop
  | .number x => x.isFinite = true
  | .text _ => True

/-- **A cursor comes back as it was sent.** -/
theorem sortValueOf_send [JsonDisplay] [JsonWire] {v : SortValue} (h : SortValue.Finite v) :
    sortValueOf (JsonWire.send (sortValueToJson v)) = v := by
  cases v with
  | text s => rw [sortValueToJson, JsonWire.send_string, sortValueOf]
  | number x =>
      have hx : x.isFinite = true := h
      rw [sortValueToJson, jsonNumber, if_pos hx, JsonWire.send_number x hx, sortValueOf]
      rfl

end MSearchDB.Node
