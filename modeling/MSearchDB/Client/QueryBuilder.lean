import MSearchDB.Node.QueryDecode

/-!
# The query builder of the Python client

The factories of `Q` in `crates/client/python/msearchdb/query_builder.py`, which make the
dictionaries that `MSearchDB.search` sends, and what the server makes of them.

The builder has shapes that the server does not know (`match_all`, `fuzzy`, `wildcard`, terms that
are no texts), which are refused with the whole request, and options that it does not read (`gt`,
`lt`, `minimum_should_match`, other operators), which are passed over. The reader also gives up at
a depth. `understood_iff` says that these are all: a query arrives with all that was given in its
place exactly when none of its parts is one of those and it is not too deep.
-/

set_option autoImplicit false

namespace MSearchDB.Client

open MSearchDB.Lib
open MSearchDB.Core
open MSearchDB.Node
open Std (ExtTreeMap)

/-! ## The factories -/

/-- A Python number. -/
inductive PyNumber where
  | int (n : Int)
  | float (x : F64)

/-- The number as JSON. -/
def PyNumber.toJson : PyNumber → Json F64
  | .int n => .int n
  | .float x => .float x

/-- The value of a term query. -/
inductive TermValue where
  | string (s : String)
  | number (n : PyNumber)
  | bool (b : Bool)

/-- The value as JSON. -/
def TermValue.toJson : TermValue → Json F64
  | .string s => .string s
  | .number n => n.toJson
  | .bool b => .bool b

namespace Q

/-- `Q.match`. -/
def «match» (field query operator : String) : Json F64 :=
  .object [("match", .object [(field, .object [("query", .string query), ("operator", .string operator)])])]

/-- `Q.match_all`. -/
def matchAll : Json F64 := .object [("match_all", .object [])]

/-- `Q.term`. -/
def term (field : String) (value : TermValue) : Json F64 := .object [("term", .object [(field, value.toJson)])]

/-- An entry of a dictionary that is there if the value is not `None`. -/
def entry (key : String) (value : Option PyNumber) : List (String × Json F64) :=
  (value.map fun n => (key, n.toJson)).toList

/-- `conditions` of `Q.range`. -/
def conditions (gte lte gt lt : Option PyNumber) : List (String × Json F64) :=
  entry "gte" gte ++ entry "lte" lte ++ entry "gt" gt ++ entry "lt" lt

/-- `Q.range`. -/
def range (field : String) (gte lte gt lt : Option PyNumber) : Json F64 :=
  .object [("range", .object [(field, .object (conditions gte lte gt lt))])]

/-- An entry that is there if the list is not empty. -/
def clauses (key : String) (queries : List (Json F64)) : List (String × Json F64) :=
  if queries.isEmpty then [] else [(key, .array queries)]

/-- `clause.setdefault("must", []).extend(filter)`. -/
def extendMust (filter : List (Json F64)) (clause : List (String × Json F64)) : List (String × Json F64) :=
  match clause with
  | ("must", .array must) :: rest => ("must", .array (must ++ filter)) :: rest
  | clause => clause ++ [("must", .array filter)]

/-- `clause` of `Q.bool`, without `minimum_should_match`. `None` and an empty list are the same. -/
def clause (must should mustNot filter : List (Json F64)) : List (String × Json F64) :=
  let clause := clauses "must" must ++ (clauses "should" should ++ clauses "must_not" mustNot)
  if filter.isEmpty then clause else extendMust filter clause

/-- The entry for `minimum_should_match`. -/
def minimum (minimumShouldMatch : Option Int) : List (String × Json F64) :=
  (minimumShouldMatch.map fun n => ("minimum_should_match", Json.int n)).toList

/-- `Q.bool`. -/
def bool (must should mustNot filter : List (Json F64)) (minimumShouldMatch : Option Int) : Json F64 :=
  .object [("bool", .object (clause must should mustNot filter ++ minimum minimumShouldMatch))]

/-- `Q.fuzzy`. -/
def fuzzy (field value : String) (fuzziness : Int) : Json F64 :=
  .object [("fuzzy", .object [(field, .object [("value", .string value), ("fuzziness", .int fuzziness)])])]

/-- `Q.phrase`. -/
def phrase (field text : String) : Json F64 :=
  .object [("match", .object [(field, .object [("query", .string text), ("operator", .string "and")])])]

/-- `Q.wildcard`. -/
def wildcard (field pattern : String) : Json F64 := .object [("wildcard", .object [(field, .string pattern)])]

end Q

/-- The body that `MSearchDB.search` sends for a query, without highlighting and sorting. -/
def searchBody (query : Option (Json F64)) (size : Int) (from_ : Option Int) : List (String × Json F64) :=
  [("query", query.getD Q.matchAll), ("size", .int size)] ++ (from_.map fun n => ("from", Json.int n)).toList

/-- An expression over the factories. -/
inductive PyQuery where
  | match (field query operator : String)
  | matchAll
  | term (field : String) (value : TermValue)
  | range (field : String) (gte lte gt lt : Option PyNumber)
  | bool (must should mustNot filter : List PyQuery) (minimumShouldMatch : Option Int)
  | fuzzy (field value : String) (fuzziness : Int)
  | phrase (field text : String)
  | wildcard (field pattern : String)

namespace PyQuery

/-- Induction over an expression, with a hypothesis for every clause. -/
@[elab_as_elim]
theorem induct {motive : PyQuery → Prop}
    (match' : ∀ field query operator, motive (.match field query operator))
    (matchAll : motive .matchAll)
    (term : ∀ field value, motive (.term field value))
    (range : ∀ field gte lte gt lt, motive (.range field gte lte gt lt))
    (bool : ∀ must should mustNot filter minimum, (∀ q ∈ must, motive q) → (∀ q ∈ should, motive q) →
      (∀ q ∈ mustNot, motive q) → (∀ q ∈ filter, motive q) → motive (.bool must should mustNot filter minimum))
    (fuzzy : ∀ field value fuzziness, motive (.fuzzy field value fuzziness))
    (phrase : ∀ field text, motive (.phrase field text))
    (wildcard : ∀ field pattern, motive (.wildcard field pattern)) : ∀ q, motive q
  | .match field query operator => match' field query operator
  | .matchAll => matchAll
  | .term field value => term field value
  | .range field gte lte gt lt => range field gte lte gt lt
  | .bool must should mustNot filter minimum =>
      bool must should mustNot filter minimum
        (fun q _ => induct match' matchAll term range bool fuzzy phrase wildcard q)
        (fun q _ => induct match' matchAll term range bool fuzzy phrase wildcard q)
        (fun q _ => induct match' matchAll term range bool fuzzy phrase wildcard q)
        (fun q _ => induct match' matchAll term range bool fuzzy phrase wildcard q)
  | .fuzzy field value fuzziness => fuzzy field value fuzziness
  | .phrase field text => phrase field text
  | .wildcard field pattern => wildcard field pattern

mutual
/-- The dictionary that the expression makes. -/
def toJson : PyQuery → Json F64
  | .match field query operator => Q.match field query operator
  | .matchAll => Q.matchAll
  | .term field value => Q.term field value
  | .range field gte lte gt lt => Q.range field gte lte gt lt
  | .bool must should mustNot filter minimum =>
      Q.bool (toJsons must) (toJsons should) (toJsons mustNot) (toJsons filter) minimum
  | .fuzzy field value fuzziness => Q.fuzzy field value fuzziness
  | .phrase field text => Q.phrase field text
  | .wildcard field pattern => Q.wildcard field pattern
/-- The dictionaries of a list. -/
def toJsons : List PyQuery → List (Json F64)
  | [] => []
  | q :: qs => toJson q :: toJsons qs
end

/-! ## What was given -/

/-- An operator that the server knows, in any case. -/
def operatorGiven (operator : String) : Option Operator :=
  if operator.toLower = "and" then some .and
  else if operator.toLower = "or" then some .or
  else none

section Given

variable [NumberReader]

/-- The `f64` that is read of a number. -/
def readNumber : PyNumber → Option F64
  | .int n => NumberReader.ofInt n
  | .float x => NumberReader.ofFloat x

/-- A bound as it is read: nothing if it is given and cannot be read. -/
def readBound : Option PyNumber → Option (Option F64)
  | none => some none
  | some n => (readNumber n).map some

mutual
/-- The query that has every clause, bound and option of the expression in its place, if there is
one. The clauses of `filter` are `must` clauses. -/
def given : PyQuery → Option Query
  | .match field query operator => (operatorGiven operator).map fun op => .fullText ⟨field, query, op⟩
  | .term field (.string value) => some (.term ⟨field, value⟩)
  | .range field gte lte none none => do
      let lower ← readBound gte
      let upper ← readBound lte
      some (.range ⟨field, lower, upper⟩)
  | .bool must should mustNot filter none => do
      let musts ← givens must
      let shoulds ← givens should
      let mustNots ← givens mustNot
      let filters ← givens filter
      some (.bool (musts ++ filters) shoulds mustNots)
  | .phrase field text => some (.fullText ⟨field, text, .and⟩)
  | _ => none
/-- The queries of a list. -/
def givens : List PyQuery → Option (List Query)
  | [] => some []
  | q :: qs => do
      let query ← given q
      let queries ← givens qs
      some (query :: queries)
end

/-- **The server has understood the query**: the request is accepted, and the query in it has
everything that was given in its place. -/
def Understood (q : PyQuery) (size : UInt64) (from_ : Option UInt64) : Prop :=
  ∃ request, decodeSearchRequest (searchBody (some q.toJson) size.toNat (from_.map fun n => (n.toNat : Int))) =
      .ok request ∧
    ∀ order, some (request.query.intoCoreQuery order) = q.given

mutual
/-- The expression and all expressions in it. -/
def parts : PyQuery → List PyQuery
  | .bool must should mustNot filter minimum =>
      .bool must should mustNot filter minimum :: (partsOf must ++ partsOf should ++ partsOf mustNot ++ partsOf filter)
  | q => [q]
/-- Those of a list. -/
def partsOf : List PyQuery → List PyQuery
  | [] => []
  | q :: qs => parts q ++ partsOf qs
end

/-- A shape that the server knows, with options that it reads. -/
def Supported : PyQuery → Prop
  | .match _ _ operator => operator.toLower = "and" ∨ operator.toLower = "or"
  | .matchAll => False
  | .term _ value => ∃ s, value = .string s
  | .range _ gte lte gt lt => gt = none ∧ lt = none ∧ (readBound gte).isSome ∧ (readBound lte).isSome
  | .bool _ _ _ _ minimum => minimum = none
  | .fuzzy _ _ _ => False
  | .phrase _ _ => True
  | .wildcard _ _ => False

mutual
/-- The objects and arrays that the dictionary is deep. -/
def depth : PyQuery → Nat
  | .match _ _ _ => 3
  | .matchAll => 2
  | .term _ _ => 2
  | .range _ _ _ _ _ => 3
  | .bool must should mustNot filter _ =>
      2 + max (max (depthOf must) (depthOf should)) (max (depthOf mustNot) (depthOf filter))
  | .fuzzy _ _ _ => 3
  | .phrase _ _ => 3
  | .wildcard _ _ => 2
/-- That of a list of clauses. -/
def depthOf : List PyQuery → Nat
  | [] => 0
  | q :: qs => max (depth q + 1) (depthOf qs)
end

/-! ## What the server reads -/

/-- A map with one entry. -/
def singleton {α : Type} (key : String) (value : α) : ExtTreeMap String α :=
  (∅ : ExtTreeMap String α).insert key value

mutual
/-- The query that the server reads of the dictionary, if it knows its shape and its numbers. -/
def dsl : PyQuery → Option QueryDsl
  | .match field query operator => some (.match (singleton field ⟨query, operator⟩))
  | .term field (.string value) => some (.term (singleton field value))
  | .range field gte lte _ _ => do
      let lower ← readBound gte
      let upper ← readBound lte
      some (.range (singleton field ⟨lower, upper⟩))
  | .bool must should mustNot filter _ => do
      let musts ← dsls must
      let shoulds ← dsls should
      let mustNots ← dsls mustNot
      let filters ← dsls filter
      some (.bool (musts ++ filters) shoulds mustNots)
  | .phrase field text => some (.match (singleton field ⟨text, "and"⟩))
  | _ => none
/-- The queries of a list. -/
def dsls : List PyQuery → Option (List QueryDsl)
  | [] => some []
  | q :: qs => do
      let query ← dsl q
      let queries ← dsls qs
      some (query :: queries)
end

omit [NumberReader] in
/-- An entry that is another key's is passed over. -/
theorem filter_entry (key name : String) (value : Option PyNumber) :
    (Q.entry key value).filter (fun m => m.1 = name) = if key = name then Q.entry key value else [] := by
  cases value with
  | none => simp [Q.entry]
  | some n =>
      by_cases hkey : key = name
      · simp [Q.entry, hkey]
      · simp [Q.entry, hkey]

/-- A bound is read of the one entry with its name. -/
theorem optionalF64_of_filter {name : String} {members : List (String × Json F64)} {value : Option PyNumber}
    (h : members.filter (fun m => m.1 = name) = Q.entry name value) :
    optionalF64 name members = (readBound value).elim (.error .numberOutOfRange) .ok := by
  unfold optionalF64 optionalField
  rw [h]
  cases value with
  | none => rfl
  | some n =>
      cases n with
      | int n => cases hn : NumberReader.ofInt n <;> simp [Q.entry, PyNumber.toJson, readBound, readNumber,
          decodeOptionF64, hn, bind, Except.bind]
      | float x => cases hx : NumberReader.ofFloat x <;> simp [Q.entry, PyNumber.toJson, readBound, readNumber,
          decodeOptionF64, hx, bind, Except.bind]

/-- The bounds that are read. -/
theorem decodeRangeField_conditions (r : Nat) (gte lte gt lt : Option PyNumber) (fields : RangeFieldQuery) :
    decodeRangeField r (.object (Q.conditions gte lte gt lt)) = .ok fields ↔
      (do let lower ← readBound gte
          let upper ← readBound lte
          some (RangeFieldQuery.mk lower upper)) = some fields ∧ 1 < r := by
  have hgte : optionalF64 "gte" (Q.conditions gte lte gt lt) =
      (readBound gte).elim (.error .numberOutOfRange) .ok :=
    optionalF64_of_filter (by simp [Q.conditions, List.filter_append, filter_entry])
  have hlte : optionalF64 "lte" (Q.conditions gte lte gt lt) =
      (readBound lte).elim (.error .numberOutOfRange) .ok :=
    optionalF64_of_filter (by simp [Q.conditions, List.filter_append, filter_entry])
  simp only [decodeRangeField, bind_eq_ok, enter_eq_ok, hgte, hlte]
  cases readBound gte with
  | none => simp
  | some lower =>
      cases readBound lte with
      | none => simp
      | some upper => simp [and_comm]

/-! ### The shapes without clauses -/

omit [NumberReader] in
/-- A map with one entry is read if the entry is, one level deeper. -/
theorem decodeMap_singleton {α : Type} {r : Nat} {decode : Nat → Json F64 → Decoded α} {field : String}
    {value : Json F64} {m : ExtTreeMap String α} :
    decodeMap r decode (.object [(field, value)]) = .ok m ↔
      1 < r ∧ ∃ a, decode (r - 1) value = .ok a ∧ singleton field a = m := by
  simp [decodeMap, decodeMembers, bind_eq_ok, map_eq_ok, enter_eq_ok, singleton, pure, Except.pure]

theorem decode_match (r : Nat) (field query operator : String) (d : QueryDsl) :
    decodeQueryDsl r (Q.match field query operator) = .ok d ↔
      QueryDsl.match (singleton field ⟨query, operator⟩) = d ∧ 3 < r := by
  have hr : 1 < r ∧ 1 < r - 1 ∧ 1 < r - 1 - 1 ↔ 3 < r := by omega
  simp [Q.match, decodeQueryDsl, bind_eq_ok, enter_eq_ok, decodeMap_singleton, decodeMatchField, requiredField,
    optionalField, decodeString, ← hr, and_comm, and_assoc, and_left_comm]

theorem decode_term (r : Nat) (field : String) (value : TermValue) (d : QueryDsl) :
    decodeQueryDsl r (Q.term field value) = .ok d ↔ (PyQuery.term field value).dsl = some d ∧ 2 < r := by
  have hr : 1 < r ∧ 1 < r - 1 ↔ 2 < r := by omega
  cases value with
  | string s => simp [Q.term, decodeQueryDsl, bind_eq_ok, enter_eq_ok, decodeMap_singleton, TermValue.toJson,
      decodeString, dsl, ← hr, and_comm, and_assoc]
  | number n => cases n <;> simp [Q.term, decodeQueryDsl, bind_eq_ok, decodeMap_singleton,
      TermValue.toJson, PyNumber.toJson, decodeString, dsl]
  | bool b => simp [Q.term, decodeQueryDsl, bind_eq_ok, decodeMap_singleton, TermValue.toJson,
      decodeString, dsl]

theorem decode_range (r : Nat) (field : String) (gte lte gt lt : Option PyNumber) (d : QueryDsl) :
    decodeQueryDsl r (Q.range field gte lte gt lt) = .ok d ↔
      (PyQuery.range field gte lte gt lt).dsl = some d ∧ 3 < r := by
  have hr : 1 < r ∧ 1 < r - 1 ∧ 1 < r - 1 - 1 ↔ 3 < r := by omega
  have hfields := fun r => decodeRangeField_conditions r gte lte gt lt
  simp only [dsl]
  cases hgte : readBound gte with
  | none =>
      simp [Q.range, decodeQueryDsl, bind_eq_ok, decodeMap_singleton, hfields, hgte]
  | some lower =>
      cases hlte : readBound lte with
      | none => simp [Q.range, decodeQueryDsl, bind_eq_ok, decodeMap_singleton, hfields, hgte, hlte]
      | some upper =>
          simp [Q.range, decodeQueryDsl, bind_eq_ok, enter_eq_ok, decodeMap_singleton, hfields, hgte, hlte, ← hr,
            and_comm, and_assoc, and_left_comm]

/-- A shape that the server does not know is refused. -/
theorem decode_unknown (r : Nat) (variant : String) (content : Json F64) (d : QueryDsl)
    (h : variant ∉ ["match", "term", "range", "bool"]) :
    ¬ decodeQueryDsl r (.object [(variant, content)]) = .ok d := by
  simp only [List.mem_cons, List.not_mem_nil, or_false, not_or] at h
  simp [decodeQueryDsl, bind_eq_ok, h]

/-! ### Clauses -/

/-- The queries of an entry that is there if it has any. -/
def readClauses (r : Nat) (vs : List (Json F64)) : Decoded (List QueryDsl) :=
  if vs.isEmpty then .ok [] else decodeQueries r (.array vs)

/-- The field of the struct that they are in. -/
def clausesField (vs : List (Json F64)) (queries : List QueryDsl) : Option (List QueryDsl) :=
  if vs.isEmpty then none else some queries

theorem clausesField_getD {r : Nat} {vs : List (Json F64)} {queries : List QueryDsl}
    (h : readClauses r vs = .ok queries) : (clausesField vs queries).getD [] = queries := by
  cases vs with
  | nil => simpa [readClauses, clausesField] using h
  | cons v vs => rfl

theorem decodeBoolMembers_must {r : Nat} {vs : List (Json F64)} {should mustNot : Option (List QueryDsl)}
    {rest : List (String × Json F64)} {d : QueryDsl} :
    decodeBoolMembers r none should mustNot (Q.clauses "must" vs ++ rest) = .ok d ↔
      ∃ queries, readClauses r vs = .ok queries ∧
        decodeBoolMembers r (clausesField vs queries) should mustNot rest = .ok d := by
  cases vs with
  | nil => simp [Q.clauses, readClauses, clausesField]
  | cons v vs => simp [Q.clauses, readClauses, clausesField, decodeBoolMembers, bind_eq_ok]

theorem decodeBoolMembers_should {r : Nat} {vs : List (Json F64)} {must mustNot : Option (List QueryDsl)}
    {rest : List (String × Json F64)} {d : QueryDsl} :
    decodeBoolMembers r must none mustNot (Q.clauses "should" vs ++ rest) = .ok d ↔
      ∃ queries, readClauses r vs = .ok queries ∧
        decodeBoolMembers r must (clausesField vs queries) mustNot rest = .ok d := by
  cases vs with
  | nil => simp [Q.clauses, readClauses, clausesField]
  | cons v vs => simp [Q.clauses, readClauses, clausesField, decodeBoolMembers, bind_eq_ok]

theorem decodeBoolMembers_mustNot {r : Nat} {vs : List (Json F64)} {must should : Option (List QueryDsl)}
    {rest : List (String × Json F64)} {d : QueryDsl} :
    decodeBoolMembers r must should none (Q.clauses "must_not" vs ++ rest) = .ok d ↔
      ∃ queries, readClauses r vs = .ok queries ∧
        decodeBoolMembers r must should (clausesField vs queries) rest = .ok d := by
  cases vs with
  | nil => simp [Q.clauses, readClauses, clausesField]
  | cons v vs => simp [Q.clauses, readClauses, clausesField, decodeBoolMembers, bind_eq_ok]

/-- `minimum_should_match` is passed over. -/
theorem decodeBoolMembers_minimum (r : Nat) (must should mustNot : Option (List QueryDsl)) (minimum : Option Int) :
    decodeBoolMembers r must should mustNot (Q.minimum minimum) =
      .ok (.bool (must.getD []) (should.getD []) (mustNot.getD [])) := by
  cases minimum with
  | none => simp [Q.minimum, decodeBoolMembers]
  | some n => simp [Q.minimum, decodeBoolMembers]

omit [NumberReader] in
/-- The entries of a `bool`: the filters extend the `must` entry where there is one, and make one at
the end where there is none. -/
theorem clause_eq (must should mustNot filter : List (Json F64)) :
    Q.clause must should mustNot filter =
      if must.isEmpty then
        Q.clauses "should" should ++ (Q.clauses "must_not" mustNot ++ Q.clauses "must" filter)
      else Q.clauses "must" (must ++ filter) ++ (Q.clauses "should" should ++ Q.clauses "must_not" mustNot) := by
  cases filter with
  | nil => cases must <;> simp [Q.clause, Q.clauses]
  | cons f fs =>
      cases must with
      | cons m ms => simp [Q.clause, Q.clauses, Q.extendMust]
      | nil =>
          -- the first entry, if there is one, is that of `should` or of `must_not`
          cases should with
          | cons s ss => simp [Q.clause, Q.clauses, Q.extendMust]
          | nil => cases mustNot <;> simp [Q.clause, Q.clauses, Q.extendMust]

/-- The members of a `bool` are read field by field; the filters are in `must`. -/
theorem decodeBoolMembers_clause (r : Nat) (must should mustNot filter : List (Json F64)) (minimum : Option Int)
    (d : QueryDsl) :
    decodeBoolMembers r none none none (Q.clause must should mustNot filter ++ Q.minimum minimum) = .ok d ↔
      ∃ musts shoulds mustNots, readClauses r (must ++ filter) = .ok musts ∧
        readClauses r should = .ok shoulds ∧ readClauses r mustNot = .ok mustNots ∧
        QueryDsl.bool musts shoulds mustNots = d := by
  rw [clause_eq]
  cases must with
  | nil =>
      simp only [List.isEmpty_nil, if_true, List.append_assoc, List.nil_append, decodeBoolMembers_should,
        decodeBoolMembers_mustNot, decodeBoolMembers_must, decodeBoolMembers_minimum, Except.ok.injEq]
      constructor
      · rintro ⟨shoulds, hs, mustNots, hn, musts, hm, rfl⟩
        refine ⟨musts, shoulds, mustNots, hm, hs, hn, ?_⟩
        rw [clausesField_getD hs, clausesField_getD hn, clausesField_getD hm]
      · rintro ⟨musts, shoulds, mustNots, hm, hs, hn, rfl⟩
        refine ⟨shoulds, hs, mustNots, hn, musts, hm, ?_⟩
        rw [clausesField_getD hs, clausesField_getD hn, clausesField_getD hm]
  | cons m ms =>
      simp only [List.isEmpty_cons, Bool.false_eq_true, if_false, List.append_assoc, decodeBoolMembers_should,
        decodeBoolMembers_mustNot, decodeBoolMembers_must, decodeBoolMembers_minimum, Except.ok.injEq]
      constructor
      · rintro ⟨musts, hm, shoulds, hs, mustNots, hn, rfl⟩
        refine ⟨musts, shoulds, mustNots, hm, hs, hn, ?_⟩
        rw [clausesField_getD hs, clausesField_getD hn, clausesField_getD hm]
      · rintro ⟨musts, shoulds, mustNots, hm, hs, hn, rfl⟩
        refine ⟨musts, hm, shoulds, hs, mustNots, hn, ?_⟩
        rw [clausesField_getD hs, clausesField_getD hn, clausesField_getD hm]

theorem decode_bool (r : Nat) (must should mustNot filter : List (Json F64)) (minimum : Option Int)
    (d : QueryDsl) :
    decodeQueryDsl r (Q.bool must should mustNot filter minimum) = .ok d ↔
      2 < r ∧ ∃ musts shoulds mustNots, readClauses (r - 2) (must ++ filter) = .ok musts ∧
        readClauses (r - 2) should = .ok shoulds ∧ readClauses (r - 2) mustNot = .ok mustNots ∧
        QueryDsl.bool musts shoulds mustNots = d := by
  have hr : 1 < r ∧ 1 < r - 1 ↔ 2 < r := by omega
  have hsub : r - 1 - 1 = r - 2 := by omega
  simp [Q.bool, decodeQueryDsl, decodeBool, bind_eq_ok, enter_eq_ok, decodeBoolMembers_clause, ← hr, hsub, and_assoc]

/-! ### Every query -/

omit [NumberReader] in
theorem toJsons_eq_map (qs : List PyQuery) : toJsons qs = qs.map toJson := by
  induction qs with
  | nil => rfl
  | cons q qs ih => simp [toJsons, ih]

theorem dsls_append (qs qs' : List PyQuery) :
    dsls (qs ++ qs') = (dsls qs).bind fun ds => (dsls qs').map fun ds' => ds ++ ds' := by
  induction qs with
  | nil => simp [dsls]
  | cons q qs ih =>
      cases hq : q.dsl with
      | none => simp [dsls, hq]
      | some d => cases hqs : dsls qs <;> cases hqs' : dsls qs' <;> simp_all [dsls]

omit [NumberReader] in
theorem depthOf_append (qs qs' : List PyQuery) : depthOf (qs ++ qs') = max (depthOf qs) (depthOf qs') := by
  induction qs with
  | nil => simp [depthOf]
  | cons q qs ih => simp [depthOf, ih, max_assoc]

omit [NumberReader] in
theorem depth_pos (q : PyQuery) : 0 < q.depth := by cases q <;> simp [depth]

/-- The queries of an array are read one by one. -/
theorem decodeQueryList_toJsons (r : Nat) (qs : List PyQuery)
    (ih : ∀ q ∈ qs, ∀ r d, decodeQueryDsl r q.toJson = .ok d ↔ q.dsl = some d ∧ q.depth < r) (ds : List QueryDsl) :
    decodeQueryList r (toJsons qs) = .ok ds ↔ dsls qs = some ds ∧ depthOf qs < r + 1 := by
  induction qs generalizing ds with
  | nil => simp [toJsons, decodeQueryList, dsls, depthOf]
  | cons q qs ihqs =>
      have hq := ih q List.mem_cons_self r
      have hqs := ihqs fun q hq => ih q (List.mem_cons_of_mem _ hq)
      simp only [toJsons, decodeQueryList, bind_eq_ok, hq, hqs, dsls, depthOf, Option.bind_eq_bind,
        Option.bind_eq_some_iff, Except.ok.injEq, Option.some.injEq]
      constructor
      · rintro ⟨d, ⟨hd, hdepth⟩, ds, ⟨hds, hdepths⟩, rfl⟩
        exact ⟨⟨d, hd, ds, hds, rfl⟩, by omega⟩
      · rintro ⟨⟨d, hd, ds, hds, rfl⟩, hdepth⟩
        exact ⟨d, ⟨hd, by omega⟩, ds, ⟨hds, by omega⟩, rfl⟩

theorem readClauses_toJsons (r : Nat) (hr : 0 < r) (qs : List PyQuery)
    (ih : ∀ q ∈ qs, ∀ r d, decodeQueryDsl r q.toJson = .ok d ↔ q.dsl = some d ∧ q.depth < r) (ds : List QueryDsl) :
    readClauses r (toJsons qs) = .ok ds ↔ dsls qs = some ds ∧ depthOf qs < r := by
  cases qs with
  | nil => simp [toJsons, readClauses, dsls, depthOf, hr]
  | cons q qs =>
      have hlist := decodeQueryList_toJsons (r - 1) (q :: qs) ih ds
      have hdepth : 1 < depthOf (q :: qs) := by
        have hpos := depth_pos q
        simp only [depthOf]
        omega
      have hread : readClauses r (toJsons (q :: qs)) = decodeQueries r (.array (toJsons (q :: qs))) := rfl
      rw [hread, decodeQueries, bind_eq_ok]
      simp only [enter_eq_ok]
      constructor
      · rintro ⟨_, ⟨hr, rfl⟩, h⟩
        obtain ⟨hds, hlt⟩ := hlist.1 h
        exact ⟨hds, by omega⟩
      · rintro ⟨hds, hlt⟩
        exact ⟨r - 1, ⟨by omega, rfl⟩, hlist.2 ⟨hds, by omega⟩⟩

theorem dsl_bool (must should mustNot filter : List PyQuery) (minimum : Option Int) (d : QueryDsl) :
    (PyQuery.bool must should mustNot filter minimum).dsl = some d ↔
      ∃ musts shoulds mustNots, dsls (must ++ filter) = some musts ∧ dsls should = some shoulds ∧
        dsls mustNot = some mustNots ∧ QueryDsl.bool musts shoulds mustNots = d := by
  simp only [dsl, dsls_append]
  cases dsls must <;> cases dsls should <;> cases dsls mustNot <;> cases dsls filter <;> simp

omit [NumberReader] in
theorem depth_bool_lt (must should mustNot filter : List PyQuery) (minimum : Option Int) (r : Nat) :
    (PyQuery.bool must should mustNot filter minimum).depth < r ↔
      2 < r ∧ depthOf (must ++ filter) < r - 2 ∧ depthOf should < r - 2 ∧ depthOf mustNot < r - 2 := by
  simp only [depth, depthOf_append]
  omega

/-- **What is read of a dictionary of the builder.** -/
theorem decode_toJson (q : PyQuery) :
    ∀ r d, decodeQueryDsl r q.toJson = .ok d ↔ q.dsl = some d ∧ q.depth < r := by
  induction q using PyQuery.induct with
  | match' field query operator =>
      intro r d
      simpa [toJson, dsl, depth] using decode_match r field query operator d
  | matchAll =>
      intro r d
      simpa [toJson, Q.matchAll, dsl] using decode_unknown r "match_all" (.object []) d (by decide)
  | term field value =>
      intro r d
      simpa [toJson, depth] using decode_term r field value d
  | range field gte lte gt lt =>
      intro r d
      simpa [toJson, depth] using decode_range r field gte lte gt lt d
  | bool must should mustNot filter minimum ihm ihs ihn ihf =>
      intro r d
      have ihmf : ∀ q ∈ must ++ filter, ∀ r d, decodeQueryDsl r q.toJson = .ok d ↔ q.dsl = some d ∧ q.depth < r :=
        fun q hq => (List.mem_append.1 hq).elim (ihm q) (ihf q)
      have happend : toJsons must ++ toJsons filter = toJsons (must ++ filter) := by
        simp only [toJsons_eq_map, List.map_append]
      rw [toJson, decode_bool, happend, dsl_bool, depth_bool_lt]
      constructor
      · rintro ⟨hr, musts, shoulds, mustNots, hm, hs, hn, rfl⟩
        rw [readClauses_toJsons _ (by omega) _ ihmf] at hm
        rw [readClauses_toJsons _ (by omega) _ ihs] at hs
        rw [readClauses_toJsons _ (by omega) _ ihn] at hn
        exact ⟨⟨musts, shoulds, mustNots, hm.1, hs.1, hn.1, rfl⟩, hr, hm.2, hs.2, hn.2⟩
      · rintro ⟨⟨musts, shoulds, mustNots, hm, hs, hn, rfl⟩, hr, hdm, hds, hdn⟩
        refine ⟨hr, musts, shoulds, mustNots, ?_, ?_, ?_, rfl⟩
        · exact (readClauses_toJsons _ (by omega) _ ihmf _).2 ⟨hm, hdm⟩
        · exact (readClauses_toJsons _ (by omega) _ ihs _).2 ⟨hs, hds⟩
        · exact (readClauses_toJsons _ (by omega) _ ihn _).2 ⟨hn, hdn⟩
  | fuzzy field value fuzziness =>
      intro r d
      simpa [toJson, Q.fuzzy, dsl] using decode_unknown r "fuzzy" _ d (by decide)
  | phrase field text =>
      intro r d
      have hphrase : Q.phrase field text = Q.match field text "and" := rfl
      simpa [toJson, hphrase, dsl, depth] using decode_match r field text "and" d
  | wildcard field pattern =>
      intro r d
      simpa [toJson, Q.wildcard, dsl] using decode_unknown r "wildcard" _ d (by decide)

/-- The body of a search is read if its query is, one level deeper. -/
theorem decodeSearchRequest_searchBody (query : Json F64) (size : UInt64) (from_ : Option UInt64)
    (request : SearchRequest) :
    decodeSearchRequest (searchBody (some query) size.toNat (from_.map fun n => (n.toNat : Int))) = .ok request ↔
      ∃ d, decodeQueryDsl 127 query = .ok d ∧ ⟨d, some size, from_, none, none, none, none⟩ = request := by
  have hdecode : ∀ n : UInt64, decodeOptionUsize (.int (n.toNat : Int)) = .ok (some n) := by
    intro n
    have hn : n.toNat < 18446744073709551616 := n.toNat_lt
    simp [decodeOptionUsize, hn]
  cases from_ with
  | none => simp [decodeSearchRequest, searchBody, recursionLimit, enter, requiredField, optionalField, hdecode,
      bind_eq_ok]
  | some n => simp [decodeSearchRequest, searchBody, recursionLimit, enter, requiredField, optionalField, hdecode,
      bind_eq_ok]

/-! ### What was given is what is read -/

omit [NumberReader] in
/-- A map with one entry is iterated in one order. -/
theorem singleton_iter {α : Type} (order : Index.HashOrder α) (key : String) (value : α) :
    order.iter (singleton key value) = [(key, value)] := by
  have hlength : (singleton key value).toList.length = 1 := by
    simp [singleton, ExtTreeMap.length_toList, ExtTreeMap.size_insert]
  have hmem : (key, value) ∈ (singleton key value).toList :=
    ExtTreeMap.mem_toList_iff_getElem?_eq_some.2 (by simp [singleton])
  obtain ⟨entry, hentry⟩ := List.length_eq_one_iff.1 hlength
  have hperm := order.perm (singleton key value)
  rw [hentry] at hperm hmem
  rw [List.perm_singleton.1 hperm, List.mem_singleton.1 hmem]

omit [NumberReader] in
theorem intoCoreQuery_match (order : DslOrder) (field query operator : String) :
    (QueryDsl.match (singleton field ⟨query, operator⟩)).intoCoreQuery order =
      .fullText ⟨field, query, operatorOf operator⟩ := by
  simp [QueryDsl.intoCoreQuery, singleton_iter]

omit [NumberReader] in
theorem operatorOf_eq {operator : String} {op : Operator} (h : operatorGiven operator = some op) :
    operatorOf operator = op := by
  unfold operatorGiven at h
  unfold operatorOf
  split at h
  · simp_all
  · split at h
    · simp_all
    · cases h

omit [NumberReader] in
theorem intoCoreQueries_append (order : DslOrder) (ds ds' : List QueryDsl) :
    QueryDsl.intoCoreQueries order (ds ++ ds') =
      QueryDsl.intoCoreQueries order ds ++ QueryDsl.intoCoreQueries order ds' := by
  induction ds with
  | nil => rfl
  | cons d ds ih => simp [QueryDsl.intoCoreQueries, ih]

/-- A query that has its place for everything is read, and read as it. -/
def ReadAsGiven (q : PyQuery) : Prop :=
  ∀ query, q.given = some query → ∃ d, q.dsl = some d ∧ ∀ order, d.intoCoreQuery order = query

theorem dsls_of_givens (qs : List PyQuery) (ih : ∀ q ∈ qs, ReadAsGiven q) :
    ∀ queries, givens qs = some queries →
      ∃ ds, dsls qs = some ds ∧ ∀ order, QueryDsl.intoCoreQueries order ds = queries := by
  induction qs with
  | nil => simp [givens, dsls, QueryDsl.intoCoreQueries]
  | cons q qs ihqs =>
      intro queries h
      simp only [givens, Option.bind_eq_bind, Option.bind_eq_some_iff, Option.some.injEq] at h
      obtain ⟨query, hq, queries, hqs, rfl⟩ := h
      obtain ⟨d, hd, hquery⟩ := ih q List.mem_cons_self query hq
      obtain ⟨ds, hds, hqueries⟩ := ihqs (fun q hq => ih q (List.mem_cons_of_mem _ hq)) queries hqs
      exact ⟨d :: ds, by simp [dsls, hd, hds], fun order => by simp [QueryDsl.intoCoreQueries, hquery, hqueries]⟩

theorem readAsGiven (q : PyQuery) : ReadAsGiven q := by
  induction q using PyQuery.induct with
  | match' field query operator =>
      intro core h
      obtain ⟨op, hop, rfl⟩ := Option.map_eq_some_iff.1 h
      exact ⟨_, rfl, fun order => by rw [intoCoreQuery_match, operatorOf_eq hop]⟩
  | matchAll => exact fun _ h => by simp [given] at h
  | term field value =>
      intro core h
      cases value with
      | string s =>
          simp only [given, Option.some.injEq] at h
          exact ⟨_, rfl, fun order => by simp [QueryDsl.intoCoreQuery, singleton_iter, h]⟩
      | number n => simp [given] at h
      | bool b => simp [given] at h
  | range field gte lte gt lt =>
      intro core h
      -- an open bound has no place in the query that is read
      cases gt with
      | some n => simp [given] at h
      | none =>
          cases lt with
          | some n => simp [given] at h
          | none =>
              simp only [given, Option.bind_eq_bind, Option.bind_eq_some_iff, Option.some.injEq] at h
              obtain ⟨lower, hlower, upper, hupper, rfl⟩ := h
              exact ⟨_, by simp [dsl, hlower, hupper]; rfl,
                fun order => by simp [QueryDsl.intoCoreQuery, singleton_iter]⟩
  | bool must should mustNot filter minimum ihm ihs ihn ihf =>
      intro core h
      cases minimum with
      | some n => simp [given] at h
      | none =>
          simp only [given, Option.bind_eq_bind, Option.bind_eq_some_iff, Option.some.injEq] at h
          obtain ⟨musts, hm, shoulds, hs, mustNots, hn, filters, hf, rfl⟩ := h
          obtain ⟨dm, hdm, hm'⟩ := dsls_of_givens must ihm musts hm
          obtain ⟨ds, hds, hs'⟩ := dsls_of_givens should ihs shoulds hs
          obtain ⟨dn, hdn, hn'⟩ := dsls_of_givens mustNot ihn mustNots hn
          obtain ⟨df, hdf, hf'⟩ := dsls_of_givens filter ihf filters hf
          -- the filters follow the must clauses
          refine ⟨.bool (dm ++ df) ds dn, by simp [dsl, hdm, hds, hdn, hdf], fun order => ?_⟩
          rw [QueryDsl.intoCoreQuery, intoCoreQueries_append, hm', hs', hn', hf']
  | fuzzy field value fuzziness => exact fun _ h => by simp [given] at h
  | phrase field text =>
      intro core h
      have hand : operatorOf "and" = .and := operatorOf_eq (by decide +kernel)
      simp only [given, Option.some.injEq] at h
      exact ⟨_, rfl, fun order => by rw [intoCoreQuery_match, hand, h]⟩
  | wildcard field pattern => exact fun _ h => by simp [given] at h

theorem givens_isSome_iff (qs : List PyQuery)
    (ih : ∀ q ∈ qs, (q.given.isSome ↔ ∀ p ∈ q.parts, p.Supported)) :
    (givens qs).isSome ↔ ∀ p ∈ partsOf qs, p.Supported := by
  induction qs with
  | nil => simp [givens, partsOf]
  | cons q qs ihqs =>
      have hq := ih q List.mem_cons_self
      have hqs := ihqs fun q hq => ih q (List.mem_cons_of_mem _ hq)
      simp only [partsOf, List.forall_mem_append, ← hq, ← hqs]
      cases hg : q.given <;> cases hgs : givens qs <;> simp [givens, hg, hgs]

/-- There is a place for everything in a query whose parts are all supported, and only then. -/
theorem given_isSome_iff (q : PyQuery) : q.given.isSome ↔ ∀ p ∈ q.parts, p.Supported := by
  induction q using PyQuery.induct with
  | match' field query operator =>
      simp only [given, Option.isSome_map, operatorGiven, parts, List.forall_mem_singleton, Supported]
      split
      · simp_all
      · split <;> simp_all
  | matchAll => simp [given, parts, Supported]
  | term field value => cases value <;> simp [given, parts, Supported]
  | range field gte lte gt lt =>
      cases gt <;> cases lt <;> cases hgte : readBound gte <;> cases hlte : readBound lte <;>
        simp [given, parts, Supported, hgte, hlte]
  | bool must should mustNot filter minimum ihm ihs ihn ihf =>
      have hm := givens_isSome_iff must ihm
      have hs := givens_isSome_iff should ihs
      have hn := givens_isSome_iff mustNot ihn
      have hf := givens_isSome_iff filter ihf
      have hbool : (PyQuery.bool must should mustNot filter minimum).Supported ↔ minimum = none := Iff.rfl
      simp only [parts, List.forall_mem_cons, List.forall_mem_append, hbool, ← hm, ← hs, ← hn, ← hf]
      cases minimum <;> cases hm : givens must <;> cases hs : givens should <;> cases hn : givens mustNot <;>
        cases hf : givens filter <;> simp [given, hm, hs, hn, hf]
  | fuzzy field value fuzziness => simp [given, parts, Supported]
  | phrase field text => simp [given, parts, Supported]
  | wildcard field pattern => simp [given, parts, Supported]

/-- **When a query of the builder is understood**: exactly when each of its parts is a shape that
the server knows, with options that it reads, and the dictionary is not too deep to be read. -/
theorem understood_iff (q : PyQuery) (size : UInt64) (from_ : Option UInt64) :
    q.Understood size from_ ↔ (∀ p ∈ q.parts, p.Supported) ∧ q.depth < 127 := by
  unfold Understood
  simp only [decodeSearchRequest_searchBody, decode_toJson]
  constructor
  · rintro ⟨request, ⟨d, ⟨hd, hdepth⟩, rfl⟩, hgiven⟩
    refine ⟨(given_isSome_iff q).1 ?_, hdepth⟩
    rw [← hgiven ⟨Index.keyOrder _, Index.keyOrder _, Index.keyOrder _⟩]
    rfl
  · rintro ⟨hparts, hdepth⟩
    obtain ⟨query, hquery⟩ := Option.isSome_iff_exists.1 ((given_isSome_iff q).2 hparts)
    obtain ⟨d, hd, hcore⟩ := readAsGiven q query hquery
    exact ⟨_, ⟨d, ⟨hd, hdepth⟩, rfl⟩, fun order => by rw [hcore, hquery]⟩

end Given

/-- A number that is finite. -/
def finiteNumber (x : F64) : Option F64 := if x.isFinite then some x else none

/-- A reader that rounds to the nearest number. -/
@[reducible] def nearestNumbers : NumberReader where
  ofInt n := finiteNumber (F64.ofMagnitude (n < 0) (F64.ofRatio n.natAbs 1))
  ofFloat := finiteNumber

/-- A query for prices over ten: the bound is passed over, and what is searched for is any price.
And a query for everything is refused. -/
theorem not_understood_gt :
    (∃ request, @decodeSearchRequest nearestNumbers (searchBody (some (Q.range "price" none none (some (.int 10)) none))
          10 none) = .ok request ∧
        ∀ order, request.query.intoCoreQuery order = .range ⟨"price", none, none⟩) ∧
      ¬ @Understood nearestNumbers (.range "price" none none (some (.int 10)) none) 10 none ∧
      ¬ @Understood nearestNumbers .matchAll 10 none := by
  let _ := nearestNumbers
  refine ⟨?_, ?_, ?_⟩
  · have hread := decode_toJson (.range "price" none none (some (.int 10)) none) 127
    refine ⟨_, (decodeSearchRequest_searchBody _ 10 none _).2 ⟨_, (hread _).2 ⟨rfl, by decide⟩, rfl⟩, ?_⟩
    intro order
    simp [QueryDsl.intoCoreQuery, singleton_iter]
  · rintro ⟨request, -, hgiven⟩
    have hnone := hgiven ⟨Index.keyOrder _, Index.keyOrder _, Index.keyOrder _⟩
    simp [given] at hnone
  · rintro ⟨request, hrequest, -⟩
    obtain ⟨d, hd, -⟩ := (decodeSearchRequest_searchBody _ 10 none _).1 hrequest
    have hnone := ((decode_toJson _ 127 _).1 hd).1
    simp [dsl] at hnone

end PyQuery

end MSearchDB.Client
