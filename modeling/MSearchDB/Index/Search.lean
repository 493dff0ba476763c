import MSearchDB.Core.Aggregation
import MSearchDB.Index.CollectionIndex

/-!
# Searching a collection

`translate_query`, `search` and `search_with_options` of
`crates/index/src/collection_index.rs`. The query parser of Tantivy and the search of an
index are parameters (`Searcher`): a search yields all hits, best first, and
`TopDocs::with_limit(n)` keeps the first `n` of them.

`search_with_options` fetches `fetchLimit` hits, a number that grows with the page asked
for, and counts, aggregates and sorts what it fetched.
-/

set_option autoImplicit false

namespace MSearchDB.Index

open MSearchDB.Lib
open MSearchDB.Core
open Std (ExtTreeMap)

/-! ## Queries -/

/-- `tantivy::query::Occur`. -/
inductive Occur where
  | must
  | should
  | mustNot
  deriving DecidableEq, Repr

/-- `tantivy::query::Query`, the kinds that are used. What the query parser returns is
given by what it was asked. -/
inductive TantivyQuery where
  | parsed (field : Field) (conjunction : Bool) (fuzzy : Option Nat) (text : String)
  | term (field : Field) (text : String)
  | range (field : String) (lower upper : Option F64)
  | all
  | boolean (clauses : List (Occur × TantivyQuery))
  deriving Repr

/-- The query parser and the searcher of Tantivy. -/
class Searcher where
  /-- `QueryParser::parse_query` for one default field, with a conjunction or a fuzzy field
  where they are set: the error, if there is one. -/
  parseError : Schema → Field → Bool → Option Nat → String → Option String
  /-- `Searcher::search`: the hits of a query with their scores, best first. -/
  hits : Schema → List TantivyDocument → TantivyQuery → Except String (List (F32 × TantivyDocument))

/-- The handle of a field in a query. -/
def queryField (fieldMap : FieldMap) (field : String) : DbResult Field :=
  match fieldMap[field]? with
  | some f => .ok f
  | none => .error (.invalidInput ("field '" ++ field ++ "' not in schema"))

section

variable [Searcher]

/-- `translate_full_text`. -/
def translateFullText (index : Schema) (fieldMap : FieldMap) (q : FullTextQuery) :
    DbResult TantivyQuery := do
  let field ← queryField fieldMap q.field
  let conjunction := q.operator = .and
  match Searcher.parseError index field conjunction none q.query with
  | some e => .error (.indexError ("parse query: " ++ e))
  | none => .ok (.parsed field conjunction none q.query)

omit [Searcher] in
/-- `translate_term`. -/
def translateTerm (fieldMap : FieldMap) (q : TermQuery) : DbResult TantivyQuery := do
  let field ← queryField fieldMap q.field
  .ok (.term field q.value)

omit [Searcher] in
/-- `translate_range`. -/
def translateRange (fieldMap : FieldMap) (q : RangeQuery) : DbResult TantivyQuery := do
  let _ ← queryField fieldMap q.field
  .ok (.range q.field q.gte q.lte)

mutual

/-- `translate_query` with `translate_bool`, over a translation of full-text queries. -/
def translateWith (fieldMap : FieldMap) (fullText : FullTextQuery → DbResult TantivyQuery) :
    Query → DbResult TantivyQuery
  | .fullText q => fullText q
  | .term q => translateTerm fieldMap q
  | .range q => translateRange fieldMap q
  | .bool must should mustNot => do
      let musts ← translateClauses fieldMap fullText .must must
      let shoulds ← translateClauses fieldMap fullText .should should
      let mustNots ← translateClauses fieldMap fullText .mustNot mustNot
      let everything :=
        if must.isEmpty && should.isEmpty && !mustNot.isEmpty then [(Occur.must, TantivyQuery.all)]
        else []
      .ok (.boolean (musts ++ shoulds ++ mustNots ++ everything))

/-- A loop of `translate_bool`. -/
def translateClauses (fieldMap : FieldMap) (fullText : FullTextQuery → DbResult TantivyQuery)
    (occur : Occur) : List Query → DbResult (List (Occur × TantivyQuery))
  | [] => .ok []
  | q :: qs => do
      let clause ← translateWith fieldMap fullText q
      let clauses ← translateClauses fieldMap fullText occur qs
      .ok ((occur, clause) :: clauses)

end

/-- `CollectionIndexManager::translate_query`. -/
def translateQuery (index : Schema) (fieldMap : FieldMap) : Query → DbResult TantivyQuery :=
  translateWith fieldMap (translateFullText index fieldMap)

/-! ## Searches -/

/-- A hit as `search` returns it. -/
def scoredDocument (fieldMap : FieldMap) (hit : F32 × TantivyDocument) : ScoredDocument :=
  ⟨reconstructDocument hit.2 fieldMap, hit.1, []⟩

omit [Searcher] in
/-- The cursor of the options. -/
def cutDocuments (options : SearchOptions) (docs : List ScoredDocument) : List ScoredDocument :=
  match options.searchAfter with
  | some cursor => applySearchAfter docs cursor options.sort
  | none => docs

omit [Searcher] in
/-- The collapse of the options. -/
def collapseDocuments (options : SearchOptions) (docs : List ScoredDocument) : List ScoredDocument :=
  match options.collapse with
  | some collapse => applyCollapse docs collapse
  | none => docs

omit [Searcher] in
/-- The order of a result list: `apply_sort`, `apply_search_after` and `apply_collapse`. -/
def orderDocuments (options : SearchOptions) (docs : List ScoredDocument) : List ScoredDocument :=
  collapseDocuments options (cutDocuments options (applySort docs options.sort))

omit [Searcher] in
/-- The page of a result list: `skip(from)` and `take(size)`. -/
def pageOf (options : SearchOptions) (docs : List ScoredDocument) : List ScoredDocument :=
  (docs.drop options.from'.toNat).take options.size.toNat

namespace CollectionIndexManager

omit [Searcher] in
/-- The number of hits that `search_with_options` fetches. The sum is one of machine
integers. -/
def fetchLimit (options : SearchOptions) : Nat :=
  max (options.from' + options.size + 1000).toNat (defaultSearchLimit * 100)

/-- What the searches share: the hits of a query, best first, and the field map of the
collection. -/
def queryHits (m : CollectionIndexManager) (collection : String) (query : Query) :
    DbResult (FieldMap × List (F32 × TantivyDocument)) :=
  if m.poisoned then .error lockPoisoned
  else
    match m.collections[collection]? with
    | none => .error (indexNotFound collection)
    | some col => do
        let tantivyQuery ← translateQuery col.index col.fieldMap query
        match Searcher.hits col.index col.reader tantivyQuery with
        | .error e => .error (.indexError ("search failed: " ++ e))
        | .ok hits => .ok (col.fieldMap, hits)

/-- The documents that `TopDocs::with_limit` collects. -/
def topDocs (m : CollectionIndexManager) (collection : String) (query : Query) (limit : Nat) :
    DbResult (List ScoredDocument) := do
  let (fieldMap, hits) ← m.queryHits collection query
  .ok ((hits.take limit).map (scoredDocument fieldMap))

/-- All documents that match a query, best first. -/
def matchingDocuments (m : CollectionIndexManager) (collection : String) (query : Query) :
    DbResult (List ScoredDocument) := do
  let (fieldMap, hits) ← m.queryHits collection query
  .ok (hits.map (scoredDocument fieldMap))

/-- `CollectionIndexManager::search`. -/
def search (m : CollectionIndexManager) (collection : String) (query : Query) : DbResult SearchResult := do
  let documents ← m.topDocs collection query defaultSearchLimit
  .ok ⟨documents, documents.length, ∅⟩

/-- `CollectionIndexManager::search_with_options`. -/
def searchWithOptions (m : CollectionIndexManager) (collection : String) (query : Query)
    (options : SearchOptions) : DbResult SearchResult := do
  let documents ← m.topDocs collection query (fetchLimit options)
  let aggregations :=
    if options.aggregations.isEmpty then ∅ else computeAggregations documents options.aggregations
  .ok ⟨pageOf options (orderDocuments options documents), documents.length, aggregations⟩

variable {m : CollectionIndexManager} {collection : String} {query : Query} {options : SearchOptions}
  {docs : List ScoredDocument}

theorem topDocs_eq (h : m.matchingDocuments collection query = .ok docs) (limit : Nat) :
    m.topDocs collection query limit = .ok (docs.take limit) := by
  unfold matchingDocuments at h
  unfold topDocs
  cases hhits : m.queryHits collection query with
  | error e => rw [hhits] at h; cases h
  | ok found =>
      rw [hhits] at h
      cases h
      simp [bind, Except.bind, List.map_take]

/-- The documents found have no sort values yet. -/
theorem sort_of_mem_matchingDocuments (h : m.matchingDocuments collection query = .ok docs)
    {doc : ScoredDocument} (hdoc : doc ∈ docs) : doc.sort = [] := by
  unfold matchingDocuments at h
  cases hhits : m.queryHits collection query with
  | error e => rw [hhits] at h; cases h
  | ok found =>
      rw [hhits] at h
      cases h
      obtain ⟨hit, -, rfl⟩ := List.mem_map.1 hdoc
      rfl

/-- **What a search returns**, in terms of all documents that match. -/
theorem searchWithOptions_eq (h : m.matchingDocuments collection query = .ok docs) :
    m.searchWithOptions collection query options = .ok
      ⟨pageOf options (orderDocuments options (docs.take (fetchLimit options))),
        (docs.take (fetchLimit options)).length,
        if options.aggregations.isEmpty then ∅
        else computeAggregations (docs.take (fetchLimit options)) options.aggregations⟩ := by
  unfold searchWithOptions
  rw [topDocs_eq h]
  rfl

/-! ## Pages of one search -/

/-- Two pages of one search agree: both count all documents that match, aggregate the
same and are slices of one ordered list, that of the documents that match. -/
def PagesAgree (m : CollectionIndexManager) (collection : String) (query : Query)
    (options options' : SearchOptions) : Prop :=
  ∀ docs, m.matchingDocuments collection query = .ok docs →
    ∃ result result', m.searchWithOptions collection query options = .ok result ∧
      m.searchWithOptions collection query options' = .ok result' ∧
      result.total = docs.length ∧ result'.total = docs.length ∧
      result.aggregations = result'.aggregations ∧
      result.documents = pageOf options (orderDocuments options docs) ∧
      result'.documents = pageOf options' (orderDocuments options docs)

/-- **Paging counts what was fetched.** Two pages of one search agree exactly when the
documents that match are no more than the number fetched for either page. -/
theorem pages_agree_iff (m : CollectionIndexManager) (collection : String) (query : Query)
    (options : SearchOptions) (from₁ size₁ from₂ size₂ : UInt64) :
    let first := { options with from' := from₁, size := size₁ }
    let second := { options with from' := from₂, size := size₂ }
    m.PagesAgree collection query first second ↔
      ∀ docs, m.matchingDocuments collection query = .ok docs →
        docs.length ≤ fetchLimit first ∧ docs.length ≤ fetchLimit second := by
  intro first second
  constructor
  · intro hagree docs hdocs
    obtain ⟨result, result', hfirst, hsecond, htotal, htotal', -⟩ := hagree docs hdocs
    rw [searchWithOptions_eq hdocs, Except.ok.injEq] at hfirst hsecond
    rw [← hfirst] at htotal
    rw [← hsecond] at htotal'
    simp only [List.length_take] at htotal htotal'
    omega
  · intro hfetch docs hdocs
    obtain ⟨hfirst, hsecond⟩ := hfetch docs hdocs
    refine ⟨_, _, searchWithOptions_eq hdocs, searchWithOptions_eq hdocs, ?_, ?_, ?_, ?_, ?_⟩
    · rw [List.take_of_length_le hfirst]
    · rw [List.take_of_length_le hsecond]
    · rw [List.take_of_length_le hfirst, List.take_of_length_le hsecond]
    · rw [List.take_of_length_le hfirst]
    · -- the sort, the cursor and the collapse are those of the first page
      rw [List.take_of_length_le hsecond]
      rfl

end CollectionIndexManager

end

namespace CollectionIndexManager

/-- A search for the documents with a word: every hit scores the same. -/
instance wordSearcher : Searcher where
  parseError _ _ _ _ _ := none
  hits _ docs query :=
    match query with
    | .term field text =>
        .ok ((docs.filter fun doc => doc.values.any fun v => v = (field, .str text)).map fun doc =>
          (⟨0x3f800000⟩, doc))
    | _ => .ok []

/-- Documents that all have one word in their body. -/
def wordDocs (n : Nat) : List TantivyDocument :=
  (List.range n).map fun i => ⟨[(0, .str (toString i)), (3, .str "rust")]⟩

/-- A collection of them. -/
def wordCollection (n : Nat) : CollectionIndex :=
  ⟨initialSchema, ⟨wordDocs n, false⟩, wordDocs n, initialSchema, initialFieldMap⟩

/-- The options without sort clauses, cursor, aggregations or collapse. -/
def plainOptions (from' size : UInt64) : SearchOptions := ⟨size, from', [], none, ∅, none⟩

/-- The query for the word. -/
def wordQuery : Query := .term ⟨"_body", "rust"⟩

/-- The documents that it finds. -/
def wordHits (n : Nat) : List ScoredDocument :=
  (wordDocs n).map fun doc => scoredDocument initialFieldMap (⟨0x3f800000⟩, doc)

theorem length_wordHits (n : Nat) : (wordHits n).length = n := by simp [wordHits, wordDocs]

theorem translateWith_wordQuery (fullText : FullTextQuery → DbResult TantivyQuery) :
    translateWith initialFieldMap fullText wordQuery = .ok (.term 3 "rust") := by
  simp [wordQuery, translateWith, translateTerm, queryField, initialFieldMap, bind, Except.bind]

theorem hits_wordDocs (n : Nat) :
    Searcher.hits initialSchema (wordDocs n) (.term 3 "rust") =
      .ok ((wordDocs n).map fun doc => (⟨0x3f800000⟩, doc)) := by
  have hall : (wordDocs n).filter (fun doc => doc.values.any fun v => v = (3, .str "rust")) = wordDocs n := by
    simp [wordDocs]
  exact congrArg (fun docs : List TantivyDocument => Except.ok (docs.map fun doc => (F32.mk 0x3f800000, doc))) hall

theorem matchingDocuments_wordCollection {m : CollectionIndexManager} {collection : String} {n : Nat}
    (hpoisoned : m.poisoned = false) (hcol : m.collections[collection]? = some (wordCollection n)) :
    m.matchingDocuments collection wordQuery = .ok (wordHits n) := by
  simp [matchingDocuments, queryHits, hpoisoned, hcol, wordCollection, translateQuery,
    translateWith_wordQuery, hits_wordDocs, wordHits, bind, Except.bind]

/-- The index of one collection with 1001 documents. -/
def thousandAndOne : CollectionIndexManager :=
  { newInRam with collections := (∅ : ExtTreeMap String CollectionIndex).insert "books" (wordCollection 1001) }

/-- An empty first page counts 1000 documents of 1001. -/
theorem thousandAndOne_pages_disagree :
    ¬ thousandAndOne.PagesAgree "books" wordQuery (plainOptions 0 0) (plainOptions 0 10) := by
  intro hagree
  have hdocs : thousandAndOne.matchingDocuments "books" wordQuery = .ok (wordHits 1001) :=
    matchingDocuments_wordCollection rfl (by simp [thousandAndOne])
  obtain ⟨result, -, hfirst, -, htotal, -⟩ := hagree _ hdocs
  rw [searchWithOptions_eq hdocs, Except.ok.injEq] at hfirst
  have hlimit : fetchLimit (plainOptions 0 0) = 1000 := by decide
  rw [← hfirst, hlimit] at htotal
  simp [length_wordHits] at htotal

end CollectionIndexManager

end MSearchDB.Index
