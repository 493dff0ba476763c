import MSearchDB.Lib.Text
import MSearchDB.Index.Search

/-!
# The index of a node

`TantivyIndex` of `crates/index/src/tantivy_index.rs`, as far as a search over gRPC goes:
one index for all documents of the node. `search_sync` takes a limit, and `search` of the
trait `IndexBackend` always passes `DEFAULT_SEARCH_LIMIT`.

Full-text queries may ask for a fuzzy search with a tilde after a word; otherwise queries
are translated, and documents reconstructed, as `CollectionIndexManager` does it.
-/

set_option autoImplicit false

namespace MSearchDB.Index

open MSearchDB.Lib
open MSearchDB.Core

/-- `TantivyIndex`, without the writer and the indexes of the collections. -/
structure TantivyIndex where
  index : Schema
  reader : List TantivyDocument
  fieldMap : FieldMap

/-- `FuzzyParams`. -/
structure FuzzyParams where
  cleanQuery : String
  distance : Nat
  deriving DecidableEq, Repr

/-- A word with a tilde and an edit distance after it. -/
def fuzzyWord (word : List Char) : Option (List Char × Nat) :=
  (splitAtLast '~' word).bind fun (term, rest) =>
    (parseUnsigned 256 rest).bind fun d => if 1 ≤ d ∧ d ≤ 2 then some (term, d) else none

/-- `extract_fuzzy_params`. Its check for a tilde before the loop decides nothing. -/
def extractFuzzyParams (query : String) : Option FuzzyParams :=
  let words := splitWhitespace query.toList
  (words.findSome? fun word => (fuzzyWord word).map Prod.snd).map fun distance =>
    let parts := words.map fun word => ((fuzzyWord word).map Prod.fst).getD word
    ⟨" ".intercalate (parts.map String.ofList), distance⟩

example : extractFuzzyParams "Ruts~1 is~9 fast~2" = some ⟨"Ruts is~9 fast", 1⟩ := by decide

namespace TantivyIndex

section

variable [Searcher]

/-- `TantivyIndex::translate_full_text`. -/
def translateFullText (ix : TantivyIndex) (q : FullTextQuery) : DbResult TantivyQuery := do
  let field ← queryField ix.fieldMap q.field
  let conjunction := q.operator = .and
  let (fuzzy, text) := match extractFuzzyParams q.query with
    | some params => (some params.distance, params.cleanQuery)
    | none => (none, q.query)
  match Searcher.parseError ix.index field conjunction fuzzy text with
  | some e => .error (.indexError ("failed to parse full-text query: " ++ e))
  | none => .ok (.parsed field conjunction fuzzy text)

/-- `TantivyIndex::translate_query`. -/
def translateQuery (ix : TantivyIndex) : Query → DbResult TantivyQuery :=
  translateWith ix.fieldMap ix.translateFullText

/-- All documents that match a query, best first. -/
def matchingDocuments (ix : TantivyIndex) (query : Query) : DbResult (List ScoredDocument) := do
  let tantivyQuery ← ix.translateQuery query
  match Searcher.hits ix.index ix.reader tantivyQuery with
  | .error e => .error (.indexError ("search failed: " ++ e))
  | .ok hits => .ok (hits.map (scoredDocument ix.fieldMap))

/-- `TantivyIndex::search_sync`: the documents that `TopDocs::with_limit` collects. -/
def searchSync (ix : TantivyIndex) (query : Query) (limit : Nat) : DbResult SearchResult := do
  let tantivyQuery ← ix.translateQuery query
  match Searcher.hits ix.index ix.reader tantivyQuery with
  | .error e => .error (.indexError ("search failed: " ++ e))
  | .ok hits =>
      let documents := (hits.take limit).map (scoredDocument ix.fieldMap)
      .ok ⟨documents, documents.length, ∅⟩

/-- `IndexBackend::search`. -/
def search (ix : TantivyIndex) (query : Query) : DbResult SearchResult :=
  ix.searchSync query CollectionIndexManager.defaultSearchLimit

/-- **What a search returns**, in terms of all documents that match. -/
theorem searchSync_eq {ix : TantivyIndex} {query : Query} {docs : List ScoredDocument}
    (h : ix.matchingDocuments query = .ok docs) (limit : Nat) :
    ix.searchSync query limit = .ok ⟨docs.take limit, (docs.take limit).length, ∅⟩ := by
  unfold matchingDocuments at h
  unfold searchSync
  cases hquery : ix.translateQuery query with
  | error e => rw [hquery] at h; cases h
  | ok q =>
      rw [hquery] at h
      cases hhits : Searcher.hits ix.index ix.reader q with
      | error e => simp [bind, Except.bind, hhits] at h
      | ok hits =>
          simp only [bind, Except.bind, hhits, Except.ok.injEq] at h ⊢
          rw [← h, List.map_take]

end

/-- A node with documents that all have one word in their body. -/
def ofWords (n : Nat) : TantivyIndex :=
  ⟨initialSchema, CollectionIndexManager.wordDocs n, initialFieldMap⟩

theorem matchingDocuments_ofWords (n : Nat) :
    (ofWords n).matchingDocuments CollectionIndexManager.wordQuery =
      .ok (CollectionIndexManager.wordHits n) := by
  simp [matchingDocuments, ofWords, translateQuery, CollectionIndexManager.translateWith_wordQuery,
    CollectionIndexManager.hits_wordDocs, CollectionIndexManager.wordHits, bind, Except.bind]

end TantivyIndex

end MSearchDB.Index
