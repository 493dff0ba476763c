import MSearchDB.Client.Request
import MSearchDB.Core.ReadCoordinator
import MSearchDB.Node.FanOutSearch
import MSearchDB.Node.SearchRequest

/-!
# The two search endpoints

`search_documents` and `simple_search` of `crates/node/src/handlers/search.rs`. The second reads
its query from the URL and searches without options; the first would be sent the same query as a
`match` on `_body`. Both fan out over the targets of an alias.

The two give the same hits (`simple_search_agrees`). They differ in what they count: a search
without options fetches ten documents of a target, one with the default options more than a
thousand, and the total of a response is the number of documents fetched. The `size` of the URL
is read by neither.
-/

set_option autoImplicit false

namespace MSearchDB.Node

open MSearchDB.Lib
open MSearchDB.Core
open MSearchDB.Index
open MSearchDB.Client
open Std (ExtTreeMap)

/-- `SearchResponse`, with the consistency that the handlers add and without the time it took. -/
structure SearchResponse where
  total : Nat
  hits : List Hit
  aggregations : ExtTreeMap String AggregationResult
  consistency : String

/-- `SimpleSearchParams`. -/
structure SimpleSearchParams where
  q : String
  size : UInt64 := 10
  consistency : Option String := none

/-- What both handlers make of the outcome of their search: `SearchResponse::from_search_result`, or the
response of the error. -/
def searchResponse (consistency : Option String) : DbResult SearchResult → Except Response SearchResponse
  | .ok result =>
      let level := (consistency.map ConsistencyLevel.fromStrParam).getD .quorum
      .ok ⟨result.total, result.documents.map scoredDocToHit, result.aggregations, level.toString⟩
  | .error e => .error ⟨(dbErrorToResponse e).1, (dbErrorToResponse e).2⟩

section

variable [Searcher]

/-- `search_documents`. -/
def searchDocuments [JsonDisplay] (order : DslOrder) (registries : Registries) (index : CollectionIndexManager)
    (collection : String) (consistency : Option String) (body : SearchRequest) : Except Response SearchResponse :=
  match resolveSearchTargets registries collection with
  | .error e => .error ⟨e.status, e.reason⟩
  | .ok targets =>
      searchResponse consistency
        (fanOutSearch index targets (body.query.intoCoreQuery order) (some body.toSearchOptions))

/-- The query of a text of the URL. -/
def bodyQuery (q : String) : Query := .fullText ⟨"_body", q, .or⟩

/-- `simple_search`. -/
def simpleSearch (registries : Registries) (index : CollectionIndexManager) (collection : String)
    (params : SimpleSearchParams) : Except Response SearchResponse :=
  match resolveSearchTargets registries collection with
  | .error e => .error ⟨e.status, e.reason⟩
  | .ok targets => searchResponse params.consistency (fanOutSearch index targets (bodyQuery params.q) none)

end

/-- The request with the same query: a `match` on `_body` without any option. -/
def bodyRequest (q : String) : SearchRequest where
  query := .match ((∅ : ExtTreeMap String MatchFieldQuery).insert "_body" ⟨q, "or"⟩)
  size := some 10
  from' := none
  sort := none
  aggs := none
  searchAfter := none
  collapse := none

/-! ## The query and the options -/

/-- A map of one field has one order. -/
theorem intoCoreQuery_bodyRequest (order : DslOrder) (q : String) :
    (bodyRequest q).query.intoCoreQuery order = bodyQuery q := by
  have hlist : ((∅ : ExtTreeMap String MatchFieldQuery).insert "_body" ⟨q, "or"⟩).toList = [("_body", ⟨q, "or"⟩)] := by
    rfl
  have hiter : order.matchFields.iter ((∅ : ExtTreeMap String MatchFieldQuery).insert "_body" ⟨q, "or"⟩) =
      [("_body", ⟨q, "or"⟩)] := by
    have hperm := order.matchFields.perm ((∅ : ExtTreeMap String MatchFieldQuery).insert "_body" ⟨q, "or"⟩)
    rw [hlist] at hperm
    exact List.perm_singleton.1 hperm
  have hoperator : operatorOf "or" = .or := by decide +kernel
  rw [bodyRequest, QueryDsl.intoCoreQuery, hiter, bodyQuery]
  simp only [List.headD_cons, hoperator]

theorem toSearchOptions_bodyRequest [JsonDisplay] (q : String) :
    (bodyRequest q).toSearchOptions = CollectionIndexManager.plainOptions 0 10 := rfl

/-! ## One target -/

section Targets

variable [Searcher] {index : CollectionIndexManager} {query : Query}

/-- The hits of a list come best first. -/
def BestFirst (docs : List ScoredDocument) : Prop := docs.Pairwise fun a b => (compareByScore a b).isLE = true

theorem matchingDocuments_error {target : String} {e : DbError} (h : index.matchingDocuments target query = .error e)
    (limit : Nat) : index.topDocs target query limit = .error e := by
  unfold CollectionIndexManager.matchingDocuments at h
  unfold CollectionIndexManager.topDocs
  cases hhits : index.queryHits target query with
  | error e' =>
      rw [hhits] at h
      cases h
      rfl
  | ok found =>
      rw [hhits] at h
      cases h

omit [Searcher] in
/-- The page of ten of a list that comes best first is its first ten. -/
theorem pageOf_plainOptions {docs : List ScoredDocument} (h : BestFirst docs) :
    pageOf (CollectionIndexManager.plainOptions 0 10)
        (orderDocuments (CollectionIndexManager.plainOptions 0 10) (docs.take 1010)) = docs.take 10 := by
  have hsorted : (docs.take 1010).Pairwise fun a b => (compareByScore a b).isLE = true :=
    h.sublist (List.take_sublist 1010 docs)
  have horder : orderDocuments (CollectionIndexManager.plainOptions 0 10) (docs.take 1010) = docs.take 1010 :=
    sortBy_of_pairwise hsorted
  rw [horder]
  show ((docs.take 1010).drop 0).take 10 = docs.take 10
  rw [List.drop_zero, List.take_take]
  rfl

/-- Both searches of a target fail, or both find its first ten documents and count differently. -/
theorem searchTarget_cases (target : String)
    (hbest : ∀ docs, index.matchingDocuments target query = .ok docs → BestFirst docs) :
    (∃ e, index.matchingDocuments target query = .error e ∧ searchTarget index query target none = .error e ∧
        searchTarget index query target (some (CollectionIndexManager.plainOptions 0 10)) = .error e) ∨
      ∃ docs, index.matchingDocuments target query = .ok docs ∧
        searchTarget index query target none = .ok ⟨docs.take 10, min 10 docs.length, ∅⟩ ∧
        searchTarget index query target (some (CollectionIndexManager.plainOptions 0 10)) =
          .ok ⟨docs.take 10, min 1010 docs.length, ∅⟩ := by
  cases hdocs : index.matchingDocuments target query with
  | error e =>
      left
      refine ⟨e, rfl, ?_, ?_⟩
      · rw [searchTarget, CollectionIndexManager.search, matchingDocuments_error hdocs]
        rfl
      · rw [searchTarget, CollectionIndexManager.searchWithOptions, matchingDocuments_error hdocs]
        rfl
  | ok docs =>
      right
      refine ⟨docs, rfl, ?_, ?_⟩
      · rw [searchTarget, CollectionIndexManager.search, CollectionIndexManager.topDocs_eq hdocs]
        show Except.ok (SearchResult.mk (docs.take 10) (docs.take 10).length ∅) = _
        rw [List.length_take]
      · have hfetch : CollectionIndexManager.fetchLimit (CollectionIndexManager.plainOptions 0 10) = 1010 := by decide
        rw [searchTarget, CollectionIndexManager.searchWithOptions_eq hdocs, hfetch, pageOf_plainOptions (hbest docs hdocs),
          List.length_take]
        rfl

/-- What matches in a target, and nothing where the search fails. -/
def matchingOf (index : CollectionIndexManager) (query : Query) (target : String) : List ScoredDocument :=
  ((index.matchingDocuments target query).toOption).getD []

theorem matchingOf_eq {target : String} {docs : List ScoredDocument}
    (h : index.matchingDocuments target query = .ok docs) : matchingOf index query target = docs := by
  rw [matchingOf, h]
  rfl

omit [Searcher] in
/-- What all targets count, when a search counts up to `limit` documents of each. -/
def counted (limit : Nat) (targets : List String) (matching : String → List ScoredDocument) : Nat :=
  (targets.map fun target => min limit (matching target).length).sum

/-- **The two loops.** -/
theorem foldlM_searches (targets : List String)
    (hbest : ∀ target ∈ targets, ∀ docs, index.matchingDocuments target query = .ok docs → BestFirst docs) :
    ∀ acc acc' : SearchResult, acc.documents = acc'.documents → acc.aggregations = acc'.aggregations →
      (∃ e, targets.foldlM (fanOutStep index query none) acc = .error e ∧
          targets.foldlM (fanOutStep index query (some (CollectionIndexManager.plainOptions 0 10))) acc' = .error e) ∨
        ∃ r r', Found index query targets (matchingOf index query) ∧
          targets.foldlM (fanOutStep index query none) acc = .ok r ∧
          targets.foldlM (fanOutStep index query (some (CollectionIndexManager.plainOptions 0 10))) acc' = .ok r' ∧
          r.documents = r'.documents ∧ r.aggregations = r'.aggregations ∧
          r.total = acc.total + counted 10 targets (matchingOf index query) ∧
          r'.total = acc'.total + counted 1010 targets (matchingOf index query) := by
  induction targets with
  | nil =>
      intro acc acc' hdocuments haggregations
      exact .inr ⟨acc, acc', nofun, rfl, rfl, hdocuments, haggregations, rfl, rfl⟩
  | cons target targets ih =>
      intro acc acc' hdocuments haggregations
      rw [List.foldlM_cons, List.foldlM_cons, fanOutStep, fanOutStep]
      rcases searchTarget_cases target (hbest target List.mem_cons_self) with
        ⟨e, -, hplain, hoptions⟩ | ⟨docs, hdocs, hplain, hoptions⟩
      · -- the first target that fails ends both loops
        rw [hplain, hoptions]
        exact .inl ⟨e, rfl, rfl⟩
      · rw [hplain, hoptions]
        have hrest := ih (fun t ht => hbest t (List.mem_cons_of_mem _ ht))
          ⟨acc.documents ++ docs.take 10, acc.total + min 10 docs.length, acc.aggregations⟩
          ⟨acc'.documents ++ docs.take 10, acc'.total + min 1010 docs.length, acc'.aggregations⟩
          (congrArg (· ++ docs.take 10) hdocuments) haggregations
        have hmatching : matchingOf index query target = docs := matchingOf_eq hdocs
        rcases hrest with ⟨e, herror, herror'⟩ | ⟨r, r', hfound, hr, hr', hsame, haggs, htotal, htotal'⟩
        · exact .inl ⟨e, herror, herror'⟩
        · refine .inr ⟨r, r', List.forall_mem_cons.2 ⟨by rw [hmatching]; exact hdocs, hfound⟩, hr, hr', hsame,
            haggs, ?_, ?_⟩
          · rw [htotal, counted, counted, List.map_cons, List.sum_cons, hmatching, Nat.add_assoc]
          · rw [htotal', counted, counted, List.map_cons, List.sum_cons, hmatching, Nat.add_assoc]

end Targets

/-- The counts agree when no target has more than ten documents. -/
theorem counted_eq_iff (targets : List String) (matching : String → List ScoredDocument) :
    (counted 10 targets matching = counted 1010 targets matching) ↔
      ∀ target ∈ targets, (matching target).length ≤ 10 := by
  have hle : ∀ targets : List String, counted 10 targets matching ≤ counted 1010 targets matching := by
    intro targets
    apply List.sum_le_sum
    intro target _
    exact min_le_min_right (matching target).length (by decide)
  induction targets with
  | nil => exact iff_of_true rfl nofun
  | cons target targets ih =>
      have hrest := hle targets
      rw [List.forall_mem_cons]
      show min 10 (matching target).length + counted 10 targets matching =
        min 1010 (matching target).length + counted 1010 targets matching ↔ _
      constructor
      · -- neither part of the sum can make up for the other
        intro heq
        exact ⟨by omega, ih.1 (by omega)⟩
      · rintro ⟨hlength, hall⟩
        have hsame := ih.2 hall
        omega

section

variable [Searcher]

/-- **The two endpoints agree.** For every index whose hits come best first, every collection or alias
and every text: both endpoints answer with the same error, or both with the same hits in the same
order, the same aggregations and the same consistency. They count the same if and only if no target
has more than ten documents that match. The `size` in the URL makes no difference, neither for the
hits nor for the total. -/
theorem simple_search_agrees [JsonDisplay] (order : DslOrder) (registries : Registries) (index : CollectionIndexManager)
    (name : String) (params : SimpleSearchParams)
    (hbest : ∀ target docs, index.matchingDocuments target (bodyQuery params.q) = .ok docs → BestFirst docs) :
    let get := simpleSearch registries index name params
    let post := searchDocuments order registries index name params.consistency (bodyRequest params.q)
    (∀ size, simpleSearch registries index name { params with size := size } = get) ∧
    ((∃ e, get = .error e ∧ post = .error e) ∨
      ∃ targets r r', resolveSearchTargets registries name = .ok targets ∧ get = .ok r ∧ post = .ok r' ∧
        r.hits = r'.hits ∧ r.aggregations = r'.aggregations ∧ r.consistency = r'.consistency ∧
        (r.total = r'.total ↔ ∀ target ∈ targets, ∀ docs,
          index.matchingDocuments target (bodyQuery params.q) = .ok docs → docs.length ≤ 10)) := by
  intro get post
  refine ⟨fun size => rfl, ?_⟩
  have hget : get = simpleSearch registries index name params := rfl
  have hpost : post = searchDocuments order registries index name params.consistency (bodyRequest params.q) := rfl
  rw [simpleSearch] at hget
  rw [searchDocuments, intoCoreQuery_bodyRequest, toSearchOptions_bodyRequest] at hpost
  cases htargets : resolveSearchTargets registries name with
  | error e =>
      rw [htargets] at hget hpost
      exact .inl ⟨_, hget, hpost⟩
  | ok targets =>
      rw [htargets] at hget hpost
      simp only [fanOutSearch] at hget hpost
      rcases foldlM_searches targets (fun target _ => hbest target) SearchResult.empty SearchResult.empty rfl rfl with
        ⟨e, herror, herror'⟩ | ⟨r, r', hfound, hr, hr', hsame, haggs, htotal, htotal'⟩
      · rw [herror] at hget
        rw [herror'] at hpost
        exact .inl ⟨_, hget, hpost⟩
      · rw [hr] at hget
        rw [hr'] at hpost
        refine .inr ⟨targets, _, _, rfl, hget, hpost, ?_, haggs, rfl, ?_⟩
        · -- without sort clauses both lists are sorted by score in the end
          show (sortBy compareByScore r.documents).map scoredDocToHit = (sortBy compareByScore r'.documents).map scoredDocToHit
          rw [hsame]
        · show r.total = r'.total ↔ _
          rw [htotal, htotal', Nat.add_right_inj, counted_eq_iff]
          refine forall_congr' fun target => forall_congr' fun htarget => ⟨fun hlength docs hdocs => ?_, fun hall => ?_⟩
          · rw [← matchingOf_eq hdocs]
            exact hlength
          · exact hall _ (hfound target htarget)

end

/-- A text is found where it is the body. -/
@[reducible]
def wholeBody : Searcher where
  parseError _ _ _ _ _ := none
  hits _ docs query :=
    match query with
    | .parsed field _ _ text =>
        .ok ((docs.filter fun doc => doc.values.any fun v => v = (field, .str text)).map fun doc =>
          (⟨0x3f800000⟩, doc))
    | _ => .ok []

/-- One shelf with twelve books. -/
def twelveBooks : CollectionIndexManager :=
  { CollectionIndexManager.newInRam with
    collections := (∅ : ExtTreeMap String CollectionIndex).insert "books" (CollectionIndexManager.wordCollection 12) }

/-- The registry that has it. -/
def oneShelf : Registries :=
  ⟨fun name => if name = "books" then some ⟨12, FieldMapping.new⟩ else none, fun _ => none⟩

/-- Maps in the order of their keys. -/
def keyedOrder : DslOrder := ⟨keyOrder _, keyOrder _, keyOrder _⟩

theorem translateQuery_wholeBody :
    @translateQuery wholeBody initialSchema initialFieldMap (bodyQuery "rust") = .ok (.parsed 3 false none "rust") := by
  have hfield : queryField initialFieldMap "_body" = .ok 3 := by simp [queryField, initialFieldMap]
  show @translateFullText wholeBody initialSchema initialFieldMap ⟨"_body", "rust", .or⟩ = _
  simp only [translateFullText, hfield]
  rfl

theorem hits_wholeBody :
    @Searcher.hits wholeBody initialSchema (CollectionIndexManager.wordDocs 12) (.parsed 3 false none "rust") =
      .ok ((CollectionIndexManager.wordDocs 12).map fun doc => (⟨0x3f800000⟩, doc)) := by
  have hall : (CollectionIndexManager.wordDocs 12).filter
      (fun doc => doc.values.any fun v => v = (3, .str "rust")) = CollectionIndexManager.wordDocs 12 := by
    simp [CollectionIndexManager.wordDocs]
  exact congrArg (fun docs : List TantivyDocument => Except.ok (docs.map fun doc => (F32.mk 0x3f800000, doc))) hall

theorem matchingDocuments_twelveBooks (target : String) :
    @CollectionIndexManager.matchingDocuments wholeBody twelveBooks target (bodyQuery "rust") =
      if "books" = target then .ok (CollectionIndexManager.wordHits 12)
      else .error (CollectionIndexManager.indexNotFound target) := by
  by_cases htarget : "books" = target
  · subst htarget
    simp [CollectionIndexManager.matchingDocuments, CollectionIndexManager.queryHits, twelveBooks,
      CollectionIndexManager.newInRam, CollectionIndexManager.wordCollection, translateQuery_wholeBody, hits_wholeBody,
      CollectionIndexManager.wordHits, bind, Except.bind]
  · simp [CollectionIndexManager.matchingDocuments, CollectionIndexManager.queryHits, twelveBooks,
      CollectionIndexManager.newInRam, htarget, bind, Except.bind]

/-- The hits of a search all score the same. -/
theorem bestFirst_wordHits (n : Nat) : BestFirst (CollectionIndexManager.wordHits n) := by
  apply List.pairwise_of_forall_mem_list
  intro a ha b hb
  obtain ⟨hit, -, rfl⟩ := List.mem_map.1 ha
  obtain ⟨hit', -, rfl⟩ := List.mem_map.1 hb
  have hscore : (F32.mk 0x3f800000).partialCmp ⟨0x3f800000⟩ = some .eq := by decide
  show (((F32.mk 0x3f800000).partialCmp ⟨0x3f800000⟩).getD .eq).isLE = true
  rw [hscore]
  rfl

/-- The twelve books are the same ten hits at both endpoints, and two counts. -/
theorem simple_search_agrees_twelve :
    letI : Searcher := wholeBody
    ∃ r r', simpleSearch oneShelf twelveBooks "books" ⟨"rust", 3, none⟩ = .ok r ∧
      searchDocuments keyedOrder oneShelf twelveBooks "books" none (bodyRequest "rust") = .ok r' ∧
      r.hits = r'.hits ∧ r.total ≠ r'.total := by
  let _ : Searcher := wholeBody
  have htwelve : twelveBooks.matchingDocuments "books" (bodyQuery "rust") = .ok (CollectionIndexManager.wordHits 12) := by
    rw [matchingDocuments_twelveBooks, if_pos rfl]
  have hbest : ∀ target docs, twelveBooks.matchingDocuments target (bodyQuery "rust") = .ok docs → BestFirst docs := by
    intro target docs hdocs
    rw [matchingDocuments_twelveBooks] at hdocs
    split at hdocs
    · cases hdocs
      exact bestFirst_wordHits 12
    · cases hdocs
  have hbooks : resolveSearchTargets oneShelf "books" = .ok ["books"] := rfl
  rcases (simple_search_agrees keyedOrder oneShelf twelveBooks "books" ⟨"rust", 3, none⟩ hbest).2 with
    ⟨e, hget, -⟩ | ⟨targets, r, r', htargets, hget, hpost, hhits, -, -, htotal⟩
  · -- the collection is there and its search finds something
    have hsearch : searchTarget twelveBooks (bodyQuery "rust") "books" none =
        .ok ⟨(CollectionIndexManager.wordHits 12).take 10, ((CollectionIndexManager.wordHits 12).take 10).length, ∅⟩ := by
      rw [searchTarget, CollectionIndexManager.search, CollectionIndexManager.topDocs_eq htwelve]
      rfl
    simp only [simpleSearch, hbooks, fanOutSearch, List.foldlM_cons, fanOutStep, hsearch] at hget
    cases hget
  · refine ⟨r, r', hget, hpost, hhits, fun hsame => ?_⟩
    rw [hbooks] at htargets
    cases htargets
    have hlength := htotal.1 hsame "books" List.mem_cons_self _ htwelve
    rw [CollectionIndexManager.length_wordHits] at hlength
    exact absurd hlength (by decide)

end MSearchDB.Node
