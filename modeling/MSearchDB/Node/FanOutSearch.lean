import MSearchDB.Core.Collapse
import MSearchDB.Index.Search
import MSearchDB.Lib.Distinct
import MSearchDB.Lib.MergedPages
import MSearchDB.Node.CursorPages
import MSearchDB.Node.Registries

/-!
# Searching an alias

`resolve_search_targets` and `fan_out_search` of `crates/node/src/handlers/search.rs`.
The search of each target is asked for the page of the request, and the pages are put
one after the other; without sort clauses they are then sorted by score.

`fan_out_search_union` compares this with the page of the union: of the list that the
same sort, cursor and collapse make of all documents that match, in the order of the
targets. Documents that compare equal stay in that order, since sorting is stable. A
collection that an alias lists twice is searched twice, and is once in the union.
-/

set_option autoImplicit false

namespace MSearchDB.Node

open MSearchDB.Lib
open MSearchDB.Core
open MSearchDB.Index
open Std (ExtTreeMap TransCmp)

/-- `resolve_search_targets`. -/
def resolveSearchTargets (registries : Registries) (name : String) : Except ErrorResponse (List String) :=
  if (registries.collections name).isSome then .ok [name]
  else
    match registries.aliases name with
    | some target =>
        if target.collections = [] then
          .error (.badRequest ("alias '" ++ name ++ "' has no backing collections"))
        else .ok target.collections
    | none => .error (collectionNotFound name)

section

variable [Searcher]

/-- The search of one target. -/
def searchTarget (index : CollectionIndexManager) (query : Query) (target : String) :
    Option SearchOptions → DbResult SearchResult
  | some options => index.searchWithOptions target query options
  | none => index.search target query

/-- One turn of the loop of `fan_out_search`. -/
def fanOutStep (index : CollectionIndexManager) (query : Query) (options : Option SearchOptions)
    (acc : SearchResult) (target : String) : DbResult SearchResult := do
  let result ← searchTarget index query target options
  .ok ⟨acc.documents ++ result.documents, acc.total + result.total,
    result.aggregations.toList.foldl (fun aggs (name, agg) => aggs.insert name agg) acc.aggregations⟩

omit [Searcher] in
/-- The sort at the end of `fan_out_search`. -/
def mergeDocuments (options : Option SearchOptions) (docs : List ScoredDocument) : List ScoredDocument :=
  if options.all fun o => o.sort = [] then sortBy compareByScore docs else docs

/-- `fan_out_search`. -/
def fanOutSearch (index : CollectionIndexManager) (targets : List String) (query : Query)
    (options : Option SearchOptions) : DbResult SearchResult := do
  let result ← targets.foldlM (fanOutStep index query options) SearchResult.empty
  .ok { result with documents := mergeDocuments options result.documents }

variable {index : CollectionIndexManager} {query : Query} {options : SearchOptions}

/-- What matches in each target. -/
def Found (index : CollectionIndexManager) (query : Query) (targets : List String)
    (matching : String → List ScoredDocument) : Prop :=
  ∀ target ∈ targets, index.matchingDocuments target query = .ok (matching target)

theorem fanOutStep_eq {target : String} {result : SearchResult}
    (h : index.searchWithOptions target query options = .ok result) (acc : SearchResult) :
    ∃ next, fanOutStep index query (some options) acc target = .ok next ∧
      next.documents = acc.documents ++ result.documents := by
  rw [fanOutStep, searchTarget, h]
  exact ⟨_, rfl, rfl⟩

/-- The loop puts the pages of the targets one after the other. -/
theorem foldlM_fanOutStep {targets : List String} {matching : String → List ScoredDocument}
    (hfound : Found index query targets matching)
    (hfetch : ∀ target ∈ targets, (matching target).length ≤ CollectionIndexManager.fetchLimit options)
    (acc : SearchResult) :
    ∃ result, targets.foldlM (fanOutStep index query (some options)) acc = .ok result ∧
      result.documents = acc.documents ++
        slices options.from'.toNat options.size.toNat ((targets.map matching).map (orderDocuments options)) := by
  induction targets generalizing acc with
  | nil => exact ⟨acc, rfl, (List.append_nil _).symm⟩
  | cons target targets ih =>
      have hall : (matching target).take (CollectionIndexManager.fetchLimit options) = matching target :=
        List.take_of_length_le (hfetch target List.mem_cons_self)
      obtain ⟨next, hnext, hdocuments⟩ :=
        fanOutStep_eq (CollectionIndexManager.searchWithOptions_eq (hfound target List.mem_cons_self)) acc
      rw [hall] at hdocuments
      obtain ⟨result, hresult, htotal⟩ := ih (fun t ht => hfound t (List.mem_cons_of_mem _ ht))
        (fun t ht => hfetch t (List.mem_cons_of_mem _ ht)) next
      refine ⟨result, ?_, ?_⟩
      · rw [List.foldlM_cons, hnext]
        exact hresult
      · rw [htotal, hdocuments, List.append_assoc]
        rfl

end

/-! ## The order of the union -/

section Order

variable {options : SearchOptions} {docs : List ScoredDocument}

/-- The order of the results, with a transitive comparator. -/
def optionsCmp (options : SearchOptions) : ScoredDocument → ScoredDocument → Ordering :=
  if options.sort = [] then scoreCmp else clausesCmp options.sort

instance transCmpOptions (options : SearchOptions) : TransCmp (optionsCmp options) := by
  unfold optionsCmp
  split
  · exact transCmpScore
  · exact transCmpClauses options.sort

/-- The numbers by which a document is ordered are no NaNs. -/
def Orderable (options : SearchOptions) (doc : ScoredDocument) : Prop :=
  doc.score.isNan = false ∧ doc.Comparable options.sort

/-- A document as `apply_sort` leaves it. -/
def withSort (options : SearchOptions) (doc : ScoredDocument) : ScoredDocument :=
  if options.sort = [] then doc else withSortValues options.sort doc

/-- The document is not cut off by the cursor. -/
def afterCursor (options : SearchOptions) (doc : ScoredDocument) : Bool :=
  match options.searchAfter with
  | some cursor => cursor = [] ∨ options.sort = [] ∨ compareDocToCursor doc cursor options.sort = .gt
  | none => true

/-- The documents that the sort and the cursor leave, in no order yet. -/
def prepared (options : SearchOptions) (docs : List ScoredDocument) : List ScoredDocument :=
  (docs.map (withSort options)).filter (afterCursor options)

theorem clausesCmp_withSortValues (clauses cs : List SortClause) (a b : ScoredDocument) :
    clausesCmp cs (withSortValues clauses a) (withSortValues clauses b) = clausesCmp cs a b := by
  induction cs with
  | nil => rfl
  | cons c cs ih => exact congrArg (Ordering.then (clauseCmp c a b)) ih

theorem optionsCmp_withSort (a b : ScoredDocument) :
    optionsCmp options (withSort options a) (withSort options b) = optionsCmp options a b := by
  unfold optionsCmp withSort
  split
  · rfl
  · exact clausesCmp_withSortValues options.sort options.sort a b

theorem applySort_eq_map (h : ∀ doc ∈ docs, Orderable options doc) :
    applySort docs options.sort = (sortBy (optionsCmp options) docs).map (withSort options) := by
  unfold applySort optionsCmp withSort
  split
  · rw [List.map_id']
    exact sortBy_congr fun a ha b hb => compareByScore_eq (h a ha).1 (h b hb).1
  · have hcongr : sortBy (compareByClauses options.sort) docs = sortBy (clausesCmp options.sort) docs :=
      sortBy_congr fun a ha b hb => compareByClauses_eq (h a ha).2 (h b hb).2
    rw [hcongr]
    rfl

theorem cutDocuments_eq_filter (options : SearchOptions) (docs : List ScoredDocument) :
    cutDocuments options docs = docs.filter (afterCursor options) := by
  cases hafter : options.searchAfter with
  | none =>
      have hall : ∀ doc, afterCursor options doc = true := fun doc => by simp [afterCursor, hafter]
      rw [List.filter_eq_self.2 fun doc _ => hall doc]
      simp [cutDocuments, hafter]
  | some cursor =>
      have hcursor : ∀ doc, afterCursor options doc = decide (cursor = [] ∨ options.sort = [] ∨
          compareDocToCursor doc cursor options.sort = .gt) := fun doc => by simp [afterCursor, hafter]
      simp only [cutDocuments, hafter, applySearchAfter]
      split
      next hnone =>
        refine (List.filter_eq_self.2 fun doc _ => ?_).symm
        rw [hcursor, decide_eq_true_eq]
        tauto
      next hsome =>
        refine List.filter_congr fun doc _ => ?_
        rw [hcursor, decide_eq_decide]
        tauto

/-- **The order of a result list**: what sort and cursor leave is sorted and collapsed. -/
theorem orderDocuments_eq (h : ∀ doc ∈ docs, Orderable options doc) :
    orderDocuments options docs =
      collapseDocuments options (sortBy (optionsCmp options) (prepared options docs)) := by
  rw [orderDocuments, applySort_eq_map h, map_sortBy optionsCmp_withSort, cutDocuments_eq_filter,
    filter_sortBy, prepared]

/-! ## The lists of the targets -/

variable {found : List (List ScoredDocument)}

/-- The list of a target, sorted and not yet collapsed. -/
def sortedList (options : SearchOptions) (docs : List ScoredDocument) : List ScoredDocument :=
  sortBy (optionsCmp options) (prepared options docs)

theorem pairwise_sortedList (options : SearchOptions) (docs : List ScoredDocument) :
    (sortedList options docs).Pairwise fun a b => (optionsCmp options a b).isLE = true := pairwise_sortBy _

theorem collapseDocuments_sublist (options : SearchOptions) (docs : List ScoredDocument) :
    (collapseDocuments options docs).Sublist docs := by
  unfold collapseDocuments
  split
  · exact collapseLoop_sublist _ [] docs
  · exact List.Sublist.refl docs

/-- The union is the lists of the targets sorted together. -/
theorem sortedList_flatten (options : SearchOptions) (found : List (List ScoredDocument)) :
    sortedList options found.flatten = sortBy (optionsCmp options) (found.map (sortedList options)).flatten := by
  have hprepared : prepared options found.flatten = (found.map (prepared options)).flatten := by
    rw [prepared, List.map_flatten, List.filter_flatten, List.map_map]
    rfl
  rw [sortedList, hprepared, ← sortBy_flatten_sortBy, List.map_map]
  rfl

/-- No two lists have a collapse key in common. -/
def ListsApart (options : SearchOptions) (lists : List (List ScoredDocument)) : Prop :=
  ∀ collapse, options.collapse = some collapse → KeysApart (collapseKey collapse) lists

/-- No two targets have a collapse key in common. -/
def TargetsApart (options : SearchOptions) (found : List (List ScoredDocument)) : Prop :=
  ListsApart options (found.map (sortedList options))

/-- **The union of targets without a common key** is their result lists sorted together. -/
theorem collapse_sortedList_flatten (hapart : TargetsApart options found) :
    collapseDocuments options (sortedList options found.flatten) = sortBy (optionsCmp options)
      (found.map fun docs => collapseDocuments options (sortedList options docs)).flatten := by
  rw [sortedList_flatten]
  unfold collapseDocuments
  cases hcollapse : options.collapse with
  | none => rfl
  | some collapse =>
      have hsorted : ∀ l ∈ found.map (sortedList options),
          l.Pairwise fun a b => (optionsCmp options a b).isLE = true := by
        intro l hl
        obtain ⟨docs, -, rfl⟩ := List.mem_map.1 hl
        exact pairwise_sortedList options docs
      have hmerge := collapse_sortBy_flatten (hapart collapse hcollapse) hsorted
      rw [List.map_map] at hmerge
      exact hmerge

/-- The result list of a target. -/
def resultList (options : SearchOptions) (docs : List ScoredDocument) : List ScoredDocument :=
  collapseDocuments options (sortedList options docs)

theorem pairwise_resultList (options : SearchOptions) (docs : List ScoredDocument) :
    (resultList options docs).Pairwise fun a b => (optionsCmp options a b).isLE = true :=
  (pairwise_sortedList options docs).sublist (collapseDocuments_sublist options _)

theorem resultList_of_no_collapse (h : options.collapse = none) : resultList options = sortedList options := by
  funext docs
  simp only [resultList, collapseDocuments, h]

theorem resultList_of_collapse {collapse : CollapseOptions} (h : options.collapse = some collapse) :
    resultList options docs = collapseLoop (collapseKey collapse) [] (sortedList options docs) := by
  simp only [resultList, collapseDocuments, h, applyCollapse]

theorem key_mem_resultList {collapse : CollapseOptions} (hcollapse : options.collapse = some collapse)
    {k : String} : k ∈ (resultList options docs).map (collapseKey collapse) ↔
      k ∈ (sortedList options docs).map (collapseKey collapse) := by
  rw [resultList_of_collapse hcollapse, mem_keys_collapseLoop]
  simp

theorem resultList_eq_nil (h : resultList options docs = []) : sortedList options docs = [] := by
  cases hcollapse : options.collapse with
  | none => rwa [resultList_of_no_collapse hcollapse] at h
  | some collapse =>
      refine List.eq_nil_iff_forall_not_mem.2 fun doc hdoc => ?_
      have hkey := (key_mem_resultList hcollapse).2 (List.mem_map_of_mem hdoc)
      rw [h] at hkey
      cases hkey

theorem mem_sortedList_flatten {doc : ScoredDocument} :
    doc ∈ sortedList options found.flatten ↔ ∃ docs ∈ found, doc ∈ sortedList options docs := by
  rw [sortedList_flatten, mem_sortBy, List.mem_flatten]
  simp

/-- Collapsing a list leaves its keys. -/
theorem listsApart_iff : ListsApart options (found.map (resultList options)) ↔ TargetsApart options found := by
  refine forall_congr' fun collapse => forall_congr' fun hcollapse => ?_
  rw [KeysApart, KeysApart, List.pairwise_map, List.pairwise_map]
  have hkeys : ∀ docs docs', ((resultList options docs).map (collapseKey collapse)).Disjoint
      ((resultList options docs').map (collapseKey collapse)) ↔
        ((sortedList options docs).map (collapseKey collapse)).Disjoint
          ((sortedList options docs').map (collapseKey collapse)) := by
    intro docs docs'
    simp only [List.Disjoint, key_mem_resultList hcollapse]
  simp only [hkeys]

/-- Every key of the union is the key of a result of a target. -/
theorem key_mem_results {collapse : CollapseOptions} (hcollapse : options.collapse = some collapse)
    {doc : ScoredDocument} (h : doc ∈ sortedList options found.flatten) :
    collapseKey collapse doc ∈ (found.map (resultList options)).flatten.map (collapseKey collapse) := by
  obtain ⟨docs, hdocs, hdoc⟩ := mem_sortedList_flatten.1 h
  obtain ⟨kept, hkept, hkey⟩ := List.mem_map.1 ((key_mem_resultList hcollapse).2 (List.mem_map_of_mem hdoc))
  rw [← hkey]
  exact List.mem_map_of_mem (List.mem_flatten.2 ⟨_, List.mem_map_of_mem hdocs, hkept⟩)

/-- A target has no more results than the union. -/
theorem length_resultList_le (hdocs : docs ∈ found) :
    (resultList options docs).length ≤ (resultList options found.flatten).length := by
  cases hcollapse : options.collapse with
  | none =>
      rw [resultList_of_no_collapse hcollapse, sortedList_flatten, length_sortBy]
      exact length_le_flatten (List.mem_map_of_mem hdocs)
  | some collapse =>
      rw [resultList_of_collapse hcollapse]
      refine length_collapseLoop_le fun doc hdoc => (key_mem_resultList hcollapse).2 ?_
      exact List.mem_map_of_mem (mem_sortedList_flatten.2 ⟨docs, hdocs, hdoc⟩)

/-- The union has no more results than the targets. -/
theorem length_resultList_flatten_le (options : SearchOptions) (found : List (List ScoredDocument)) :
    (resultList options found.flatten).length ≤ (found.map (resultList options)).flatten.length := by
  cases hcollapse : options.collapse with
  | none =>
      rw [resultList_of_no_collapse hcollapse, sortedList_flatten, length_sortBy]
  | some collapse =>
      nth_rewrite 1 [resultList_of_collapse hcollapse]
      exact length_collapseLoop_le fun doc hdoc => key_mem_results hcollapse hdoc

/-- Where nothing is lost, no two targets have a key in common. -/
theorem targetsApart_of_length_eq
    (h : (resultList options found.flatten).length = (found.map (resultList options)).flatten.length) :
    TargetsApart options found := by
  refine listsApart_iff.1 fun collapse hcollapse => ?_
  have hkeys : ((resultList options found.flatten).map (collapseKey collapse)).Nodup := by
    rw [resultList_of_collapse hcollapse]
    exact nodup_keys_collapseLoop _ [] _
  have hsub : (resultList options found.flatten).map (collapseKey collapse) ⊆
      (found.map (resultList options)).flatten.map (collapseKey collapse) := by
    intro k hk
    obtain ⟨doc, hdoc, rfl⟩ := List.mem_map.1 ((key_mem_resultList hcollapse).1 hk)
    exact key_mem_results hcollapse hdoc
  have hperm := (hkeys.subperm hsub).perm_of_length_le (by rw [List.length_map, List.length_map, h])
  have hnodup := hperm.nodup_iff.1 hkeys
  rw [List.map_flatten, List.map_map] at hnodup
  exact List.pairwise_map.2 (List.pairwise_map.1 (List.nodup_flatten.1 hnodup).2)

theorem resultList_flatten (hapart : TargetsApart options found) :
    resultList options found.flatten =
      sortBy (optionsCmp options) (found.map (resultList options)).flatten :=
  collapse_sortedList_flatten hapart

/-- One target only has results, so no two have a key in common. -/
theorem targetsApart_of_lone (h : Lone (found.map (resultList options))) : TargetsApart options found := by
  intro collapse _
  have hsorted : Lone (found.map (sortedList options)) := h.map_of_map fun docs => resultList_eq_nil
  exact hsorted.pairwise (fun L => List.disjoint_nil_left _) fun L => List.disjoint_nil_right _

theorem pairwise_of_mem_results {L : List ScoredDocument} (h : L ∈ found.map (resultList options)) :
    L.Pairwise fun a b => (optionsCmp options a b).isLE = true := by
  obtain ⟨docs, -, rfl⟩ := List.mem_map.1 h
  exact pairwise_resultList options docs

theorem resultList_flatten_of_lone (h : Lone (found.map (resultList options))) :
    resultList options found.flatten = (found.map (resultList options)).flatten := by
  rw [resultList_flatten (targetsApart_of_lone h)]
  exact sortBy_of_pairwise (pairwise_of_mem_results h.flatten_mem)

/-- Documents without sort values stay distinct. -/
theorem nodup_prepared (hsort : ∀ doc ∈ docs, doc.sort = []) (h : docs.Nodup) :
    (prepared options docs).Nodup := by
  refine (List.Nodup.map_on (fun a ha b hb hab => ?_) h).filter _
  unfold withSort at hab
  split at hab
  · exact hab
  · have hvalues : a.sort = b.sort := (hsort a ha).trans (hsort b hb).symm
    obtain ⟨document, score, sort⟩ := a
    obtain ⟨document', score', sort'⟩ := b
    obtain ⟨rfl, rfl, -⟩ := ScoredDocument.mk.inj hab
    exact congrArg (ScoredDocument.mk document score) hvalues

/-! ## The pages of the targets -/

/-- The numbers by which the documents are ordered are no NaNs. -/
def AllOrderable (options : SearchOptions) (found : List (List ScoredDocument)) : Prop :=
  ∀ docs ∈ found, ∀ doc ∈ docs, Orderable options doc

theorem score_of_mem_resultList (hdocs : ∀ doc ∈ docs, Orderable options doc) {doc : ScoredDocument}
    (h : doc ∈ resultList options docs) : doc.score.isNan = false := by
  have hmem : doc ∈ prepared options docs := mem_sortBy.1 ((collapseDocuments_sublist options _).subset h)
  obtain ⟨found, hfound, rfl⟩ := List.mem_map.1 (List.mem_filter.1 hmem).1
  have hscore : (withSort options found).score = found.score := by
    unfold withSort
    split <;> rfl
  rw [hscore]
  exact (hdocs found hfound).1

/-- Without clauses, the sort at the end is the order of the results. -/
theorem mergeDocuments_of_no_clauses (hsort : options.sort = []) {L : List ScoredDocument}
    (hscores : ∀ doc ∈ L, doc.score.isNan = false) :
    mergeDocuments (some options) L = sortBy (optionsCmp options) L := by
  have hcmp : optionsCmp options = scoreCmp := if_pos hsort
  rw [mergeDocuments, Option.all_some, decide_eq_true hsort, if_pos rfl, hcmp]
  exact sortBy_congr fun a ha b hb => compareByScore_eq (hscores a ha) (hscores b hb)

theorem mergeDocuments_of_clauses (hsort : options.sort ≠ []) (L : List ScoredDocument) :
    mergeDocuments (some options) L = L := by
  rw [mergeDocuments, Option.all_some, decide_eq_false hsort]
  rfl

theorem perm_mergeDocuments (L : List ScoredDocument) : (mergeDocuments (some options) L).Perm L := by
  unfold mergeDocuments
  split
  · exact perm_sortBy _ L
  · exact List.Perm.refl L

/-- A list that is in order stays as it is. -/
theorem mergeDocuments_of_pairwise {L : List ScoredDocument} (hscores : ∀ doc ∈ L, doc.score.isNan = false)
    (h : L.Pairwise fun a b => (optionsCmp options a b).isLE = true) :
    mergeDocuments (some options) L = L := by
  by_cases hsort : options.sort = []
  · rw [mergeDocuments_of_no_clauses hsort hscores]
    exact sortBy_of_pairwise h
  · exact mergeDocuments_of_clauses hsort L

/-- **All results fit in one page.** They are the union exactly when no two targets have
a key in common and, with sort clauses, the lists follow one another in order. -/
theorem mergeDocuments_flatten_iff (hdocs : AllOrderable options found) :
    mergeDocuments (some options) (found.map (resultList options)).flatten =
        resultList options found.flatten ↔
      TargetsApart options found ∧ (options.sort ≠ [] →
        (found.map (resultList options)).flatten.Pairwise fun a b => (optionsCmp options a b).isLE = true) := by
  have hscores : ∀ doc ∈ (found.map (resultList options)).flatten, doc.score.isNan = false := by
    intro doc hdoc
    obtain ⟨L, hL, hdoc⟩ := List.mem_flatten.1 hdoc
    obtain ⟨docs, hfound, rfl⟩ := List.mem_map.1 hL
    exact score_of_mem_resultList (hdocs docs hfound) hdoc
  constructor
  · intro h
    refine ⟨targetsApart_of_length_eq ?_, fun hsort => ?_⟩
    · rw [← h, (perm_mergeDocuments _).length_eq]
    · rw [mergeDocuments_of_clauses hsort] at h
      rw [h]
      exact pairwise_resultList options _
  · rintro ⟨hapart, hpairwise⟩
    rw [resultList_flatten hapart]
    by_cases hsort : options.sort = []
    · exact mergeDocuments_of_no_clauses hsort hscores
    · rw [mergeDocuments_of_clauses hsort]
      exact (sortBy_of_pairwise (hpairwise hsort)).symm

/-! ## Targets that are listed twice -/

section Targets

variable {targets : List String} {matching : String → List ScoredDocument}

/-- All documents that match, those of a target that is listed twice once. -/
def unionOf (targets : List String) (matching : String → List ScoredDocument) : List ScoredDocument :=
  (firsts targets).flatMap matching

/-- No target with results is listed twice. -/
def ListedOnce (options : SearchOptions) (targets : List String) (matching : String → List ScoredDocument) : Prop :=
  ∀ target, 1 < targets.count target → resultList options (matching target) = []

theorem flatten_results (options : SearchOptions) (targets : List String) (matching : String → List ScoredDocument) :
    ((targets.map matching).map (resultList options)).flatten =
      targets.flatMap fun target => resultList options (matching target) := by
  rw [List.map_map, List.flatMap_def]
  rfl

theorem ListedOnce.flatten_eq (h : ListedOnce options targets matching) :
    ((targets.map matching).map (resultList options)).flatten =
      (((firsts targets).map matching).map (resultList options)).flatten := by
  rw [flatten_results, flatten_results, flatMap_firsts h]

/-- The union has no more results than the targets. -/
theorem length_resultList_unionOf_le (options : SearchOptions) (targets : List String)
    (matching : String → List ScoredDocument) :
    (resultList options (unionOf targets matching)).length ≤
      ((targets.map matching).map (resultList options)).flatten.length := by
  have hdistinct := length_resultList_flatten_le options ((firsts targets).map matching)
  rw [flatten_results] at hdistinct ⊢
  exact hdistinct.trans ((firsts_sublist targets).flatMap _).length_le

/-- Where nothing is lost, no target with results is listed twice. -/
theorem listedOnce_of_length_le
    (h : ((targets.map matching).map (resultList options)).flatten.length ≤
      (resultList options (unionOf targets matching)).length) : ListedOnce options targets matching := by
  have hdistinct := length_resultList_flatten_le options ((firsts targets).map matching)
  rw [flatten_results] at hdistinct h
  exact eq_nil_of_length_flatMap_firsts (h.trans hdistinct)

/-- One target only has results, so it is listed once. -/
theorem listedOnce_of_lone (h : Lone ((targets.map matching).map (resultList options))) :
    ListedOnce options targets matching := by
  obtain ⟨as, L, bs, hsplit, hothers⟩ := h
  rw [List.map_map] at hsplit
  obtain ⟨before, rest, rfl, rfl, htail⟩ := List.map_eq_append_iff.1 hsplit
  obtain ⟨lone, after, rfl, rfl, rfl⟩ := List.map_eq_cons_iff.1 htail
  intro target htwice
  rw [List.count_append, List.count_cons] at htwice
  have hmem : target ∈ before ++ after := by
    rw [← List.count_pos_iff, List.count_append]
    split at htwice <;> omega
  rw [← List.map_append] at hothers
  exact hothers _ (List.mem_map_of_mem hmem)

theorem unionOf_of_lone (h : Lone ((targets.map matching).map (resultList options))) :
    resultList options (unionOf targets matching) = ((targets.map matching).map (resultList options)).flatten := by
  have hne : ((firsts targets).map matching).map (resultList options) ≠ [] := by
    intro hnil
    obtain ⟨as, L, bs, hsplit, -⟩ := h
    cases targets with
    | nil => simp at hsplit
    | cons target targets => simp [firsts] at hnil
  have hsub := ((firsts_sublist targets).map matching).map (resultList options)
  rw [(listedOnce_of_lone h).flatten_eq]
  exact resultList_flatten_of_lone (h.sublist hsub hne)

/-- **All results fit in one page**, with targets that may be listed twice. -/
theorem mergeDocuments_targets_iff (hdocs : AllOrderable options ((firsts targets).map matching)) :
    mergeDocuments (some options) ((targets.map matching).map (resultList options)).flatten =
        resultList options (unionOf targets matching) ↔
      ListedOnce options targets matching ∧ TargetsApart options ((firsts targets).map matching) ∧
        (options.sort ≠ [] → ((targets.map matching).map (resultList options)).flatten.Pairwise
          fun a b => (optionsCmp options a b).isLE = true) := by
  have hdistinct := mergeDocuments_flatten_iff hdocs
  constructor
  · intro h
    have honce : ListedOnce options targets matching := by
      apply listedOnce_of_length_le
      rw [← h, (perm_mergeDocuments _).length_eq]
    rw [honce.flatten_eq] at h ⊢
    exact ⟨honce, hdistinct.1 h⟩
  · rintro ⟨honce, happart⟩
    rw [honce.flatten_eq] at happart ⊢
    exact hdistinct.2 happart

/-- Where no document is found twice, every target with matches is listed once. -/
theorem flatMap_eq_unionOf (hnodup : (targets.flatMap matching).Nodup) :
    targets.flatMap matching = unionOf targets matching := by
  refine (flatMap_firsts fun target htwice => ?_).symm
  obtain ⟨before, after, rfl⟩ := List.append_of_mem (List.count_pos_iff.1 (Nat.zero_lt_of_lt htwice))
  rw [List.count_append, List.count_cons_self] at htwice
  have hmem : target ∈ before ++ after := by
    rw [← List.count_pos_iff, List.count_append]
    omega
  have hperm : ((before ++ target :: after).flatMap matching).Perm
      (matching target ++ (before ++ after).flatMap matching) := by
    rw [← List.flatMap_cons]
    exact List.perm_middle.flatMap_right matching
  have hdisjoint := List.disjoint_of_nodup_append (hperm.nodup_iff.1 hnodup)
  refine List.eq_nil_iff_forall_not_mem.2 fun doc hdoc => hdisjoint hdoc ?_
  exact List.mem_flatMap.2 ⟨target, hmem, hdoc⟩

end Targets

end Order

/-! ## The union -/

/-- When the pages of the targets make up the page of the union: the page is empty, or
beyond the end; one target only has results; all results fit in the first page, where no
target with results is listed twice, no two have a collapse key in common and, with sort
clauses, the lists of the targets follow one another in order; or one target has all
results up to the end of the page, and no other has more results than are skipped. -/
def UnionFits (options : SearchOptions) (targets : List String) (matching : String → List ScoredDocument) : Prop :=
  let lists := (targets.map matching).map (orderDocuments options)
  let distinct := ((firsts targets).map matching).map (orderDocuments options)
  let union := orderDocuments options (unionOf targets matching)
  options.size = 0 ∨ union.length ≤ options.from'.toNat ∨ Lone lists ∨
    (options.from' = 0 ∧ lists.flatten.length ≤ options.size.toNat ∧
      (∀ target, 1 < targets.count target → orderDocuments options (matching target) = []) ∧
      ListsApart options distinct ∧
      (options.sort ≠ [] → lists.flatten.Pairwise fun a b => (optionsCmp options a b).isLE = true)) ∨
    Leads options.from'.toNat options.size.toNat lists union

section Fits

variable {targets : List String} {options : SearchOptions} {matching : String → List ScoredDocument}

theorem map_orderDocuments (hdocs : ∀ target ∈ targets, ∀ doc ∈ matching target, Orderable options doc) :
    (targets.map matching).map (orderDocuments options) = (targets.map matching).map (resultList options) := by
  rw [List.map_map, List.map_map]
  exact List.map_congr_left fun target htarget => orderDocuments_eq (hdocs target htarget)

theorem orderDocuments_unionOf (hdocs : ∀ target ∈ targets, ∀ doc ∈ matching target, Orderable options doc) :
    orderDocuments options (unionOf targets matching) = resultList options (unionOf targets matching) := by
  refine orderDocuments_eq fun doc hdoc => ?_
  obtain ⟨target, htarget, hdoc⟩ := List.mem_flatMap.1 hdoc
  exact hdocs target (mem_firsts.1 htarget) doc hdoc

/-- The page of one target is merged to itself. -/
theorem mergeDocuments_slice (hdocs : ∀ target ∈ targets, ∀ doc ∈ matching target, Orderable options doc) :
    ∀ L ∈ (targets.map matching).map (resultList options),
      mergeDocuments (some options) (slice options.from'.toNat options.size.toNat L) =
        slice options.from'.toNat options.size.toNat L := by
  intro L hL
  refine mergeDocuments_of_pairwise (fun doc hdoc => ?_)
    ((pairwise_of_mem_results hL).sublist (slice_sublist _ _ L))
  obtain ⟨docs, hmem, rfl⟩ := List.mem_map.1 hL
  obtain ⟨target, htarget, rfl⟩ := List.mem_map.1 hmem
  exact score_of_mem_resultList (hdocs target htarget) ((slice_sublist _ _ _).subset hdoc)

/-- The pages fit by the lists of results, with what the first page comes to. -/
theorem unionFits_iff (hdocs : ∀ target ∈ targets, ∀ doc ∈ matching target, Orderable options doc) :
    UnionFits options targets matching ↔
      options.size.toNat = 0 ∨ (resultList options (unionOf targets matching)).length ≤ options.from'.toNat ∨
        Lone ((targets.map matching).map (resultList options)) ∨
        (options.from'.toNat = 0 ∧
          ((targets.map matching).map (resultList options)).flatten.length ≤ options.size.toNat ∧
          mergeDocuments (some options) ((targets.map matching).map (resultList options)).flatten =
            resultList options (unionOf targets matching)) ∨
        Leads options.from'.toNat options.size.toNat ((targets.map matching).map (resultList options))
          (resultList options (unionOf targets matching)) := by
  have hfirsts : ∀ target ∈ firsts targets, ∀ doc ∈ matching target, Orderable options doc :=
    fun target htarget => hdocs target (mem_firsts.1 htarget)
  have honce : (∀ target, 1 < targets.count target → orderDocuments options (matching target) = []) ↔
      ListedOnce options targets matching := by
    refine forall_congr' fun target => forall_congr' fun htwice => ?_
    have horder : orderDocuments options (matching target) = resultList options (matching target) :=
      orderDocuments_eq (hdocs target (List.count_pos_iff.1 (Nat.zero_lt_of_lt htwice)))
    rw [horder]
  have horderable : AllOrderable options ((firsts targets).map matching) := by
    intro docs hmem
    obtain ⟨target, htarget, rfl⟩ := List.mem_map.1 hmem
    exact hfirsts target htarget
  have hall := mergeDocuments_targets_iff horderable
  rw [← listsApart_iff] at hall
  have hsize : options.size = 0 ↔ options.size.toNat = 0 := UInt64.toNat_inj.symm
  have hfrom : options.from' = 0 ↔ options.from'.toNat = 0 := UInt64.toNat_inj.symm
  rw [UnionFits, map_orderDocuments hdocs, map_orderDocuments hfirsts, orderDocuments_unionOf hdocs, honce,
    hsize, hfrom, ← hall]

end Fits

section Union

variable [Searcher] {index : CollectionIndexManager} {targets : List String} {query : Query}
  {options : SearchOptions} {matching : String → List ScoredDocument}

/-- The search of the targets returns the page of the union. -/
def SearchesUnion (index : CollectionIndexManager) (targets : List String) (query : Query)
    (options : SearchOptions) (matching : String → List ScoredDocument) : Prop :=
  ∃ result, fanOutSearch index targets query (some options) = .ok result ∧
    result.documents = pageOf options (orderDocuments options (unionOf targets matching))

theorem searchesUnion_iff (hfound : Found index query targets matching)
    (hfetch : ∀ target ∈ targets, (matching target).length ≤ CollectionIndexManager.fetchLimit options) :
    SearchesUnion index targets query options matching ↔
      mergeDocuments (some options) (slices options.from'.toNat options.size.toNat
        ((targets.map matching).map (orderDocuments options))) =
        slice options.from'.toNat options.size.toNat (orderDocuments options (unionOf targets matching)) := by
  obtain ⟨result, hresult, hdocuments⟩ := foldlM_fanOutStep hfound hfetch SearchResult.empty
  have hsearch : fanOutSearch index targets query (some options) =
      .ok { result with documents := mergeDocuments (some options) result.documents } := by
    rw [fanOutSearch, hresult]
    rfl
  have hpages : result.documents = slices options.from'.toNat options.size.toNat
      ((targets.map matching).map (orderDocuments options)) := hdocuments
  constructor
  · rintro ⟨result', hresult', hpage⟩
    rw [hsearch, Except.ok.injEq] at hresult'
    rw [← hresult', hpages] at hpage
    exact hpage
  · intro hpage
    refine ⟨_, hsearch, ?_⟩
    rw [hpages]
    exact hpage

/-- Where no document is found twice and none is collapsed, the union is the merged
results of the targets and has no document twice. -/
theorem resultList_unionOf (hfound : Found index query targets matching) (hcollapse : options.collapse = none)
    (hnodup : (targets.flatMap matching).Nodup) :
    resultList options (unionOf targets matching) =
        sortBy (optionsCmp options) ((targets.map matching).map (resultList options)).flatten ∧
      (resultList options (unionOf targets matching)).Nodup := by
  have heq := flatMap_eq_unionOf hnodup
  rw [List.flatMap_def] at heq hnodup
  have hapart : TargetsApart options (targets.map matching) := by
    intro collapse hsome
    rw [hcollapse] at hsome
    cases hsome
  rw [← heq]
  refine ⟨resultList_flatten hapart, ?_⟩
  rw [resultList_of_no_collapse hcollapse]
  refine (perm_sortBy _ _).nodup_iff.2 (nodup_prepared (fun doc hdoc => ?_) hnodup)
  obtain ⟨docs, hmem, hdoc⟩ := List.mem_flatten.1 hdoc
  obtain ⟨target, htarget, rfl⟩ := List.mem_map.1 hmem
  exact CollectionIndexManager.sort_of_mem_matchingDocuments (hfound target htarget) hdoc

/-- **Searching an alias is searching the union where the pages fit.** -/
theorem fan_out_search_union (hfound : Found index query targets matching)
    (hfetch : ∀ target ∈ targets, (matching target).length ≤ CollectionIndexManager.fetchLimit options)
    (hdocs : ∀ target ∈ targets, ∀ doc ∈ matching target, Orderable options doc) :
    (UnionFits options targets matching → SearchesUnion index targets query options matching) ∧
      (SearchesUnion index targets query options matching →
        options.from' = 0 ∨ (options.collapse = none ∧ (targets.flatMap matching).Nodup) →
        UnionFits options targets matching) := by
  have hslice := mergeDocuments_slice hdocs
  have hlength := length_resultList_unionOf_le options targets matching
  have hfrom : options.from' = 0 ↔ options.from'.toNat = 0 := UInt64.toNat_inj.symm
  rw [searchesUnion_iff hfound hfetch, unionFits_iff hdocs, map_orderDocuments hdocs, orderDocuments_unionOf hdocs,
    hfrom]
  constructor
  · refine mergedPages_eq perm_mergeDocuments hslice (fun L hL => ?_) hlength unionOf_of_lone
    obtain ⟨docs, hmem, rfl⟩ := List.mem_map.1 hL
    obtain ⟨target, htarget, rfl⟩ := List.mem_map.1 hmem
    exact length_resultList_le (List.mem_map_of_mem (mem_firsts.2 htarget))
  · intro hpages hcase
    by_cases hzero : options.from'.toNat = 0
    · -- the first page tells whether the union fits
      rw [hzero] at hpages ⊢
      rcases of_mergedPages_eq_first perm_mergeDocuments hlength hpages with hnone | hempty | hlone | hfits
      · exact .inl hnone
      · exact .inr (.inl hempty)
      · exact .inr (.inr (.inl hlone))
      · exact .inr (.inr (.inr (.inl hfits)))
    · -- a later page does so only if no document is found twice
      obtain ⟨hcollapse, hnodup⟩ := hcase.resolve_left hzero
      obtain ⟨hmerge, hresults⟩ := resultList_unionOf hfound hcollapse hnodup
      have hperm : (resultList options (unionOf targets matching)).Perm
          ((targets.map matching).map (resultList options)).flatten := by
        rw [hmerge]
        exact perm_sortBy _ _
      have hsub : ∀ L ∈ (targets.map matching).map (resultList options),
          List.Sublist L (resultList options (unionOf targets matching)) := by
        intro L hL
        rw [hmerge]
        exact sublist_sortBy (pairwise_of_mem_results hL) (List.sublist_flatten_of_mem hL)
      rcases of_mergedPages_eq_later perm_mergeDocuments hslice hperm hsub (hperm.nodup_iff.1 hresults) hzero
        hpages with hnone | hpast | hlone | hleads
      · exact .inl hnone
      · exact .inr (.inl hpast)
      · exact .inr (.inr (.inl hlone))
      · exact .inr (.inr (.inr (.inr hleads)))

end Union

/-- Two collections with one document each. -/
def shelves : CollectionIndexManager :=
  { CollectionIndexManager.newInRam with
    collections := ((∅ : ExtTreeMap String CollectionIndex).insert "books"
      (CollectionIndexManager.wordCollection 1)).insert "films" (CollectionIndexManager.wordCollection 1) }

/-- What matches in each of them. -/
def oneEach (_target : String) : List ScoredDocument := CollectionIndexManager.wordHits 1

theorem found_shelves : Found shelves CollectionIndexManager.wordQuery ["books", "films"] oneEach := by
  intro target htarget
  refine CollectionIndexManager.matchingDocuments_wordCollection rfl ?_
  rcases List.mem_pair.1 htarget with rfl | rfl
  · rw [shelves, ExtTreeMap.getElem?_insert, if_neg (by decide), ExtTreeMap.getElem?_insert_self]
  · exact ExtTreeMap.getElem?_insert_self

theorem length_orderDocuments_plain (from' size : UInt64) (docs : List ScoredDocument) :
    (orderDocuments (CollectionIndexManager.plainOptions from' size) docs).length = docs.length := by
  have horder : orderDocuments (CollectionIndexManager.plainOptions from' size) docs =
      sortBy compareByScore docs := rfl
  rw [horder, length_sortBy]

theorem fetch_shelves (from' size : UInt64) :
    ∀ target ∈ ["books", "films"],
      (oneEach target).length ≤ CollectionIndexManager.fetchLimit (CollectionIndexManager.plainOptions from' size) := by
  intro target _
  rw [oneEach, CollectionIndexManager.length_wordHits, CollectionIndexManager.fetchLimit]
  exact le_max_of_le_right (by decide)

/-- Both documents fit in a page of ten. -/
theorem fan_out_search_union_shelves :
    SearchesUnion shelves ["books", "films"] CollectionIndexManager.wordQuery
      (CollectionIndexManager.plainOptions 0 10) oneEach := by
  refine (fan_out_search_union found_shelves (fetch_shelves 0 10) ?_).1 ?_
  · intro target _ doc hdoc
    obtain ⟨hit, -, rfl⟩ := List.mem_map.1 hdoc
    refine ⟨rfl, ?_⟩
    rintro clause ⟨⟩
  · refine .inr (.inr (.inr (.inl ⟨rfl, ?_, fun target htwice => ?_, ?_, ?_⟩)))
    · simp [length_orderDocuments_plain, oneEach, CollectionIndexManager.length_wordHits]
      decide
    · have hnodup : ["books", "films"].Nodup := by decide
      exact absurd htwice (Nat.not_lt.2 (List.nodup_iff_count_le_one.1 hnodup target))
    · intro collapse hcollapse
      cases hcollapse
    · intro hsort
      exact absurd rfl hsort

/-- A page of one document, of two collections that have one each, holds both. -/
theorem shelves_page_too_long :
    ¬ SearchesUnion shelves ["books", "films"] CollectionIndexManager.wordQuery
      (CollectionIndexManager.plainOptions 0 1) oneEach := by
  rw [searchesUnion_iff found_shelves (fetch_shelves 0 1)]
  intro hpage
  have hlength := congrArg List.length hpage
  rw [(perm_mergeDocuments _).length_eq, length_slices, length_slice] at hlength
  simp only [List.map_cons, List.map_nil, List.sum_cons, List.sum_nil, length_orderDocuments_plain, oneEach,
    CollectionIndexManager.length_wordHits] at hlength
  exact absurd hlength (by decide)

end MSearchDB.Node
