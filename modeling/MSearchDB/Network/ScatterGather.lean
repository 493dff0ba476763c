import MSearchDB.Core.ClusterRouter
import MSearchDB.Core.Serde
import MSearchDB.Index.TantivyIndex
import MSearchDB.Lib.OrderedMap
import MSearchDB.Lib.TopK
import MSearchDB.Network.ForwardWrite

/-!
# Scatter and gather

`scatter_search` and `scatter_search_with_pool` of `crates/network/src/scatter_gather.rs`,
the call of a node that they make (`NodeClient::search` of `client.rs`) and the service
that answers it (`QueryServiceImpl::search` of `server.rs`).

The call carries a limit, and the service does not read it: a node answers with its ten
best documents, if query and answer are read as they were written (`search_served`). The
answers arrive in any order, some nodes fail or run out of time, and the values of the
`HashMap` that removes duplicates come in any order.

`scatter_search_top_iff` says when the gathered documents are the best of all nodes, and
`scatter_total_iff` when their number is counted right: the totals of the nodes are added
up, so every copy of a document counts.
-/

set_option autoImplicit false

namespace MSearchDB.Network

open MSearchDB.Lib
open MSearchDB.Core
open MSearchDB.Index
open Std (ExtTreeMap)

/-- `proto::SearchRequest`. -/
structure SearchRequest where
  query : Bytes
  limit : UInt32
  deriving DecidableEq

/-- `proto::SearchResponse`. -/
structure SearchResponse where
  result : Bytes
  error : String
  deriving DecidableEq

/-- `NodeClient`: what a call of `Search` over its channel returns. -/
structure QueryClient where
  call : SearchRequest → Except Status SearchResponse

/-! ## One node -/

section Node

variable [Searcher] [SerdeJson Query] [SerdeJson SearchResult]

/-- `QueryServiceImpl::search` on the index of a node. -/
def serveSearch (index : TantivyIndex) (request : SearchRequest) : Except Status SearchResponse :=
  match SerdeJson.fromSlice request.query with
  | .error e => .error (.invalidArgument ("failed to deserialize Query: " ++ e))
  | .ok (query : Query) =>
      match index.search query with
      | .ok result =>
          match SerdeJson.toVec result with
          | .error e => .error (.internal ("failed to serialize SearchResult: " ++ e))
          | .ok payload => .ok ⟨payload, ""⟩
      | .error e => .ok ⟨[], e.toString⟩

/-- A client whose channel ends at the index of a node, the network delivering both
messages. -/
def QueryClient.connectedTo (index : TantivyIndex) : QueryClient := ⟨serveSearch index⟩

omit [Searcher] in
/-- `NodeClient::search`. -/
def QueryClient.search [StatusDisplay] (client : QueryClient) (query : Query) (limit : UInt64) :
    DbResult SearchResult :=
  match SerdeJson.toVec query with
  | .error e => .error (.serializationError ("serialize Query: " ++ e))
  | .ok bytes =>
      match client.call ⟨bytes, limit.toUInt32⟩ with
      | .error e => .error (.networkError ("search RPC failed: " ++ StatusDisplay.fmt e))
      | .ok inner =>
          if inner.error ≠ "" then .error (.networkError ("remote search error: " ++ inner.error))
          else
            match SerdeJson.fromSlice inner.result with
            | .error e => .error (.serializationError ("deserialize SearchResult: " ++ e))
            | .ok result => .ok result

/-- **A node answers with its ten best documents**, whatever the limit of the call. -/
theorem search_served [StatusDisplay] {index : TantivyIndex} {query : Query} {docs : List ScoredDocument}
    (hquery : SerdeJson.ReadsBack query) (hdocs : index.matchingDocuments query = .ok docs)
    (hresult : SerdeJson.ReadsBack (SearchResult.mk (docs.take CollectionIndexManager.defaultSearchLimit)
      (docs.take CollectionIndexManager.defaultSearchLimit).length ∅)) (limit : UInt64) :
    (QueryClient.connectedTo index).search query limit =
      .ok ⟨docs.take CollectionIndexManager.defaultSearchLimit,
        (docs.take CollectionIndexManager.defaultSearchLimit).length, ∅⟩ := by
  obtain ⟨bytes, hwrite, hread⟩ := hquery
  obtain ⟨payload, hpayload, hback⟩ := hresult
  have hsearch := TantivyIndex.searchSync_eq hdocs CollectionIndexManager.defaultSearchLimit
  simp only [QueryClient.search, hwrite, QueryClient.connectedTo, serveSearch, hread, TantivyIndex.search,
    hsearch, hpayload, ne_eq, not_true_eq_false, if_false, hback]

end Node

/-! ## Removing duplicates and ranking -/

/-- One turn of the loop of `deduplicate_results`. -/
def keepBest (best : ExtTreeMap String ScoredDocument) (scored : ScoredDocument) :
    ExtTreeMap String ScoredDocument :=
  match best[scored.document.id.val]? with
  | some existing =>
      if scored.score.partialCmp existing.score = some .gt then best.insert scored.document.id.val scored
      else best
  | none => best.insert scored.document.id.val scored

/-- `deduplicate_results`. -/
def deduplicateResults (order : HashOrder ScoredDocument) (docs : List ScoredDocument) :
    List ScoredDocument :=
  (order.iter (docs.foldl keepBest ∅)).map Prod.snd

/-- `rank_results`. -/
def rankResults (docs : List ScoredDocument) (limit : UInt64) : List ScoredDocument :=
  (sortBy compareByScore docs).take limit.toNat

/-- The id by which documents are the same. -/
def docId (doc : ScoredDocument) : DocumentId := doc.document.id

/-- The place of a score among the numbers. -/
def scoreRank (doc : ScoredDocument) : Int := doc.score.rank

/-- The map holds, for each id of the documents, one with the best score. -/
def HoldsBest (best : ExtTreeMap String ScoredDocument) (docs : List ScoredDocument) : Prop :=
  (∀ k x, best[k]? = some x → x ∈ docs ∧ x.document.id.val = k ∧
    ∀ z ∈ docs, docId z = docId x → scoreRank z ≤ scoreRank x) ∧
  ∀ z ∈ docs, (best[z.document.id.val]?).isSome

section Best

variable {best : ExtTreeMap String ScoredDocument} {docs : List ScoredDocument} {scored : ScoredDocument}

theorem holdsBest_insert (h : HoldsBest best docs)
    (hle : ∀ existing, best[scored.document.id.val]? = some existing → scoreRank existing ≤ scoreRank scored) :
    HoldsBest (best.insert scored.document.id.val scored) (docs ++ [scored]) := by
  constructor
  · intro k x hx
    rw [ExtTreeMap.getElem?_insert] at hx
    split at hx
    next hk =>
      obtain rfl : scored.document.id.val = k := Std.compare_eq_iff_eq.1 hk
      obtain rfl := Option.some.inj hx
      refine ⟨by simp, rfl, fun z hz hid => ?_⟩
      rcases List.mem_append.1 hz with hz | hz
      · obtain ⟨existing, hexisting⟩ := Option.isSome_iff_exists.1 (h.2 z hz)
        have hval : z.document.id.val = scored.document.id.val := congrArg DocumentId.val hid
        rw [hval] at hexisting
        obtain ⟨-, hkey, hbest⟩ := h.1 _ _ hexisting
        exact (hbest z hz (hid.trans (congrArg DocumentId.mk hkey.symm))).trans (hle existing hexisting)
      · rw [List.mem_singleton.1 hz]
    next hk =>
      obtain ⟨hmem, hkey, hbest⟩ := h.1 k x hx
      refine ⟨List.mem_append_left _ hmem, hkey, fun z hz hid => ?_⟩
      rcases List.mem_append.1 hz with hz | hz
      · exact hbest z hz hid
      · rw [List.mem_singleton.1 hz] at hid
        have hval : scored.document.id.val = x.document.id.val := congrArg DocumentId.val hid
        exact absurd (Std.compare_eq_iff_eq.2 (hval.trans hkey)) hk
  · intro z hz
    rw [ExtTreeMap.getElem?_insert]
    split
    · rfl
    next hk =>
      rcases List.mem_append.1 hz with hz | hz
      · exact h.2 z hz
      · rw [List.mem_singleton.1 hz] at hk
        exact absurd (Std.compare_eq_iff_eq.2 rfl) hk

theorem holdsBest_keep (h : HoldsBest best docs) {existing : ScoredDocument}
    (hexisting : best[scored.document.id.val]? = some existing)
    (hle : scoreRank scored ≤ scoreRank existing) : HoldsBest best (docs ++ [scored]) := by
  constructor
  · intro k x hx
    obtain ⟨hmem, hkey, hbest⟩ := h.1 k x hx
    refine ⟨List.mem_append_left _ hmem, hkey, fun z hz hid => ?_⟩
    rcases List.mem_append.1 hz with hz | hz
    · exact hbest z hz hid
    · rw [List.mem_singleton.1 hz] at hid ⊢
      have hval : scored.document.id.val = x.document.id.val := congrArg DocumentId.val hid
      rw [hval.trans hkey, hx] at hexisting
      rwa [Option.some.inj hexisting]
  · intro z hz
    rcases List.mem_append.1 hz with hz | hz
    · exact h.2 z hz
    · rw [List.mem_singleton.1 hz, hexisting]
      rfl

theorem holdsBest_keepBest (h : HoldsBest best docs) (hdocs : ∀ doc ∈ docs, doc.score.isNan = false)
    (hscored : scored.score.isNan = false) : HoldsBest (keepBest best scored) (docs ++ [scored]) := by
  unfold keepBest
  cases hexisting : best[scored.document.id.val]? with
  | none =>
      refine holdsBest_insert h fun existing hsome => ?_
      rw [hexisting] at hsome
      cases hsome
  | some existing =>
      have hnan := hdocs existing (h.1 _ _ hexisting).1
      have hcmp := F32.partialCmp_of_not_nan hscored hnan
      have hgt : scored.score.partialCmp existing.score = some .gt ↔ scoreRank existing < scoreRank scored := by
        rw [hcmp, Option.some.injEq, Int.compare_eq_gt]
        rfl
      simp only [hgt]
      split
      next hlt =>
        refine holdsBest_insert h fun existing' hsome => ?_
        rw [hexisting] at hsome
        rw [← Option.some.inj hsome]
        exact le_of_lt hlt
      next hle => exact holdsBest_keep h hexisting (not_lt.1 hle)

theorem holdsBest_foldl (hdocs : ∀ doc ∈ docs, doc.score.isNan = false) :
    HoldsBest (docs.foldl keepBest ∅) docs := by
  induction docs using List.reverseRecOn with
  | nil => exact ⟨fun k x hx => by simp at hx, fun z hz => nomatch hz⟩
  | append_singleton docs scored ih =>
      rw [List.foldl_append]
      have hbefore : ∀ doc ∈ docs, doc.score.isNan = false :=
        fun doc hdoc => hdocs doc (List.mem_append_left _ hdoc)
      exact holdsBest_keepBest (ih hbefore) hbefore (hdocs scored (by simp))

end Best

theorem perm_deduplicateResults (order : HashOrder ScoredDocument) (docs : List ScoredDocument) :
    (deduplicateResults order docs).Perm ((docs.foldl keepBest ∅).toList.map Prod.snd) :=
  (order.perm _).map Prod.snd

/-- The scores of a ranked list do not increase. -/
theorem pairwise_sortBy_compareByScore {docs : List ScoredDocument}
    (hdocs : ∀ doc ∈ docs, doc.score.isNan = false) :
    (sortBy compareByScore docs).Pairwise fun x y => scoreRank y ≤ scoreRank x := by
  have hcongr : sortBy compareByScore docs = sortBy scoreCmp docs :=
    sortBy_congr fun a ha b hb => compareByScore_eq (hdocs a ha) (hdocs b hb)
  have hpairwise : (sortBy scoreCmp docs).Pairwise fun a b => (scoreCmp a b).isLE = true := pairwise_sortBy docs
  rw [hcongr]
  exact hpairwise.imp fun {a b} hle => Int.isLE_compare.1 hle

/-- The map keeps one best document for every id. -/
theorem bestPerKey_deduplicateResults (order : HashOrder ScoredDocument) {docs : List ScoredDocument}
    (hdocs : ∀ doc ∈ docs, doc.score.isNan = false) :
    BestPerKey docId scoreRank docs (deduplicateResults order docs) := by
  have hbest := holdsBest_foldl hdocs
  have hkept : BestPerKey docId scoreRank docs ((docs.foldl keepBest ∅).toList.map Prod.snd) := by
    have hentry : ∀ {entry}, entry ∈ (docs.foldl keepBest ∅).toList →
        entry.2 ∈ docs ∧ entry.2.document.id.val = entry.1 ∧
          ∀ z ∈ docs, docId z = docId entry.2 → scoreRank z ≤ scoreRank entry.2 := by
      intro entry hentry
      exact hbest.1 _ _ (ExtTreeMap.mem_toList_iff_getElem?_eq_some.1 hentry)
    refine ⟨fun x hx => ?_, ?_, fun z hz => ?_, fun x hx => ?_⟩
    · obtain ⟨entry, hmem, rfl⟩ := List.mem_map.1 hx
      exact (hentry hmem).1
    · -- the keys of the map are the ids
      have hids : ((docs.foldl keepBest ∅).toList.map Prod.snd).map docId =
          ((docs.foldl keepBest ∅).toList.map Prod.fst).map DocumentId.mk := by
        rw [List.map_map, List.map_map]
        exact List.map_congr_left fun entry hmem => congrArg DocumentId.mk (hentry hmem).2.1
      rw [hids]
      exact (nodup_fst_of_perm (List.Perm.refl _)).map fun a b hab => DocumentId.mk.inj hab
    · obtain ⟨x, hx⟩ := Option.isSome_iff_exists.1 (hbest.2 z hz)
      have hid : docId x = docId z := congrArg DocumentId.mk (hbest.1 _ _ hx).2.1
      rw [← hid]
      refine List.mem_map_of_mem (List.mem_map.2 ⟨(z.document.id.val, x), ?_, rfl⟩)
      exact ExtTreeMap.mem_toList_iff_getElem?_eq_some.2 hx
    · obtain ⟨entry, hmem, rfl⟩ := List.mem_map.1 hx
      exact (hentry hmem).2.2
  exact hkept.of_perm (perm_deduplicateResults order docs)

theorem pairwise_sortBy_deduplicateResults (order : HashOrder ScoredDocument) {docs : List ScoredDocument}
    (hdocs : ∀ doc ∈ docs, doc.score.isNan = false) :
    (sortBy compareByScore (deduplicateResults order docs)).Pairwise fun x y => scoreRank y ≤ scoreRank x :=
  pairwise_sortBy_compareByScore fun doc hdoc => hdocs doc ((bestPerKey_deduplicateResults order hdocs).mem doc hdoc)

/-- **The best of the documents gathered.** Duplicates are removed, and the rest is ranked
and cut. -/
theorem isTop_rankResults (order : HashOrder ScoredDocument) {docs : List ScoredDocument}
    (hdocs : ∀ doc ∈ docs, doc.score.isNan = false) (limit : UInt64) :
    IsTop docId scoreRank limit.toNat docs (rankResults (deduplicateResults order docs) limit) :=
  isTop_take ((bestPerKey_deduplicateResults order hdocs).of_perm (perm_sortBy compareByScore _))
    (pairwise_sortBy_deduplicateResults order hdocs) _

/-! ## Gathering -/

section Gather

variable [StatusDisplay] [SerdeJson Query] [SerdeJson SearchResult]

/-- The order in which the calls of some nodes end, and those that end in time. -/
structure Arrival (ν : Type) (nodes : List ν) where
  calls : List (ν × Bool)
  perm : (calls.map Prod.fst).Perm nodes

omit [StatusDisplay] [SerdeJson Query] [SerdeJson SearchResult] in
theorem Arrival.calls_eq_nil {ν : Type} {nodes : List ν} (arrival : Arrival ν nodes) (h : nodes = []) :
    arrival.calls = [] := by
  subst h
  exact List.map_eq_nil_iff.1 arrival.perm.eq_nil

/-- What the loop over the calls has gathered: the documents and the total. -/
structure Gathered where
  documents : List ScoredDocument
  total : Nat

/-- One turn of the loop: nodes that failed or ran out of time are skipped. -/
def gatherStep (query : Query) (limit : UInt64) (acc : Gathered) (call : (NodeId × QueryClient) × Bool) :
    Gathered :=
  if call.2 then
    match call.1.2.search query limit with
    | .ok result => ⟨acc.documents ++ result.documents, acc.total + result.total⟩
    | .error _ => acc
  else acc

/-- The loop over the calls, and what follows it. -/
def gather (order : HashOrder ScoredDocument) (query : Query) (limit : UInt64)
    (calls : List ((NodeId × QueryClient) × Bool)) : SearchResult :=
  let gathered := calls.foldl (gatherStep query limit) ⟨[], 0⟩
  ⟨rankResults (deduplicateResults order gathered.documents) limit, gathered.total, ∅⟩

/-- `scatter_search`. -/
def scatterSearch (order : HashOrder ScoredDocument) (nodes : List (NodeId × QueryClient)) (query : Query)
    (limit : UInt64) (arrival : Arrival (NodeId × QueryClient) nodes) : DbResult SearchResult :=
  if nodes = [] then .ok SearchResult.empty else .ok (gather order query limit arrival.calls)

/-- `ConnectionPool`, with its state, as far as it is used here. -/
structure Pool (σ Address : Type) where
  get : σ → NodeId → Address → DbResult QueryClient × σ
  recordSuccess : σ → NodeId → σ
  recordFailure : σ → NodeId → σ

/-- The first loop of `scatter_search_with_pool`: nodes for which the pool has no client
are skipped. -/
def Pool.acquire {σ Address : Type} (pool : Pool σ Address) :
    σ → List (NodeId × Address) → List (NodeId × QueryClient) × σ
  | st, [] => ([], st)
  | st, (nid, addr) :: rest =>
      match pool.get st nid addr with
      | (.ok client, st) =>
          let (clients, st) := pool.acquire st rest
          ((nid, client) :: clients, st)
      | (.error _, st) => pool.acquire st rest

/-- What the second loop records about a node. -/
def Pool.record {σ Address : Type} (pool : Pool σ Address) (query : Query) (limit : UInt64) (st : σ)
    (call : (NodeId × QueryClient) × Bool) : σ :=
  if call.2 then
    match call.1.2.search query limit with
    | .ok _ => pool.recordSuccess st call.1.1
    | .error _ => pool.recordFailure st call.1.1
  else pool.recordFailure st call.1.1

/-- `scatter_search_with_pool`. -/
def scatterSearchWithPool {σ Address : Type} (order : HashOrder ScoredDocument) (pool : Pool σ Address)
    (st : σ) (nodeAddrs : List (NodeId × Address)) (query : Query) (limit : UInt64)
    (arrival : Arrival (NodeId × QueryClient) (pool.acquire st nodeAddrs).1) : DbResult SearchResult × σ :=
  if nodeAddrs = [] then (.ok SearchResult.empty, st)
  else (.ok (gather order query limit arrival.calls),
    arrival.calls.foldl (pool.record query limit) (pool.acquire st nodeAddrs).2)

/-- The answers that came in time. -/
def answersOf (query : Query) (limit : UInt64) (calls : List ((NodeId × QueryClient) × Bool)) :
    List SearchResult :=
  calls.filterMap fun call => if call.2 then (call.1.2.search query limit).toOption else none

theorem foldl_gatherStep (query : Query) (limit : UInt64) (calls : List ((NodeId × QueryClient) × Bool))
    (acc : Gathered) :
    calls.foldl (gatherStep query limit) acc =
      ⟨acc.documents ++ (answersOf query limit calls).flatMap SearchResult.documents,
        acc.total + ((answersOf query limit calls).map SearchResult.total).sum⟩ := by
  induction calls generalizing acc with
  | nil => simp [answersOf]
  | cons call calls ih =>
      obtain ⟨⟨nid, client⟩, inTime⟩ := call
      rw [List.foldl_cons, ih]
      cases inTime with
      | false => simp [answersOf, gatherStep]
      | true =>
          cases hsearch : client.search query limit with
          | error e => simp [answersOf, gatherStep, hsearch, Except.toOption]
          | ok result => simp [answersOf, gatherStep, hsearch, Except.toOption, Nat.add_assoc]

/-- **What is gathered**, from the answers that came in time. -/
theorem gather_eq (order : HashOrder ScoredDocument) (query : Query) (limit : UInt64)
    (calls : List ((NodeId × QueryClient) × Bool)) :
    gather order query limit calls =
      ⟨rankResults (deduplicateResults order ((answersOf query limit calls).flatMap SearchResult.documents))
        limit, ((answersOf query limit calls).map SearchResult.total).sum, ∅⟩ := by
  rw [gather, foldl_gatherStep]
  simp

theorem gather_nil (order : HashOrder ScoredDocument) (query : Query) (limit : UInt64) :
    gather order query limit [] = SearchResult.empty := by
  have hiter : order.iter ∅ = [] := by
    have hperm : (order.iter ∅).Perm [] := order.perm ∅
    exact hperm.eq_nil
  rw [gather_eq]
  simp [answersOf, rankResults, deduplicateResults, hiter, sortBy, SearchResult.empty]

theorem scatterSearch_eq (order : HashOrder ScoredDocument) {nodes : List (NodeId × QueryClient)}
    (query : Query) (limit : UInt64) (arrival : Arrival (NodeId × QueryClient) nodes) :
    scatterSearch order nodes query limit arrival = .ok (gather order query limit arrival.calls) := by
  unfold scatterSearch
  split
  next hnil => rw [arrival.calls_eq_nil hnil, gather_nil]
  · rfl

theorem scatterSearchWithPool_eq {σ Address : Type} (order : HashOrder ScoredDocument)
    (pool : Pool σ Address) (st : σ) (nodeAddrs : List (NodeId × Address)) (query : Query) (limit : UInt64)
    (arrival : Arrival (NodeId × QueryClient) (pool.acquire st nodeAddrs).1) :
    (scatterSearchWithPool order pool st nodeAddrs query limit arrival).1 =
      .ok (gather order query limit arrival.calls) := by
  unfold scatterSearchWithPool
  split
  next hnil =>
    have hacquired : (pool.acquire st nodeAddrs).1 = [] := by
      rw [hnil]
      rfl
    rw [arrival.calls_eq_nil hacquired, gather_nil]
  · rfl

end Gather

/-! ## The best of all nodes -/

section Top

variable [Searcher] [StatusDisplay] [SerdeJson Query] [SerdeJson SearchResult]

/-- The documents that a node answers with, of those that match. -/
def tenBest (docs : List ScoredDocument) : List ScoredDocument :=
  docs.take CollectionIndexManager.defaultSearchLimit

/-- The client leads to a node on which `docs` match the query, and both messages are read as
they were written. -/
def Serves (query : Query) (client : QueryClient) (docs : List ScoredDocument) : Prop :=
  ∃ index, client = QueryClient.connectedTo index ∧ index.matchingDocuments query = .ok docs ∧
    SerdeJson.ReadsBack query ∧ SerdeJson.ReadsBack (SearchResult.mk (tenBest docs) (tenBest docs).length ∅)

/-- The nodes that answer in time have the documents `found`, in the order of arrival. -/
def Answering (query : Query) (calls : List ((NodeId × QueryClient) × Bool))
    (found : List (List ScoredDocument)) : Prop :=
  List.Forall₂ (fun call docs => Serves query call.1.2 docs) (calls.filter Prod.snd) found

theorem answersOf_eq {query : Query} {calls : List ((NodeId × QueryClient) × Bool)}
    {found : List (List ScoredDocument)} (h : Answering query calls found) (limit : UInt64) :
    answersOf query limit calls = found.map fun docs => ⟨tenBest docs, (tenBest docs).length, ∅⟩ := by
  have hfilter : answersOf query limit calls =
      (calls.filter Prod.snd).filterMap fun call => (call.1.2.search query limit).toOption := by
    rw [answersOf, List.filterMap_filter]
  have hanswer : ∀ {call : (NodeId × QueryClient) × Bool} {docs : List ScoredDocument},
      Serves query call.1.2 docs →
      call.1.2.search query limit = .ok ⟨tenBest docs, (tenBest docs).length, ∅⟩ := by
    rintro call docs ⟨index, hclient, hdocs, hquery, hresult⟩
    rw [hclient]
    exact search_served hquery hdocs hresult limit
  rw [hfilter]
  unfold Answering at h
  generalize calls.filter Prod.snd = inTime at h ⊢
  induction h with
  | nil => rfl
  | cons hhead _ ih =>
      rw [List.filterMap_cons, hanswer hhead, ih]
      rfl

omit [Searcher] [StatusDisplay] [SerdeJson Query] [SerdeJson SearchResult] in
/-- The ten best of each node suffice: for every document beyond them, some node answers
with a copy that scores as much, or the nodes answer with `limit` ids that do. -/
def TenSuffice (limit : UInt64) (found : List (List ScoredDocument)) : Prop :=
  ∀ docs ∈ found, ∀ z ∈ docs.drop CollectionIndexManager.defaultSearchLimit,
    (∃ docs' ∈ found, ∃ y ∈ tenBest docs', docId y = docId z ∧ scoreRank z ≤ scoreRank y) ∨
      Crowded docId scoreRank limit.toNat (found.flatMap tenBest) (scoreRank z)

omit [Searcher] [StatusDisplay] [SerdeJson Query] [SerdeJson SearchResult] in
theorem covers_iff_tenSuffice {limit : UInt64} {found : List (List ScoredDocument)} :
    Covers docId scoreRank limit.toNat (found.flatMap tenBest) found.flatten ↔ TenSuffice limit found := by
  have hpart : ∀ z, (∃ y ∈ found.flatMap tenBest, docId y = docId z ∧ scoreRank z ≤ scoreRank y) ↔
      ∃ docs' ∈ found, ∃ y ∈ tenBest docs', docId y = docId z ∧ scoreRank z ≤ scoreRank y := by
    intro z
    constructor
    · rintro ⟨y, hy, hsame⟩
      obtain ⟨docs', hdocs', hy⟩ := List.mem_flatMap.1 hy
      exact ⟨docs', hdocs', y, hy, hsame⟩
    · rintro ⟨docs', hdocs', y, hy, hsame⟩
      exact ⟨y, List.mem_flatMap.2 ⟨docs', hdocs', hy⟩, hsame⟩
  constructor
  · intro h docs hdocs z hz
    rw [← hpart]
    exact h z (List.mem_flatten.2 ⟨docs, hdocs, List.mem_of_mem_drop hz⟩)
  · intro h z hz
    obtain ⟨docs, hdocs, hz⟩ := List.mem_flatten.1 hz
    rw [hpart]
    rw [← List.take_append_drop CollectionIndexManager.defaultSearchLimit docs] at hz
    rcases List.mem_append.1 hz with hz | hz
    · exact .inl ⟨docs, hdocs, z, hz, rfl, le_rfl⟩
    · exact h docs hdocs z hz

/-- **Scatter-gather returns the best of all nodes exactly where ten of each suffice.**
All nodes answer in time, and the messages are read as they were written (`Serves`). -/
theorem scatter_search_top_iff (order : HashOrder ScoredDocument) {nodes : List (NodeId × QueryClient)}
    {query : Query} (limit : UInt64) (arrival : Arrival (NodeId × QueryClient) nodes)
    (htime : ∀ call ∈ arrival.calls, call.2 = true) {found : List (List ScoredDocument)}
    (hfound : List.Forall₂ (fun call docs => Serves query call.1.2 docs) arrival.calls found)
    (hscores : ∀ docs ∈ found, ∀ doc ∈ docs, doc.score.isNan = false) :
    ∃ result, scatterSearch order nodes query limit arrival = .ok result ∧
      (IsTop docId scoreRank limit.toNat found.flatten result.documents ↔ TenSuffice limit found) := by
  have hanswering : Answering query arrival.calls found := by
    rw [Answering, List.filter_eq_self.2 htime]
    exact hfound
  refine ⟨_, scatterSearch_eq order query limit arrival, ?_⟩
  rw [gather_eq, answersOf_eq hanswering, List.flatMap_map, ← covers_iff_tenSuffice]
  refine isTop_iff_covers (isTop_rankResults order (fun doc hdoc => ?_) limit) fun doc hdoc => ?_
  · obtain ⟨docs, hdocs, hdoc⟩ := List.mem_flatMap.1 hdoc
    exact hscores docs hdocs doc (List.mem_of_mem_take hdoc)
  · obtain ⟨docs, hdocs, hdoc⟩ := List.mem_flatMap.1 hdoc
    exact List.mem_flatten.2 ⟨docs, hdocs, List.mem_of_mem_take hdoc⟩

/-! ## The total -/

omit [Searcher] [StatusDisplay] [SerdeJson Query] [SerdeJson SearchResult] in
/-- A list has as many members as different ones exactly when it has none twice. -/
theorem length_eq_dedup_iff {ids : List DocumentId} : ids.length = ids.dedup.length ↔ ids.Nodup := by
  constructor
  · intro h
    rw [← (List.dedup_sublist ids).eq_of_length h.symm]
    exact List.nodup_dedup ids
  · intro h
    rw [h.dedup]

/-- The total that is gathered from complete answers. -/
theorem total_gather (order : HashOrder ScoredDocument) {query : Query} (limit : UInt64)
    {calls : List ((NodeId × QueryClient) × Bool)} {found : List (List ScoredDocument)}
    (hfound : Answering query calls found)
    (hcomplete : ∀ docs ∈ found, docs.length ≤ CollectionIndexManager.defaultSearchLimit) :
    (gather order query limit calls).total = (found.flatten.map docId).length := by
  have hlengths : found.map (fun docs => (tenBest docs).length) = found.map List.length := by
    refine List.map_congr_left fun docs hdocs => ?_
    rw [tenBest, List.take_of_length_le (hcomplete docs hdocs)]
  rw [gather_eq, answersOf_eq hfound, List.map_map, List.length_map, List.length_flatten, ← hlengths]
  rfl

/-- **Scatter-gather counts every copy.** The nodes that answer have no more documents
that match than they answer with, and the messages are read as they were written. Then the
total is the number of different ids exactly when no id is there twice, on one node or on
two. -/
theorem scatter_total_iff (order : HashOrder ScoredDocument) (query : Query) (limit : UInt64) :
    (∀ (nodes : List (NodeId × QueryClient)) (arrival : Arrival (NodeId × QueryClient) nodes)
      (found : List (List ScoredDocument)), Answering query arrival.calls found →
      (∀ docs ∈ found, docs.length ≤ CollectionIndexManager.defaultSearchLimit) →
      ∃ result, scatterSearch order nodes query limit arrival = .ok result ∧
        (result.total = (found.flatten.map docId).dedup.length ↔ (found.flatten.map docId).Nodup)) ∧
    ∀ (σ Address : Type) (pool : Pool σ Address) (st : σ) (nodeAddrs : List (NodeId × Address))
      (arrival : Arrival (NodeId × QueryClient) (pool.acquire st nodeAddrs).1)
      (found : List (List ScoredDocument)), Answering query arrival.calls found →
      (∀ docs ∈ found, docs.length ≤ CollectionIndexManager.defaultSearchLimit) →
      ∃ result, (scatterSearchWithPool order pool st nodeAddrs query limit arrival).1 = .ok result ∧
        (result.total = (found.flatten.map docId).dedup.length ↔ (found.flatten.map docId).Nodup) := by
  constructor
  · intro nodes arrival found hfound hcomplete
    refine ⟨_, scatterSearch_eq order query limit arrival, ?_⟩
    rw [total_gather order limit hfound hcomplete, length_eq_dedup_iff]
  · intro σ Address pool st nodeAddrs arrival found hfound hcomplete
    refine ⟨_, scatterSearchWithPool_eq order pool st nodeAddrs query limit arrival, ?_⟩
    rw [total_gather order limit hfound hcomplete, length_eq_dedup_iff]

end Top

/-! ## Nodes with eleven and with ten documents -/

/-- `serde_json` on the query for a word. -/
instance wordQueryJson : SerdeJson Query where
  toVec
    | .term q =>
        if q = ⟨"_body", "rust"⟩ then
          .ok (asBytes "\x7b\"Term\":\x7b\"field\":\"_body\",\"value\":\"rust\"\x7d\x7d")
        else .error "not covered"
    | _ => .error "not covered"
  fromSlice _ := .ok CollectionIndexManager.wordQuery

/-- What a node answers that has ten documents or more. -/
def tenAnswer : SearchResult := ⟨CollectionIndexManager.wordHits 10, 10, ∅⟩

/-- The JSON of one of its hits. -/
def hitJson (i : Nat) : String :=
  "\x7b\"document\":\x7b\"id\":\"" ++ toString i ++
    "\",\"fields\":\x7b\x7d,\"version\":\x7b\"clocks\":\x7b\x7d\x7d\x7d,\"score\":1.0\x7d"

/-- `serde_json` on this answer. -/
instance tenAnswerJson : SerdeJson SearchResult := oneValueJson tenAnswer
  (asBytes ("\x7b\"documents\":[" ++ ",".intercalate ((List.range 10).map hitJson) ++
    "],\"total\":10,\"took_ms\":0\x7d"))

/-- The texts of a status. -/
instance plainStatus : StatusDisplay where
  fmt _ := "status: Unavailable"

/-- A node with `n` documents. -/
def wordNode (id : NodeId) (n : Nat) : NodeId × QueryClient :=
  (id, QueryClient.connectedTo (TantivyIndex.ofWords n))

theorem serves_wordNode {id : NodeId} {n : Nat} (h : tenBest (CollectionIndexManager.wordHits n) =
    CollectionIndexManager.wordHits 10) :
    Serves CollectionIndexManager.wordQuery (wordNode id n).2 (CollectionIndexManager.wordHits n) := by
  refine ⟨TantivyIndex.ofWords n, rfl, TantivyIndex.matchingDocuments_ofWords n, ⟨_, if_pos rfl, rfl⟩, ?_⟩
  have hanswer : SearchResult.mk (tenBest (CollectionIndexManager.wordHits n))
      (tenBest (CollectionIndexManager.wordHits n)).length ∅ = tenAnswer := by
    rw [h, CollectionIndexManager.length_wordHits]
    rfl
  rw [hanswer]
  exact readsBack_oneValueJson _ _

theorem tenBest_wordHits_eleven : tenBest (CollectionIndexManager.wordHits 11) =
    CollectionIndexManager.wordHits 10 := by
  simp [tenBest, CollectionIndexManager.wordHits, CollectionIndexManager.wordDocs, ← List.map_take,
    List.take_range, CollectionIndexManager.defaultSearchLimit]

theorem ids_wordHits (n : Nat) :
    (CollectionIndexManager.wordHits n).map docId = (List.range n).map fun i => ⟨toString i⟩ := by
  have hid : initialFieldMap["_id"]? = some 0 := by decide
  rw [CollectionIndexManager.wordHits, CollectionIndexManager.wordDocs, List.map_map, List.map_map]
  refine List.map_congr_left fun i _ => ?_
  simp only [Function.comp_apply, docId, scoredDocument, reconstructDocument, hid]
  rfl

theorem nodup_ids_wordHits (n : Nat) : ((CollectionIndexManager.wordHits n).map docId).Nodup := by
  rw [ids_wordHits]
  refine List.nodup_range.map fun i j hij => ?_
  exact Nat.repr_inj.1 (DocumentId.mk.inj hij)

theorem score_wordHits {n : Nat} {doc : ScoredDocument} (h : doc ∈ CollectionIndexManager.wordHits n) :
    doc.score = ⟨0x3f800000⟩ := by
  obtain ⟨hit, -, rfl⟩ := List.mem_map.1 h
  rfl

/-- The calls of nodes that answer in the order in which they were called. -/
def inOrder (nodes : List (NodeId × QueryClient)) : Arrival (NodeId × QueryClient) nodes :=
  ⟨nodes.map fun node => (node, true), by simp [Function.comp_def]⟩

/-- Ten documents of eleven that score the same are the ten best. -/
theorem scatter_search_top_ten_of_eleven :
    ∃ result, scatterSearch (keyOrder _) [wordNode 1 11] CollectionIndexManager.wordQuery 10
        (inOrder [wordNode 1 11]) = .ok result ∧
      IsTop docId scoreRank 10 (CollectionIndexManager.wordHits 11) result.documents := by
  have hfound : List.Forall₂ (fun call docs => Serves CollectionIndexManager.wordQuery call.1.2 docs)
      (inOrder [wordNode 1 11]).calls [CollectionIndexManager.wordHits 11] :=
    .cons (serves_wordNode tenBest_wordHits_eleven) .nil
  have hscores : ∀ docs ∈ [CollectionIndexManager.wordHits 11], ∀ doc ∈ docs, doc.score.isNan = false := by
    intro docs hdocs doc hdoc
    rw [List.mem_singleton.1 hdocs] at hdoc
    rw [score_wordHits hdoc]
    rfl
  obtain ⟨result, hresult, htop⟩ := scatter_search_top_iff (keyOrder _) 10 (inOrder [wordNode 1 11])
    (fun call hcall => by obtain ⟨node, -, rfl⟩ := List.mem_map.1 hcall; rfl) hfound hscores
  have hsuffice : TenSuffice 10 [CollectionIndexManager.wordHits 11] := by
    intro docs hdocs z hz
    rw [List.mem_singleton.1 hdocs] at hz
    have hzscore := score_wordHits (List.mem_of_mem_drop hz)
    refine .inr ⟨CollectionIndexManager.wordHits 10, fun y hy => ⟨?_, ?_⟩, nodup_ids_wordHits 10, ?_⟩
    · rw [List.flatMap_singleton, tenBest_wordHits_eleven]
      exact hy
    · rw [scoreRank, scoreRank, hzscore, score_wordHits hy]
    · exact CollectionIndexManager.length_wordHits 10
  have hall := htop.2 hsuffice
  rw [List.flatten_singleton] at hall
  exact ⟨result, hresult, hall⟩

theorem length_dedup_ids_wordHits (n : Nat) :
    ((CollectionIndexManager.wordHits n).map docId).dedup.length = n := by
  rw [(nodup_ids_wordHits n).dedup, List.length_map, CollectionIndexManager.length_wordHits]

/-- One node with eleven documents, asked for eleven, answers with ten. -/
theorem scatter_search_ten_of_eleven :
    Answering CollectionIndexManager.wordQuery (inOrder [wordNode 1 11]).calls
        [CollectionIndexManager.wordHits 11] ∧
      ∃ result, scatterSearch (keyOrder _) [wordNode 1 11] CollectionIndexManager.wordQuery 11
          (inOrder [wordNode 1 11]) = .ok result ∧
        ¬ IsTop docId scoreRank 11 (CollectionIndexManager.wordHits 11) result.documents := by
  have hanswering : Answering CollectionIndexManager.wordQuery (inOrder [wordNode 1 11]).calls
      [CollectionIndexManager.wordHits 11] := .cons (serves_wordNode tenBest_wordHits_eleven) .nil
  refine ⟨hanswering, _, scatterSearch_eq _ _ _ _, fun htop => ?_⟩
  have hgathered : IsTop docId scoreRank 11 (CollectionIndexManager.wordHits 10) (rankResults
      (deduplicateResults (keyOrder _) (CollectionIndexManager.wordHits 10)) 11) := by
    refine isTop_rankResults (keyOrder _) (fun doc hdoc => ?_) 11
    rw [score_wordHits hdoc]
    rfl
  have hlength := htop.length
  rw [gather_eq, answersOf_eq hanswering, List.flatMap_map, List.flatMap_singleton,
    tenBest_wordHits_eleven, hgathered.length, length_dedup_ids_wordHits, length_dedup_ids_wordHits] at hlength
  exact absurd hlength (by decide)

/-- Two nodes with the same ten documents count twenty. -/
theorem scatter_total_twenty_of_ten :
    Answering CollectionIndexManager.wordQuery (inOrder [wordNode 1 10, wordNode 2 10]).calls
        [CollectionIndexManager.wordHits 10, CollectionIndexManager.wordHits 10] ∧
      ∃ result, scatterSearch (keyOrder _) [wordNode 1 10, wordNode 2 10] CollectionIndexManager.wordQuery 10
          (inOrder [wordNode 1 10, wordNode 2 10]) = .ok result ∧
        result.total = 20 ∧
        ([CollectionIndexManager.wordHits 10, CollectionIndexManager.wordHits 10].flatten.map
          docId).dedup.length = 10 := by
  have hten : tenBest (CollectionIndexManager.wordHits 10) = CollectionIndexManager.wordHits 10 :=
    List.take_of_length_le (CollectionIndexManager.length_wordHits 10).le
  have hanswering : Answering CollectionIndexManager.wordQuery (inOrder [wordNode 1 10, wordNode 2 10]).calls
      [CollectionIndexManager.wordHits 10, CollectionIndexManager.wordHits 10] :=
    .cons (serves_wordNode hten) (.cons (serves_wordNode hten) .nil)
  refine ⟨hanswering, _, scatterSearch_eq _ _ _ _, ?_, ?_⟩
  · rw [total_gather _ _ hanswering]
    · simp [CollectionIndexManager.length_wordHits]
    · intro docs hdocs
      simp only [List.mem_cons, List.not_mem_nil, or_false, or_self] at hdocs
      rw [hdocs, CollectionIndexManager.length_wordHits]
      rfl
  · have hsame : ∀ l : List DocumentId, l.Nodup → (l ++ l).dedup.length = l.length := by
      intro l hl
      exact ((List.perm_ext_iff_of_nodup (List.nodup_dedup _) hl).2 fun k => by simp).length_eq
    rw [List.flatten_cons, List.flatten_singleton, List.map_append, hsame _ (nodup_ids_wordHits 10),
      List.length_map, CollectionIndexManager.length_wordHits]

end MSearchDB.Network
