import MSearchDB.Node.SearchRequest

/-!
# Paging with a cursor

A client asks for the first page of a search and then, again and again, for the page
after the last hit it was shown, sending that hit's sort values back as the cursor.
Every request sorts what the index returns, in whatever order the index returns it.

`compareDocToCursor_sortValues` joins the two comparisons of `query.rs`: against the sort
values of a document, the cursor comparison is the sort comparison of the two documents,
where all sort fields are present. With the ids last among the clauses the order is
strict, so that a cursor cuts the sorted list right after its document
(`page_after`), and the pages make up the sorted list (`cursor_pages_cover`).
-/

set_option autoImplicit false

namespace MSearchDB.Node

open MSearchDB.Lib
open MSearchDB.Core
open Std

/-- A page of the documents that a search found: `apply_sort`, `apply_search_after` and
`take(size)`. -/
def page (options : SearchOptions) (docs : List ScoredDocument) : List ScoredDocument :=
  let sorted := applySort docs options.sort
  let rest :=
    match options.searchAfter with
    | some cursor => applySearchAfter sorted cursor options.sort
    | none => sorted
  rest.take options.size.toNat

/-- The cursor after a page: the sort values of its last hit. -/
def nextCursor [JsonWire] (docs : List ScoredDocument) : Option (List JsonValue) :=
  docs.getLast?.map fun last => (scoredDocToHit last).sort.map JsonWire.send

/-- The pages that a client gets until one is empty, in at most `n` requests. The `k`-th
search finds `found k`. -/
def fetchPages [JsonDisplay] [JsonWire] (found : Nat → List ScoredDocument) (request : SearchRequest) :
    Nat → Nat → Option (List JsonValue) → List (List ScoredDocument)
  | 0, _, _ => []
  | n + 1, k, cursor =>
      let docs := page { request with searchAfter := cursor }.toSearchOptions (found k)
      if docs = [] then [[]] else docs :: fetchPages found request n (k + 1) (nextCursor docs)

/-- The value of a sort field is present, and a number is finite. -/
def SortPresent : SortRaw → Prop
  | .number x => x.isFinite = true
  | .text _ => True
  | .missing => False

/-- All sort fields of a document are present. -/
def Sortable (clauses : List SortClause) (doc : ScoredDocument) : Prop :=
  ∀ clause ∈ clauses, SortPresent (extractSortValueRaw doc.document clause.field doc.score)

instance sortPresentDecidable (v : SortRaw) : Decidable (SortPresent v) :=
  match v with
  | .number x => inferInstanceAs (Decidable (x.isFinite = true))
  | .text _ => inferInstanceAs (Decidable True)
  | .missing => inferInstanceAs (Decidable False)

instance sortableDecidable (clauses : List SortClause) (doc : ScoredDocument) :
    Decidable (Sortable clauses doc) :=
  inferInstanceAs (Decidable (∀ clause ∈ clauses,
    SortPresent (extractSortValueRaw doc.document clause.field doc.score)))

/-! ## The two comparisons -/

section Comparisons

variable {clauses : List SortClause} {a b doc : ScoredDocument}

theorem Sortable.comparable (h : Sortable clauses doc) : doc.Comparable clauses := by
  intro clause hclause
  have hpresent := h clause hclause
  cases hraw : extractSortValueRaw doc.document clause.field doc.score with
  | number x =>
      rw [hraw] at hpresent
      exact F64.isNan_of_isFinite hpresent
  | text s => trivial
  | missing => trivial

/-- A sort value is the raw value where that is present. -/
theorem extractSortValue_eq {document : Document} {field : String} {score : F32}
    (h : SortPresent (extractSortValueRaw document field score)) :
    (∃ x, extractSortValue document field score = .number x ∧
        extractSortValueRaw document field score = .number x ∧ x.isFinite = true) ∨
      ∃ s, extractSortValue document field score = .text s ∧
        extractSortValueRaw document field score = .text s := by
  unfold extractSortValue extractSortValueRaw at *
  split at h
  case isTrue hscore =>
      rw [if_pos hscore, if_pos hscore]
      exact .inl ⟨_, rfl, rfl, h⟩
  case isFalse hscore =>
      rw [if_neg hscore, if_neg hscore]
      split at h
      case isTrue hid =>
          rw [if_pos hid, if_pos hid]
          exact .inr ⟨_, rfl, rfl⟩
      case isFalse hid =>
          rw [if_neg hid, if_neg hid]
          split at h
          case h_1 x _ => exact .inl ⟨x, rfl, rfl, h⟩
          case h_2 s _ => exact .inr ⟨s, rfl, rfl⟩
          case h_3 b _ => exact .inl ⟨boolNumber b, rfl, rfl, h⟩
          case h_4 => exact h.elim

theorem compareSortValues_eq {field : String}
    (ha : SortPresent (extractSortValueRaw a.document field a.score))
    (hb : SortPresent (extractSortValueRaw b.document field b.score)) :
    compareSortValues (extractSortValue a.document field a.score)
        (extractSortValue b.document field b.score) =
      compareSortRaw (extractSortValueRaw a.document field a.score)
        (extractSortValueRaw b.document field b.score) := by
  rcases extractSortValue_eq ha with ⟨x, hx, hx', -⟩ | ⟨s, hs, hs'⟩
  · rcases extractSortValue_eq hb with ⟨y, hy, hy', -⟩ | ⟨t, ht, ht'⟩
    · rw [hx, hx', hy, hy']
      rfl
    · rw [hx, hx', ht, ht']
      rfl
  · rcases extractSortValue_eq hb with ⟨y, hy, hy', -⟩ | ⟨t, ht, ht'⟩
    · rw [hs, hs', hy, hy']
      rfl
    · rw [hs, hs', ht, ht']
      rfl

/-- **The cursor comparison is the sort comparison.** -/
theorem compareDocToCursor_sortValues (ha : Sortable clauses a) (hb : Sortable clauses b) :
    compareDocToCursor a (sortValues clauses b) clauses = compareByClauses clauses a b := by
  induction clauses with
  | nil => rfl
  | cons clause clauses ih =>
      have hrest := ih (fun c hc => ha c (List.mem_cons_of_mem _ hc))
        fun c hc => hb c (List.mem_cons_of_mem _ hc)
      have hhead := compareSortValues_eq (ha clause List.mem_cons_self) (hb clause List.mem_cons_self)
      rw [sortValues, List.map_cons, compareDocToCursor, List.headD_cons, List.tail_cons, hhead,
        ← sortValues, hrest]
      rfl

theorem finite_of_mem_sortValues (h : Sortable clauses doc) {v : SortValue}
    (hv : v ∈ sortValues clauses doc) : SortValue.Finite v := by
  obtain ⟨clause, hclause, rfl⟩ := List.mem_map.1 hv
  rcases extractSortValue_eq (h clause hclause) with ⟨x, hx, -, hfinite⟩ | ⟨s, hs, -⟩
  · rw [hx]
    exact hfinite
  · rw [hs]
    trivial

end Comparisons

/-! ## One page -/

section Pages

variable {clauses : List SortClause} {docs : List ScoredDocument}

/-- A document with its sort values. -/
def withSortValues (clauses : List SortClause) (doc : ScoredDocument) : ScoredDocument :=
  { doc with sort := sortValues clauses doc }

/-- Documents that compare equal have the same id, and are the same. -/
theorem eq_of_clausesCmp_eq (hids : (docs.map fun doc => doc.document.id).Nodup)
    (hid : ∃ clause ∈ clauses, clause.field = "_id") {a b : ScoredDocument} (ha : a ∈ docs) (hb : b ∈ docs)
    (heq : clausesCmp clauses a b = .eq) : a = b := by
  obtain ⟨clause, hclause, hfield⟩ := hid
  have hcmp := lexCompare_eq_eq.1 heq _ (List.mem_map_of_mem hclause)
  have hraw : SortRaw.cmp (.text a.document.id.val) (.text b.document.id.val) = .eq := by
    have hvalue : ∀ doc : ScoredDocument,
        extractSortValueRaw doc.document clause.field doc.score = .text doc.document.id.val := by
      intro doc
      rw [extractSortValueRaw, hfield]
      rfl
    rw [clauseCmp, hvalue, hvalue] at hcmp
    cases horder : clause.order with
    | asc => rwa [horder] at hcmp
    | desc =>
        rw [horder, SortOrder.apply] at hcmp
        simpa using hcmp
  have hval : a.document.id.val = b.document.id.val := by
    simpa [SortRaw.cmp, lexCompare, SortRaw.kind, SortRaw.rank, SortRaw.str] using hraw
  have hids' : a.document.id = b.document.id := congrArg DocumentId.mk hval
  exact List.inj_on_of_nodup_map hids ha hb hids'

/-- The sorted list depends on the documents alone. -/
theorem applySort_eq (hdocs : ∀ doc ∈ docs, Sortable clauses doc)
    (hids : (docs.map fun doc => doc.document.id).Nodup)
    (hid : ∃ clause ∈ clauses, clause.field = "_id") {found : List ScoredDocument} (hfound : found.Perm docs) :
    applySort found clauses = (sortBy (clausesCmp clauses) docs).map (withSortValues clauses) := by
  have hne : clauses ≠ [] := by
    obtain ⟨clause, hclause, -⟩ := hid
    exact List.ne_nil_of_mem hclause
  have hcongr : sortBy (compareByClauses clauses) found = sortBy (clausesCmp clauses) found :=
    sortBy_congr fun a ha b hb => compareByClauses_eq (hdocs a (hfound.mem_iff.1 ha)).comparable
      (hdocs b (hfound.mem_iff.1 hb)).comparable
  rw [applySort, if_neg hne, hcongr,
    sortBy_eq_of_perm hfound fun a ha b hb heq => eq_of_clausesCmp_eq hids hid ha hb heq]
  rfl

theorem compareDocToCursor_withSortValues (doc : ScoredDocument) (cursor : List SortValue)
    (cs : List SortClause) :
    compareDocToCursor (withSortValues clauses doc) cursor cs = compareDocToCursor doc cursor cs := by
  induction cs generalizing cursor with
  | nil => rfl
  | cons c cs ih =>
      rw [compareDocToCursor, compareDocToCursor, ih]
      rfl

theorem compareByClauses_withSortValues (a b : ScoredDocument) (cs : List SortClause) :
    compareByClauses cs (withSortValues clauses a) (withSortValues clauses b) = compareByClauses cs a b := by
  induction cs with
  | nil => rfl
  | cons c cs ih => exact congrArg (Ordering.then (compareByClause c a b)) ih

/-- **A cursor cuts the sorted list after its document.** -/
theorem applySearchAfter_sortValues (hdocs : ∀ doc ∈ docs, Sortable clauses doc)
    (hids : (docs.map fun doc => doc.document.id).Nodup)
    (hid : ∃ clause ∈ clauses, clause.field = "_id") {before after : List ScoredDocument}
    {last : ScoredDocument} (hsplit : sortBy (clausesCmp clauses) docs = before ++ last :: after) :
    applySearchAfter ((sortBy (clausesCmp clauses) docs).map (withSortValues clauses))
      (sortValues clauses last) clauses = after.map (withSortValues clauses) := by
  have hmem : ∀ doc ∈ sortBy (clausesCmp clauses) docs, doc ∈ docs := fun doc hdoc => mem_sortBy.1 hdoc
  have hlast : last ∈ docs := hmem last (by rw [hsplit]; simp)
  have hstrict := pairwise_lt_sortBy (hids.of_map _)
    fun a ha b hb heq => eq_of_clausesCmp_eq hids hid ha hb heq
  have hne : ¬ (sortValues clauses last = [] ∨ clauses = []) := by
    obtain ⟨clause, hclause, -⟩ := hid
    have hclauses := List.ne_nil_of_mem hclause
    simpa [sortValues] using hclauses
  have hfilter : (sortBy (clausesCmp clauses) docs).filter
      (fun doc => compareDocToCursor (withSortValues clauses doc) (sortValues clauses last) clauses = .gt) =
      (sortBy (clausesCmp clauses) docs).filter fun doc => clausesCmp clauses doc last = .gt := by
    refine List.filter_congr fun doc hdoc => ?_
    rw [compareDocToCursor_withSortValues,
      compareDocToCursor_sortValues (hdocs doc (hmem doc hdoc)) (hdocs last hlast),
      compareByClauses_eq (hdocs doc (hmem doc hdoc)).comparable (hdocs last hlast).comparable]
  rw [hsplit] at hstrict
  rw [applySearchAfter, if_neg hne, List.filter_map]
  simp only [Function.comp_def]
  rw [hfilter, hsplit, filter_gt_eq hstrict]

/-! ## The run of a client -/

variable [JsonDisplay] [JsonWire]

/-- What a client knows after it was shown a part of the sorted list. -/
def CursorAt (clauses : List SortClause) (shown : List ScoredDocument) (cursor : Option (List JsonValue)) :
    Prop :=
  cursor = shown.getLast?.map fun last => (sortValues clauses last).map fun v => JsonWire.send (sortValueToJson v)

theorem map_sortValueOf_send {doc : ScoredDocument} (h : Sortable clauses doc) :
    ((sortValues clauses doc).map fun v => JsonWire.send (sortValueToJson v)).map sortValueOf =
      sortValues clauses doc := by
  rw [List.map_map]
  refine (List.map_congr_left fun v hv => ?_).trans (List.map_id _)
  exact sortValueOf_send (finite_of_mem_sortValues h hv)

/-- **The next page.** It is what follows in the sorted list after what was shown. -/
theorem page_eq {request : SearchRequest} (hsort : request.toSearchOptions.sort = clauses)
    (hdocs : ∀ doc ∈ docs, Sortable clauses doc) (hids : (docs.map fun doc => doc.document.id).Nodup)
    (hid : ∃ clause ∈ clauses, clause.field = "_id") {found shown rest : List ScoredDocument}
    (hfound : found.Perm docs) (hsplit : sortBy (clausesCmp clauses) docs = shown ++ rest)
    {cursor : Option (List JsonValue)} (hcursor : CursorAt clauses shown cursor) :
    page { request with searchAfter := cursor }.toSearchOptions found =
      (rest.take request.toSearchOptions.size.toNat).map (withSortValues clauses) := by
  have hsorted := applySort_eq hdocs hids hid hfound
  have hoptions : { request with searchAfter := cursor }.toSearchOptions =
      { request.toSearchOptions with searchAfter := cursor.map fun vals => vals.map sortValueOf } := rfl
  rw [hoptions, page, hsort, hsorted, List.map_take]
  rcases List.eq_nil_or_concat' shown with rfl | ⟨before, last, rfl⟩
  · -- nothing was shown, and there is no cursor
    have hnone : cursor = none := hcursor
    rw [hnone, hsplit]
    rfl
  · have hlast : last ∈ docs := by
      have hmem : last ∈ sortBy (clausesCmp clauses) docs := by simp [hsplit]
      exact mem_sortBy.1 hmem
    have hsome : cursor = some ((sortValues clauses last).map fun v => JsonWire.send (sortValueToJson v)) := by
      rw [hcursor, List.getLast?_append, List.getLast?_singleton]
      rfl
    rw [hsome, Option.map_some, map_sortValueOf_send (hdocs last hlast)]
    rw [List.append_assoc, List.singleton_append] at hsplit
    exact congrArg _ (applySearchAfter_sortValues hdocs hids hid hsplit)

omit [JsonDisplay] in
theorem cursorAt_append {shown next : List ScoredDocument} (hnext : next ≠ []) :
    CursorAt clauses (shown ++ next) (nextCursor (next.map (withSortValues clauses))) := by
  obtain ⟨before, last, rfl⟩ := (List.eq_nil_or_concat' next).resolve_left hnext
  rw [CursorAt, nextCursor, ← List.append_assoc, List.getLast?_append, List.getLast?_singleton,
    List.map_append, List.getLast?_append, List.map_singleton, List.getLast?_singleton]
  simp [scoredDocToHit, withSortValues]

/-- The pages from what was shown on, by induction on what is left. -/
theorem fetchPages_rest {request : SearchRequest} (hsort : request.toSearchOptions.sort = clauses)
    (hsize : request.toSearchOptions.size ≠ 0) (hdocs : ∀ doc ∈ docs, Sortable clauses doc)
    (hids : (docs.map fun doc => doc.document.id).Nodup)
    (hid : ∃ clause ∈ clauses, clause.field = "_id") {found : Nat → List ScoredDocument}
    (hfound : ∀ k, (found k).Perm docs) (m : Nat) :
    ∀ (shown rest : List ScoredDocument) (k : Nat) (cursor : Option (List JsonValue)), rest.length ≤ m →
      sortBy (clausesCmp clauses) docs = shown ++ rest → CursorAt clauses shown cursor →
      ∃ pages : List (List ScoredDocument),
        (∀ n, pages.length < n → fetchPages found request n k cursor = pages ++ [[]]) ∧
        pages.flatten = rest.map (withSortValues clauses) ∧
        ∀ p ∈ pages, p ≠ [] ∧ p.length ≤ request.toSearchOptions.size.toNat := by
  have hpos : 0 < request.toSearchOptions.size.toNat := by
    refine Nat.pos_of_ne_zero fun hzero => hsize ?_
    exact UInt64.toNat_inj.1 hzero
  -- when all is shown, the next page is empty
  have hlast : ∀ (shown : List ScoredDocument) (k : Nat) (cursor : Option (List JsonValue)),
      sortBy (clausesCmp clauses) docs = shown ++ [] → CursorAt clauses shown cursor →
      ∃ pages : List (List ScoredDocument),
        (∀ n, pages.length < n → fetchPages found request n k cursor = pages ++ [[]]) ∧
        pages.flatten = ([] : List ScoredDocument).map (withSortValues clauses) ∧
        ∀ p ∈ pages, p ≠ [] ∧ p.length ≤ request.toSearchOptions.size.toNat := by
    intro shown k cursor hsplit hcursor
    refine ⟨[], fun n hn => ?_, rfl, by simp⟩
    obtain ⟨n, rfl⟩ := Nat.exists_eq_succ_of_ne_zero (Nat.ne_of_gt hn)
    have hpage := page_eq hsort hdocs hids hid (hfound k) hsplit hcursor
    rw [fetchPages, hpage]
    simp
  -- induction on a bound for what is still to be shown
  induction m with
  | zero =>
      intro shown rest k cursor hm hsplit hcursor
      obtain rfl := List.eq_nil_of_length_eq_zero (Nat.le_zero.1 hm)
      exact hlast shown k cursor hsplit hcursor
  | succ m ih =>
      intro shown rest k cursor hm hsplit hcursor
      by_cases hrest : rest = []
      · subst hrest
        exact hlast shown k cursor hsplit hcursor
      have hpage := page_eq hsort hdocs hids hid (hfound k) hsplit hcursor
      have hlength : 0 < rest.length := List.length_pos_iff.2 hrest
      have hnext : rest.take request.toSearchOptions.size.toNat ≠ [] := by
        rw [Ne, List.take_eq_nil_iff]
        rintro (hzero | hnil)
        · omega
        · exact hrest hnil
      -- the rest of the list is shorter by the page just shown
      obtain ⟨pages, hfetch, hflatten, hpages⟩ := ih (shown ++ rest.take request.toSearchOptions.size.toNat)
        (rest.drop request.toSearchOptions.size.toNat) (k + 1) _ (by rw [List.length_drop]; omega)
        (by rw [List.append_assoc, List.take_append_drop]; exact hsplit) (cursorAt_append hnext)
      refine ⟨(rest.take request.toSearchOptions.size.toNat).map (withSortValues clauses) :: pages,
        fun n hn => ?_, ?_, ?_⟩
      · obtain ⟨n, rfl⟩ := Nat.exists_eq_succ_of_ne_zero (Nat.ne_of_gt (Nat.zero_lt_of_lt hn))
        rw [List.length_cons] at hn
        rw [fetchPages, hpage, if_neg (by simpa using hnext), hfetch n (by omega)]
        rfl
      · rw [List.flatten_cons, hflatten, ← List.map_append, List.take_append_drop]
      · intro p hp
        rcases List.mem_cons.1 hp with rfl | hp
        · refine ⟨by simpa using hnext, ?_⟩
          rw [List.length_map, List.length_take]
          exact Nat.min_le_left _ _
        · exact hpages p hp

/-- **Cursor pagination visits every hit exactly once.** The documents have distinct ids,
their sort fields are present with finite numbers, texts or booleans, and the last
clause is on the id. Each search finds the documents in some order. Then a client that
makes enough requests gets pages of at most the size it asked for, none of them empty,
that make up the sorted list of all documents, and then an empty page. -/
theorem cursor_pages_cover {request : SearchRequest} {fields : List SortField} {last : SortField}
    (hsort : request.sort = some (fields ++ [last])) (hlast : last.field = "_id")
    (hsize : request.toSearchOptions.size ≠ 0)
    (hdocs : ∀ doc ∈ docs, Sortable request.toSearchOptions.sort doc)
    (hids : (docs.map fun doc => doc.document.id).Nodup) {found : Nat → List ScoredDocument}
    (hfound : ∀ k, (found k).Perm docs) :
    ∃ pages : List (List ScoredDocument),
      (∀ n, pages.length < n → fetchPages found request n 0 none = pages ++ [[]]) ∧
      (∀ p ∈ pages, p ≠ [] ∧ p.length ≤ request.toSearchOptions.size.toNat) ∧
      pages.flatten = applySort docs request.toSearchOptions.sort ∧
      (pages.flatten.map fun doc => (doc.document, doc.score)).Perm
        (docs.map fun doc => (doc.document, doc.score)) ∧
      pages.flatten.Pairwise fun a b => compareByClauses request.toSearchOptions.sort a b = .lt := by
  have hid : ∃ clause ∈ request.toSearchOptions.sort, clause.field = "_id" := by
    refine ⟨last.clause, ?_, hlast⟩
    simp [SearchRequest.toSearchOptions, hsort]
  obtain ⟨pages, hfetch, hflatten, hpages⟩ := fetchPages_rest rfl hsize hdocs hids hid hfound _ []
    (sortBy (clausesCmp request.toSearchOptions.sort) docs) 0 none le_rfl rfl rfl
  have hstrict := pairwise_lt_sortBy (hids.of_map _)
    fun a ha b hb heq => eq_of_clausesCmp_eq hids hid ha hb heq
  refine ⟨pages, hfetch, hpages, ?_, ?_, ?_⟩
  · rw [hflatten, applySort_eq hdocs hids hid (List.Perm.refl docs)]
  · rw [hflatten, List.map_map]
    exact (perm_sortBy _ docs).map _
  · rw [hflatten, List.pairwise_map]
    refine List.Pairwise.imp_of_mem (fun {a b} ha hb hlt => ?_) hstrict
    have hcmp := compareByClauses_eq (hdocs a (mem_sortBy.1 ha)).comparable
      (hdocs b (mem_sortBy.1 hb)).comparable
    rw [compareByClauses_withSortValues, hcmp, hlt]

end Pages

/-- `serde_json` on the values that have no inner structure. -/
instance plainDisplay : JsonDisplay where
  display
    | .null => "null"
    | .bool b => if b then "true" else "false"
    | .number asF64 => (asF64.getD F64.zero).display
    | .string s => "\"" ++ s ++ "\""
    | _ => ""

/-- A wire that changes nothing. -/
instance plainWire : JsonWire where
  send v := v
  send_string _ := rfl
  send_number _ _ := rfl

/-- A document with a price. -/
def priced (id : String) (price : F64) : ScoredDocument :=
  ⟨(Document.new ⟨id⟩).withField "price" (.number price), ⟨0⟩, []⟩

/-- Three documents, of which two have the same price. -/
def pricedDocs : List ScoredDocument := [priced "a" F64.one, priced "b" F64.zero, priced "c" F64.one]

/-- Two documents a page, by price and then by id. -/
def pricedRequest : SearchRequest :=
  ⟨.match ∅, some 2, none, some ([⟨"price", "desc"⟩] ++ [⟨"_id", "asc"⟩]), none, none, none⟩

/-- The three documents in pages of two. -/
theorem cursor_pages_cover_priced :
    ∃ pages : List (List ScoredDocument),
      (∀ n, pages.length < n → fetchPages (fun _ => pricedDocs) pricedRequest n 0 none = pages ++ [[]]) ∧
      pages.flatten = applySort pricedDocs pricedRequest.toSearchOptions.sort := by
  have hdocs : ∀ doc ∈ pricedDocs, Sortable pricedRequest.toSearchOptions.sort doc := by decide
  obtain ⟨pages, hfetch, -, hflatten, -, -⟩ := cursor_pages_cover rfl rfl (by decide) hdocs (by decide)
    fun _ => List.Perm.refl pricedDocs
  exact ⟨pages, hfetch, hflatten⟩

end MSearchDB.Node
