import MSearchDB.Core.Query

/-!
# The order of a sorted result

`apply_sort` compares `extract_sort_value_raw` of two documents and stores what
`extract_sort_value` gives, and a cursor is compared with the stored values. The first has
`SortRaw::Missing`, which comes last; in the second a missing value is the empty text,
which comes before every other text.

The sort is the stable sort by a total preorder (`applySort_stable`). The comparison with
a cursor agrees with it until a clause meets a missing value on one side and a text on the
other (`compareDocToCursor_iff`).
-/

set_option autoImplicit false

namespace MSearchDB.Core

open MSearchDB.Lib
open Std

/-! ## What sorting compares and stores -/

/-- The comparison that `apply_sort` sorts by. -/
def sortComparison (clauses : List SortClause) : ScoredDocument → ScoredDocument → Ordering :=
  if clauses = [] then compareByScore else compareByClauses clauses

/-- A document with the sort values that `apply_sort` leaves on it. Without clauses the
source returns before it stores any. -/
def storeSort (clauses : List SortClause) (doc : ScoredDocument) : ScoredDocument :=
  if clauses = [] then doc else { doc with sort := sortValues clauses doc }

/-- The raw value of a document for a clause. -/
def ScoredDocument.rawValue (doc : ScoredDocument) (clause : SortClause) : SortRaw :=
  extractSortValueRaw doc.document clause.field doc.score

/-- A raw value as a cursor carries it: a missing one is the empty text. -/
def SortRaw.carried : SortRaw → SortValue
  | .number x => .number x
  | .text s => .text s
  | .missing => .text ""

/-- The order of two documents by clauses when their missing values are empty texts. -/
def carriedComparison (clauses : List SortClause) : ScoredDocument → ScoredDocument → Ordering :=
  lexCompare (clauses.map fun clause a b =>
    clause.order.apply (compareSortValues (a.rawValue clause).carried (b.rawValue clause).carried))

/-- The clauses from one on keep the order of two documents under a cursor: the first that
tells them apart has no missing value against a text. Against an empty text the missing
value is lost, and the later clauses have to give the order that it gave. -/
def OrderKept (a b : ScoredDocument) : List SortClause → Prop
  | [] => True
  | clause :: clauses =>
      match a.rawValue clause, b.rawValue clause with
      | .missing, .text t => t = "" ∧ carriedComparison clauses a b = clause.order.apply .gt
      | .text s, .missing => s = "" ∧ carriedComparison clauses a b = clause.order.apply .lt
      | v, w => compareSortRaw v w ≠ .eq ∨ OrderKept a b clauses

/-- When a cursor made of `b` places `a` as sorting does. -/
def CursorAgrees (clauses : List SortClause) (a b : ScoredDocument) : Prop :=
  if clauses = [] then compareByScore a b = .eq else OrderKept a b clauses

section Values

variable {clauses : List SortClause} {docs : List ScoredDocument}

theorem applySort_eq_map (docs : List ScoredDocument) (clauses : List SortClause) :
    applySort docs clauses = (sortBy (sortComparison clauses) docs).map (storeSort clauses) := by
  unfold applySort sortComparison storeSort
  split
  · exact (List.map_id _).symm
  · rfl

theorem extractSortValue_eq_carried (doc : Document) (field : String) (score : F32) :
    extractSortValue doc field score = (extractSortValueRaw doc field score).carried := by
  unfold extractSortValue extractSortValueRaw
  split
  · rfl
  · split
    · rfl
    · split
      · rfl
      · rfl
      · rfl
      · rfl

end Values

/-! ## Cursors -/

/-- The empty text comes before every other. -/
theorem compare_empty_text {t : String} (h : t ≠ "") : compare "" t = .lt := by
  have hlt : "" < t := by
    rw [String.lt_iff]
    cases hchars : t.toList with
    | nil => exact absurd (String.toList_inj.1 hchars) h
    | cons c cs => exact List.nil_lt_cons c cs
  exact if_pos hlt

theorem compare_text_empty {s : String} (h : s ≠ "") : compare s "" = .gt := by
  have hswap : compare s "" = (compare "" s).swap := OrientedCmp.eq_swap
  rw [hswap, compare_empty_text h]
  rfl

theorem SortOrder.apply_injective (order : SortOrder) : Function.Injective order.apply := by
  cases order with
  | asc => exact fun _ _ h => h
  | desc => exact fun _ _ h => Ordering.swap_inj.1 h

theorem SortOrder.apply_eq_eq {order : SortOrder} {ord : Ordering} : order.apply ord = .eq ↔ ord = .eq := by
  cases order with
  | asc => rfl
  | desc => exact Ordering.swap_eq_eq

section Cursors

variable {clauses : List SortClause} {a b : ScoredDocument}

theorem compareDocToCursor_eq_carried (clauses : List SortClause) (a b : ScoredDocument) :
    compareDocToCursor a (sortValues clauses b) clauses = carriedComparison clauses a b := by
  induction clauses with
  | nil => rfl
  | cons clause clauses ih =>
      rw [sortValues, List.map_cons, compareDocToCursor, List.headD_cons, List.tail_cons, ← sortValues, ih,
        extractSortValue_eq_carried, extractSortValue_eq_carried]
      rfl

theorem then_of_ne_eq {ord : Ordering} (h : ord ≠ .eq) (rest : Ordering) : ord.then rest = ord := by
  cases ord with
  | lt => rfl
  | eq => exact absurd rfl h
  | gt => rfl

/-- Present values are compared with a cursor as they are sorted. -/
theorem then_eq_then_iff {order : SortOrder} {ord rest rest' : Ordering} :
    (order.apply ord).then rest = (order.apply ord).then rest' ↔ ord ≠ .eq ∨ rest = rest' := by
  have hcases : order.apply ord = .eq ↔ ord = .eq := SortOrder.apply_eq_eq
  cases hord : order.apply ord with
  | lt => simp [← hcases, hord]
  | eq => simp [← hcases, hord]
  | gt => simp [← hcases, hord]

/-- A value that sorting puts on the side `ord` of a text that is not empty is on the
other side under a cursor, and beside an empty text it ties. -/
theorem then_eq_torn_iff {order : SortOrder} {compared rest rest' : Ordering} {s : String} (ord : Ordering)
    (hord : ord ≠ .eq) (hempty : s = "" → compared = .eq) (htext : s ≠ "" → compared = ord.swap) :
    (order.apply compared).then rest = (order.apply ord).then rest' ↔ s = "" ∧ rest = order.apply ord := by
  rw [then_of_ne_eq (mt SortOrder.apply_eq_eq.1 hord)]
  by_cases hs : s = ""
  · have htie : order.apply compared = .eq := SortOrder.apply_eq_eq.2 (hempty hs)
    rw [htie]
    simp [hs]
  · have hother : ord.swap ≠ .eq := mt Ordering.swap_eq_eq.1 hord
    rw [htext hs, then_of_ne_eq (mt SortOrder.apply_eq_eq.1 hother)]
    refine iff_of_false (fun h => ?_) fun h => hs h.1
    have hself : ord.swap = ord := order.apply_injective h
    cases ord with
    | lt => cases hself
    | eq => exact hord rfl
    | gt => cases hself

theorem carriedComparison_iff (a b : ScoredDocument) (clauses : List SortClause) :
    carriedComparison clauses a b = compareByClauses clauses a b ↔ OrderKept a b clauses := by
  induction clauses with
  | nil => exact iff_of_true rfl trivial
  | cons clause clauses ih =>
      have hcarried : carriedComparison (clause :: clauses) a b =
          (clause.order.apply (compareSortValues (a.rawValue clause).carried (b.rawValue clause).carried)).then
            (carriedComparison clauses a b) := rfl
      have hraw : compareByClauses (clause :: clauses) a b =
          (clause.order.apply (compareSortRaw (a.rawValue clause) (b.rawValue clause))).then
            (compareByClauses clauses a b) := rfl
      rw [hcarried, hraw, OrderKept]
      cases a.rawValue clause with
      | number x =>
          cases b.rawValue clause with
          | number y => rw [← ih]; exact then_eq_then_iff
          | text t => rw [← ih]; exact then_eq_then_iff
          | missing => rw [← ih]; exact then_eq_then_iff
      | text s =>
          cases b.rawValue clause with
          | number y => rw [← ih]; exact then_eq_then_iff
          | text t => rw [← ih]; exact then_eq_then_iff
          | missing =>
              -- sorted before what is missing, and after the empty text that stands for it
              refine then_eq_torn_iff .lt (by decide) (fun h => ?_) fun h => compare_text_empty h
              rw [h]
              rfl
      | missing =>
          cases b.rawValue clause with
          | number y => rw [← ih]; exact then_eq_then_iff
          | text t =>
              refine then_eq_torn_iff .gt (by decide) (fun h => ?_) fun h => compare_empty_text h
              rw [h]
              rfl
          | missing => rw [← ih]; exact then_eq_then_iff

/-- **When the cursor order is the sort order.** What is stored on `b` and compared with
`a` gives the comparison by which `apply_sort` sorts exactly when the clauses keep the
order of the two. -/
theorem compareDocToCursor_iff (clauses : List SortClause) (a b : ScoredDocument) :
    (∀ docs, applySort docs clauses = (sortBy (sortComparison clauses) docs).map (storeSort clauses)) ∧
      (compareDocToCursor a (storeSort clauses b).sort clauses = sortComparison clauses a b ↔
        CursorAgrees clauses a b) := by
  refine ⟨fun docs => applySort_eq_map docs clauses, ?_⟩
  unfold CursorAgrees sortComparison storeSort
  by_cases hclauses : clauses = []
  · rw [if_pos hclauses, if_pos hclauses, if_pos hclauses, hclauses]
    exact eq_comm
  · rw [if_neg hclauses, if_neg hclauses, if_neg hclauses, compareDocToCursor_eq_carried]
    exact carriedComparison_iff a b clauses

end Cursors

/-- A document that has a title and one that has none. -/
def titledAndUntitled : ScoredDocument × ScoredDocument :=
  (⟨(Document.new ⟨"a"⟩).withField "title" (.text "lake"), ⟨0⟩, []⟩, ⟨Document.new ⟨"b"⟩, ⟨0⟩, []⟩)

/-- By title, the document without one comes last, and before a cursor made of the other. -/
theorem untitled_before_cursor :
    sortComparison [⟨"title", .asc⟩] titledAndUntitled.2 titledAndUntitled.1 = .gt ∧
      compareDocToCursor titledAndUntitled.2 (storeSort [⟨"title", .asc⟩] titledAndUntitled.1).sort
        [⟨"title", .asc⟩] = .lt := by
  decide

/-! ## Sorting -/

/-- No number of a document and no score is a NaN. -/
structure ScoredDocument.NoNan (doc : ScoredDocument) : Prop where
  score : doc.score.isNan = false
  fields : ∀ (name : String) (x : F64), doc.document.fields[name]? = some (.number x) → x.isNan = false

/-- `PartialEq` of `SortRaw`. -/
def SortRaw.Same : SortRaw → SortRaw → Prop
  | .number x, .number y => x.partialCmp y = some .eq
  | .text s, .text t => s = t
  | .missing, .missing => True
  | _, _ => False

/-- Two documents have the same keys: one for each clause, or the score. -/
def SameKeys (clauses : List SortClause) (a b : ScoredDocument) : Prop :=
  if clauses = [] then a.score.partialCmp b.score = some .eq
  else ∀ clause ∈ clauses, (a.rawValue clause).Same (b.rawValue clause)

/-- The magnitude of a number that is cast is not beyond infinity. -/
theorem F32.widen_le {m : Nat} (h : m ≤ F32.infinity) : F32.widen m ≤ F64.infinity := by
  have hm : m ≤ 255 * 2 ^ 23 := h
  unfold F32.widen
  dsimp only
  split
  next hexponent =>
    -- infinity is the one magnitude with this exponent
    have hfraction : m % 2 ^ 23 = 0 := by omega
    rw [hfraction]
    decide
  next hexponent =>
    split
    next hnormal =>
      have hbound : m / 2 ^ 23 ≤ 254 := by omega
      have hfraction : m % 2 ^ 23 < 2 ^ 23 := Nat.mod_lt _ (by norm_num)
      unfold F64.infinity
      omega
    next hsubnormal =>
      split
      · exact Nat.zero_le _
      next hfraction =>
        -- a subnormal single is a normal double: its highest bit becomes the implicit one
        have hlt : m % 2 ^ 23 < 2 ^ 23 := Nat.mod_lt _ (by norm_num)
        have hlog : (m % 2 ^ 23).log2 < 23 := (Nat.log2_lt hfraction).2 hlt
        generalize hk : (m % 2 ^ 23).log2 = k at hlog ⊢
        have hupper : m % 2 ^ 23 < 2 ^ (k + 1) := hk ▸ Nat.lt_log2_self
        have hrest : m % 2 ^ 23 - 2 ^ k ≤ 2 ^ k := by
          rw [pow_succ] at hupper
          omega
        have hproduct : (m % 2 ^ 23 - 2 ^ k) * 2 ^ (52 - k) ≤ 2 ^ 52 := by
          calc (m % 2 ^ 23 - 2 ^ k) * 2 ^ (52 - k)
              ≤ 2 ^ k * 2 ^ (52 - k) := Nat.mul_le_mul_right _ hrest
            _ = 2 ^ 52 := by rw [← pow_add, Nat.add_sub_cancel' (by omega)]
        unfold F64.infinity
        omega

/-- A cast keeps what is not a NaN. -/
theorem F32.isNan_toF64 {x : F32} (h : x.isNan = false) : x.toF64.isNan = false := by
  have hle : F32.widen x.magnitude ≤ F64.infinity := F32.widen_le (by simpa [F32.isNan] using h)
  have hmagnitude : x.toF64.magnitude = F32.widen x.magnitude := by
    have hbound : F32.widen x.magnitude < 2 ^ 63 := hle.trans_lt (by decide)
    unfold F32.toF64 F64.magnitude
    split
    · simp
      omega
    · simp
      omega
  rw [F64.isNan, hmagnitude]
  simpa using hle

section Sorting

variable {clauses : List SortClause} {docs : List ScoredDocument} {a b c doc : ScoredDocument}

theorem ScoredDocument.NoNan.comparable (h : doc.NoNan) (clauses : List SortClause) : doc.Comparable clauses := by
  intro clause _
  unfold extractSortValueRaw
  split
  · exact F32.isNan_toF64 h.score
  · split
    · trivial
    · split
      next x hx => exact h.fields _ x hx
      · trivial
      next c _ => cases c with
        | false => rfl
        | true => rfl
      · trivial

/-- The comparison of sorting, as a transitive comparator. -/
def sortCmp (clauses : List SortClause) : ScoredDocument → ScoredDocument → Ordering :=
  if clauses = [] then scoreCmp else clausesCmp clauses

instance transCmpSort (clauses : List SortClause) : TransCmp (sortCmp clauses) := by
  unfold sortCmp
  split
  · exact transCmpScore
  · exact transCmpClauses clauses

theorem sortComparison_eq (ha : a.NoNan) (hb : b.NoNan) : sortComparison clauses a b = sortCmp clauses a b := by
  unfold sortComparison sortCmp
  split
  · exact compareByScore_eq ha.score hb.score
  · exact compareByClauses_eq (ha.comparable clauses) (hb.comparable clauses)

theorem compareSortRaw_eq_eq {v w : SortRaw} (hv : v.Comparable) (hw : w.Comparable) :
    compareSortRaw v w = .eq ↔ v.Same w := by
  cases v with
  | number x =>
      cases w with
      | number y =>
          rw [compareSortRaw, SortRaw.Same, F64.partialCmp_of_not_nan hv hw, Option.getD_some, Option.some.injEq]
      | text t => exact iff_of_false (by rintro ⟨⟩) id
      | missing => exact iff_of_false (by rintro ⟨⟩) id
  | text s =>
      cases w with
      | number y => exact iff_of_false (by rintro ⟨⟩) id
      | text t => exact Std.compare_eq_iff_eq
      | missing => exact iff_of_false (by rintro ⟨⟩) id
  | missing =>
      cases w with
      | number y => exact iff_of_false (by rintro ⟨⟩) id
      | text t => exact iff_of_false (by rintro ⟨⟩) id
      | missing => exact iff_of_true rfl trivial

theorem sortComparison_eq_eq (ha : a.NoNan) (hb : b.NoNan) :
    sortComparison clauses a b = .eq ↔ SameKeys clauses a b := by
  unfold sortComparison SameKeys
  split
  · rw [compareByScore_eq ha.score hb.score, F32.partialCmp_of_not_nan ha.score hb.score, scoreCmp,
      Option.some.injEq, OrientedCmp.eq_comm]
  · rw [compareByClauses, lexCompare_eq_eq, List.forall_mem_map]
    refine forall_congr' fun clause => forall_congr' fun hclause => ?_
    rw [compareByClause, SortOrder.apply_eq_eq]
    exact compareSortRaw_eq_eq (ha.comparable clauses clause hclause) (hb.comparable clauses clause hclause)

/-- The stable sort of the source, with a transitive comparator. -/
theorem sortBy_sortComparison (hdocs : ∀ doc ∈ docs, doc.NoNan) :
    sortBy (sortComparison clauses) docs = sortBy (sortCmp clauses) docs :=
  sortBy_congr fun a ha b hb => sortComparison_eq (hdocs a ha) (hdocs b hb)

theorem filter_ties_eq (hdocs : ∀ doc ∈ docs, doc.NoNan) (ha : a.NoNan) {l : List ScoredDocument}
    (hl : ∀ doc ∈ l, doc ∈ docs) :
    (l.filter fun doc => sortComparison clauses a doc = .eq) = tiesOf (sortCmp clauses) a l := by
  refine List.filter_congr fun doc hdoc => ?_
  rw [sortComparison_eq ha (hdocs doc (hl doc hdoc))]

/-- **Sorting is a stable sort by a total preorder.** Without NaNs the comparison is total
and transitive, and ties the documents with the same keys. The result is the input in the
order of this comparison, with ties in the order of the input, and with one sort value on
each document for every clause, when there are clauses. -/
theorem applySort_stable (clauses : List SortClause) (docs : List ScoredDocument)
    (hdocs : ∀ doc ∈ docs, doc.NoNan) :
    (∀ a b c : ScoredDocument, a.NoNan → b.NoNan → c.NoNan →
      sortComparison clauses b a = (sortComparison clauses a b).swap ∧
      ((sortComparison clauses a b).isLE → (sortComparison clauses b c).isLE →
        (sortComparison clauses a c).isLE) ∧
      (sortComparison clauses a b = .eq ↔ SameKeys clauses a b)) ∧
    ∃ sorted : List ScoredDocument, applySort docs clauses = sorted.map (storeSort clauses) ∧
      sorted.Perm docs ∧
      (sorted.Pairwise fun a b => (sortComparison clauses a b).isLE = true) ∧
      (∀ a ∈ docs, (sorted.filter fun b => sortComparison clauses a b = .eq) =
        docs.filter fun b => sortComparison clauses a b = .eq) ∧
      (clauses ≠ [] → ∀ doc ∈ applySort docs clauses,
        doc.sort = sortValues clauses doc ∧ doc.sort.length = clauses.length) ∧
      (clauses = [] → applySort docs clauses = sorted) := by
  constructor
  · intro a b c ha hb hc
    rw [sortComparison_eq ha hb, sortComparison_eq hb ha, sortComparison_eq hb hc, sortComparison_eq ha hc]
    refine ⟨OrientedCmp.eq_swap, TransCmp.isLE_trans, ?_⟩
    rw [← sortComparison_eq ha hb]
    exact sortComparison_eq_eq ha hb
  · have hmem : ∀ doc ∈ sortBy (sortCmp clauses) docs, doc ∈ docs := fun doc hdoc => mem_sortBy.1 hdoc
    have hmap : applySort docs clauses = (sortBy (sortCmp clauses) docs).map (storeSort clauses) := by
      rw [applySort_eq_map, sortBy_sortComparison hdocs]
    refine ⟨sortBy (sortCmp clauses) docs, hmap, perm_sortBy _ docs, ?_, fun a ha => ?_,
      fun hclauses doc hdoc => ?_, fun hclauses => ?_⟩
    · refine List.Pairwise.imp_of_mem (fun {a b} ha hb hle => ?_) (pairwise_sortBy docs)
      rw [sortComparison_eq (hdocs a (hmem a ha)) (hdocs b (hmem b hb))]
      exact hle
    · rw [filter_ties_eq hdocs (hdocs a ha) hmem, filter_ties_eq hdocs (hdocs a ha) fun _ h => h, tiesOf_sortBy]
    · rw [hmap] at hdoc
      obtain ⟨d, -, rfl⟩ := List.mem_map.1 hdoc
      rw [storeSort, if_neg hclauses]
      exact ⟨rfl, List.length_map _⟩
    · rw [hmap]
      refine (List.map_congr_left fun doc _ => ?_).trans (List.map_id _)
      exact if_pos hclauses

end Sorting

theorem noNan_titledAndUntitled : titledAndUntitled.1.NoNan ∧ titledAndUntitled.2.NoNan := by
  constructor
  · refine ⟨rfl, fun name x hx => ?_⟩
    simp only [titledAndUntitled, Document.withField, Document.new, ExtTreeMap.getElem?_insert] at hx
    split at hx
    · cases hx
    · simp at hx
  · refine ⟨rfl, fun name x hx => ?_⟩
    simp [titledAndUntitled, Document.new] at hx

/-- Two documents sorted by title. -/
theorem applySort_stable_titles :
    ∃ sorted : List ScoredDocument,
      applySort [titledAndUntitled.2, titledAndUntitled.1] [⟨"title", .desc⟩] =
        sorted.map (storeSort [⟨"title", .desc⟩]) ∧
      sorted.Perm [titledAndUntitled.2, titledAndUntitled.1] := by
  have hnan : ∀ doc ∈ [titledAndUntitled.2, titledAndUntitled.1], doc.NoNan := by
    intro doc hdoc
    rcases List.mem_pair.1 hdoc with rfl | rfl
    · exact noNan_titledAndUntitled.2
    · exact noNan_titledAndUntitled.1
  obtain ⟨-, sorted, hsorted, hperm, -⟩ := applySort_stable [⟨"title", .desc⟩] _ hnan
  exact ⟨sorted, hsorted, hperm⟩

/-- Without clauses a document keeps the sort values it came with. -/
theorem applySort_keeps_sort :
    applySort [storeSort [⟨"title", .asc⟩] titledAndUntitled.1] [] =
        [storeSort [⟨"title", .asc⟩] titledAndUntitled.1] ∧
      (storeSort [⟨"title", .asc⟩] titledAndUntitled.1).sort.length ≠ ([] : List SortClause).length := by
  constructor
  · rw [applySort, if_pos rfl, sortBy, List.mergeSort_singleton]
  · decide

end MSearchDB.Core
