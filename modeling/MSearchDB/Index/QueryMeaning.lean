import MSearchDB.Index.Search

/-!
# What a translated query matches

The meaning of a `Query` is given once for all its constructors: what a clause matches is a
parameter, and a `Bool` combines the outcomes of its clauses. `TantivyQuery.matches` is the
same for Tantivy, whose `BooleanQuery` wants all `Must` clauses, no `MustNot` clause and,
where there is no `Must`, one of the `Should`.

The two differ in one place. A `Bool` without any clause is translated to a `BooleanQuery`
without clauses, which matches nothing: `translate_bool` adds an `AllQuery` only where there
are `must_not` clauses. `meaning` has the outcome of an empty `Bool` as an argument, and
`translateQuery_meaning` says that the translation has the meaning in which it is `false`.
-/

set_option autoImplicit false

namespace MSearchDB.Core

/-- Induction over a query, with the hypothesis for every clause of a `Bool`. -/
@[elab_as_elim]
theorem Query.induct {motive : Query → Prop}
    (fullText : ∀ q, motive (.fullText q))
    (term : ∀ q, motive (.term q))
    (range : ∀ q, motive (.range q))
    (bool : ∀ must should mustNot, (∀ q ∈ must, motive q) → (∀ q ∈ should, motive q) →
      (∀ q ∈ mustNot, motive q) → motive (.bool must should mustNot)) :
    ∀ q, motive q
  | .fullText q => fullText q
  | .term q => term q
  | .range q => range q
  | .bool must should mustNot =>
      bool must should mustNot (fun q _ => Query.induct fullText term range bool q)
        (fun q _ => Query.induct fullText term range bool q)
        (fun q _ => Query.induct fullText term range bool q)

mutual

/-- The clauses of a query that are not `Bool`s. -/
def Query.leaves : Query → List Query
  | .bool must should mustNot =>
      Query.leavesOf must ++ Query.leavesOf should ++ Query.leavesOf mustNot
  | q => [q]

/-- Those of a list of clauses. -/
def Query.leavesOf : List Query → List Query
  | [] => []
  | q :: qs => q.leaves ++ Query.leavesOf qs

end

/-- The field that a clause is about. -/
def Query.field : Query → String
  | .fullText q => q.field
  | .term q => q.field
  | .range q => q.field
  | .bool _ _ _ => ""

/-- What a `Bool` makes of the outcomes of its clauses: every `must`, no `must_not` and, if
there is no `must` but a `should`, one `should`. Without any clause it is `emptyBool`. -/
def boolMeaning (emptyBool : Bool) (must should mustNot : List Bool) : Bool :=
  if must.isEmpty && should.isEmpty && mustNot.isEmpty then emptyBool
  else must.all (fun b => b) && mustNot.all (!·) && (!must.isEmpty || should.isEmpty || should.any fun b => b)

mutual

/-- A query over what its clauses match. -/
def Query.meaning (emptyBool : Bool) (leaf : Query → Bool) : Query → Bool
  | .bool must should mustNot =>
      boolMeaning emptyBool (Query.outcomes emptyBool leaf must) (Query.outcomes emptyBool leaf should)
        (Query.outcomes emptyBool leaf mustNot)
  | q => leaf q

/-- The outcomes of a list of clauses. -/
def Query.outcomes (emptyBool : Bool) (leaf : Query → Bool) : List Query → List Bool
  | [] => []
  | q :: qs => q.meaning emptyBool leaf :: Query.outcomes emptyBool leaf qs

end

end MSearchDB.Core

namespace MSearchDB.Index

open MSearchDB.Core

/-- What a `BooleanQuery` makes of the outcomes of its clauses. -/
def booleanMatches (clauses : List (Occur × Bool)) : Bool :=
  clauses.all (fun c => c.1 ≠ .must || c.2) && clauses.all (fun c => c.1 ≠ .mustNot || !c.2) &&
    (clauses.any (fun c => c.1 = .must) || clauses.any (fun c => c.1 = .should && c.2))

mutual

/-- A Tantivy query over what its terms, ranges and parsed texts match. -/
def TantivyQuery.matches (leaf : TantivyQuery → Bool) : TantivyQuery → Bool
  | .all => true
  | .boolean clauses => booleanMatches (TantivyQuery.clauseOutcomes leaf clauses)
  | q => leaf q

/-- The outcomes of the clauses of a `BooleanQuery`. -/
def TantivyQuery.clauseOutcomes (leaf : TantivyQuery → Bool) :
    List (Occur × TantivyQuery) → List (Occur × Bool)
  | [] => []
  | (occur, q) :: clauses => (occur, q.matches leaf) :: TantivyQuery.clauseOutcomes leaf clauses

end

/-- `QueryBuilder`, without the boost, which `build` does not read. -/
structure QueryBuilder where
  must : List Query
  should : List Query
  mustNot : List Query

/-- `QueryBuilder::build`. -/
def QueryBuilder.build (b : QueryBuilder) : Query :=
  match b.must, b.should, b.mustNot with
  | [q], [], [] => q
  | must, should, mustNot => .bool must should mustNot

/-! ## Clauses -/

theorem leavesOf_eq_flatMap (qs : List Query) : Query.leavesOf qs = qs.flatMap Query.leaves := by
  induction qs with
  | nil => rfl
  | cons q qs ih => rw [Query.leavesOf, ih, List.flatMap_cons]

theorem mem_leaves_bool {must should mustNot : List Query} {l : Query} :
    l ∈ (Query.bool must should mustNot).leaves ↔ ∃ q ∈ must ++ should ++ mustNot, l ∈ q.leaves := by
  rw [Query.leaves, leavesOf_eq_flatMap, leavesOf_eq_flatMap, leavesOf_eq_flatMap, ← List.flatMap_append,
    ← List.flatMap_append, List.mem_flatMap]

theorem bool_notMem_leaves {must should mustNot : List Query} (q : Query) :
    .bool must should mustNot ∉ q.leaves := by
  induction q using Query.induct with
  | fullText q => simp [Query.leaves]
  | term q => simp [Query.leaves]
  | range q => simp [Query.leaves]
  | bool ms ss ns ihmust ihshould ihmustNot =>
      intro hmem
      obtain ⟨q, hq, hleaf⟩ := mem_leaves_bool.1 hmem
      simp only [List.append_assoc, List.mem_append] at hq
      rcases hq with hq | hq | hq
      · exact ihmust q hq hleaf
      · exact ihshould q hq hleaf
      · exact ihmustNot q hq hleaf

theorem clauseOutcomes_eq_map (leaf : TantivyQuery → Bool) (clauses : List (Occur × TantivyQuery)) :
    TantivyQuery.clauseOutcomes leaf clauses = clauses.map fun c => (c.1, c.2.matches leaf) := by
  induction clauses with
  | nil => rfl
  | cons c clauses ih => rw [TantivyQuery.clauseOutcomes, ih, List.map_cons]

section Translation

variable {fieldMap : FieldMap} {fullText : FullTextQuery → DbResult TantivyQuery}

/-- The clauses of a list are translated one by one. -/
theorem translateClauses_ok {occur : Occur} :
    ∀ {qs : List Query} {clauses : List (Occur × TantivyQuery)},
      translateClauses fieldMap fullText occur qs = .ok clauses →
        ∃ tqs, clauses = tqs.map (fun tq => (occur, tq)) ∧
          List.Forall₂ (fun q tq => translateWith fieldMap fullText q = .ok tq) qs tqs := by
  intro qs
  induction qs with
  | nil =>
      intro clauses h
      rw [translateClauses] at h
      exact ⟨[], (Except.ok.inj h).symm, .nil⟩
  | cons q qs ih =>
      intro clauses h
      rw [translateClauses] at h
      cases hq : translateWith fieldMap fullText q with
      | error e => rw [hq] at h; exact nomatch h
      | ok tq =>
          cases hqs : translateClauses fieldMap fullText occur qs with
          | error e => rw [hq, hqs] at h; exact nomatch h
          | ok rest =>
              rw [hq, hqs] at h
              obtain ⟨tqs, rfl, hall⟩ := ih hqs
              exact ⟨tq :: tqs, (Except.ok.inj h).symm, .cons hq hall⟩

/-- The inverse: where every clause is translated, the list is. -/
theorem translateClauses_isOk (occur : Occur) {qs : List Query}
    (h : ∀ q ∈ qs, ∃ tq, translateWith fieldMap fullText q = .ok tq) :
    ∃ clauses, translateClauses fieldMap fullText occur qs = .ok clauses := by
  induction qs with
  | nil => exact ⟨[], by rw [translateClauses]⟩
  | cons q qs ih =>
      obtain ⟨tq, hq⟩ := h q List.mem_cons_self
      obtain ⟨clauses, hqs⟩ := ih fun q hq => h q (List.mem_cons_of_mem _ hq)
      exact ⟨(occur, tq) :: clauses, by rw [translateClauses, hq, hqs]; rfl⟩

/-- The clause that `translate_bool` adds. -/
def everything (must should mustNot : List Query) : List (Occur × TantivyQuery) :=
  if must.isEmpty && should.isEmpty && !mustNot.isEmpty then [(.must, .all)] else []

/-- **What a `Bool` is translated to.** -/
theorem translateWith_bool_ok {must should mustNot : List Query} {tq : TantivyQuery}
    (h : translateWith fieldMap fullText (.bool must should mustNot) = .ok tq) :
    ∃ musts shoulds mustNots,
      List.Forall₂ (fun q tq => translateWith fieldMap fullText q = .ok tq) must musts ∧
      List.Forall₂ (fun q tq => translateWith fieldMap fullText q = .ok tq) should shoulds ∧
      List.Forall₂ (fun q tq => translateWith fieldMap fullText q = .ok tq) mustNot mustNots ∧
      tq = .boolean (musts.map (fun tq => (Occur.must, tq)) ++ shoulds.map (fun tq => (Occur.should, tq)) ++
        mustNots.map (fun tq => (Occur.mustNot, tq)) ++ everything must should mustNot) := by
  rw [translateWith] at h
  cases hmust : translateClauses fieldMap fullText .must must with
  | error e => rw [hmust] at h; cases h
  | ok ms =>
      cases hshould : translateClauses fieldMap fullText .should should with
      | error e => rw [hmust, hshould] at h; cases h
      | ok ss =>
          cases hmustNot : translateClauses fieldMap fullText .mustNot mustNot with
          | error e => rw [hmust, hshould, hmustNot] at h; cases h
          | ok ns =>
              rw [hmust, hshould, hmustNot] at h
              obtain ⟨musts, rfl, hmusts⟩ := translateClauses_ok hmust
              obtain ⟨shoulds, rfl, hshoulds⟩ := translateClauses_ok hshould
              obtain ⟨mustNots, rfl, hmustNots⟩ := translateClauses_ok hmustNot
              exact ⟨musts, shoulds, mustNots, hmusts, hshoulds, hmustNots, (Except.ok.inj h).symm⟩

/-- A query is translated where each of its clauses is. -/
theorem translateWith_isOk {q : Query}
    (h : ∀ l ∈ q.leaves, ∃ tq, translateWith fieldMap fullText l = .ok tq) :
    ∃ tq, translateWith fieldMap fullText q = .ok tq := by
  induction q using Query.induct with
  | fullText q => exact h _ List.mem_cons_self
  | term q => exact h _ List.mem_cons_self
  | range q => exact h _ List.mem_cons_self
  | bool must should mustNot ihmust ihshould ihmustNot =>
      have hclauses : ∀ q ∈ must ++ should ++ mustNot, ∀ l ∈ q.leaves,
          ∃ tq, translateWith fieldMap fullText l = .ok tq :=
        fun q hq l hl => h l (mem_leaves_bool.2 ⟨q, hq, hl⟩)
      simp only [List.append_assoc, List.mem_append] at hclauses
      obtain ⟨ms, hms⟩ := translateClauses_isOk .must fun q hq => ihmust q hq (hclauses q (.inl hq))
      obtain ⟨ss, hss⟩ := translateClauses_isOk .should fun q hq =>
        ihshould q hq (hclauses q (.inr (.inl hq)))
      obtain ⟨ns, hns⟩ := translateClauses_isOk .mustNot fun q hq =>
        ihmustNot q hq (hclauses q (.inr (.inr hq)))
      rw [translateWith, hms, hss, hns]
      exact ⟨_, rfl⟩

/-- The inverse: a query that is translated has translated clauses. -/
theorem leaf_isOk {q : Query} :
    ∀ {tq : TantivyQuery}, translateWith fieldMap fullText q = .ok tq →
      ∀ l ∈ q.leaves, ∃ tq, translateWith fieldMap fullText l = .ok tq := by
  have hclauses : ∀ {qs : List Query} {tqs : List TantivyQuery},
      List.Forall₂ (fun q tq => translateWith fieldMap fullText q = .ok tq) qs tqs →
        ∀ q ∈ qs, ∃ tq, translateWith fieldMap fullText q = .ok tq := by
    intro qs tqs hall
    induction hall with
    | nil => exact nofun
    | @cons q tq qs tqs hq _ ih => exact List.forall_mem_cons.2 ⟨⟨tq, hq⟩, ih⟩
  induction q using Query.induct with
  | fullText q => exact fun h => List.forall_mem_singleton.2 ⟨_, h⟩
  | term q => exact fun h => List.forall_mem_singleton.2 ⟨_, h⟩
  | range q => exact fun h => List.forall_mem_singleton.2 ⟨_, h⟩
  | bool must should mustNot ihmust ihshould ihmustNot =>
      intro tq h l hl
      obtain ⟨ms, ss, ns, hms, hss, hns, -⟩ := translateWith_bool_ok h
      obtain ⟨q, hq, hl⟩ := mem_leaves_bool.1 hl
      simp only [List.append_assoc, List.mem_append] at hq
      rcases hq with hq | hq | hq
      · obtain ⟨tq, htq⟩ := hclauses hms q hq
        exact ihmust q hq htq l hl
      · obtain ⟨tq, htq⟩ := hclauses hss q hq
        exact ihshould q hq htq l hl
      · obtain ⟨tq, htq⟩ := hclauses hns q hq
        exact ihmustNot q hq htq l hl

/-! ## Meaning -/

/-- What the translation of a clause matches. -/
def leafMeaning (fieldMap : FieldMap) (fullText : FullTextQuery → DbResult TantivyQuery)
    (leaf : TantivyQuery → Bool) (q : Query) : Bool :=
  match translateWith fieldMap fullText q with
  | .ok tq => tq.matches leaf
  | .error _ => false

/-- A `BooleanQuery` as `translate_bool` builds it. -/
theorem booleanMatches_clauses (ms ss ns : List Bool) :
    booleanMatches (ms.map (fun b => (Occur.must, b)) ++ ss.map (fun b => (Occur.should, b)) ++
        ns.map (fun b => (Occur.mustNot, b)) ++
        if ms.isEmpty && ss.isEmpty && !ns.isEmpty then [(Occur.must, true)] else []) =
      boolMeaning false ms ss ns := by
  have htrue : ∀ l : List Bool, l.all (fun _ => true) = true := by simp
  have hfalse : ∀ l : List Bool, l.any (fun _ => false) = false := by simp
  cases ms with
  | cons m ms => simp [booleanMatches, boolMeaning, List.all_map, Function.comp_def, htrue]
  | nil =>
      cases ss with
      | cons b ss =>
          simp [booleanMatches, boolMeaning, List.all_map, List.any_map, Function.comp_def, htrue, hfalse]
      | nil =>
          cases ns with
          | nil => rfl
          | cons n ns => simp [booleanMatches, boolMeaning, List.all_map, Function.comp_def]

/-- Translated clauses have the outcomes of their queries. -/
theorem outcomes_of_forall₂ {leaf : TantivyQuery → Bool} {qs : List Query} {tqs : List TantivyQuery}
    (hall : List.Forall₂ (fun q tq => translateWith fieldMap fullText q = .ok tq) qs tqs)
    (ih : ∀ q ∈ qs, ∀ tq, translateWith fieldMap fullText q = .ok tq →
      tq.matches leaf = q.meaning false (leafMeaning fieldMap fullText leaf)) :
    tqs.map (TantivyQuery.matches leaf) =
      Query.outcomes false (leafMeaning fieldMap fullText leaf) qs := by
  induction hall with
  | nil => rfl
  | @cons q tq qs tqs hq _ ihall =>
      rw [List.map_cons, Query.outcomes, ih q List.mem_cons_self tq hq,
        ihall fun q hq => ih q (List.mem_cons_of_mem _ hq)]

/-- **Translation keeps the meaning**, if an empty `Bool` means nothing. -/
theorem matches_translateWith (leaf : TantivyQuery → Bool) (q : Query) :
    ∀ tq, translateWith fieldMap fullText q = .ok tq →
      tq.matches leaf = q.meaning false (leafMeaning fieldMap fullText leaf) := by
  induction q using Query.induct with
  | fullText q =>
      intro tq h
      rw [Query.meaning, leafMeaning, h]
      exact nofun
  | term q =>
      intro tq h
      rw [Query.meaning, leafMeaning, h]
      exact nofun
  | range q =>
      intro tq h
      rw [Query.meaning, leafMeaning, h]
      exact nofun
  | bool must should mustNot ihmust ihshould ihmustNot =>
      intro tq h
      obtain ⟨musts, shoulds, mustNots, hmust, hshould, hmustNot, rfl⟩ := translateWith_bool_ok h
      have hms := outcomes_of_forall₂ hmust ihmust
      have hss := outcomes_of_forall₂ hshould ihshould
      have hns := outcomes_of_forall₂ hmustNot ihmustNot
      have hempty : ∀ {qs : List Query} {tqs : List TantivyQuery},
          List.Forall₂ (fun q tq => translateWith fieldMap fullText q = .ok tq) qs tqs →
            (tqs.map (TantivyQuery.matches leaf)).isEmpty = qs.isEmpty := by
        intro qs tqs hall
        cases hall <;> rfl
      rw [Query.meaning, ← hms, ← hss, ← hns, ← booleanMatches_clauses, TantivyQuery.matches,
        clauseOutcomes_eq_map, hempty hmust, hempty hshould, hempty hmustNot, everything]
      simp only [List.map_append, List.map_map, Function.comp_def]
      congr 1
      split
      · simp [TantivyQuery.matches]
      · rfl

end Translation

/-! ## The translation of the index manager -/

section

variable [Searcher] {index : Schema} {fieldMap : FieldMap}

/-- Terms and ranges over known fields are translated, and so is a text that the parser
takes. -/
theorem translateQuery_leaf {q l : Query} (hl : l ∈ q.leaves) (hfield : l.field ∈ fieldMap) :
    (∃ tq, translateQuery index fieldMap l = .ok tq) ∨
      ∃ ft e, l = .fullText ft ∧ translateFullText index fieldMap ft = .error (.indexError e) := by
  obtain ⟨f, hf⟩ := Option.isSome_iff_exists.1 (Std.ExtTreeMap.mem_iff_isSome_getElem?.1 hfield)
  cases l with
  | fullText ft =>
      have hf : fieldMap[ft.field]? = some f := hf
      cases herror : Searcher.parseError index f (ft.operator = .and) none ft.query with
      | some e =>
          refine .inr ⟨ft, "parse query: " ++ e, rfl, ?_⟩
          simp only [translateFullText, queryField, hf, bind, Except.bind, herror]
      | none =>
          left
          simp only [translateQuery, translateWith, translateFullText, queryField, hf, bind, Except.bind, herror]
          exact ⟨_, rfl⟩
  | term t =>
      have hf : fieldMap[t.field]? = some f := hf
      left
      simp only [translateQuery, translateWith, translateTerm, queryField, hf, bind, Except.bind]
      exact ⟨_, rfl⟩
  | range r =>
      have hf : fieldMap[r.field]? = some f := hf
      left
      simp only [translateQuery, translateWith, translateRange, queryField, hf, bind, Except.bind]
      exact ⟨_, rfl⟩
  | bool must should mustNot => exact absurd hl (bool_notMem_leaves q)

/-- **Translation preserves meaning.** A query over fields of the field map is translated,
unless the parser rejects one of its texts, and matches what it means, where a `Bool`
without clauses matches nothing; a `Bool` around it as its only `must` clause, which
`QueryBuilder::build` leaves away, matches the same. -/
theorem translateQuery_meaning (index : Schema) (fieldMap : FieldMap) (q : Query)
    (hfields : ∀ l ∈ q.leaves, l.field ∈ fieldMap) :
    (∃ tq wrapped, translateQuery index fieldMap (QueryBuilder.mk [q] [] []).build = .ok tq ∧
        translateQuery index fieldMap (.bool [q] [] []) = .ok wrapped ∧
        ∀ leaf, tq.matches leaf =
            q.meaning false (leafMeaning fieldMap (translateFullText index fieldMap) leaf) ∧
          wrapped.matches leaf = tq.matches leaf) ∨
      ∃ ft e, .fullText ft ∈ q.leaves ∧ translateFullText index fieldMap ft = .error (.indexError e) := by
  by_cases hparse : ∃ ft e, .fullText ft ∈ q.leaves ∧
      translateFullText index fieldMap ft = .error (.indexError e)
  · exact .inr hparse
  · left
    have hleaves : ∀ l ∈ q.leaves, ∃ tq, translateQuery index fieldMap l = .ok tq := by
      intro l hl
      rcases translateQuery_leaf hl (hfields l hl) with h | ⟨ft, e, rfl, h⟩
      · exact h
      · exact absurd ⟨ft, e, hl, h⟩ hparse
    obtain ⟨tq, htq⟩ := translateWith_isOk hleaves
    obtain ⟨wrapped, hwrapped⟩ : ∃ tq, translateQuery index fieldMap (.bool [q] [] []) = .ok tq := by
      refine translateWith_isOk fun l hl => hleaves l ?_
      obtain ⟨q', hq', hl⟩ := mem_leaves_bool.1 hl
      rwa [List.mem_singleton.1 hq'] at hl
    refine ⟨tq, wrapped, htq, hwrapped, fun leaf => ?_⟩
    have hmeaning := matches_translateWith leaf q tq htq
    refine ⟨hmeaning, ?_⟩
    rw [matches_translateWith leaf _ wrapped hwrapped, hmeaning]
    simp [Query.meaning, Query.outcomes, boolMeaning]

end

namespace CollectionIndexManager

/-- A document without the word. -/
theorem translateQuery_meaning_wordQuery :
    ∃ tq wrapped, translateQuery initialSchema initialFieldMap (.bool [] [] [wordQuery]) = .ok tq ∧
      translateQuery initialSchema initialFieldMap (.bool [.bool [] [] [wordQuery]] [] []) = .ok wrapped ∧
      ∀ leaf, tq.matches leaf = Query.meaning false
          (leafMeaning initialFieldMap (translateFullText initialSchema initialFieldMap) leaf)
          (.bool [] [] [wordQuery]) ∧
        wrapped.matches leaf = tq.matches leaf := by
  have hfields : ∀ l ∈ (Query.bool [] [] [wordQuery]).leaves, l.field ∈ initialFieldMap := by
    intro l hl
    have hword : l = wordQuery := by simpa [Query.leaves, Query.leavesOf, wordQuery] using hl
    rw [hword]
    decide
  refine (translateQuery_meaning initialSchema initialFieldMap (.bool [] [] [wordQuery]) hfields).resolve_right ?_
  rintro ⟨ft, e, hmem, -⟩
  simp [Query.leaves, Query.leavesOf, wordQuery] at hmem

/-- A `Bool` without clauses is translated to a query that matches nothing. -/
theorem not_meaning_emptyBool :
    (∀ l ∈ (Query.bool [] [] []).leaves, l.field ∈ initialFieldMap) ∧
      translateQuery initialSchema initialFieldMap (.bool [] [] []) = .ok (.boolean []) ∧
      TantivyQuery.matches (fun _ => true) (.boolean []) = false ∧
      (Query.bool [] [] []).meaning true (leafMeaning initialFieldMap
        (translateFullText initialSchema initialFieldMap) fun _ => true) = true := by
  refine ⟨by simp [Query.leaves, Query.leavesOf], rfl, ?_, ?_⟩
  · simp [TantivyQuery.matches, TantivyQuery.clauseOutcomes, booleanMatches]
  · simp [Query.meaning, Query.outcomes, boolMeaning]

end CollectionIndexManager

end MSearchDB.Index
