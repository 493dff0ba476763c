import Mathlib.Data.Set.Lattice
import MSearchDB.Index.QueryMeaning

/-!
# Queries of the fluent builder

The methods of `QueryBuilder` in `crates/index/src/query_builder.rs`. Each pushes one clause
to one of three lists, but for `boost`, whose factor nothing reads. `build` returns a `Bool`
of the three lists, or the clause itself where a `must` clause is all there is.

What a built query matches is stated without lists (`Selects`): it is decided by the set of
the clauses that were asked for and by what each of them matches when it is searched alone.
So the order of the calls does not matter, nor does how often a clause is asked for, the boost
or the edit distance of a `fuzzy` call. The documentation of `should` calls its clause
optional, which it is only where some clause is required.

Both engines translate with `translateWith`, and the results hold for every translation of
the texts.
-/

set_option autoImplicit false

namespace MSearchDB.Index

open MSearchDB.Core

namespace QueryBuilder

/-! ## The methods -/

/-- `QueryBuilder::new`. -/
def new : QueryBuilder := ⟨[], [], []⟩

/-- `QueryBuilder::must`. -/
def addMust (b : QueryBuilder) (query : Query) : QueryBuilder := { b with must := b.must ++ [query] }

/-- `QueryBuilder::should`. -/
def addShould (b : QueryBuilder) (query : Query) : QueryBuilder :=
  { b with should := b.should ++ [query] }

/-- `QueryBuilder::must_not`. -/
def addMustNot (b : QueryBuilder) (query : Query) : QueryBuilder :=
  { b with mustNot := b.mustNot ++ [query] }

/-- `QueryBuilder::must_match`. -/
def mustMatch (b : QueryBuilder) (field text : String) : QueryBuilder :=
  b.addMust (.fullText ⟨field, text, .or⟩)

/-- `QueryBuilder::must_match_all`. -/
def mustMatchAll (b : QueryBuilder) (field text : String) : QueryBuilder :=
  b.addMust (.fullText ⟨field, text, .and⟩)

/-- `QueryBuilder::should_match`. -/
def shouldMatch (b : QueryBuilder) (field text : String) : QueryBuilder :=
  b.addShould (.fullText ⟨field, text, .or⟩)

/-- `QueryBuilder::must_not_match`. -/
def mustNotMatch (b : QueryBuilder) (field text : String) : QueryBuilder :=
  b.addMustNot (.fullText ⟨field, text, .or⟩)

/-- `QueryBuilder::must_term`. -/
def mustTerm (b : QueryBuilder) (field value : String) : QueryBuilder := b.addMust (.term ⟨field, value⟩)

/-- `QueryBuilder::should_term`. -/
def shouldTerm (b : QueryBuilder) (field value : String) : QueryBuilder :=
  b.addShould (.term ⟨field, value⟩)

/-- `QueryBuilder::must_not_term`. -/
def mustNotTerm (b : QueryBuilder) (field value : String) : QueryBuilder :=
  b.addMustNot (.term ⟨field, value⟩)

/-- `QueryBuilder::must_range`. -/
def mustRange (b : QueryBuilder) (field : String) (gte lte : Option F64) : QueryBuilder :=
  b.addMust (.range ⟨field, gte, lte⟩)

/-- `QueryBuilder::should_range`. -/
def shouldRange (b : QueryBuilder) (field : String) (gte lte : Option F64) : QueryBuilder :=
  b.addShould (.range ⟨field, gte, lte⟩)

/-- `QueryBuilder::boost`, which sets the field that is left out. -/
def boost (b : QueryBuilder) (_factor : F32) : QueryBuilder := b

/-- `QueryBuilder::fuzzy`. -/
def fuzzy (b : QueryBuilder) (field value : String) (_distance : UInt8) : QueryBuilder :=
  b.addMust (.fullText ⟨field, value, .or⟩)

/-- `QueryBuilder::phrase`. -/
def phrase (b : QueryBuilder) (field words : String) : QueryBuilder :=
  b.addMust (.fullText ⟨field, "\"" ++ words ++ "\"", .and⟩)

/-- `QueryBuilder::wildcard`. -/
def wildcard (b : QueryBuilder) (field pattern : String) : QueryBuilder :=
  b.addMust (.term ⟨field, pattern⟩)

end QueryBuilder

/-- A call of one of the methods. -/
inductive BuilderCall where
  | must (query : Query)
  | should (query : Query)
  | mustNot (query : Query)
  | mustMatch (field text : String)
  | mustMatchAll (field text : String)
  | shouldMatch (field text : String)
  | mustNotMatch (field text : String)
  | mustTerm (field value : String)
  | shouldTerm (field value : String)
  | mustNotTerm (field value : String)
  | mustRange (field : String) (gte lte : Option F64)
  | shouldRange (field : String) (gte lte : Option F64)
  | boost (factor : F32)
  | fuzzy (field value : String) (distance : UInt8)
  | phrase (field words : String)
  | wildcard (field pattern : String)

/-- What the call makes of the builder. -/
def QueryBuilder.call (b : QueryBuilder) : BuilderCall → QueryBuilder
  | .must query => b.addMust query
  | .should query => b.addShould query
  | .mustNot query => b.addMustNot query
  | .mustMatch field text => b.mustMatch field text
  | .mustMatchAll field text => b.mustMatchAll field text
  | .shouldMatch field text => b.shouldMatch field text
  | .mustNotMatch field text => b.mustNotMatch field text
  | .mustTerm field value => b.mustTerm field value
  | .shouldTerm field value => b.shouldTerm field value
  | .mustNotTerm field value => b.mustNotTerm field value
  | .mustRange field gte lte => b.mustRange field gte lte
  | .shouldRange field gte lte => b.shouldRange field gte lte
  | .boost factor => b.boost factor
  | .fuzzy field value distance => b.fuzzy field value distance
  | .phrase field words => b.phrase field words
  | .wildcard field pattern => b.wildcard field pattern

/-- A builder after the calls, one after another. -/
def QueryBuilder.calls (b : QueryBuilder) (cs : List BuilderCall) : QueryBuilder :=
  cs.foldl QueryBuilder.call b

/-! ## The set of the clauses -/

/-- The clause that a call asks for. The edit distance is no part of it. -/
def BuilderCall.clause : BuilderCall → Option (Occur × Query)
  | .must query => some (.must, query)
  | .should query => some (.should, query)
  | .mustNot query => some (.mustNot, query)
  | .mustMatch field text => some (.must, .fullText ⟨field, text, .or⟩)
  | .mustMatchAll field text => some (.must, .fullText ⟨field, text, .and⟩)
  | .shouldMatch field text => some (.should, .fullText ⟨field, text, .or⟩)
  | .mustNotMatch field text => some (.mustNot, .fullText ⟨field, text, .or⟩)
  | .mustTerm field value => some (.must, .term ⟨field, value⟩)
  | .shouldTerm field value => some (.should, .term ⟨field, value⟩)
  | .mustNotTerm field value => some (.mustNot, .term ⟨field, value⟩)
  | .mustRange field gte lte => some (.must, .range ⟨field, gte, lte⟩)
  | .shouldRange field gte lte => some (.should, .range ⟨field, gte, lte⟩)
  | .boost _ => none
  | .fuzzy field value _ => some (.must, .fullText ⟨field, value, .or⟩)
  | .phrase field words => some (.must, .fullText ⟨field, "\"" ++ words ++ "\"", .and⟩)
  | .wildcard field pattern => some (.must, .term ⟨field, pattern⟩)

/-- The clauses that the calls ask for. -/
def clausesOf (cs : List BuilderCall) : Set (Occur × Query) :=
  {clause | ∃ c ∈ cs, c.clause = some clause}

/-- The list of the clauses of one kind. -/
def QueryBuilder.listOf (b : QueryBuilder) : Occur → List Query
  | .must => b.must
  | .should => b.should
  | .mustNot => b.mustNot

/-- What a set of clauses selects, given which of them match: some clause, every required one,
none that is excluded and, if there are optional clauses only, one of these. -/
def Selects (matching : Query → Prop) (clauses : Set (Occur × Query)) : Prop :=
  clauses.Nonempty ∧ (∀ q, (.must, q) ∈ clauses → matching q) ∧
    (∀ q, (.mustNot, q) ∈ clauses → ¬ matching q) ∧
    ((∃ q, (.must, q) ∈ clauses) ∨ (∀ q, (.should, q) ∉ clauses) ∨
      ∃ q, (.should, q) ∈ clauses ∧ matching q)

/-- One more clause. -/
def QueryBuilder.push (b : QueryBuilder) : Occur × Query → QueryBuilder
  | (.must, query) => b.addMust query
  | (.should, query) => b.addShould query
  | (.mustNot, query) => b.addMustNot query

/-- A call pushes its clause, if it has one. -/
theorem call_eq (b : QueryBuilder) (c : BuilderCall) : b.call c = c.clause.elim b b.push := by
  cases c <;> rfl

theorem mem_listOf_push (b : QueryBuilder) (occur occur' : Occur) (q q' : Query) :
    q ∈ (b.push (occur', q')).listOf occur ↔ q ∈ b.listOf occur ∨ (occur', q') = (occur, q) := by
  -- The pushed clause is at the end of its list; the other two lists are as they were.
  cases occur' <;> cases occur <;>
    simp [QueryBuilder.push, QueryBuilder.addMust, QueryBuilder.addShould, QueryBuilder.addMustNot,
      QueryBuilder.listOf, eq_comm (a := q)]

/-- A call adds its clause. -/
theorem mem_listOf_call (b : QueryBuilder) (c : BuilderCall) (occur : Occur) (q : Query) :
    q ∈ (b.call c).listOf occur ↔ q ∈ b.listOf occur ∨ c.clause = some (occur, q) := by
  rw [call_eq]
  cases hclause : c.clause with
  | none => simp
  | some clause =>
      rw [Option.elim_some, mem_listOf_push, Option.some.injEq]

/-- A sequence of calls adds the clauses that it asks for. -/
theorem mem_listOf_calls (b : QueryBuilder) (cs : List BuilderCall) (occur : Occur) (q : Query) :
    q ∈ (b.calls cs).listOf occur ↔ q ∈ b.listOf occur ∨ (occur, q) ∈ clausesOf cs := by
  induction cs generalizing b with
  | nil => simp [QueryBuilder.calls, clausesOf]
  | cons c cs ih =>
      have hcalls : b.calls (c :: cs) = (b.call c).calls cs := rfl
      rw [hcalls, ih (b.call c), mem_listOf_call]
      simp only [clausesOf, Set.mem_ofPred_eq, List.mem_cons, exists_eq_or_imp, or_assoc]

/-- The lists of a builder that was new before the calls. -/
theorem mem_listOf_new (cs : List BuilderCall) (occur : Occur) (q : Query) :
    q ∈ (QueryBuilder.new.calls cs).listOf occur ↔ (occur, q) ∈ clausesOf cs := by
  rw [mem_listOf_calls]
  cases occur <;> simp [QueryBuilder.new, QueryBuilder.listOf]

/-! ## What a built query matches -/

section Built

variable {fieldMap : FieldMap} {fullText : FullTextQuery → DbResult TantivyQuery}

/-- A clause that is searched alone matches. -/
def MatchesAlone (fieldMap : FieldMap) (fullText : FullTextQuery → DbResult TantivyQuery)
    (leaf : TantivyQuery → Bool) (q : Query) : Prop :=
  ∃ tq, translateWith fieldMap fullText q = .ok tq ∧ tq.matches leaf = true

theorem matchesAlone_iff {q : Query} {tq : TantivyQuery} (h : translateWith fieldMap fullText q = .ok tq)
    (leaf : TantivyQuery → Bool) :
    MatchesAlone fieldMap fullText leaf q ↔
      q.meaning false (leafMeaning fieldMap fullText leaf) = true := by
  rw [← matches_translateWith leaf q tq h]
  constructor
  · rintro ⟨tq', htq', hmatches⟩
    rw [htq'] at h
    rwa [Except.ok.inj h] at hmatches
  · intro hmatches
    exact ⟨tq, h, hmatches⟩

theorem outcomes_eq_map (emptyBool : Bool) (leaf : Query → Bool) (qs : List Query) :
    Query.outcomes emptyBool leaf qs = qs.map fun q => q.meaning emptyBool leaf := by
  induction qs with
  | nil => rfl
  | cons q qs ih => rw [Query.outcomes, ih, List.map_cons]

/-- The two results of `build`. -/
theorem build_cases (b : QueryBuilder) :
    (∃ q, b = ⟨[q], [], []⟩ ∧ b.build = q) ∨ b.build = .bool b.must b.should b.mustNot := by
  rcases b with ⟨must, should, mustNot⟩
  unfold QueryBuilder.build
  split
  · rename_i q hmust hshould hmustNot
    left
    simp only at hmust hshould hmustNot
    exact ⟨q, by rw [hmust, hshould, hmustNot], rfl⟩
  · exact .inr rfl

/-- Leaving the `Bool` away does not change what is meant. -/
theorem meaning_build (b : QueryBuilder) (leaf : Query → Bool) :
    b.build.meaning false leaf =
      (Query.bool b.must b.should b.mustNot).meaning false leaf := by
  rcases build_cases b with ⟨q, rfl, hbuild⟩ | hbuild
  · rw [hbuild]
    simp [Query.meaning, Query.outcomes, boolMeaning]
  · rw [hbuild]

/-- A built query is translated if and only if all its clauses are. -/
theorem translateWith_build_isOk (b : QueryBuilder) :
    (∃ tq, translateWith fieldMap fullText b.build = .ok tq) ↔
      ∀ occur, ∀ q ∈ b.listOf occur, ∃ tq, translateWith fieldMap fullText q = .ok tq := by
  have hleaves : (∃ tq, translateWith fieldMap fullText b.build = .ok tq) ↔
      ∀ l ∈ b.build.leaves, ∃ tq, translateWith fieldMap fullText l = .ok tq :=
    ⟨fun ⟨_, h⟩ => leaf_isOk h, translateWith_isOk⟩
  -- The clauses of the built query that are no `Bool`s are those of the three lists.
  have hmem : ∀ l, l ∈ b.build.leaves ↔ ∃ occur, ∃ q ∈ b.listOf occur, l ∈ q.leaves := by
    intro l
    have hbool : l ∈ (Query.bool b.must b.should b.mustNot).leaves ↔
        ∃ occur, ∃ q ∈ b.listOf occur, l ∈ q.leaves := by
      rw [mem_leaves_bool]
      constructor
      · rintro ⟨q, hq, hl⟩
        simp only [List.append_assoc, List.mem_append] at hq
        rcases hq with hq | hq | hq
        · exact ⟨.must, q, hq, hl⟩
        · exact ⟨.should, q, hq, hl⟩
        · exact ⟨.mustNot, q, hq, hl⟩
      · rintro ⟨occur, q, hq, hl⟩
        refine ⟨q, ?_, hl⟩
        simp only [List.append_assoc, List.mem_append]
        cases occur with
        | must => exact .inl hq
        | should => exact .inr (.inl hq)
        | mustNot => exact .inr (.inr hq)
    rcases build_cases b with ⟨q, rfl, hbuild⟩ | hbuild
    · rw [← hbool, hbuild]
      simp [Query.leaves, Query.leavesOf]
    · rw [hbuild, hbool]
  rw [hleaves]
  constructor
  · intro h occur q hq
    exact translateWith_isOk fun l hl => h l ((hmem l).2 ⟨occur, q, hq, hl⟩)
  · intro h l hl
    obtain ⟨occur, q, hq, hl⟩ := (hmem l).1 hl
    obtain ⟨tq, htq⟩ := h occur q hq
    exact leaf_isOk htq l hl

/-- What a `Bool` over lists of clauses means. -/
theorem boolMeaning_map (matching : Query → Bool) (b : QueryBuilder) :
    boolMeaning false (b.must.map matching) (b.should.map matching) (b.mustNot.map matching) = true ↔
      Selects (fun q => matching q = true) {clause | clause.2 ∈ b.listOf clause.1} := by
  have hnonempty : Set.Nonempty {clause : Occur × Query | clause.2 ∈ b.listOf clause.1} ↔
      ¬ (b.must = [] ∧ b.should = [] ∧ b.mustNot = []) := by
    constructor
    · rintro ⟨⟨occur, q⟩, hq⟩ ⟨hmust, hshould, hmustNot⟩
      cases occur with
      | must => exact List.ne_nil_of_mem hq hmust
      | should => exact List.ne_nil_of_mem hq hshould
      | mustNot => exact List.ne_nil_of_mem hq hmustNot
    · intro hclause
      simp only [not_and_or] at hclause
      rcases hclause with hlist | hlist | hlist
      · obtain ⟨q, hq⟩ := List.exists_mem_of_ne_nil _ hlist
        exact ⟨(.must, q), hq⟩
      · obtain ⟨q, hq⟩ := List.exists_mem_of_ne_nil _ hlist
        exact ⟨(.should, q), hq⟩
      · obtain ⟨q, hq⟩ := List.exists_mem_of_ne_nil _ hlist
        exact ⟨(.mustNot, q), hq⟩
  have hsome : ∀ l : List Query, l ≠ [] ↔ ∃ q, q ∈ l :=
    fun l => ⟨List.exists_mem_of_ne_nil l, fun ⟨_, hq⟩ => List.ne_nil_of_mem hq⟩
  have hnone : ∀ l : List Query, l = [] ↔ ∀ q, q ∉ l := fun _ => List.eq_nil_iff_forall_not_mem
  unfold boolMeaning Selects
  simp only [List.isEmpty_map, Bool.and_eq_true, List.isEmpty_iff]
  rw [hnonempty]
  split
  · rename_i hempty
    exact ⟨nofun, fun hselects => absurd ⟨hempty.1.1, hempty.1.2, hempty.2⟩ hselects.1⟩
  · rename_i hclause
    rw [and_assoc] at hclause
    simp only [hclause, not_false_eq_true, true_and, Set.mem_ofPred_eq, QueryBuilder.listOf, Bool.and_eq_true,
      Bool.or_eq_true, List.all_map, List.any_map, List.all_eq_true, List.any_eq_true, Function.comp_apply,
      Bool.not_eq_true', List.isEmpty_eq_false_iff, List.isEmpty_iff, ← hsome, ← hnone, and_assoc, or_assoc,
      Bool.not_eq_true]

/-- The clauses of the lists, as a set. -/
theorem clauses_new (cs : List BuilderCall) :
    {clause | clause.2 ∈ (QueryBuilder.new.calls cs).listOf clause.1} = clausesOf cs := by
  ext ⟨occur, q⟩
  exact mem_listOf_new cs occur q

/-- What decides a selection is which of its own clauses match. -/
theorem selects_congr {matching matching' : Query → Prop} {clauses : Set (Occur × Query)}
    (h : ∀ clause ∈ clauses, matching clause.2 ↔ matching' clause.2) :
    Selects matching clauses ↔ Selects matching' clauses := by
  unfold Selects
  refine and_congr_right fun _ => and_congr ?_ (and_congr ?_ (or_congr_right (or_congr_right ?_)))
  · exact forall₂_congr fun q hq => h (.must, q) hq
  · exact forall₂_congr fun q hq => not_congr (h (.mustNot, q) hq)
  · exact exists_congr fun q => and_congr_right fun hq => h (.should, q) hq

/-- **What the fluent builder builds.** Whatever calls are made on a new builder, the built
query is translated if and only if every clause asked for is, and then it matches what the set
of these clauses selects, given what each matches alone. So calls that ask for the same
clauses build queries that match the same, whatever their order, their repetitions, the boosts
and the edit distances are. -/
theorem built_query_selects (fieldMap : FieldMap) (fullText : FullTextQuery → DbResult TantivyQuery)
    (cs : List BuilderCall) :
    ((∃ tq, translateWith fieldMap fullText (QueryBuilder.new.calls cs).build = .ok tq) ↔
        ∀ clause ∈ clausesOf cs, ∃ tq, translateWith fieldMap fullText clause.2 = .ok tq) ∧
      ∀ tq, translateWith fieldMap fullText (QueryBuilder.new.calls cs).build = .ok tq → ∀ leaf,
        (tq.matches leaf = true ↔ Selects (MatchesAlone fieldMap fullText leaf) (clausesOf cs)) ∧
          ∀ cs', clausesOf cs' = clausesOf cs → ∃ tq',
            translateWith fieldMap fullText (QueryBuilder.new.calls cs').build = .ok tq' ∧
              tq'.matches leaf = tq.matches leaf := by
  have hisOk : ∀ cs, (∃ tq, translateWith fieldMap fullText (QueryBuilder.new.calls cs).build = .ok tq) ↔
      ∀ clause ∈ clausesOf cs, ∃ tq, translateWith fieldMap fullText clause.2 = .ok tq := by
    intro cs
    rw [translateWith_build_isOk, Prod.forall]
    exact forall₂_congr fun occur q => by rw [mem_listOf_new]
  have hmatches : ∀ cs tq, translateWith fieldMap fullText (QueryBuilder.new.calls cs).build = .ok tq →
      ∀ leaf, tq.matches leaf = true ↔ Selects (MatchesAlone fieldMap fullText leaf) (clausesOf cs) := by
    intro cs tq htq leaf
    have hclauses := (hisOk cs).1 ⟨tq, htq⟩
    rw [matches_translateWith leaf _ tq htq, meaning_build, Query.meaning, outcomes_eq_map, outcomes_eq_map,
      outcomes_eq_map, boolMeaning_map, clauses_new]
    apply selects_congr
    intro clause hclause
    obtain ⟨alone, halone⟩ := hclauses clause hclause
    exact (matchesAlone_iff halone leaf).symm
  refine ⟨hisOk cs, fun tq htq leaf => ⟨hmatches cs tq htq leaf, fun cs' hsame => ?_⟩⟩
  have hclauses := (hisOk cs).1 ⟨tq, htq⟩
  rw [← hsame] at hclauses
  obtain ⟨tq', htq'⟩ := (hisOk cs').2 hclauses
  refine ⟨tq', htq', ?_⟩
  rw [Bool.eq_iff_iff, hmatches cs' tq' htq' leaf, hmatches cs tq htq leaf, hsame]

end Built

namespace CollectionIndexManager

/-- A word asked for as a pattern with a boost, and the same word as a term and as a pattern:
the first query is the term itself, the second a `Bool`. -/
theorem built_query_selects_wordTwice :
    ∃ tq, translateQuery initialSchema initialFieldMap (QueryBuilder.new.calls
        [.mustTerm "_body" "rust", .wildcard "_body" "rust"]).build = .ok tq ∧
      ∀ leaf, tq.matches leaf = TantivyQuery.matches leaf (.term 3 "rust") := by
  have hsame : clausesOf [.mustTerm "_body" "rust", .wildcard "_body" "rust"] =
      clausesOf [.boost ⟨0x40000000⟩, .wildcard "_body" "rust"] := by
    ext clause
    simp [clausesOf, BuilderCall.clause]
  have hword : translateQuery initialSchema initialFieldMap (QueryBuilder.new.calls
      [.boost ⟨0x40000000⟩, .wildcard "_body" "rust"]).build = .ok (.term 3 "rust") :=
    translateWith_wordQuery _
  have hspec := built_query_selects initialFieldMap (translateFullText initialSchema initialFieldMap)
    [.boost ⟨0x40000000⟩, .wildcard "_body" "rust"]
  obtain ⟨tq, htq⟩ := (built_query_selects initialFieldMap (translateFullText initialSchema initialFieldMap)
    [.mustTerm "_body" "rust", .wildcard "_body" "rust"]).1.2 (hsame ▸ hspec.1.1 ⟨_, hword⟩)
  refine ⟨tq, htq, fun leaf => ?_⟩
  obtain ⟨tq', htq', hmatches⟩ := (hspec.2 _ hword leaf).2 _ hsame
  have hunique : tq' = tq := Except.ok.inj (htq'.symm.trans htq)
  rw [← hunique, hmatches]

end CollectionIndexManager

end MSearchDB.Index
