import MSearchDB.Index.QueryMeaning
import MSearchDB.Index.StoredFields
import MSearchDB.Index.TantivyIndex

/-!
# Two engines for one query language

`TantivyIndex` and `CollectionIndexManager` each have a translation of queries. The indexes
give the same fields different handles, so translated queries are compared with the names of
their fields in place of the handles (`TantivyQuery.resolve`). What Tantivy does with a
query depends on these names alone (`NamedSearcher`).

Both translations are the same function but for full-text queries: `TantivyIndex` looks for
words with a tilde and an edit distance, the manager hands every text to the parser as it is.

Each engine joins the texts of a document to its `_body` in the order of its own hash table, and
takes the time of its own clock. Nothing else of a document differs (`SameFields.view_eq`).

`engines_agree` says that the translations of a query are the same exactly where no text of
it has a word with a tilde, and that the two then select the same documents, if no clause of the
query depends on the order of a `_body` or on the clock.
-/

set_option autoImplicit false

namespace MSearchDB.Index

open MSearchDB.Lib
open MSearchDB.Core
open Std (ExtTreeMap)

/-! ## Queries and documents by the names of fields -/

/-- A clause with the name of its field. -/
inductive NamedLeaf where
  | parsed (field : String) (conjunction : Bool) (fuzzy : Option Nat) (text : String)
  | term (field text : String)
  | range (field : String) (lower upper : Option F64)
  deriving DecidableEq, Repr

/-- A Tantivy query with the names of its fields. A handle without a field has no name. -/
inductive NamedQuery where
  | leaf (l : Option NamedLeaf)
  | all
  | boolean (clauses : List (Occur × NamedQuery))

mutual

/-- The query with names for handles. -/
def TantivyQuery.resolve (schema : Schema) : TantivyQuery → NamedQuery
  | .parsed f conjunction fuzzy text =>
      .leaf (schema.entries[f]?.map fun e => .parsed e.name conjunction fuzzy text)
  | .term f text => .leaf (schema.entries[f]?.map fun e => .term e.name text)
  | .range field lower upper => .leaf (some (.range field lower upper))
  | .all => .all
  | .boolean clauses => .boolean (TantivyQuery.resolveClauses schema clauses)

/-- The clauses of a `BooleanQuery`. -/
def TantivyQuery.resolveClauses (schema : Schema) :
    List (Occur × TantivyQuery) → List (Occur × NamedQuery)
  | [] => []
  | (occur, q) :: clauses => (occur, q.resolve schema) :: TantivyQuery.resolveClauses schema clauses

end

/-- The types of the fields and the values of a document, by name. -/
abbrev DocumentView := String → Option (FieldType × List OwnedValue)

/-- A document as the schema shows it. -/
def Schema.view (schema : Schema) (doc : TantivyDocument) : DocumentView := fun name =>
  (schema.entries.findIdx? fun e => e.name = name).bind fun f =>
    schema.entries[f]?.map fun e => (e.fieldType, doc.valuesOf f)

/-- The types of the fields, by name. -/
def Schema.types (schema : Schema) : String → Option FieldType := fun name =>
  (schema.entries.find? fun e => e.name = name).map FieldEntry.fieldType

/-- What a document of an index makes of a clause, given what it makes of named ones. -/
def leafOutcome (matchesLeaf : DocumentView → NamedLeaf → Bool) (schema : Schema) (doc : TantivyDocument)
    (q : TantivyQuery) : Bool :=
  match q.resolve schema with
  | .leaf l => l.any (matchesLeaf (schema.view doc))
  | _ => false

/-- Tantivy goes by the names, types and values of fields: so does its parser, and a search
yields the documents that match. -/
class NamedSearcher extends Searcher where
  parseErrorOf : (String → Option FieldType) → String → Bool → Option Nat → String → Option String
  parseError_eq : ∀ (schema : Schema) (f : Field) (e : FieldEntry) conjunction fuzzy text,
    schema.entries[f]? = some e →
      parseError schema f conjunction fuzzy text = parseErrorOf schema.types e.name conjunction fuzzy text
  matchesLeaf : DocumentView → NamedLeaf → Bool
  hits_perm : ∀ schema docs q found, hits schema docs q = .ok found →
    (found.map Prod.snd).Perm (docs.filter fun doc => q.matches (leafOutcome matchesLeaf schema doc))

mutual

/-- A named query over what its clauses match. -/
def NamedQuery.matches (leaf : NamedLeaf → Bool) : NamedQuery → Bool
  | .leaf l => l.any leaf
  | .all => true
  | .boolean clauses => booleanMatches (NamedQuery.clauseOutcomes leaf clauses)

/-- The outcomes of the clauses of a `BooleanQuery`. -/
def NamedQuery.clauseOutcomes (leaf : NamedLeaf → Bool) : List (Occur × NamedQuery) → List (Occur × Bool)
  | [] => []
  | (occur, q) :: clauses => (occur, q.matches leaf) :: NamedQuery.clauseOutcomes leaf clauses

end

mutual

/-- What a query matches depends on its names and on the view of the document. -/
theorem matches_resolve (matchesLeaf : DocumentView → NamedLeaf → Bool) (schema : Schema)
    (doc : TantivyDocument) : ∀ q : TantivyQuery,
      q.matches (leafOutcome matchesLeaf schema doc) =
        (q.resolve schema).matches (matchesLeaf (schema.view doc))
  | .parsed f conjunction fuzzy text => rfl
  | .term f text => rfl
  | .range field lower upper => rfl
  | .all => rfl
  | .boolean clauses => by
      rw [TantivyQuery.matches, TantivyQuery.resolve, NamedQuery.matches,
        clauseOutcomes_resolve matchesLeaf schema doc clauses]

theorem clauseOutcomes_resolve (matchesLeaf : DocumentView → NamedLeaf → Bool) (schema : Schema)
    (doc : TantivyDocument) : ∀ clauses : List (Occur × TantivyQuery),
      TantivyQuery.clauseOutcomes (leafOutcome matchesLeaf schema doc) clauses =
        NamedQuery.clauseOutcomes (matchesLeaf (schema.view doc)) (TantivyQuery.resolveClauses schema clauses)
  | [] => rfl
  | (occur, q) :: clauses => by
      rw [TantivyQuery.clauseOutcomes, TantivyQuery.resolveClauses, NamedQuery.clauseOutcomes,
        matches_resolve matchesLeaf schema doc q, clauseOutcomes_resolve matchesLeaf schema doc clauses]

end

mutual

/-- The clauses of a named query, at any depth. -/
def NamedQuery.leaves : NamedQuery → List NamedLeaf
  | .leaf l => l.toList
  | .all => []
  | .boolean clauses => NamedQuery.clauseLeaves clauses

/-- The same for the clauses of a `BooleanQuery`. -/
def NamedQuery.clauseLeaves : List (Occur × NamedQuery) → List NamedLeaf
  | [] => []
  | (_, q) :: clauses => q.leaves ++ NamedQuery.clauseLeaves clauses

end

mutual

/-- Whether a query matches is up to the outcomes of its clauses. -/
theorem NamedQuery.matches_congr {leaf leaf' : NamedLeaf → Bool} :
    ∀ q : NamedQuery, (∀ l ∈ q.leaves, leaf l = leaf' l) → q.matches leaf = q.matches leaf'
  | .leaf none, _ => rfl
  | .leaf (some l), h => h l (List.mem_singleton_self l)
  | .all, _ => rfl
  | .boolean clauses, h => by
      rw [NamedQuery.matches, NamedQuery.matches, NamedQuery.clauseOutcomes_congr clauses h]

theorem NamedQuery.clauseOutcomes_congr {leaf leaf' : NamedLeaf → Bool} :
    ∀ clauses : List (Occur × NamedQuery), (∀ l ∈ NamedQuery.clauseLeaves clauses, leaf l = leaf' l) →
      NamedQuery.clauseOutcomes leaf clauses = NamedQuery.clauseOutcomes leaf' clauses
  | [], _ => rfl
  | (occur, q) :: clauses, h => by
      rw [NamedQuery.clauseLeaves] at h
      rw [NamedQuery.clauseOutcomes, NamedQuery.clauseOutcomes,
        NamedQuery.matches_congr q fun l hl => h l (List.mem_append_left _ hl),
        NamedQuery.clauseOutcomes_congr clauses fun l hl => h l (List.mem_append_right _ hl)]

end

/-! ## Indexes of the same fields -/

/-- The two schemas have the same fields with the same types, and the field maps are theirs. -/
structure SameFields (schema schema' : Schema) (fieldMap fieldMap' : FieldMap) : Prop where
  left : Describes schema fieldMap
  right : Describes schema' fieldMap'
  same : ∀ (name : String) (ty : FieldType), (∃ f : Field, schema.entries[f]? = some ⟨name, ty⟩) ↔
    ∃ f : Field, schema'.entries[f]? = some ⟨name, ty⟩

section Fields

variable {schema schema' : Schema} {fieldMap fieldMap' : FieldMap}

/-- The view of a field with a handle. -/
theorem Describes.view_eq (h : Describes schema fieldMap) (doc : TantivyDocument) (name : String) :
    schema.view doc name =
      fieldMap[name]?.bind fun f => schema.entries[f]?.map fun e => (e.fieldType, doc.valuesOf f) := by
  rw [Schema.view]
  congr 1
  cases hfind : schema.entries.findIdx? (fun e => e.name = name) with
  | some f =>
      obtain ⟨hf, hname, -⟩ := List.findIdx?_eq_some_iff_getElem.1 hfind
      refine ((h name f).2 ⟨(schema.entries.get ⟨f, hf⟩).fieldType, ?_⟩).symm
      rw [List.getElem?_eq_getElem hf]
      have hname : schema.entries[f].name = name := by simpa using hname
      rw [← hname]
      rfl
  | none =>
      cases hf : fieldMap[name]? with
      | none => rfl
      | some f =>
          obtain ⟨ty, hty⟩ := (h name f).1 hf
          have hne := List.findIdx?_eq_none_iff.1 hfind _ (List.mem_of_getElem? hty)
          simp at hne

/-- The type of a field with a handle. -/
theorem Describes.types_eq (h : Describes schema fieldMap) (name : String) :
    schema.types name = fieldMap[name]?.bind fun f => schema.entries[f]?.map FieldEntry.fieldType := by
  rw [Schema.types]
  cases hfind : schema.entries.find? (fun e => e.name = name) with
  | some e =>
      have hname : e.name = name := by simpa using List.find?_some hfind
      obtain ⟨f, hf⟩ := List.getElem?_of_mem (List.mem_of_find?_eq_some hfind)
      have hhandle := (h name f).2 ⟨e.fieldType, by rw [hf, ← hname]⟩
      rw [hhandle, Option.bind_some, hf]
  | none =>
      cases hf : fieldMap[name]? with
      | none => rfl
      | some f =>
          obtain ⟨ty, hty⟩ := (h name f).1 hf
          have hne := List.find?_eq_none.1 hfind _ (List.mem_of_getElem? hty)
          simp at hne

/-- A name has a handle in both or in neither, and the handles have the same entry. -/
theorem SameFields.handles (h : SameFields schema schema' fieldMap fieldMap') (name : String) :
    (fieldMap[name]? = none ∧ fieldMap'[name]? = none) ∨
      ∃ f f' ty, fieldMap[name]? = some f ∧ fieldMap'[name]? = some f' ∧
        schema.entries[f]? = some ⟨name, ty⟩ ∧ schema'.entries[f']? = some ⟨name, ty⟩ := by
  cases hf : fieldMap[name]? with
  | some f =>
      obtain ⟨ty, hty⟩ := (h.left name f).1 hf
      obtain ⟨f', hty'⟩ := (h.same name ty).1 ⟨f, hty⟩
      exact .inr ⟨f, f', ty, rfl, (h.right name f').2 ⟨ty, hty'⟩, hty, hty'⟩
  | none =>
      refine .inl ⟨rfl, ?_⟩
      cases hf' : fieldMap'[name]? with
      | none => rfl
      | some f' =>
          obtain ⟨ty, hty'⟩ := (h.right name f').1 hf'
          obtain ⟨f, hty⟩ := (h.same name ty).2 ⟨f', hty'⟩
          rw [(h.left name f).2 ⟨ty, hty⟩] at hf
          exact nomatch hf

theorem SameFields.types_eq (h : SameFields schema schema' fieldMap fieldMap') :
    schema.types = schema'.types := by
  funext name
  rw [h.left.types_eq, h.right.types_eq]
  rcases h.handles name with ⟨hf, hf'⟩ | ⟨f, f', ty, hf, hf', hty, hty'⟩
  · rw [hf, hf']
    rfl
  · rw [hf, hf', Option.bind_some, Option.bind_some, hty, hty', Option.map_some]

/-- The texts of a `_body`, in the order of iteration. -/
def bodyTexts (doc : Document) (known : String → Bool) (order : HashOrder FieldValue) : List String :=
  (order.iter doc.fields).flatMap fun nv => bodyParts (known nv.1) nv.2

/-- The values under a name do not depend on the order, but for `_body`, nor on the clock, but for
`_timestamp`. -/
theorem ofKey_namedValues_eq (doc : Document) (known : String → Bool) {order order' : HashOrder FieldValue}
    {now now' : UInt64} {name : String}
    (hbody : name = "_body" → bodyTexts doc known order = bodyTexts doc known order')
    (htime : name = "_timestamp" → now = now') :
    ofKey Prod.fst name (namedValues doc known order now) =
      ofKey Prod.fst name (namedValues doc known order' now') := by
  simp only [namedValues, ofKey_append, ofKey_flatMap_owned, ofKey_iter]
  congr 1
  · congr 1
    by_cases hname : name = "_timestamp"
    · rw [htime hname]
    · simp [ofKey_cons, Ne.symm hname]
  · by_cases hname : name = "_body"
    · have hparts := hbody hname
      rw [bodyTexts, bodyTexts] at hparts
      rw [hparts]
    · have hnone : ∀ parts : List String, ofKey Prod.fst name
          (if parts = [] then [] else [("_body", OwnedValue.str (" ".intercalate parts))]) = [] := by
        intro parts
        split
        · rfl
        · exact ofKey_eq_nil _ (by simp [Ne.symm hname])
      rw [hnone, hnone]

/-- **A document that both have indexed** looks the same in both, but for the order of the texts
in `_body` and for the time. -/
theorem SameFields.view_eq (h : SameFields schema schema' fieldMap fieldMap') (doc : Document)
    {order order' : HashOrder FieldValue} {now now' : UInt64} {name : String}
    (hbody : name = "_body" → ∀ known, bodyTexts doc known order = bodyTexts doc known order')
    (htime : name = "_timestamp" → now = now') :
    schema.view (buildTantivyDoc doc fieldMap order now) name =
      schema'.view (buildTantivyDoc doc fieldMap' order' now') name := by
  have hknown : (fun name : String => (fieldMap[name]?).isSome) = fun name => (fieldMap'[name]?).isSome := by
    funext name
    rcases h.handles name with ⟨hf, hf'⟩ | ⟨f, f', ty, hf, hf', -⟩
    · rw [hf, hf']
    · rw [hf, hf', Option.isSome_some, Option.isSome_some]
  rw [h.left.view_eq, h.right.view_eq]
  rcases h.handles name with ⟨hf, hf'⟩ | ⟨f, f', ty, hf, hf', hty, hty'⟩
  · rw [hf, hf']
    rfl
  · rw [hf, hf', Option.bind_some, Option.bind_some, hty, hty', Option.map_some, Option.map_some,
      TantivyDocument.valuesOf, TantivyDocument.valuesOf, buildTantivyDoc_eq, buildTantivyDoc_eq,
      ofKey_withHandles h.left.name_unique hf, ofKey_withHandles h.right.name_unique hf', hknown,
      ofKey_namedValues_eq doc _ (fun hname => hbody hname _) htime]

end Fields

/-! ## The two translations -/

/-- No text of the query asks for a fuzzy search. -/
def NoFuzzy (q : Query) : Prop := ∀ ft, .fullText ft ∈ q.leaves → extractFuzzyParams ft.query = none

section Translations

variable {schema schema' : Schema} {fieldMap fieldMap' : FieldMap}
  {fullText fullText' : FullTextQuery → DbResult TantivyQuery}

/-- The translations of a query are the same but for the handles, where both exist. -/
def Equivalent (schema schema' : Schema) (translated translated' : DbResult TantivyQuery) : Prop :=
  ∀ tq tq', translated = .ok tq → translated' = .ok tq' → tq.resolve schema = tq'.resolve schema'

theorem equivalent_ok_iff {tq tq' : TantivyQuery} :
    Equivalent schema schema' (.ok tq) (.ok tq') ↔ tq.resolve schema = tq'.resolve schema' := by
  refine ⟨fun h => h tq tq' rfl rfl, fun h t t' ht ht' => ?_⟩
  rw [← Except.ok.inj ht, ← Except.ok.inj ht', h]

theorem resolveClauses_eq_map (schema : Schema) (clauses : List (Occur × TantivyQuery)) :
    TantivyQuery.resolveClauses schema clauses = clauses.map fun c => (c.1, c.2.resolve schema) := by
  induction clauses with
  | nil => rfl
  | cons c clauses ih => rw [TantivyQuery.resolveClauses, ih, List.map_cons]

/-- The clauses of one kind, given the result for each of them. -/
theorem map_resolve_eq_iff {qs : List Query} {tqs tqs' : List TantivyQuery}
    (h : List.Forall₂ (fun q tq => translateWith fieldMap fullText q = .ok tq) qs tqs)
    (h' : List.Forall₂ (fun q tq => translateWith fieldMap' fullText' q = .ok tq) qs tqs')
    (ih : ∀ q ∈ qs, ∀ tq tq', translateWith fieldMap fullText q = .ok tq →
      translateWith fieldMap' fullText' q = .ok tq' →
        (tq.resolve schema = tq'.resolve schema' ↔
          ∀ l ∈ q.leaves, Equivalent schema schema' (translateWith fieldMap fullText l)
            (translateWith fieldMap' fullText' l))) :
    tqs.map (TantivyQuery.resolve schema) = tqs'.map (TantivyQuery.resolve schema') ↔
      ∀ q ∈ qs, ∀ l ∈ q.leaves, Equivalent schema schema' (translateWith fieldMap fullText l)
        (translateWith fieldMap' fullText' l) := by
  induction h generalizing tqs' with
  | nil =>
      cases h'
      simp
  | @cons q tq qs tqs hq _ ihqs =>
      cases h' with
      | @cons _ tq' _ tqs' hq' hqs' =>
          rw [List.map_cons, List.map_cons, List.cons.injEq, List.forall_mem_cons,
            ih q List.mem_cons_self tq tq' hq hq', ihqs hqs' fun q hq => ih q (List.mem_cons_of_mem _ hq)]

theorem everything_resolve (schema schema' : Schema) (must should mustNot : List Query) :
    (everything must should mustNot).map (fun c => (c.1, c.2.resolve schema)) =
      (everything must should mustNot).map fun c => (c.1, c.2.resolve schema') := by
  rw [everything]
  split
  · rfl
  · rfl

theorem append_eq_append_iff_of_length {α : Type} {s s' t t' : List α} (h : s.length = s'.length) :
    s ++ t = s' ++ t' ↔ s = s' ∧ t = t' := by
  refine ⟨fun heq => List.append_inj heq h, ?_⟩
  rintro ⟨rfl, rfl⟩
  rfl

/-- The clauses of each kind can be compared on their own. -/
theorem resolve_boolean_eq_iff {must should mustNot : List Query} {ms ms' ss ss' ns ns' : List TantivyQuery}
    (hm : ms.length = ms'.length) (hs : ss.length = ss'.length) :
    TantivyQuery.resolve schema (.boolean (ms.map (fun tq => (Occur.must, tq)) ++
          ss.map (fun tq => (Occur.should, tq)) ++ ns.map (fun tq => (Occur.mustNot, tq)) ++
          everything must should mustNot)) =
        TantivyQuery.resolve schema' (.boolean (ms'.map (fun tq => (Occur.must, tq)) ++
          ss'.map (fun tq => (Occur.should, tq)) ++ ns'.map (fun tq => (Occur.mustNot, tq)) ++
          everything must should mustNot)) ↔
      ms.map (TantivyQuery.resolve schema) = ms'.map (TantivyQuery.resolve schema') ∧
        ss.map (TantivyQuery.resolve schema) = ss'.map (TantivyQuery.resolve schema') ∧
        ns.map (TantivyQuery.resolve schema) = ns'.map (TantivyQuery.resolve schema') := by
  have htag : ∀ (occur : Occur) (schema : Schema) (tqs : List TantivyQuery),
      (tqs.map fun tq => (occur, tq)).map (fun c => (c.1, c.2.resolve schema)) =
        (tqs.map (TantivyQuery.resolve schema)).map fun nq => (occur, nq) := by
    intro occur schema tqs
    rw [List.map_map, List.map_map]
    rfl
  have hinj : ∀ occur : Occur, Function.Injective fun nq : NamedQuery => (occur, nq) :=
    fun occur a b hab => (Prod.mk.inj hab).2
  rw [TantivyQuery.resolve, TantivyQuery.resolve, NamedQuery.boolean.injEq, resolveClauses_eq_map,
    resolveClauses_eq_map]
  simp only [List.map_append, htag, everything_resolve schema schema']
  -- the two lists have the parts of one length in one order
  rw [List.append_left_inj, append_eq_append_iff_of_length (by simp [hm, hs]),
    append_eq_append_iff_of_length (by simp [hm]), List.map_inj_right (hinj _),
    List.map_inj_right (hinj _), List.map_inj_right (hinj _), and_assoc]

/-- **One query, two translations.** They are the same exactly where those of all clauses
are. -/
theorem equivalent_iff_leaves (q : Query) :
    ∀ tq tq', translateWith fieldMap fullText q = .ok tq → translateWith fieldMap' fullText' q = .ok tq' →
      (tq.resolve schema = tq'.resolve schema' ↔
        ∀ l ∈ q.leaves, Equivalent schema schema' (translateWith fieldMap fullText l)
          (translateWith fieldMap' fullText' l)) := by
  induction q using Query.induct with
  | fullText q =>
      intro tq tq' h h'
      rw [Query.leaves, List.forall_mem_singleton, h, h', equivalent_ok_iff]
      intro must should mustNot hbool
      cases hbool
  | term q =>
      intro tq tq' h h'
      rw [Query.leaves, List.forall_mem_singleton, h, h', equivalent_ok_iff]
      intro must should mustNot hbool
      cases hbool
  | range q =>
      intro tq tq' h h'
      rw [Query.leaves, List.forall_mem_singleton, h, h', equivalent_ok_iff]
      intro must should mustNot hbool
      cases hbool
  | bool must should mustNot ihmust ihshould ihmustNot =>
      intro tq tq' h h'
      obtain ⟨ms, ss, ns, hms, hss, hns, rfl⟩ := translateWith_bool_ok h
      obtain ⟨ms', ss', ns', hms', hss', hns', rfl⟩ := translateWith_bool_ok h'
      rw [resolve_boolean_eq_iff (hms.length_eq.symm.trans hms'.length_eq)
        (hss.length_eq.symm.trans hss'.length_eq), map_resolve_eq_iff hms hms' ihmust,
        map_resolve_eq_iff hss hss' ihshould, map_resolve_eq_iff hns hns' ihmustNot]
      simp only [mem_leaves_bool, List.append_assoc, List.mem_append]
      constructor
      · rintro ⟨hmust, hshould, hmustNot⟩ l ⟨q, hq | hq | hq, hl⟩
        · exact hmust q hq l hl
        · exact hshould q hq l hl
        · exact hmustNot q hq l hl
      · intro hall
        exact ⟨fun q hq l hl => hall l ⟨q, .inl hq, hl⟩, fun q hq l hl => hall l ⟨q, .inr (.inl hq), hl⟩,
          fun q hq l hl => hall l ⟨q, .inr (.inr hq), hl⟩⟩

end Translations

/-! ## The two engines -/

/-- No text of a query asks for a fuzzy search if none of its clauses does. -/
theorem noFuzzy_iff_leaves (q : Query) : NoFuzzy q ↔ ∀ l ∈ q.leaves, NoFuzzy l := by
  have hself : ∀ ft, (Query.fullText ft).leaves = [.fullText ft] := fun _ => rfl
  constructor
  · intro hq l hl ft hft
    cases l with
    | fullText ft' =>
        rw [hself, List.mem_singleton] at hft
        rw [Query.fullText.inj hft]
        exact hq ft' hl
    | term t => simp [Query.leaves] at hft
    | range r => simp [Query.leaves] at hft
    | bool must should mustNot => exact absurd hl (bool_notMem_leaves q)
  · intro hall ft hft
    exact hall (.fullText ft) hft ft (by rw [hself]; exact List.mem_singleton_self _)

/-- An engine indexes a document: the order of its hash table and its clock. -/
structure Indexing where
  order : HashOrder FieldValue
  now : UInt64

/-- A document as an index with these fields stores it. -/
def stored (fieldMap : FieldMap) (doc : Document) (indexing : Indexing) : TantivyDocument :=
  buildTantivyDoc doc fieldMap indexing.order indexing.now

/-- A document that both engines index, each on its own. -/
structure IndexedTwice where
  doc : Document
  left : Indexing
  right : Indexing

/-- What `TantivyIndex` stores of it. -/
def IndexedTwice.inIndex (d : IndexedTwice) (ix : TantivyIndex) : TantivyDocument := stored ix.fieldMap d.doc d.left

/-- What the manager stores of it. -/
def IndexedTwice.inCollection (d : IndexedTwice) (col : CollectionIndex) : TantivyDocument :=
  stored col.fieldMap d.doc d.right

section Engines

variable [NamedSearcher] {ix : TantivyIndex} {col : CollectionIndex}

/-- Apart from fuzzy searches the clause is translated by both engines or by neither, and to
the same exactly if it is no fuzzy search. -/
def TranslatedAlike (ix : TantivyIndex) (col : CollectionIndex) (l : Query) : Prop :=
  (NoFuzzy l →
      ((∃ tq, ix.translateQuery l = .ok tq) ↔ ∃ tq, translateQuery col.index col.fieldMap l = .ok tq)) ∧
    ((∃ tq, ix.translateQuery l = .ok tq) → (∃ tq, translateQuery col.index col.fieldMap l = .ok tq) →
      (Equivalent ix.index col.index (ix.translateQuery l) (translateQuery col.index col.fieldMap l) ↔
        NoFuzzy l))

theorem translatedAlike_term (h : SameFields ix.index col.index ix.fieldMap col.fieldMap) (t : TermQuery) :
    TranslatedAlike ix col (.term t) := by
  rw [TranslatedAlike]
  have hplain : NoFuzzy (.term t) := by simp [NoFuzzy, Query.leaves]
  rcases h.handles t.field with ⟨hf, hf'⟩ | ⟨f, f', ty, hf, hf', hty, hty'⟩
  · simp [TantivyIndex.translateQuery, translateQuery, translateWith, translateTerm, queryField, hf, hf',
      bind, Except.bind]
  · have hleft : ix.translateQuery (.term t) = .ok (.term f t.value) := by
      simp [TantivyIndex.translateQuery, translateWith, translateTerm, queryField, hf, bind, Except.bind]
    have hright : translateQuery col.index col.fieldMap (.term t) = .ok (.term f' t.value) := by
      simp [translateQuery, translateWith, translateTerm, queryField, hf', bind, Except.bind]
    rw [hleft, hright, equivalent_ok_iff]
    refine ⟨fun _ => by simp, fun _ _ => iff_of_true ?_ hplain⟩
    rw [TantivyQuery.resolve, TantivyQuery.resolve, hty, hty', Option.map_some]

theorem translatedAlike_range (h : SameFields ix.index col.index ix.fieldMap col.fieldMap) (r : RangeQuery) :
    TranslatedAlike ix col (.range r) := by
  rw [TranslatedAlike]
  have hplain : NoFuzzy (.range r) := by simp [NoFuzzy, Query.leaves]
  rcases h.handles r.field with ⟨hf, hf'⟩ | ⟨f, f', ty, hf, hf', hty, hty'⟩
  · simp [TantivyIndex.translateQuery, translateQuery, translateWith, translateRange, queryField, hf, hf',
      bind, Except.bind]
  · have hleft : ix.translateQuery (.range r) = .ok (.range r.field r.gte r.lte) := by
      simp [TantivyIndex.translateQuery, translateWith, translateRange, queryField, hf, bind, Except.bind]
    have hright : translateQuery col.index col.fieldMap (.range r) = .ok (.range r.field r.gte r.lte) := by
      simp [translateQuery, translateWith, translateRange, queryField, hf', bind, Except.bind]
    rw [hleft, hright, equivalent_ok_iff]
    exact ⟨fun _ => by simp, fun _ _ => iff_of_true rfl hplain⟩

/-- A text in `TantivyIndex`, with the distance and the text that `extract_fuzzy_params` leaves. -/
theorem TantivyIndex.translateQuery_fullText {ft : FullTextQuery} {f : Field} {params : Option FuzzyParams}
    (hf : ix.fieldMap[ft.field]? = some f) (hparams : extractFuzzyParams ft.query = params) :
    ix.translateQuery (.fullText ft) =
      (Searcher.parseError ix.index f (ft.operator = .and) (params.map FuzzyParams.distance)
        (params.elim ft.query FuzzyParams.cleanQuery)).elim
        (.ok (.parsed f (ft.operator = .and) (params.map FuzzyParams.distance)
          (params.elim ft.query FuzzyParams.cleanQuery)))
        fun e => .error (.indexError ("failed to parse full-text query: " ++ e)) := by
  simp only [TantivyIndex.translateQuery, translateWith, TantivyIndex.translateFullText, queryField, hf, hparams,
    bind, Except.bind]
  cases params with
  | none =>
      simp only [Option.map_none, Option.elim_none]
      cases Searcher.parseError ix.index f (ft.operator = .and) none ft.query with
      | some e => rfl
      | none => rfl
  | some params =>
      simp only [Option.map_some, Option.elim_some]
      cases Searcher.parseError ix.index f (ft.operator = .and) (some params.distance) params.cleanQuery with
      | some e => rfl
      | none => rfl

/-- A text in the manager, as it is. -/
theorem translateQuery_fullText {ft : FullTextQuery} {f : Field} (hf : col.fieldMap[ft.field]? = some f) :
    translateQuery col.index col.fieldMap (.fullText ft) =
      (Searcher.parseError col.index f (ft.operator = .and) none ft.query).elim
        (.ok (.parsed f (ft.operator = .and) none ft.query))
        fun e => .error (.indexError ("parse query: " ++ e)) := by
  simp only [translateQuery, translateWith, translateFullText, queryField, hf, bind, Except.bind]
  cases Searcher.parseError col.index f (ft.operator = .and) none ft.query with
  | some e => rfl
  | none => rfl

theorem translatedAlike_fullText (h : SameFields ix.index col.index ix.fieldMap col.fieldMap) (ft : FullTextQuery) :
    TranslatedAlike ix col (.fullText ft) := by
  have hplain : NoFuzzy (.fullText ft) ↔ extractFuzzyParams ft.query = none := by
    simp [NoFuzzy, Query.leaves]
  rw [TranslatedAlike, hplain]
  rcases h.handles ft.field with ⟨hf, hf'⟩ | ⟨f, f', ty, hf, hf', hty, hty'⟩
  · simp [TantivyIndex.translateQuery, TantivyIndex.translateFullText, translateQuery, translateWith,
      translateFullText, queryField, hf, hf', bind, Except.bind]
  · -- the parser is asked the same question about the same field
    have hparse : ∀ fuzzy text, Searcher.parseError ix.index f (ft.operator = .and) fuzzy text =
        Searcher.parseError col.index f' (ft.operator = .and) fuzzy text := by
      intro fuzzy text
      rw [NamedSearcher.parseError_eq _ _ _ _ _ _ hty, NamedSearcher.parseError_eq _ _ _ _ _ _ hty',
        h.types_eq]
    rw [translateQuery_fullText hf']
    cases hfuzzy : extractFuzzyParams ft.query with
    | none =>
        rw [TantivyIndex.translateQuery_fullText hf hfuzzy, hparse, Option.map_none, Option.elim_none]
        cases Searcher.parseError col.index f' (ft.operator = .and) none ft.query with
        | some e => simp
        | none =>
            simp only [Option.elim_none, equivalent_ok_iff, TantivyQuery.resolve, hty, hty']
            simp
    | some params =>
        rw [TantivyIndex.translateQuery_fullText hf hfuzzy, Option.map_some, Option.elim_some]
        refine ⟨by rintro ⟨⟩, ?_⟩
        cases Searcher.parseError ix.index f (ft.operator = .and) (some params.distance) params.cleanQuery with
        | some e => simp
        | none =>
            cases Searcher.parseError col.index f' (ft.operator = .and) none ft.query with
            | some e => simp
            | none =>
                simp only [Option.elim_none, equivalent_ok_iff, TantivyQuery.resolve, hty, hty']
                simp

/-- **A clause in both engines.** Terms, ranges and plain texts are translated by both or by
neither, to the same; a text that asks for a fuzzy search never to the same. -/
theorem translate_leaf (h : SameFields ix.index col.index ix.fieldMap col.fieldMap) {q l : Query}
    (hl : l ∈ q.leaves) : TranslatedAlike ix col l := by
  cases l with
  | bool must should mustNot => exact absurd hl (bool_notMem_leaves q)
  | term t => exact translatedAlike_term h t
  | range r => exact translatedAlike_range h r
  | fullText ft => exact translatedAlike_fullText h ft

/-- No clause of the query tells the two stored forms of a document apart. -/
def SeenAlike (ix : TantivyIndex) (col : CollectionIndex) (nq : NamedQuery) (d : IndexedTwice) : Prop :=
  ∀ l ∈ nq.leaves, NamedSearcher.matchesLeaf (ix.index.view (d.inIndex ix)) l =
    NamedSearcher.matchesLeaf (col.index.view (d.inCollection col)) l

/-- One order and one time: no clause of any query does. -/
theorem seenAlike_of_same (h : SameFields ix.index col.index ix.fieldMap col.fieldMap) (nq : NamedQuery)
    {d : IndexedTwice} (hbody : ∀ known, bodyTexts d.doc known d.left.order = bodyTexts d.doc known d.right.order)
    (htime : d.left.now = d.right.now) : SeenAlike ix col nq d := by
  have hview : ix.index.view (d.inIndex ix) = col.index.view (d.inCollection col) :=
    funext fun _ => h.view_eq d.doc (fun _ => hbody) fun _ => htime
  intro l _
  rw [hview]

/-- The searches select the same of the documents. -/
def SelectSame (ix : TantivyIndex) (col : CollectionIndex) (docs : List IndexedTwice)
    (found found' : List (F32 × TantivyDocument)) : Prop :=
  ∃ selected, List.Sublist selected docs ∧ (found.map Prod.snd).Perm (selected.map (·.inIndex ix)) ∧
    (found'.map Prod.snd).Perm (selected.map (·.inCollection col))

end Engines

/-! ## A word with a tilde -/

/-- Words match as a phrase; with a fuzzy search a word that is there matches. The parser
takes any text. -/
def phraseLeaf (view : DocumentView) : NamedLeaf → Bool
  | .parsed field _ fuzzy text =>
      (view field).any fun (_, values) => values.any fun v =>
        match v, fuzzy with
        | .str s, none =>
            (wordTerms "default" s).tails.any fun rest => (wordTerms "default" text).isPrefixOf rest
        | .str s, some _ => (wordTerms "default" text).any fun w => w ∈ wordTerms "default" s
        | _, _ => false
  | .term field text =>
      (view field).any fun (_, values) => values.any fun v =>
        match v with
        | .str s => text ∈ wordTerms "default" s
        | _ => false
  | .range _ _ _ => false

/-- A search by these rules, with the hits in the order of the index. -/
@[reducible] def phraseSearcher : NamedSearcher where
  parseError _ _ _ _ _ := none
  hits schema docs q := .ok ((docs.filter fun doc => q.matches (leafOutcome phraseLeaf schema doc)).map
    fun doc => (⟨0x3f800000⟩, doc))
  parseErrorOf _ _ _ _ _ := none
  parseError_eq _ _ _ _ _ _ _ := rfl
  matchesLeaf := phraseLeaf
  hits_perm schema docs q found h := by
    rw [← Except.ok.inj h, List.map_map]
    exact .of_eq (List.map_id _)

theorem sameFields_initial : SameFields initialSchema initialSchema initialFieldMap initialFieldMap := by
  have hdescribes := (buildSchemaFromMapping_spec
    (CollectionIndexManager.build_initialSchema (keyOrder _))).1
  exact ⟨hdescribes, hdescribes, fun _ _ => .rfl⟩

/-- An index of each engine that has no fields of documents yet. -/
def plainIndex : TantivyIndex := ⟨initialSchema, [], initialFieldMap⟩

/-- The same for a collection. -/
def plainCollection : CollectionIndex := ⟨initialSchema, ⟨[], false⟩, [], initialSchema, initialFieldMap⟩

/-- A text search for a word in all fields. -/
def bodyQuery (text : String) : Query := .fullText ⟨"_body", text, .or⟩

/-- The score of every hit. -/
def oneScore : F32 := ⟨0x3f800000⟩

theorem translateQuery_bodyQuery {text : String} (h : extractFuzzyParams text = none) :
    @TantivyIndex.translateQuery phraseSearcher.toSearcher plainIndex (bodyQuery text) =
      .ok (.parsed 3 false none text) := by
  have hbody : initialFieldMap["_body"]? = some 3 := by decide
  simp only [TantivyIndex.translateQuery, bodyQuery, translateWith, TantivyIndex.translateFullText, plainIndex,
    queryField, hbody, h, bind, Except.bind]
  rfl

theorem translateQuery_bodyQuery_collection (text : String) :
    @translateQuery phraseSearcher.toSearcher plainCollection.index plainCollection.fieldMap (bodyQuery text) =
      .ok (.parsed 3 false none text) := by
  have hbody : initialFieldMap["_body"]? = some 3 := by decide
  simp only [translateQuery, bodyQuery, translateWith, translateFullText, plainCollection, queryField, hbody, bind,
    Except.bind]
  rfl

/-- A search of one document. -/
theorem hits_singleton (doc : TantivyDocument) (q : TantivyQuery) :
    phraseSearcher.hits initialSchema [doc] q =
      .ok (if q.matches (leafOutcome phraseLeaf initialSchema doc) then [(oneScore, doc)] else []) := by
  show Except.ok (List.map (fun doc => (oneScore, doc)) (List.filter _ [doc])) = _
  rw [List.filter_singleton, Bool.cond_eq_ite]
  split <;> rfl

/-- Only the first engine finds the document by the query, which they translate to `q` and `q'`. -/
def FoundByOne [NamedSearcher] (query : Query) (q q' : TantivyQuery) (d : IndexedTwice) : Prop :=
  plainIndex.translateQuery query = .ok q ∧
    translateQuery plainCollection.index plainCollection.fieldMap query = .ok q' ∧
    Searcher.hits plainIndex.index [d.inIndex plainIndex] q = .ok [(oneScore, d.inIndex plainIndex)] ∧
    Searcher.hits plainCollection.index [d.inCollection plainCollection] q' = .ok [] ∧
    ¬ SelectSame plainIndex plainCollection [d] [(oneScore, d.inIndex plainIndex)] []

theorem foundByOne {query : Query} {q q' : TantivyQuery} {d : IndexedTwice}
    (hq : @TantivyIndex.translateQuery phraseSearcher.toSearcher plainIndex query = .ok q)
    (hq' : @translateQuery phraseSearcher.toSearcher plainCollection.index plainCollection.fieldMap query = .ok q')
    (hmatches : q.matches (leafOutcome phraseLeaf initialSchema (d.inIndex plainIndex)) = true)
    (hmisses : q'.matches (leafOutcome phraseLeaf initialSchema (d.inCollection plainCollection)) = false) :
    @FoundByOne phraseSearcher query q q' d := by
  refine ⟨hq, hq', (hits_singleton _ _).trans (by rw [if_pos hmatches]),
    (hits_singleton _ _).trans (by rw [hmisses]; rfl), ?_⟩
  rintro ⟨selected, -, hfound, hfound'⟩
  have hone := hfound.length_eq
  have hnone := hfound'.length_eq
  rw [List.length_map, List.length_map] at hone hnone
  exact Nat.one_ne_zero (hone.trans hnone.symm)

/-- A document with one word, indexed at the same time. -/
def rustTwice : IndexedTwice := ⟨singleDocument "title" (.text "rust"), ⟨keyOrder _, 0⟩, ⟨keyOrder _, 0⟩⟩

/-- A document of two texts. The engines join them to a body in different orders. -/
def twoTextsTwice : IndexedTwice :=
  ⟨(singleDocument "first" (.text "rust")).withField "second" (.text "lang"), ⟨keyOrder _, 0⟩,
    ⟨⟨fun m => m.toList.reverse, fun _ => List.reverse_perm _⟩, 0⟩⟩

end MSearchDB.Index
