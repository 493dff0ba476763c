import MSearchDB.Index.TantivyIndex
import MSearchDB.Lib.Replace
import MSearchDB.Lib.Text

/-!
# Highlighting

`crates/index/src/highlighting.rs`. For each requested field of a document Tantivy marks the
words of the query in a fragment of the text (`SnippetEngine`), and `to_html` puts `<b>` and
`</b>` around them and escapes everything else. The configured tags then replace these two,
one after the other, in the whole text.

The second replacement also sees the opening tags that the first one has put in. The tags
come out as configured exactly when nothing is marked, the opening tag has no `</b>`, or
`</b>` is the closing tag (`highlight_spec`). The words are those of the positive clauses of
the query on the field, in their order (`extractQueryText_eq`).
-/

set_option autoImplicit false

namespace MSearchDB.Index

open MSearchDB.Lib
open MSearchDB.Core

/-! ## Snippets -/

/-- `tantivy::snippet::Snippet`: the fragment as marked words, each behind the text before it, and
the text after the last one. -/
structure Snippet where
  marked : List (List Char × List Char)
  rest : List Char
  deriving DecidableEq

/-- `htmlescape::encode_minimal` on a character. -/
def escapeChar : Char → List Char
  | '"' => "&quot;".toList
  | '&' => "&amp;".toList
  | '\'' => "&#x27;".toList
  | '<' => "&lt;".toList
  | '>' => "&gt;".toList
  | c => [c]

/-- `htmlescape::encode_minimal`. -/
def encodeMinimal (cs : List Char) : List Char := cs.flatMap escapeChar

/-- A fragment with its words between two tags. -/
def Snippet.render (openTag closeTag : List Char) (s : Snippet) : List Char :=
  s.marked.foldr
    (fun part html => encodeMinimal part.1 ++ (openTag ++ (encodeMinimal part.2 ++ (closeTag ++ html))))
    (encodeMinimal s.rest)

/-- The opening tag of Tantivy. -/
def boldOpen : List Char := ['<', 'b', '>']

/-- Its closing tag. -/
def boldClose : List Char := ['<', '/', 'b', '>']

/-- `Snippet::to_html`. -/
def Snippet.toHtml (s : Snippet) : List Char := s.render boldOpen boldClose

/-- Tantivy's part: `QueryParser::parse_query` on one field, the reader of the index, and the
snippet of a text. -/
class SnippetEngine where
  Parsed : Type
  parseQuery : TantivyIndex → Nat → String → Except String Parsed
  reader : TantivyIndex → Except String Unit
  create : TantivyIndex → Parsed → Nat → Except String Unit
  snippet : TantivyIndex → Parsed → Nat → UInt64 → String → Snippet

/-! ## The functions of the source -/

/-- `HighlightConfig`. -/
structure HighlightConfig where
  preTag : String := "<em>"
  postTag : String := "</em>"
  maxFragments : UInt64 := 3
  fragmentSize : UInt64 := 150
  deriving DecidableEq, Repr

/-- `HighlightResult`. -/
structure HighlightResult where
  field : String
  fragments : List String
  deriving DecidableEq, Repr

mutual

/-- `extract_query_text`. -/
def extractQueryText (fieldName : String) : Query → String
  | .fullText q => if q.field = fieldName then q.query else ""
  | .term q => if q.field = fieldName then q.value else ""
  | .bool must should _ => " ".intercalate (extractParts fieldName must ++ extractParts fieldName should)
  | _ => ""

/-- The loop of `extract_query_text` over clauses. -/
def extractParts (fieldName : String) : List Query → List String
  | [] => []
  | q :: qs =>
      let text := extractQueryText fieldName q
      if text.isEmpty then extractParts fieldName qs else text :: extractParts fieldName qs

end

/-- The two replacements of `highlight_field`. -/
def withTags (config : HighlightConfig) (html : List Char) : List Char :=
  replaceAll boldClose config.postTag.toList (replaceAll boldOpen config.preTag.toList html)

section Highlight

variable [SnippetEngine]

/-- `highlight_field`. -/
def highlightField (index : TantivyIndex) (doc : Document) (query : Query) (fieldName : String)
    (config : HighlightConfig) : DbResult (List String) :=
  match doc.fields[fieldName]? with
  | some (.text text) =>
      match index.fieldMap[fieldName]? with
      | none => .ok []
      | some tantivyField =>
          let queryText := extractQueryText fieldName query
          if queryText.isEmpty then .ok []
          else
            match SnippetEngine.parseQuery index tantivyField queryText with
            | .error e => .error (.indexError ("failed to parse highlight query: " ++ e))
            | .ok tantivyQuery =>
                match SnippetEngine.reader index with
                | .error e => .error (.indexError ("reader: " ++ e))
                | .ok () =>
                    match SnippetEngine.create index tantivyQuery tantivyField with
                    | .error e => .error (.indexError ("snippet generator: " ++ e))
                    | .ok () =>
                        let snippet := SnippetEngine.snippet index tantivyQuery tantivyField config.fragmentSize text
                        let highlighted := withTags config snippet.toHtml
                        if highlighted.isEmpty then .ok [] else .ok [String.ofList highlighted]
  | _ => .ok []

/-- `highlight`. -/
def highlight (index : TantivyIndex) (doc : Document) (query : Query) (fields : List String)
    (config : HighlightConfig) : List HighlightResult :=
  fields.map fun fieldName =>
    ⟨fieldName, match highlightField index doc query fieldName config with
      | .ok fragments => fragments
      | .error _ => []⟩

end Highlight

/-! ## Tags -/

/-- The escape of a character has no angle brackets. -/
theorem not_mem_escapeChar {c : Char} (hc : c = '<' ∨ c = '>') (d : Char) : c ∉ escapeChar d := by
  unfold escapeChar
  split
  -- the five escapes are texts without angle brackets
  · rcases hc with rfl | rfl <;> decide
  · rcases hc with rfl | rfl <;> decide
  · rcases hc with rfl | rfl <;> decide
  · rcases hc with rfl | rfl <;> decide
  · rcases hc with rfl | rfl <;> decide
  · next hquote hamp hapos hlt hgt =>
      rw [List.mem_singleton]
      rcases hc with rfl | rfl
      · exact fun heq => hlt heq.symm
      · exact fun heq => hgt heq.symm

/-- An escaped text has no tags. -/
theorem not_mem_encodeMinimal {c : Char} (hc : c = '<' ∨ c = '>') (cs : List Char) : c ∉ encodeMinimal cs := by
  intro hmem
  obtain ⟨d, -, hd⟩ := List.mem_flatMap.1 hmem
  exact not_mem_escapeChar hc d hd

/-- The opening tags are replaced. -/
theorem replaceAll_boldOpen (openTag : List Char) (s : Snippet) :
    replaceAll boldOpen openTag s.toHtml = s.render openTag boldClose := by
  obtain ⟨marked, rest⟩ := s
  have htext : ∀ cs ys : List Char, replaceAll boldOpen openTag (encodeMinimal cs ++ ys) =
      encodeMinimal cs ++ replaceAll boldOpen openTag ys :=
    fun cs ys => replaceAll_append_of_not_mem openTag (not_mem_encodeMinimal (.inl rfl) cs) ys
  have hclose : ∀ ys : List Char, replaceAll boldOpen openTag (boldClose ++ ys) =
      boldClose ++ replaceAll boldOpen openTag ys := by
    intro ys
    show replaceAll boldOpen openTag ('<' :: '/' :: 'b' :: '>' :: ys) = _
    -- the two tags differ in their second character
    rw [replaceAll_cons (by simp [boldOpen, List.cons_prefix_cons]), replaceAll_cons (by simp [boldOpen, List.cons_prefix_cons]),
      replaceAll_cons (by simp [boldOpen, List.cons_prefix_cons]), replaceAll_cons (by simp [boldOpen, List.cons_prefix_cons])]
    rfl
  show replaceAll boldOpen openTag (Snippet.render boldOpen boldClose ⟨marked, rest⟩) =
    Snippet.render openTag boldClose ⟨marked, rest⟩
  induction marked with
  | nil =>
      have hrest := htext rest []
      rw [List.append_nil, replaceAll_nil, List.append_nil] at hrest
      exact hrest
  | cons part marked ih =>
      have hstep : ∀ o c : List Char, Snippet.render o c ⟨part :: marked, rest⟩ =
          encodeMinimal part.1 ++ (o ++ (encodeMinimal part.2 ++ (c ++ Snippet.render o c ⟨marked, rest⟩))) :=
        fun _ _ => rfl
      rw [hstep, hstep, htext, replaceAll_pattern_append (by decide), htext, hclose, ih]

/-- No end of the closing tag starts a word that it closes. -/
theorem not_prefix_word {s t : List Char} (hst : boldClose = s ++ t) (hs : s ≠ []) (ht : t ≠ []) (word more : List Char) :
    ¬ t <+: encodeMinimal word ++ (boldClose ++ more) := by
  have hlast : '>' ∈ t := by
    have hgetLast : t.getLast? = some '>' := by
      have h := congrArg List.getLast? hst
      rw [List.getLast?_append_of_ne_nil s ht] at h
      exact h.symm
    exact List.mem_of_getLast? hgetLast
  have hfirst : '<' ∉ t := by
    intro hmem
    cases s with
    | nil => exact hs rfl
    | cons c s =>
        have htail : ['/', 'b', '>'] = s ++ t := (List.cons.inj hst).2
        have hin : '<' ∈ ['/', 'b', '>'] := by
          rw [htail]
          exact List.mem_append_right _ hmem
        exact absurd hin (by decide)
  intro hprefix
  have hword : t <+: encodeMinimal word := prefix_of_prefix_append_cons hfirst hprefix
  exact not_mem_encodeMinimal (.inr rfl) word (hword.subset hlast)

/-- The closing tags are replaced, also within the opening tags. -/
theorem replaceAll_boldClose (openTag closeTag : List Char) (s : Snippet) :
    replaceAll boldClose closeTag (s.render openTag boldClose) =
      s.render (replaceAll boldClose closeTag openTag) closeTag := by
  obtain ⟨marked, rest⟩ := s
  have htext : ∀ cs ys : List Char, replaceAll boldClose closeTag (encodeMinimal cs ++ ys) =
      encodeMinimal cs ++ replaceAll boldClose closeTag ys :=
    fun cs ys => replaceAll_append_of_not_mem closeTag (not_mem_encodeMinimal (.inl rfl) cs) ys
  induction marked with
  | nil =>
      have hrest := htext rest []
      rw [List.append_nil, replaceAll_nil, List.append_nil] at hrest
      exact hrest
  | cons part marked ih =>
      have hstep : ∀ o c : List Char, Snippet.render o c ⟨part :: marked, rest⟩ =
          encodeMinimal part.1 ++ (o ++ (encodeMinimal part.2 ++ (c ++ Snippet.render o c ⟨marked, rest⟩))) :=
        fun _ _ => rfl
      rw [hstep, hstep, htext, replaceAll_append (by decide), htext, replaceAll_pattern_append (by decide), ih]
      exact fun s t hst hs ht => not_prefix_word hst hs ht part.2 _

/-- **What the tags become.** -/
theorem withTags_toHtml (config : HighlightConfig) (s : Snippet) :
    withTags config s.toHtml =
      s.render (replaceAll boldClose config.postTag.toList config.preTag.toList) config.postTag.toList := by
  rw [withTags, replaceAll_boldOpen, replaceAll_boldClose]

theorem length_render (openTag closeTag : List Char) (s : Snippet) :
    (s.render openTag closeTag).length =
      (s.marked.map fun part => (encodeMinimal part.1).length + (encodeMinimal part.2).length).sum +
        s.marked.length * (openTag.length + closeTag.length) + (encodeMinimal s.rest).length := by
  obtain ⟨marked, rest⟩ := s
  induction marked with
  | nil => simp [Snippet.render]
  | cons part marked ih =>
      have hstep : Snippet.render openTag closeTag ⟨part :: marked, rest⟩ = encodeMinimal part.1 ++
          (openTag ++ (encodeMinimal part.2 ++ (closeTag ++ Snippet.render openTag closeTag ⟨marked, rest⟩))) :=
        rfl
      rw [hstep]
      simp only [List.length_append, List.map_cons, List.sum_cons, List.length_cons] at ih ⊢
      rw [ih]
      ring

/-- One marked word shows the opening tag. -/
theorem render_inj_openTag {openTag openTag' closeTag : List Char} {s : Snippet} (hmarked : s.marked ≠ [])
    (h : s.render openTag closeTag = s.render openTag' closeTag) : openTag = openTag' := by
  have hlength := congrArg List.length h
  rw [length_render, length_render] at hlength
  obtain ⟨marked, rest⟩ := s
  cases marked with
  | nil => exact absurd rfl hmarked
  | cons part marked =>
      have hsame : openTag.length = openTag'.length := by
        have hmul : (part :: marked).length * (openTag.length + closeTag.length) =
            (part :: marked).length * (openTag'.length + closeTag.length) := by
          have hsum := Nat.add_right_cancel hlength
          exact Nat.add_left_cancel hsum
        have hsum := Nat.eq_of_mul_eq_mul_left (Nat.succ_pos marked.length) hmul
        exact Nat.add_right_cancel hsum
      have hrest := List.append_cancel_left h
      exact (List.append_inj hrest hsame).1

/-! ## The words of a query -/

mutual

/-- The texts of the positive clauses on a field, in the order of the query. -/
def positiveTexts (fieldName : String) : Query → List String
  | .fullText q => if q.field = fieldName then [q.query] else []
  | .term q => if q.field = fieldName then [q.value] else []
  | .bool must should _ => positiveTextsOf fieldName must ++ positiveTextsOf fieldName should
  | _ => []

/-- The same of clauses. -/
def positiveTextsOf (fieldName : String) : List Query → List String
  | [] => []
  | q :: qs => positiveTexts fieldName q ++ positiveTextsOf fieldName qs

end

theorem positiveTextsOf_eq (fieldName : String) (qs : List Query) :
    positiveTextsOf fieldName qs = qs.flatMap (positiveTexts fieldName) := by
  induction qs with
  | nil => rfl
  | cons q qs ih => rw [positiveTextsOf, ih, List.flatMap_cons]

/-- The texts that have any words. -/
def usedTexts (fieldName : String) (query : Query) : List String :=
  (positiveTexts fieldName query).filter (· ≠ "")

theorem extractParts_eq (fieldName : String) (qs : List Query) :
    extractParts fieldName qs = (qs.map (extractQueryText fieldName)).filter (· ≠ "") := by
  induction qs with
  | nil => rfl
  | cons q qs ih =>
      rw [extractParts, ih, List.map_cons]
      by_cases hempty : extractQueryText fieldName q = ""
      · rw [hempty, List.filter_cons_of_neg (by decide)]
        rfl
      · rw [List.filter_cons_of_pos (by simpa using hempty)]
        simp [hempty]

/-- One text, if it is not empty. -/
theorem intercalate_filter_singleton (text : String) : " ".intercalate ([text].filter (· ≠ "")) = text := by
  by_cases hempty : text = ""
  · subst hempty
    rfl
  · rw [List.filter_cons_of_pos (by simpa using hempty)]
    exact String.intercalate_singleton

mutual

/-- **The words that are marked** are those of the positive clauses on the field, however deep they
stand; clauses of `must_not` and ranges have no part in them. -/
theorem extractQueryText_eq (fieldName : String) :
    (query : Query) → extractQueryText fieldName query = " ".intercalate (usedTexts fieldName query)
  | .fullText q => by
      rw [extractQueryText, usedTexts, positiveTexts]
      split
      · exact (intercalate_filter_singleton q.query).symm
      · rfl
  | .term q => by
      rw [extractQueryText, usedTexts, positiveTexts]
      split
      · exact (intercalate_filter_singleton q.value).symm
      · rfl
  | .range q => rfl
  | .bool must should mustNot => by
      have hmust := extractAll_eq fieldName must
      have hshould := extractAll_eq fieldName should
      rw [extractQueryText, usedTexts, positiveTexts, positiveTextsOf_eq, positiveTextsOf_eq, extractParts_eq,
        extractParts_eq, ← List.filter_append, ← List.map_append, ← List.flatMap_append]
      -- each clause contributes the join of its own texts
      have hclauses : (must ++ should).map (extractQueryText fieldName) =
          ((must ++ should).map (usedTexts fieldName)).map " ".intercalate := by
        rw [List.map_map]
        apply List.map_congr_left
        intro q hq
        rcases List.mem_append.1 hq with hq | hq
        · exact hmust q hq
        · exact hshould q hq
      rw [hclauses, intercalate_groups]
      · rw [← List.flatMap_def, List.filter_flatMap]
        rfl
      · intro group hgroup text htext
        obtain ⟨q, -, rfl⟩ := List.mem_map.1 hgroup
        simpa using List.of_mem_filter htext

/-- The same for every clause of a list. -/
theorem extractAll_eq (fieldName : String) :
    (qs : List Query) → ∀ q ∈ qs, extractQueryText fieldName q = " ".intercalate (usedTexts fieldName q)
  | [] => nofun
  | q :: qs => List.forall_mem_cons.2 ⟨extractQueryText_eq fieldName q, extractAll_eq fieldName qs⟩

end

/-! ## Highlighting a document -/

/-- The tags come out as they are configured. -/
theorem render_configured_iff (config : HighlightConfig) (s : Snippet) :
    s.render (replaceAll boldClose config.postTag.toList config.preTag.toList) config.postTag.toList =
        s.render config.preTag.toList config.postTag.toList ↔
      s.marked = [] ∨ contains config.preTag "</b>" = false ∨ config.postTag = "</b>" := by
  have hpat : boldClose ≠ [] := by decide
  have hself := replaceAll_eq_self_iff hpat config.postTag.toList config.preTag.toList
  have hpost : config.postTag.toList = boldClose ↔ config.postTag = "</b>" :=
    ⟨fun h => String.toList_inj.1 h, fun h => by rw [h]; rfl⟩
  have hpre : ¬ boldClose <:+: config.preTag.toList ↔ contains config.preTag "</b>" = false := by
    rw [contains, decide_eq_false_iff_not]
    rfl
  rw [hpost, hpre] at hself
  constructor
  · intro h
    by_cases hmarked : s.marked = []
    · exact .inl hmarked
    · exact .inr (hself.1 (render_inj_openTag hmarked h))
  · rintro (hmarked | hsame)
    · -- without marked words there are no tags
      rw [Snippet.render, Snippet.render, hmarked]
      rfl
    · rw [hself.2 hsame]

section Highlight

variable [SnippetEngine]

/-- What a field with a fragment went through. -/
theorem highlightField_cons {index : TantivyIndex} {doc : Document} {query : Query} {fieldName : String}
    {config : HighlightConfig} {fragments : List String}
    (h : highlightField index doc query fieldName config = .ok fragments) (hne : fragments ≠ []) :
    ∃ text field parsed, doc.fields[fieldName]? = some (.text text) ∧ index.fieldMap[fieldName]? = some field ∧
      SnippetEngine.parseQuery index field (extractQueryText fieldName query) = .ok parsed ∧
      fragments = [String.ofList
        (withTags config (SnippetEngine.snippet index parsed field config.fragmentSize text).toHtml)] := by
  rw [highlightField] at h
  -- every other way out has no fragment
  split at h
  · next text htext =>
      cases hfield : index.fieldMap[fieldName]? with
      | none =>
          simp only [hfield] at h
          cases h
          exact absurd rfl hne
      | some field =>
          simp only [hfield] at h
          by_cases hwords : (extractQueryText fieldName query).isEmpty = true
          · rw [if_pos hwords] at h
            cases h
            exact absurd rfl hne
          · rw [if_neg hwords] at h
            cases hparsed : SnippetEngine.parseQuery index field (extractQueryText fieldName query) with
            | error e =>
                simp only [hparsed] at h
                cases h
            | ok parsed =>
                simp only [hparsed] at h
                refine ⟨text, field, parsed, htext, rfl, hparsed, ?_⟩
                cases hreader : SnippetEngine.reader index with
                | error e =>
                    simp only [hreader] at h
                    cases h
                | ok u =>
                    simp only [hreader] at h
                    cases hcreate : SnippetEngine.create index parsed field with
                    | error e =>
                        simp only [hcreate] at h
                        cases h
                    | ok u =>
                        simp only [hcreate] at h
                        split at h
                        · cases h
                          exact absurd rfl hne
                        · exact (Except.ok.inj h).symm
  · cases h
    exact absurd rfl hne

/-- **Highlighting.** There is one result for each requested field, in their order. A result that is
not empty is one fragment: Tantivy's snippet of the text for the words of the positive clauses on
the field, everything but the tags escaped. The tags around the marked words are the configured
ones if and only if no word is marked, the opening tag does not contain `</b>`, or the closing tag
is `</b>`; otherwise each `</b>` of the opening tag is the closing tag. -/
theorem highlight_spec (index : TantivyIndex) (doc : Document) (query : Query) (fields : List String)
    (config : HighlightConfig) :
    (highlight index doc query fields config).map HighlightResult.field = fields ∧
      ∀ result ∈ highlight index doc query fields config, result.fragments = [] ∨
        ∃ text field parsed snippet, doc.fields[result.field]? = some (.text text) ∧
          index.fieldMap[result.field]? = some field ∧
          SnippetEngine.parseQuery index field (" ".intercalate (usedTexts result.field query)) = .ok parsed ∧
          snippet = SnippetEngine.snippet index parsed field config.fragmentSize text ∧
          result.fragments = [String.ofList (snippet.render
            (replaceAll boldClose config.postTag.toList config.preTag.toList) config.postTag.toList)] ∧
          (result.fragments = [String.ofList (snippet.render config.preTag.toList config.postTag.toList)] ↔
            snippet.marked = [] ∨ contains config.preTag "</b>" = false ∨ config.postTag = "</b>") := by
  constructor
  · rw [highlight, List.map_map]
    exact List.map_id fields
  · intro result hresult
    obtain ⟨fieldName, -, rfl⟩ := List.mem_map.1 hresult
    show (match highlightField index doc query fieldName config with
        | .ok fragments => fragments
        | .error _ => []) = [] ∨ _
    cases hfield : highlightField index doc query fieldName config with
    | error e => exact .inl rfl
    | ok fragments =>
        by_cases hempty : fragments = []
        · exact .inl hempty
        · right
          obtain ⟨text, field, parsed, htext, hmap, hparsed, hfragments⟩ := highlightField_cons hfield hempty
          rw [extractQueryText_eq] at hparsed
          rw [withTags_toHtml] at hfragments
          refine ⟨text, field, parsed, _, htext, hmap, hparsed, rfl, hfragments, ?_⟩
          rw [← render_configured_iff, hfragments, List.singleton_inj]
          exact ⟨fun h => String.ofList_injective h, congrArg String.ofList⟩

end Highlight

end MSearchDB.Index
