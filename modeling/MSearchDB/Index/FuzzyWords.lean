import MSearchDB.Index.TantivyIndex

/-!
# Fuzzy words of a query

A full-text query may end each of its words with a tilde and an edit distance, `~1` or
`~2`. `extract_fuzzy_params` of `crates/index/src/tantivy_index.rs` is to take these
suffixes off, so that the parser receives plain words. It looks at the last tilde of a
word only, and `str::parse` also reads `+1` and `01` as a distance. So the suffixes are
stripped completely exactly if every word that the code takes for a fuzzy one is a word
that is not fuzzy, a tilde and one digit.
-/

set_option autoImplicit false

namespace MSearchDB.Index

open MSearchDB.Lib

/-! ## Suffixes -/

/-- What stands before a suffix `~1` or `~2`, and the distance. -/
def suffixOf (word : List Char) : Option (List Char × Nat) :=
  match word.reverse with
  | '1' :: '~' :: term => some (term.reverse, 1)
  | '2' :: '~' :: term => some (term.reverse, 2)
  | _ => none

/-- The word with the suffix removed, if it has one. -/
def withoutSuffix (word : List Char) : List Char := ((suffixOf word).map Prod.fst).getD word

theorem suffixOf_eq_some_iff {word term : List Char} {d : Nat} :
    suffixOf word = some (term, d) ↔
      (word = term ++ ['~', '1'] ∧ d = 1) ∨ (word = term ++ ['~', '2'] ∧ d = 2) := by
  constructor
  · intro h
    unfold suffixOf at h
    split at h
    next t hrev =>
      obtain ⟨rfl, rfl⟩ := Prod.mk.inj (Option.some.inj h)
      refine Or.inl ⟨?_, rfl⟩
      rw [← List.reverse_reverse word, hrev]
      simp
    next t hrev =>
      obtain ⟨rfl, rfl⟩ := Prod.mk.inj (Option.some.inj h)
      refine Or.inr ⟨?_, rfl⟩
      rw [← List.reverse_reverse word, hrev]
      simp
    · cases h
  · rintro (⟨rfl, rfl⟩ | ⟨rfl, rfl⟩)
    · simp [suffixOf]
    · simp [suffixOf]

/-- A word that the code takes for a fuzzy one: a tilde, and after it a text that is read
as an edit distance. -/
def IsFuzzy (word term rest : List Char) (d : Nat) : Prop :=
  word = term ++ '~' :: rest ∧ parseUnsigned 256 rest = some d ∧ 1 ≤ d ∧ d ≤ 2

theorem fuzzyWord_eq_some_iff {word term : List Char} {d : Nat} :
    fuzzyWord word = some (term, d) ↔ ∃ rest, IsFuzzy word term rest d := by
  constructor
  · intro h
    obtain ⟨⟨l, r⟩, hsplit, h⟩ := Option.bind_eq_some_iff.1 h
    obtain ⟨n, hparse, h⟩ := Option.bind_eq_some_iff.1 h
    obtain ⟨hrange, h⟩ := Option.ite_none_right_eq_some.1 h
    obtain ⟨rfl, rfl⟩ := Prod.mk.inj (Option.some.inj h)
    exact ⟨r, (splitAtLast_eq_some_iff.1 hsplit).1, hparse, hrange⟩
  · rintro ⟨rest, rfl, hparse, hrange⟩
    -- no numeral has a tilde, so the tilde before it is the last one
    have hno : '~' ∉ rest := by
      intro htilde
      rcases parseUnsigned_chars hparse _ htilde with h | h
      · exact absurd h (by decide)
      · exact absurd h (by decide)
    simp [fuzzyWord, splitAtLast_append_cons hno, hparse, hrange]

/-- The suffix of a word is one that the code takes off. -/
theorem fuzzyWord_of_suffixOf {word term : List Char} {d : Nat} (h : suffixOf word = some (term, d)) :
    fuzzyWord word = some (term, d) := by
  apply fuzzyWord_eq_some_iff.2
  rcases suffixOf_eq_some_iff.1 h with ⟨hword, rfl⟩ | ⟨hword, rfl⟩
  · exact ⟨['1'], hword, by decide, by decide, by decide⟩
  · exact ⟨['2'], hword, by decide, by decide, by decide⟩

/-- A word from which the code takes nothing, or one suffix and nothing else. -/
def OneSuffix (word : List Char) : Prop :=
  ∀ term rest d, IsFuzzy word term rest d →
    (rest = ['1'] ∨ rest = ['2']) ∧ term ≠ [] ∧ ∀ t r e, ¬ IsFuzzy term t r e

theorem oneSuffix_iff {word : List Char} :
    OneSuffix word ↔ ∀ term d, fuzzyWord word = some (term, d) →
      suffixOf word = some (term, d) ∧ term ≠ [] ∧ fuzzyWord term = none := by
  constructor
  · intro h term d hfuzzy
    obtain ⟨rest, his⟩ := fuzzyWord_eq_some_iff.1 hfuzzy
    obtain ⟨hrest, hne, hterm⟩ := h term rest d his
    obtain ⟨hword, hparse, -⟩ := his
    refine ⟨suffixOf_eq_some_iff.2 ?_, hne, Option.eq_none_iff_forall_ne_some.2 ?_⟩
    · rcases hrest with rfl | rfl
      · exact Or.inl ⟨hword, (Option.some.inj hparse).symm⟩
      · exact Or.inr ⟨hword, (Option.some.inj hparse).symm⟩
    · rintro ⟨t, e⟩ ht
      obtain ⟨r, hr⟩ := fuzzyWord_eq_some_iff.1 ht
      exact hterm t r e hr
  · intro h term rest d his
    obtain ⟨hsuffix, hne, hterm⟩ := h term d (fuzzyWord_eq_some_iff.2 ⟨rest, his⟩)
    refine ⟨?_, hne, fun t r e hr => ?_⟩
    · -- both ways the word is `term` and what follows, so what follows is the same
      have hword : word = term ++ '~' :: rest := his.1
      rcases suffixOf_eq_some_iff.1 hsuffix with ⟨hone, -⟩ | ⟨htwo, -⟩
      · rw [hone, List.append_cancel_left_eq, List.cons.injEq] at hword
        exact Or.inl hword.2.symm
      · rw [htwo, List.append_cancel_left_eq, List.cons.injEq] at hword
        exact Or.inr hword.2.symm
    · have hsome : fuzzyWord term = some (t, e) := fuzzyWord_eq_some_iff.2 ⟨r, hr⟩
      rw [hterm] at hsome
      cases hsome

/-! ## The clean query -/

/-- The word that `extract_fuzzy_params` puts in the place of a word. -/
def cleanWord (word : List Char) : List Char := ((fuzzyWord word).map Prod.fst).getD word

theorem extractFuzzyParams_eq (query : String) :
    extractFuzzyParams query =
      ((splitWhitespace query.toList).findSome? fun word => (fuzzyWord word).map Prod.snd).map fun d =>
        ⟨" ".intercalate (((splitWhitespace query.toList).map cleanWord).map String.ofList), d⟩ := rfl

theorem extractFuzzyParams_eq_none_iff {query : String} :
    extractFuzzyParams query = none ↔ ∀ word ∈ splitWhitespace query.toList, fuzzyWord word = none := by
  rw [extractFuzzyParams_eq, Option.map_eq_none_iff, List.findSome?_eq_none_iff]
  simp only [Option.map_eq_none_iff]

theorem cleanWord_of_fuzzyWord {word term : List Char} {d : Nat} (h : fuzzyWord word = some (term, d)) :
    cleanWord word = term := by
  rw [cleanWord, h]
  rfl

theorem cleanWord_of_eq_none {word : List Char} (h : fuzzyWord word = none) : cleanWord word = word := by
  rw [cleanWord, h]
  rfl

/-- What is put in the place of a word is a part of it. -/
theorem cleanWord_subset (word : List Char) : cleanWord word ⊆ word := by
  cases h : fuzzyWord word with
  | none =>
      rw [cleanWord_of_eq_none h]
      exact List.Subset.refl _
  | some found =>
      obtain ⟨rest, hword, -⟩ := fuzzyWord_eq_some_iff.1 (h : fuzzyWord word = some (found.1, found.2))
      rw [cleanWord_of_fuzzyWord h, hword]
      exact List.subset_append_left _ _

/-- The words of the clean query are those put in the place of the words, without the
empty ones. -/
theorem splitWhitespace_cleanQuery {query : String} {params : FuzzyParams}
    (h : extractFuzzyParams query = some params) :
    splitWhitespace params.cleanQuery.toList =
      ((splitWhitespace query.toList).map cleanWord).filter (· ≠ []) := by
  rw [extractFuzzyParams_eq] at h
  obtain ⟨d, -, rfl⟩ := Option.map_eq_some_iff.1 h
  apply splitWhitespace_intercalate
  intro part hpart c hc
  obtain ⟨word, hword, rfl⟩ := List.mem_map.1 hpart
  exact (mem_splitWhitespace hword).2 c (cleanWord_subset word hc)

/-! ## Complete stripping -/

/-- The suffixes of a query are stripped completely: fuzzy parameters are found exactly if
a word has a suffix, the distance is that of the first such word, and the clean query has
the same words without their suffixes, and nothing fuzzy is left in it. -/
structure StripsCompletely (query : String) : Prop where
  found_iff : (extractFuzzyParams query).isSome = true ↔
    ∃ word ∈ splitWhitespace query.toList, (suffixOf word).isSome = true
  distance : (extractFuzzyParams query).map FuzzyParams.distance =
    (splitWhitespace query.toList).findSome? fun word => (suffixOf word).map Prod.snd
  words : ∀ params, extractFuzzyParams query = some params →
    splitWhitespace params.cleanQuery.toList = (splitWhitespace query.toList).map withoutSuffix
  plain : ∀ params, extractFuzzyParams query = some params →
    extractFuzzyParams params.cleanQuery = none

/-- Where the code takes off one suffix and nothing else, it finds the suffixes. -/
theorem OneSuffix.fuzzyWord_eq {word : List Char} (h : OneSuffix word) : fuzzyWord word = suffixOf word := by
  cases hfuzzy : fuzzyWord word with
  | some found => exact (oneSuffix_iff.1 h found.1 found.2 hfuzzy).1.symm
  | none =>
      refine (Option.eq_none_iff_forall_ne_some.2 ?_).symm
      rintro ⟨term, d⟩ hsuffix
      rw [fuzzyWord_of_suffixOf hsuffix] at hfuzzy
      cases hfuzzy

theorem OneSuffix.fuzzyWord_cleanWord {word : List Char} (h : OneSuffix word) :
    fuzzyWord (cleanWord word) = none := by
  cases hfuzzy : fuzzyWord word with
  | none => rw [cleanWord_of_eq_none hfuzzy, hfuzzy]
  | some found =>
      rw [cleanWord_of_fuzzyWord hfuzzy]
      exact (oneSuffix_iff.1 h found.1 found.2 hfuzzy).2.2

theorem OneSuffix.cleanWord_ne_nil {word : List Char} (h : OneSuffix word) (hne : word ≠ []) :
    cleanWord word ≠ [] := by
  cases hfuzzy : fuzzyWord word with
  | none =>
      rw [cleanWord_of_eq_none hfuzzy]
      exact hne
  | some found =>
      rw [cleanWord_of_fuzzyWord hfuzzy]
      exact (oneSuffix_iff.1 h found.1 found.2 hfuzzy).2.1

/-- No word of the clean query is lost if every word has one suffix at most. -/
theorem splitWhitespace_cleanQuery_of_oneSuffix {query : String} {params : FuzzyParams}
    (h : extractFuzzyParams query = some params)
    (hone : ∀ word ∈ splitWhitespace query.toList, OneSuffix word) :
    splitWhitespace params.cleanQuery.toList = (splitWhitespace query.toList).map cleanWord := by
  rw [splitWhitespace_cleanQuery h, List.filter_eq_self]
  intro part hpart
  obtain ⟨word, hword, rfl⟩ := List.mem_map.1 hpart
  exact decide_eq_true ((hone word hword).cleanWord_ne_nil (mem_splitWhitespace hword).1)

theorem StripsCompletely.of_oneSuffix {query : String}
    (hone : ∀ word ∈ splitWhitespace query.toList, OneSuffix word) : StripsCompletely query := by
  have hdistance : (extractFuzzyParams query).map FuzzyParams.distance =
      (splitWhitespace query.toList).findSome? fun word => (suffixOf word).map Prod.snd := by
    have hsame : (splitWhitespace query.toList).map fuzzyWord = (splitWhitespace query.toList).map suffixOf :=
      List.map_congr_left fun word hword => (hone word hword).fuzzyWord_eq
    have hfound : ((splitWhitespace query.toList).map fuzzyWord).findSome? (Option.map Prod.snd) =
        ((splitWhitespace query.toList).map suffixOf).findSome? (Option.map Prod.snd) := by
      rw [hsame]
    rw [List.findSome?_map, List.findSome?_map] at hfound
    rw [extractFuzzyParams_eq, Option.map_map]
    exact Option.map_id'.trans hfound
  refine ⟨?_, hdistance, fun params h => ?_, fun params h => ?_⟩
  · rw [← Option.isSome_map, hdistance, List.findSome?_isSome_iff]
    simp only [Option.isSome_map]
  · rw [splitWhitespace_cleanQuery_of_oneSuffix h hone]
    refine List.map_congr_left fun word hword => ?_
    rw [cleanWord, withoutSuffix, (hone word hword).fuzzyWord_eq]
  · apply extractFuzzyParams_eq_none_iff.2
    rw [splitWhitespace_cleanQuery_of_oneSuffix h hone]
    intro part hpart
    obtain ⟨word, hword, rfl⟩ := List.mem_map.1 hpart
    exact (hone word hword).fuzzyWord_cleanWord

/-- If the clean query has the words without their suffixes, then no word was lost, and the
code took off the suffixes. -/
theorem cleanWord_eq_withoutSuffix {words : List (List Char)}
    (h : (words.map cleanWord).filter (· ≠ []) = words.map withoutSuffix) :
    ∀ word ∈ words, cleanWord word ≠ [] ∧ cleanWord word = withoutSuffix word := by
  have hself : (words.map cleanWord).filter (· ≠ []) = words.map cleanWord := by
    apply List.filter_eq_self.2
    apply List.length_filter_eq_length_iff.1
    rw [h, List.length_map, List.length_map]
  intro word hword
  have hmem : cleanWord word ∈ (words.map cleanWord).filter (· ≠ []) := by
    rw [hself]
    exact List.mem_map_of_mem hword
  refine ⟨of_decide_eq_true (List.mem_filter.1 hmem).2, ?_⟩
  exact List.map_inj_left.1 (hself.symm.trans h) word hword

/-- A word that loses something has a suffix if what is left is the word without its
suffix. -/
theorem suffixOf_of_fuzzyWord {word term : List Char} {d : Nat} (h : fuzzyWord word = some (term, d))
    (hclean : cleanWord word = withoutSuffix word) : suffixOf word = some (term, d) := by
  cases hsuffix : suffixOf word with
  | some found =>
      rw [← h, fuzzyWord_of_suffixOf (hsuffix : suffixOf word = some (found.1, found.2))]
  | none =>
      -- then nothing is to be removed, but the tilde is gone
      obtain ⟨rest, hword, -⟩ := fuzzyWord_eq_some_iff.1 h
      have hsame : term = word := by
        rw [← cleanWord_of_fuzzyWord h, hclean, withoutSuffix, hsuffix]
        rfl
      have hlength : word.length = term.length + (rest.length + 1) := by
        rw [hword, List.length_append, List.length_cons]
      rw [hsame] at hlength
      omega

theorem StripsCompletely.oneSuffix {query : String} (h : StripsCompletely query) :
    ∀ word ∈ splitWhitespace query.toList, OneSuffix word := by
  intro word hword
  apply oneSuffix_iff.2
  intro term d hfuzzy
  cases hparams : extractFuzzyParams query with
  | none =>
      rw [extractFuzzyParams_eq_none_iff.1 hparams word hword] at hfuzzy
      cases hfuzzy
  | some params =>
      have hwords : ((splitWhitespace query.toList).map cleanWord).filter (· ≠ []) =
          (splitWhitespace query.toList).map withoutSuffix := by
        rw [← splitWhitespace_cleanQuery hparams]
        exact h.words params hparams
      obtain ⟨hne, hclean⟩ := cleanWord_eq_withoutSuffix hwords word hword
      have hterm : cleanWord word = term := cleanWord_of_fuzzyWord hfuzzy
      -- the term is a word of the clean query, where nothing fuzzy is left
      have hmem : term ∈ splitWhitespace params.cleanQuery.toList := by
        rw [h.words params hparams, ← hterm, hclean]
        exact List.mem_map_of_mem hword
      refine ⟨suffixOf_of_fuzzyWord hfuzzy hclean, ?_, ?_⟩
      · rw [← hterm]
        exact hne
      · exact extractFuzzyParams_eq_none_iff.1 (h.plain params hparams) term hmem

theorem stripsCompletely_iff (query : String) :
    StripsCompletely query ↔ ∀ word ∈ splitWhitespace query.toList, OneSuffix word :=
  ⟨StripsCompletely.oneSuffix, StripsCompletely.of_oneSuffix⟩

/-- One suffix of two is left, so the clean query is still fuzzy. -/
theorem not_stripsCompletely_twoSuffixes : ¬ StripsCompletely "rust~1~2" := by
  intro h
  have hplain := h.plain ⟨"rust~1", 2⟩ (by decide)
  have hfuzzy : extractFuzzyParams "rust~1" = some ⟨"rust", 1⟩ := by decide
  rw [hfuzzy] at hplain
  cases hplain

end MSearchDB.Index
