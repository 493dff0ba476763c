import MSearchDB.Node.Router

/-!
# Paths as metric labels

`normalize_path` of `crates/node/src/middleware.rs` goes through the segments of a path and
puts a placeholder in the place of what follows a word that it knows, wherever that word
stands. The router matches by position. The two agree since every route has its parameters
exactly after such words, and since a segment that was replaced is skipped, so that a name
that looks like a word is never taken for one. The exception is an identifier of a document
or of a snapshot that starts with an underscore: it stays in the label.
-/

set_option autoImplicit false

namespace MSearchDB.Node

open MSearchDB.Lib

/-! ## The label of a path -/

/-- What `normalize_path` puts in the place of the segment after this one. -/
def placeholder (seg next : List Char) : Option (List Char) :=
  if seg = "collections".toList then some ":name".toList
  else if seg = "docs".toList then if next.head? = some '_' then none else some ":id".toList
  else if seg = "_aliases".toList then some ":name".toList
  else if seg = "_nodes".toList then some ":id".toList
  else if seg = "_snapshot".toList then if next.head? = some '_' then none else some ":id".toList
  else none

/-- The loop of `normalize_path` over the segments. -/
def normalizeSegments : List (List Char) → List (List Char)
  | [] => []
  | [seg] => [seg]
  | seg :: next :: segs =>
      match placeholder seg next with
      | some p => seg :: p :: normalizeSegments segs
      | none => seg :: normalizeSegments (next :: segs)

/-- `normalize_path`. -/
def normalizePath (path : String) : String :=
  String.ofList (['/'].intercalate (normalizeSegments (path.toList.splitOn '/')))

example : normalizePath "/collections/docs/docs/_bulk" = "/collections/:name/docs/_bulk" := by decide

/-- Words after which an identifier with an underscore is left as it is. -/
def IdWord (seg : List Char) : Prop := seg = "docs".toList ∨ seg = "_snapshot".toList

theorem placeholder_of_underscore {seg next : List Char} (hseg : IdWord seg) (hnext : next.head? = some '_') :
    placeholder seg next = none := by
  rcases hseg with rfl | rfl
  · simp [placeholder, hnext]
  · simp [placeholder, hnext]

/-- Otherwise the placeholder depends on the word alone. -/
theorem placeholder_eq {seg next : List Char} (h : ¬ (IdWord seg ∧ next.head? = some '_')) :
    placeholder seg next = placeholder seg [] := by
  by_cases hnext : next.head? = some '_'
  · have hseg : ¬ IdWord seg := fun hseg => h ⟨hseg, hnext⟩
    obtain ⟨hdocs, hsnapshot⟩ := not_or.1 hseg
    simp only [placeholder, hdocs, hsnapshot, if_false]
  · simp only [placeholder, hnext, List.head?_nil, reduceCtorEq, if_false]

theorem placeholder_eq_some {seg next p : List Char} (h : placeholder seg next = some p) :
    p = ":name".toList ∨ p = ":id".toList := by
  unfold placeholder at h
  split_ifs at h
  all_goals first
    | exact Or.inl (Option.some.inj h).symm
    | exact Or.inr (Option.some.inj h).symm

theorem normalizeSegments_of_none {seg next : List Char} {segs : List (List Char)}
    (h : placeholder seg next = none) :
    normalizeSegments (seg :: next :: segs) = seg :: normalizeSegments (next :: segs) := by
  rw [normalizeSegments, h]

theorem normalizeSegments_of_some {seg next p : List Char} {segs : List (List Char)}
    (h : placeholder seg next = some p) :
    normalizeSegments (seg :: next :: segs) = seg :: p :: normalizeSegments segs := by
  rw [normalizeSegments, h]

/-- The first segment is never replaced. -/
theorem head?_normalizeSegments (segs : List (List Char)) : (normalizeSegments segs).head? = segs.head? := by
  fun_cases normalizeSegments segs with
  | case1 => rfl
  | case2 seg => rfl
  | case3 seg next segs p h => rfl
  | case4 seg next segs h => rfl

theorem mem_normalizeSegments {segs : List (List Char)} :
    ∀ seg ∈ normalizeSegments segs, seg ∈ segs ∨ seg = ":name".toList ∨ seg = ":id".toList := by
  induction segs using normalizeSegments.induct with
  | case1 => exact fun seg h => absurd h List.not_mem_nil
  | case2 seg => exact fun _ h => Or.inl h
  | case3 seg next segs p h ih =>
      rw [normalizeSegments_of_some h]
      intro s hs
      rcases List.mem_cons.1 hs with rfl | hs
      · exact Or.inl List.mem_cons_self
      · rcases List.mem_cons.1 hs with rfl | hs
        · exact Or.inr (placeholder_eq_some h)
        · exact (ih s hs).imp_left fun hmem => List.mem_cons_of_mem _ (List.mem_cons_of_mem _ hmem)
  | case4 seg next segs h ih =>
      rw [normalizeSegments_of_none h]
      intro s hs
      rcases List.mem_cons.1 hs with rfl | hs
      · exact Or.inl List.mem_cons_self
      · exact (ih s hs).imp_left fun hmem => List.mem_cons_of_mem _ hmem

theorem not_mem_normalizeSegments {segs : List (List Char)} (h : ∀ seg ∈ segs, '/' ∉ seg) :
    ∀ seg ∈ normalizeSegments segs, '/' ∉ seg := by
  intro seg hseg
  rcases mem_normalizeSegments seg hseg with hmem | rfl | rfl
  · exact h seg hmem
  · decide
  · decide

/-- What stands before the first slash is empty, and no word. -/
theorem normalizeSegments_nil_cons (segs : List (List Char)) :
    normalizeSegments ([] :: segs) = [] :: normalizeSegments segs := by
  cases segs with
  | nil => rfl
  | cons seg segs =>
      apply normalizeSegments_of_none
      simp [placeholder]

theorem normalizePath_eq {path : String} {segs : List (List Char)} (h : segmentsOf path = some segs) :
    normalizePath path = String.ofList (joinSegments '/' (normalizeSegments segs)) := by
  unfold segmentsOf at h
  split at h
  next segs' hsplit =>
    obtain rfl := Option.some.inj h
    rw [normalizePath, hsplit, normalizeSegments_nil_cons, intercalate_eq_joinSegments, List.nil_append]
  · cases h

/-! ## Patterns of routes -/

/-- A segment of a pattern as `build_router` writes it. -/
def Segment.text : Segment → List Char
  | .fixed text => text.toList
  | .param name => ':' :: name.toList

/-- The pattern of a route as `build_router` writes it. -/
def Route.path (route : Route) : String := String.ofList (joinSegments '/' (route.pattern.map Segment.text))

/-- The route that matches a path. -/
def matchedRoute (path : String) : Option Route :=
  (segmentsOf path).bind fun segs => routes.find? fun route => patternMatches route.pattern segs

theorem dispatch_eq_bind_matchedRoute (method : Method) (path : String) :
    dispatch method path = (matchedRoute path).bind fun route => route.handlers.lookup method.registered := by
  rw [matchedRoute, Option.bind_assoc]
  rfl

/-- An identifier of a document or of a snapshot: the value of the parameter after `docs`
or `_snapshot`. -/
inductive IsId : List Segment → List (List Char) → List Char → Prop
  | here {word name : String} {pattern : List Segment} {seg id : List Char} {segs : List (List Char)} :
      IdWord word.toList → IsId (.fixed word :: .param name :: pattern) (seg :: id :: segs) id
  | later {p : Segment} {pattern : List Segment} {seg id : List Char} {segs : List (List Char)} :
      IsId pattern segs id → IsId (p :: pattern) (seg :: segs) id

/-- The parameters of a pattern are what stands after the words of `normalize_path`. -/
def Labelled : List Segment → Bool
  | [] => true
  | [.fixed _] => true
  | .fixed word :: .param name :: pattern =>
      placeholder word.toList [] = some (Segment.param name).text && Labelled pattern
  | .fixed word :: .fixed next :: pattern =>
      (placeholder word.toList next.toList).isNone && Labelled (.fixed next :: pattern)
  | .param _ :: _ => false

theorem labelled_of_mem_routes : ∀ route ∈ routes, Labelled route.pattern = true := by decide

theorem not_mem_text_of_mem_routes : ∀ route ∈ routes, ∀ p ∈ route.pattern, '/' ∉ p.text := by decide

theorem isId_fixed_fixed {word next : String} {pattern : List Segment} {seg id : List Char}
    {segs : List (List Char)} :
    IsId (.fixed word :: .fixed next :: pattern) (seg :: segs) id ↔ IsId (.fixed next :: pattern) segs id := by
  refine ⟨fun h => ?_, IsId.later⟩
  cases h with
  | later h => exact h

theorem isId_fixed_param {word name : String} {pattern : List Segment} {seg value id : List Char}
    {segs : List (List Char)} :
    IsId (.fixed word :: .param name :: pattern) (seg :: value :: segs) id ↔
      (IdWord word.toList ∧ id = value) ∨ IsId pattern segs id := by
  constructor
  · intro h
    cases h with
    | here hword => exact Or.inl ⟨hword, rfl⟩
    | later h =>
        cases h with
        | later h => exact Or.inr h
  · rintro (⟨hword, rfl⟩ | h)
    · exact IsId.here hword
    · exact IsId.later (IsId.later h)

/-- An identifier that stays is not the placeholder, which starts with a colon. -/
theorem normalizeSegments_ne_of_underscore {word value : List Char} {segs texts : List (List Char)}
    {name : String} (hword : IdWord word) (hvalue : value.head? = some '_') :
    normalizeSegments (word :: value :: segs) ≠ word :: (Segment.param name).text :: texts := by
  intro heq
  rw [normalizeSegments_of_none (placeholder_of_underscore hword hvalue)] at heq
  have hhead := congrArg List.head? (List.cons.inj heq).2
  rw [head?_normalizeSegments, List.head?_cons] at hhead
  have htext : value = ':' :: name.toList := Option.some.inj hhead
  rw [htext] at hvalue
  exact absurd hvalue (by simp)

/-- Segments that a labelled pattern matches are replaced by the pattern, unless an
identifier starts with an underscore. -/
theorem normalizeSegments_eq_iff {pattern : List Segment} {segs : List (List Char)}
    (hlabelled : Labelled pattern = true) (hmatch : patternMatches pattern segs = true) :
    normalizeSegments segs = pattern.map Segment.text ↔ ∀ id, IsId pattern segs id → id.head? ≠ some '_' := by
  induction pattern using Labelled.induct generalizing segs with
  | case1 =>
      cases segs with
      | nil => exact iff_of_true rfl fun id h => by cases h
      | cons seg segs => cases hmatch
  | case2 word =>
      obtain ⟨rest, rfl, hrest⟩ := patternMatches_fixed hmatch
      cases rest with
      | nil =>
          refine iff_of_true rfl fun id h => ?_
          cases h with
          | later h => cases h
      | cons next rest => cases hrest
  | case3 word name pattern ih =>
      obtain ⟨hplaceholder, hpattern⟩ := Bool.and_eq_true_iff.1 hlabelled
      obtain ⟨rest, rfl, hrest⟩ := patternMatches_fixed hmatch
      obtain ⟨value, segs, rfl, -, hrest⟩ := patternMatches_cons hrest
      simp only [isId_fixed_param]
      by_cases hkept : IdWord word.toList ∧ value.head? = some '_'
      · -- the identifier stays in the label
        refine iff_of_false ?_ fun h => h value (Or.inl ⟨hkept.1, rfl⟩) hkept.2
        exact normalizeSegments_ne_of_underscore hkept.1 hkept.2
      · have hsome : placeholder word.toList value = some (Segment.param name).text := by
          rw [placeholder_eq hkept]
          exact of_decide_eq_true hplaceholder
        rw [normalizeSegments_of_some hsome, List.map_cons, List.map_cons, Segment.text, List.cons.injEq,
          List.cons.injEq, ih hpattern hrest]
        simp only [true_and]
        constructor
        · rintro h id (⟨hword, rfl⟩ | hid)
          · exact fun hunderscore => hkept ⟨hword, hunderscore⟩
          · exact h id hid
        · exact fun h id hid => h id (Or.inr hid)
  | case4 word next pattern ih =>
      obtain ⟨hnone, hpattern⟩ := Bool.and_eq_true_iff.1 hlabelled
      obtain ⟨rest, rfl, hrest⟩ := patternMatches_fixed hmatch
      obtain ⟨segs, rfl, -⟩ := patternMatches_fixed hrest
      rw [normalizeSegments_of_none (Option.isNone_iff_eq_none.1 hnone), List.map_cons, Segment.text,
        List.cons.injEq, ih hpattern hrest]
      simp only [true_and, isId_fixed_fixed]
  | case5 name pattern => cases hlabelled

/-! ## Labels of the routes -/

theorem matchedRoute_eq_some {path : String} {route : Route} (h : matchedRoute path = some route) :
    ∃ segs, segmentsOf path = some segs ∧ route ∈ routes ∧ patternMatches route.pattern segs = true := by
  obtain ⟨segs, hsegs, hroute⟩ := Option.bind_eq_some_iff.1 h
  exact ⟨segs, hsegs, List.mem_of_find?_eq_some hroute, by simpa using List.find?_some hroute⟩

theorem normalizePath_eq_path_iff {path : String} {route : Route} (h : matchedRoute path = some route) :
    normalizePath path = route.path ↔
      ∀ segs id, segmentsOf path = some segs → IsId route.pattern segs id → id.head? ≠ some '_' := by
  obtain ⟨segs, hsegs, hroute, hmatch⟩ := matchedRoute_eq_some h
  have htext : ∀ seg ∈ route.pattern.map Segment.text, '/' ∉ seg :=
    List.forall_mem_map.2 (not_mem_text_of_mem_routes route hroute)
  have hnormal : ∀ seg ∈ normalizeSegments segs, '/' ∉ seg :=
    not_mem_normalizeSegments (segmentsOf_eq_some hsegs).2
  rw [normalizePath_eq hsegs, Route.path, String.ofList_inj, joinSegments_inj hnormal htext,
    normalizeSegments_eq_iff (labelled_of_mem_routes route hroute) hmatch]
  constructor
  · intro hids segs' id hsegs' hid
    obtain rfl := Option.some.inj (hsegs.symm.trans hsegs')
    exact hids id hid
  · exact fun hids id hid => hids segs id hsegs hid

/-- Names that look like the words of the routes are replaced all the same. -/
theorem normalizePath_words :
    ∃ route, matchedRoute "/collections/_aliases/docs/docs" = some route ∧
      normalizePath "/collections/_aliases/docs/docs" = route.path := by
  refine ⟨routes[4], rfl, (normalizePath_eq_path_iff rfl).2 ?_⟩
  intro segs id hsegs hid
  obtain rfl : ["collections".toList, "_aliases".toList, "docs".toList, "docs".toList] = segs :=
    Option.some.inj hsegs
  -- the name of the collection is not an identifier, so the only one is the last segment
  rcases isId_fixed_param.1 hid with ⟨hword, -⟩ | hid
  · exact absurd hword (by rw [IdWord]; decide)
  rcases isId_fixed_param.1 hid with ⟨-, rfl⟩ | hid
  · decide
  · cases hid

/-- The identifier of a document stays in the label if it starts with an underscore. -/
theorem normalizePath_ne_path :
    ∃ route, matchedRoute "/collections/books/docs/_x" = some route ∧
      route.path = "/collections/:name/docs/:id" ∧
      normalizePath "/collections/books/docs/_x" = "/collections/:name/docs/_x" ∧
      normalizePath "/collections/books/docs/_x" ≠ route.path :=
  ⟨routes[4], rfl, by decide, by decide, by decide⟩

end MSearchDB.Node
