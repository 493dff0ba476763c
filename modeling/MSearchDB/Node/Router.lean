import MSearchDB.Lib.Text

/-!
# The router

The routes of `build_router` in `crates/node/src/lib.rs`. The router matches the raw path
of a request segment by segment: a fixed segment matches itself, a parameter matches any
segment that is not empty. Where two routes match, the one with the fixed segment wins;
the only such paths end in `docs/_bulk`, and that route is listed first. A route that
matches the path but not the method answers 405, and `get` also serves `HEAD`.
-/

set_option autoImplicit false

namespace MSearchDB.Node

open MSearchDB.Lib

/-- `http::Method`. -/
inductive Method where
  | get
  | head
  | post
  | put
  | delete
  | other (name : String)
  deriving DecidableEq, Repr

/-- The handlers of the routes. -/
inductive Handler where
  | listCollections
  | createCollection
  | deleteCollection
  | getCollection
  | indexDocument
  | bulkIndex
  | upsertDocument
  | getDocument
  | deleteDocument
  | searchDocuments
  | simpleSearch
  | refreshCollection
  | listAliases
  | createAlias
  | getAlias
  | deleteAlias
  | clusterHealth
  | clusterState
  | listNodes
  | joinNode
  | createSnapshot
  | listSnapshots
  | downloadSnapshot
  | restoreSnapshot
  | getStats
  | metrics
  deriving DecidableEq, Repr

/-- A segment of a route. -/
inductive Segment where
  | fixed (text : String)
  | param (name : String)
  deriving DecidableEq, Repr

/-- A route: its pattern, and the handlers of its methods. -/
structure Route where
  pattern : List Segment
  handlers : List (Method × Handler)

/-- The routes of `build_router`. -/
def routes : List Route :=
  [⟨[.fixed "collections"], [(.get, .listCollections)]⟩,
    ⟨[.fixed "collections", .param "name"],
      [(.put, .createCollection), (.delete, .deleteCollection), (.get, .getCollection)]⟩,
    ⟨[.fixed "collections", .param "name", .fixed "docs"], [(.post, .indexDocument)]⟩,
    ⟨[.fixed "collections", .param "name", .fixed "docs", .fixed "_bulk"], [(.post, .bulkIndex)]⟩,
    ⟨[.fixed "collections", .param "name", .fixed "docs", .param "id"],
      [(.put, .upsertDocument), (.get, .getDocument), (.delete, .deleteDocument)]⟩,
    ⟨[.fixed "collections", .param "name", .fixed "_search"],
      [(.post, .searchDocuments), (.get, .simpleSearch)]⟩,
    ⟨[.fixed "collections", .param "name", .fixed "_refresh"], [(.post, .refreshCollection)]⟩,
    ⟨[.fixed "_aliases"], [(.get, .listAliases)]⟩,
    ⟨[.fixed "_aliases", .param "name"],
      [(.put, .createAlias), (.get, .getAlias), (.delete, .deleteAlias)]⟩,
    ⟨[.fixed "_cluster", .fixed "health"], [(.get, .clusterHealth)]⟩,
    ⟨[.fixed "_cluster", .fixed "state"], [(.get, .clusterState)]⟩,
    ⟨[.fixed "_nodes"], [(.get, .listNodes)]⟩,
    ⟨[.fixed "_nodes", .param "id", .fixed "_join"], [(.post, .joinNode)]⟩,
    ⟨[.fixed "_snapshot"], [(.post, .createSnapshot), (.get, .listSnapshots)]⟩,
    ⟨[.fixed "_snapshot", .param "id"], [(.get, .downloadSnapshot)]⟩,
    ⟨[.fixed "_restore"], [(.post, .restoreSnapshot)]⟩,
    ⟨[.fixed "_stats"], [(.get, .getStats)]⟩,
    ⟨[.fixed "metrics"], [(.get, .metrics)]⟩]

/-- The segments of a path. -/
def segmentsOf (path : String) : Option (List (List Char)) :=
  match path.toList.splitOn '/' with
  | [] :: segs => some segs
  | _ => none

/-- A segment of a route matches a segment of the path. -/
def Segment.accepts : Segment → List Char → Bool
  | .fixed text, seg => seg = text.toList
  | .param _, seg => seg ≠ []

/-- A route matches the segments of a path. -/
def patternMatches : List Segment → List (List Char) → Bool
  | [], [] => true
  | p :: pattern, seg :: segs => p.accepts seg && patternMatches pattern segs
  | _, _ => false

theorem patternMatches_cons {p : Segment} {pattern : List Segment} {segs : List (List Char)}
    (h : patternMatches (p :: pattern) segs = true) :
    ∃ seg rest, segs = seg :: rest ∧ p.accepts seg = true ∧ patternMatches pattern rest = true := by
  cases segs with
  | nil => cases h
  | cons seg rest => exact ⟨seg, rest, rfl, Bool.and_eq_true_iff.1 h⟩

theorem patternMatches_fixed {text : String} {pattern : List Segment} {segs : List (List Char)}
    (h : patternMatches (.fixed text :: pattern) segs = true) :
    ∃ rest, segs = text.toList :: rest ∧ patternMatches pattern rest = true := by
  obtain ⟨seg, rest, rfl, hseg, hrest⟩ := patternMatches_cons h
  exact ⟨rest, by rw [of_decide_eq_true hseg], hrest⟩

/-- The method that a handler is registered for. -/
def Method.registered : Method → Method
  | .head => .get
  | m => m

/-- The handler to which the router takes a request. -/
def dispatch (method : Method) (path : String) : Option Handler := do
  let segs ← segmentsOf path
  let route ← routes.find? fun route => patternMatches route.pattern segs
  route.handlers.lookup method.registered

example : dispatch .put "/collections/books/docs/_bulk" = none := by decide

theorem dispatch_eq_some {method : Method} {path : String} {handler : Handler}
    (h : dispatch method path = some handler) :
    ∃ segs route, segmentsOf path = some segs ∧ route ∈ routes ∧ patternMatches route.pattern segs = true ∧
      (method.registered, handler) ∈ route.handlers := by
  unfold dispatch at h
  obtain ⟨segs, hsegs, h⟩ := Option.bind_eq_some_iff.1 h
  obtain ⟨route, hroute, h⟩ := Option.bind_eq_some_iff.1 h
  have hmatch : patternMatches route.pattern segs = true := by
    simpa using List.find?_some hroute
  obtain ⟨before, after, hhandlers, -⟩ := List.lookup_eq_some_iff.1 h
  refine ⟨segs, route, hsegs, List.mem_of_find?_eq_some hroute, hmatch, ?_⟩
  rw [hhandlers]
  exact List.mem_append_right _ List.mem_cons_self

/-- The text of a path is that of its segments, which have no slash. -/
theorem segmentsOf_eq_some {path : String} {segs : List (List Char)} (h : segmentsOf path = some segs) :
    path.toList = joinSegments '/' segs ∧ ∀ seg ∈ segs, '/' ∉ seg := by
  unfold segmentsOf at h
  split at h
  next segs' hsplit =>
    obtain rfl := Option.some.inj h
    refine ⟨eq_joinSegments hsplit, fun seg hseg => ?_⟩
    have hmem : seg ∈ path.toList.splitOn '/' := by
      rw [hsplit]
      exact List.mem_cons_of_mem _ hseg
    exact not_mem_of_mem_splitOn hmem
  · cases h

end MSearchDB.Node
