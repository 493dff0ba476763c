import MSearchDB.Core.Error
import MSearchDB.Node.Router
import MSearchDB.Node.State

/-!
# Roles and routes

`Role` and the API keys of `crates/core/src/security.rs`, and `required_role` and
`auth_middleware` of `crates/node/src/middleware.rs`. The middleware decides the role by
tests on the text of the path, the router chooses the handler by the segments.

The two agree on a path exactly when no segment starts with a word that the tests look
for (`role_holds_iff`): a collection, an alias or a document whose name starts with
`_search` can be changed by a reader, and a collection whose name starts with `docs` or
`_refresh` can be created and deleted by a writer.
-/

set_option autoImplicit false

namespace MSearchDB.Node

open MSearchDB.Lib
open MSearchDB.Core
open Std (ExtTreeMap)

/-- `Role`. -/
inductive Role where
  | admin
  | writer
  | reader
  deriving DecidableEq, Repr

namespace Role

/-- `Role::level`. -/
def level : Role → Nat
  | admin => 3
  | writer => 2
  | reader => 1

/-- `Role::from_str`. No character outside ASCII has one of these letters for its lower
case. -/
def parse (s : String) : DbResult Role :=
  match s.map Char.toLower with
  | "admin" => .ok admin
  | "writer" => .ok writer
  | "reader" => .ok reader
  | _ => .error (.invalidInput ("unknown role: '" ++ s ++ "'"))

end Role

/-- `ApiKeyEntry`, without the description. -/
structure ApiKeyEntry where
  key : String
  role : Role
  deriving DecidableEq, Repr

/-- `ApiKeyEntry::has_permission`. -/
def ApiKeyEntry.hasPermission (entry : ApiKeyEntry) (required : Role) : Bool :=
  decide (required.level ≤ entry.role.level)

/-- `ApiKeyRegistry`. -/
abbrev ApiKeyRegistry := ExtTreeMap String ApiKeyEntry

/-- `ApiKeyRegistry::register`. -/
def ApiKeyRegistry.register (registry : ApiKeyRegistry) (entry : ApiKeyEntry) : ApiKeyRegistry :=
  registry.insert entry.key entry

/-- `JwtManager::verify`, which answers the role of the claims. -/
structure JwtManager where
  verify : String → DbResult String

/-- The fields of `AppState` that the middleware reads. -/
structure AuthState where
  apiKey : Option String
  apiKeyRegistry : ApiKeyRegistry
  jwtManager : Option JwtManager

/-- The headers of a request that the middleware reads. -/
structure AuthHeaders where
  xApiKey : Option String
  authorization : Option String

/-- The token of `Authorization: Bearer <token>`. -/
def AuthHeaders.bearerToken (headers : AuthHeaders) : Option String :=
  headers.authorization.bind fun s => stripPrefix s "Bearer "

/-- `required_role`. -/
def requiredRole (method : Method) (path : String) : Role :=
  if startsWith path "/_nodes/" ∧ endsWith path "/_join" then .admin
  else if path = "/_restore" then .admin
  else if path = "/_snapshot" ∧ method = .post then .admin
  else if startsWith path "/collections/" ∧ ¬ contains path "/docs" ∧ ¬ contains path "/_search" ∧
      ¬ contains path "/_refresh" ∧ (method = .put ∨ method = .delete) then .admin
  else if method = .post ∨ method = .put ∨ method = .delete then
    if contains path "/_search" then .reader else .writer
  else .reader

/-- The answer to a role that is too low. -/
def insufficientPermissions : ErrorResponse := ⟨403, "forbidden", "insufficient permissions"⟩

/-- `json_error` with `StatusCode::UNAUTHORIZED`. -/
def unauthorized (reason : String) : ErrorResponse := ⟨401, "unauthorized", reason⟩

/-- The third step of `auth_middleware`: the single key of the configuration. -/
def legacyAuth (state : AuthState) (headers : AuthHeaders) : Except ErrorResponse Unit :=
  match state.apiKey, headers.xApiKey with
  | some expected, some provided =>
      if provided = expected then .ok () else .error (unauthorized "invalid or missing API key")
  | _, _ => .error (unauthorized "invalid or missing API key")

/-- The second step of `auth_middleware`: the token. -/
def jwtAuth (state : AuthState) (headers : AuthHeaders) (roleNeeded : Role) : Except ErrorResponse Unit :=
  match headers.bearerToken, state.jwtManager with
  | some token, some jwtMgr =>
      match jwtMgr.verify token with
      | .ok role =>
          match Role.parse role with
          | .ok r => if roleNeeded.level ≤ r.level then .ok () else .error insufficientPermissions
          | .error _ => .error (unauthorized "invalid role in JWT")
      | .error _ => .error (unauthorized "invalid or expired JWT token")
  | _, _ => legacyAuth state headers

/-- `auth_middleware`: the answer to a request that does not reach the router. -/
def authMiddleware (state : AuthState) (headers : AuthHeaders) (method : Method) (path : String) :
    Except ErrorResponse Unit :=
  if state.apiKeyRegistry.isEmpty ∧ state.jwtManager.isNone ∧ state.apiKey.isNone then .ok ()
  else
    match headers.xApiKey.bind (state.apiKeyRegistry[·]?) with
    | some entry =>
        if entry.hasPermission (requiredRole method path) then .ok () else .error insufficientPermissions
    | none => jwtAuth state headers (requiredRole method path)

/-! ## What a handler needs -/

/-- The lowest role that may use a handler. -/
def Handler.needs : Handler → Role
  | .createCollection | .deleteCollection | .joinNode | .createSnapshot | .restoreSnapshot => .admin
  | .indexDocument | .bulkIndex | .upsertDocument | .deleteDocument | .refreshCollection | .createAlias
  | .deleteAlias => .writer
  | .listCollections | .getCollection | .getDocument | .searchDocuments | .simpleSearch | .listAliases
  | .getAlias | .clusterHealth | .clusterState | .listNodes | .listSnapshots | .downloadSnapshot
  | .getStats | .metrics => .reader

/-- The role of the credential that decides a request: the registered key, else the token,
else the single key, which has every permission. -/
def grantedRole (state : AuthState) (headers : AuthHeaders) : Option Role :=
  match headers.xApiKey.bind (state.apiKeyRegistry[·]?) with
  | some entry => some entry.role
  | none =>
      match headers.bearerToken, state.jwtManager with
      | some token, some jwtMgr => ((jwtMgr.verify token).bind Role.parse).toOption
      | _, _ => if state.apiKey.isSome ∧ headers.xApiKey = state.apiKey then some .admin else none

/-- The role check of a request that the router takes to a handler. -/
structure RoleHolds (method : Method) (path : String) (handler : Handler) : Prop where
  /-- The handlers of an administrator ask for `Admin`. -/
  admin : handler.needs = .admin → requiredRole method path = .admin
  /-- The handlers that change something ask for `Writer` at least. -/
  writer : handler.needs = .writer → Role.writer.level ≤ (requiredRole method path).level
  /-- Only the handlers that change nothing ask for `Reader`. -/
  reader : requiredRole method path = .reader → handler.needs = .reader
  /-- No credential with a lower role passes. -/
  passes : ∀ state headers role, grantedRole state headers = some role →
    authMiddleware state headers method path = .ok () → handler.needs.level ≤ role.level

/-- The words that mislead `required_role` on the paths of a handler. -/
def Handler.misleading : Handler → List String
  | .createCollection | .deleteCollection => ["docs", "_search", "_refresh"]
  | .indexDocument | .bulkIndex | .upsertDocument | .deleteDocument | .refreshCollection | .createAlias
  | .deleteAlias => ["_search"]
  | _ => []

/-- No segment of the path starts with a word that misleads `required_role`. -/
def Clear (handler : Handler) (segs : List (List Char)) : Prop :=
  ∀ word ∈ handler.misleading, ¬ ∃ seg ∈ segs, word.toList <+: seg

/-! ## The role of the credential -/

theorem Role.level_le_admin (role : Role) : role.level ≤ Role.admin.level := by cases role <;> decide

theorem jwtAuth_eq_ok {state : AuthState} {headers : AuthHeaders} {needed role : Role}
    (hnone : headers.xApiKey.bind (state.apiKeyRegistry[·]?) = none)
    (hrole : grantedRole state headers = some role) (hok : jwtAuth state headers needed = .ok ()) :
    needed.level ≤ role.level := by
  simp only [grantedRole, hnone] at hrole
  unfold jwtAuth at hok
  split at hok
  next token jwtMgr htoken hmgr =>
    simp only [htoken, hmgr] at hrole
    split at hok
    next text hverify =>
      rw [hverify] at hrole
      split at hok
      next r hparse =>
        split at hok
        next hlevel =>
          have hr : r = role := by simpa [Except.bind, hparse, Except.toOption] using hrole
          exact hr ▸ hlevel
        · cases hok
      · cases hok
    · cases hok
  next hno =>
    -- No token decides, so the role is that of the single key.
    have hadmin : role = .admin := by
      split at hrole
      next token jwtMgr htoken hmgr => exact absurd hmgr (hno token jwtMgr htoken)
      · split at hrole
        · exact (Option.some.inj hrole).symm
        · cases hrole
    rw [hadmin]
    exact needed.level_le_admin

/-- A credential that passes has the role that the path asks for. -/
theorem requiredRole_le_grantedRole {state : AuthState} {headers : AuthHeaders} {method : Method}
    {path : String} {role : Role} (hrole : grantedRole state headers = some role)
    (hok : authMiddleware state headers method path = .ok ()) :
    (requiredRole method path).level ≤ role.level := by
  unfold authMiddleware at hok
  split at hok
  next hoff =>
    -- Without a credential in the configuration no request has a role.
    obtain ⟨hregistry, hjwt, hkey⟩ := hoff
    have hnone : headers.xApiKey.bind (state.apiKeyRegistry[·]?) = none := by
      rw [ExtTreeMap.isEmpty_iff.1 hregistry]
      cases headers.xApiKey <;> simp
    simp [grantedRole, hnone, Option.isNone_iff_eq_none.1 hjwt, Option.isNone_iff_eq_none.1 hkey] at hrole
  · split at hok
    next entry hentry =>
      simp only [grantedRole, hentry, Option.some.injEq] at hrole
      split at hok
      next hpermission => exact hrole ▸ of_decide_eq_true hpermission
      · cases hok
    next hnone => exact jwtAuth_eq_ok hnone hrole hok

/-! ## The tests of `required_role` on the segments -/

/-- The methods of the routes that change something. -/
def Method.Changes (method : Method) : Prop := method = .post ∨ method = .put ∨ method = .delete

section Segments

variable {method : Method} {path : String} {segs : List (List Char)}

theorem contains_slash_iff (hsegs : segmentsOf path = some segs) {word : String} (hword : '/' ∉ word.toList) :
    contains path ("/" ++ word) = true ↔ ∃ seg ∈ segs, word.toList <+: seg := by
  obtain ⟨hpath, hfree⟩ := segmentsOf_eq_some hsegs
  rw [contains, decide_eq_true_iff, String.toList_append, hpath]
  exact cons_infix_joinSegments_iff hword hfree

/-- The path is none of those that `required_role` tests before the collections. -/
structure PastAdmin (path : String) : Prop where
  nodes : startsWith path "/_nodes/" = false
  restore : path ≠ "/_restore"
  snapshot : path ≠ "/_snapshot"

theorem pastAdmin_of_head {name : String} (hname : name ∈ ["collections", "_aliases"])
    {rest : List (List Char)} (hsegs : segmentsOf path = some (name.toList :: rest)) : PastAdmin path := by
  have hpath : path.toList = '/' :: (name.toList ++ joinSegments '/' rest) := (segmentsOf_eq_some hsegs).1
  have hne : ∀ text : String, text.toList.take 3 ≠ (path.toList).take 3 → path ≠ text := by
    intro text htake heq
    exact htake (by rw [heq])
  simp only [List.mem_cons, List.not_mem_nil, or_false] at hname
  refine ⟨?_, hne _ ?_, hne _ ?_⟩
  · rw [startsWith, decide_eq_false_iff_not, hpath]
    rcases hname with rfl | rfl <;> simp
  · rw [hpath]
    rcases hname with rfl | rfl <;> simp
  · rw [hpath]
    rcases hname with rfl | rfl <;> simp

theorem requiredRole_of_pastAdmin (hpast : PastAdmin path) (hmethod : method.Changes) :
    requiredRole method path =
      if startsWith path "/collections/" ∧ ¬ contains path "/docs" ∧ ¬ contains path "/_search" ∧
          ¬ contains path "/_refresh" ∧ (method = .put ∨ method = .delete) then .admin
      else if contains path "/_search" then .reader else .writer := by
  have hmethod' : method = .post ∨ method = .put ∨ method = .delete := hmethod
  simp only [requiredRole, hpast.nodes, hpast.restore, hpast.snapshot, Bool.false_eq_true, false_and, if_false,
    if_pos hmethod']

/-- On the paths of collections and aliases a method that changes something is taken for
a search exactly when a segment starts with `_search`. -/
theorem requiredRole_eq_reader_iff (hpast : PastAdmin path) (hsegs : segmentsOf path = some segs)
    (hmethod : method.Changes) :
    requiredRole method path = .reader ↔ ∃ seg ∈ segs, "_search".toList <+: seg := by
  have hword : '/' ∉ "_search".toList := by decide
  have hsearch := contains_slash_iff hsegs hword
  have hslash : "/" ++ "_search" = "/_search" := rfl
  rw [← hsearch, requiredRole_of_pastAdmin hpast hmethod, hslash]
  split
  next hadmin => simp [hadmin.2.2.1]
  · split <;> simp [*]

/-- On the path of a collection these methods ask for `Admin` exactly when its name starts
with none of the words. -/
theorem requiredRole_collection_iff {name : List Char}
    (hsegs : segmentsOf path = some ["collections".toList, name]) (hmethod : method = .put ∨ method = .delete) :
    requiredRole method path = .admin ↔
      ∀ word ∈ ["docs", "_search", "_refresh"],
        ¬ ∃ seg ∈ ["collections".toList, name], word.toList <+: seg := by
  have hpast : PastAdmin path := pastAdmin_of_head (by simp) hsegs
  have hstart : startsWith path "/collections/" = true := by
    rw [startsWith, decide_eq_true_iff, (segmentsOf_eq_some hsegs).1]
    simp [joinSegments]
  have hword : ∀ word ∈ ["docs", "_search", "_refresh"],
      (¬ ∃ seg ∈ ["collections".toList, name], word.toList <+: seg) ↔ ¬ contains path ("/" ++ word) = true := by
    intro word hmem
    have hfree : ∀ word ∈ ["docs", "_search", "_refresh"], '/' ∉ word.toList := by decide
    rw [contains_slash_iff hsegs (hfree word hmem)]
  rw [requiredRole_of_pastAdmin hpast (.inr hmethod), forall₂_congr hword]
  simp only [hstart, hmethod, true_and, and_true, List.forall_mem_cons, List.not_mem_nil, false_imp_iff,
    implies_true]
  split
  next hclear => exact iff_of_true rfl hclear
  next hclear =>
    refine iff_of_false ?_ hclear
    split <;> simp

end Segments

/-! ## The routes that change something -/

theorem Method.eq_of_registered {method m : Method} (h : method.registered = m) (hget : m ≠ .get) : method = m := by
  cases method <;> simp_all [Method.registered]

theorem routes_writer : ∀ route ∈ routes, ∀ entry ∈ route.handlers, entry.2.needs = .writer →
    entry.2.misleading = ["_search"] ∧ (entry.1 = .post ∨ entry.1 = .put ∨ entry.1 = .delete) ∧
      ∃ name ∈ ["collections", "_aliases"], route.pattern.head? = some (.fixed name) := by
  decide

theorem routes_admin : ∀ route ∈ routes, ∀ entry ∈ route.handlers, entry.2.needs = .admin →
    (entry.2.misleading = ["docs", "_search", "_refresh"] ∧ (entry.1 = .put ∨ entry.1 = .delete) ∧
      route.pattern = [.fixed "collections", .param "name"]) ∨
    (entry.2.misleading = [] ∧ entry.1 = .post ∧
      route.pattern ∈ [[.fixed "_nodes", .param "id", .fixed "_join"], [.fixed "_snapshot"], [.fixed "_restore"]]) := by
  decide

theorem patternMatches_nil {segs : List (List Char)} (h : patternMatches [] segs = true) : segs = [] := by
  cases segs with
  | nil => rfl
  | cons seg rest => cases h

section Dispatch

variable {method : Method} {path : String} {handler : Handler}

theorem dispatch_writer (h : dispatch method path = some handler) (hneeds : handler.needs = .writer) :
    handler.misleading = ["_search"] ∧ method.Changes ∧
      ∃ name ∈ ["collections", "_aliases"], ∃ rest, segmentsOf path = some (name.toList :: rest) := by
  obtain ⟨segs, ⟨pattern, handlers⟩, hsegs, hroute, hmatch, hhandler⟩ := dispatch_eq_some h
  obtain ⟨hwords, hmethod, name, hname, hhead⟩ := routes_writer _ hroute _ hhandler hneeds
  refine ⟨hwords, ?_, name, hname, ?_⟩
  · rcases hmethod with hm | hm | hm
    · exact .inl (Method.eq_of_registered hm (by simp))
    · exact .inr (.inl (Method.eq_of_registered hm (by simp)))
    · exact .inr (.inr (Method.eq_of_registered hm (by simp)))
  · obtain ⟨pattern', rfl⟩ := List.head?_eq_some_iff.1 hhead
    obtain ⟨rest, rfl, -⟩ := patternMatches_fixed hmatch
    exact ⟨rest, hsegs⟩

theorem dispatch_admin (h : dispatch method path = some handler) (hneeds : handler.needs = .admin) :
    (handler.misleading = ["docs", "_search", "_refresh"] ∧ (method = .put ∨ method = .delete) ∧
      ∃ name, segmentsOf path = some ["collections".toList, name]) ∨
    (handler.misleading = [] ∧ method = .post ∧
      ((∃ id, segmentsOf path = some ["_nodes".toList, id, "_join".toList]) ∨
        segmentsOf path = some ["_snapshot".toList] ∨ segmentsOf path = some ["_restore".toList])) := by
  obtain ⟨segs, ⟨pattern, handlers⟩, hsegs, hroute, hmatch, hhandler⟩ := dispatch_eq_some h
  obtain ⟨hwords, hmethod, hpattern⟩ | ⟨hwords, hmethod, hpattern⟩ := routes_admin _ hroute _ hhandler hneeds
  · refine .inl ⟨hwords, ?_, ?_⟩
    · exact hmethod.imp (Method.eq_of_registered · (by simp)) (Method.eq_of_registered · (by simp))
    · obtain rfl := hpattern
      obtain ⟨rest, rfl, hrest⟩ := patternMatches_fixed hmatch
      obtain ⟨name, rest, rfl, -, hnil⟩ := patternMatches_cons hrest
      exact ⟨name, by rw [hsegs, patternMatches_nil hnil]⟩
  · refine .inr ⟨hwords, Method.eq_of_registered hmethod (by simp), ?_⟩
    simp only [List.mem_cons, List.not_mem_nil, or_false] at hpattern
    rcases hpattern with rfl | rfl | rfl
    · obtain ⟨rest, rfl, hrest⟩ := patternMatches_fixed hmatch
      obtain ⟨id, rest, rfl, -, hjoin⟩ := patternMatches_cons hrest
      obtain ⟨rest, rfl, hnil⟩ := patternMatches_fixed hjoin
      exact .inl ⟨id, by rw [hsegs, patternMatches_nil hnil]⟩
    · obtain ⟨rest, rfl, hnil⟩ := patternMatches_fixed hmatch
      exact .inr (.inl (by rw [hsegs, patternMatches_nil hnil]))
    · obtain ⟨rest, rfl, hnil⟩ := patternMatches_fixed hmatch
      exact .inr (.inr (by rw [hsegs, patternMatches_nil hnil]))

/-- Joining a node, a snapshot and a restore ask for `Admin` whatever the node is called. -/
theorem requiredRole_fixed_admin
    (h : (∃ id, segmentsOf path = some ["_nodes".toList, id, "_join".toList]) ∨
      segmentsOf path = some ["_snapshot".toList] ∨ segmentsOf path = some ["_restore".toList]) :
    requiredRole .post path = .admin := by
  rcases h with ⟨id, h⟩ | h | h
  · have hpath : path.toList = "/_nodes/".toList ++ id ++ "/_join".toList := by
      rw [(segmentsOf_eq_some h).1]
      simp [joinSegments]
    have hstart : startsWith path "/_nodes/" = true := by
      rw [startsWith, decide_eq_true_iff, hpath, List.append_assoc]
      exact List.prefix_append _ _
    have hend : endsWith path "/_join" = true := by
      rw [endsWith, decide_eq_true_iff, hpath]
      exact List.suffix_append _ _
    rw [requiredRole, if_pos ⟨hstart, hend⟩]
  · have hpath : path = "/_snapshot" := String.toList_injective (segmentsOf_eq_some h).1
    rw [hpath]
    decide
  · have hpath : path = "/_restore" := String.toList_injective (segmentsOf_eq_some h).1
    rw [hpath]
    decide

/-- The role that the path asks for is as high as the handler needs exactly when no segment
misleads `required_role`. -/
theorem needs_le_requiredRole_iff {segs : List (List Char)} (h : dispatch method path = some handler)
    (hsegs : segmentsOf path = some segs) :
    handler.needs.level ≤ (requiredRole method path).level ↔ Clear handler segs := by
  cases hneeds : handler.needs with
  | admin =>
      have hlevel : Role.admin.level ≤ (requiredRole method path).level ↔ requiredRole method path = .admin := by
        cases requiredRole method path <;> decide
      rw [hlevel]
      obtain ⟨hwords, hmethod, name, hsegs'⟩ | ⟨hwords, rfl, hfixed⟩ := dispatch_admin h hneeds
      · obtain rfl := Option.some.inj (hsegs.symm.trans hsegs')
        rw [requiredRole_collection_iff hsegs hmethod, Clear, hwords]
      · simp [requiredRole_fixed_admin hfixed, Clear, hwords]
  | writer =>
      have hlevel : Role.writer.level ≤ (requiredRole method path).level ↔ requiredRole method path ≠ .reader := by
        cases requiredRole method path <;> decide
      obtain ⟨hwords, hmethod, name, hname, rest, hsegs'⟩ := dispatch_writer h hneeds
      obtain rfl := Option.some.inj (hsegs.symm.trans hsegs')
      rw [hlevel, ne_eq, requiredRole_eq_reader_iff (pastAdmin_of_head hname hsegs) hsegs hmethod]
      simp [Clear, hwords]
  | reader =>
      have hwords : handler.misleading = [] := by cases handler <;> first | rfl | cases hneeds
      have hlevel : Role.reader.level ≤ (requiredRole method path).level := by
        cases requiredRole method path <;> decide
      simp [hlevel, Clear, hwords]

theorem roleHolds_of_le (hle : handler.needs.level ≤ (requiredRole method path).level) :
    RoleHolds method path handler where
  admin hneeds := by
    rw [hneeds] at hle
    revert hle
    cases requiredRole method path <;> decide
  writer hneeds := hneeds ▸ hle
  reader hreader := by
    rw [hreader] at hle
    revert hle
    cases handler.needs <;> decide
  passes _ _ _ hrole hok := hle.trans (requiredRole_le_grantedRole hrole hok)

theorem RoleHolds.le (h : RoleHolds method path handler) :
    handler.needs.level ≤ (requiredRole method path).level := by
  cases hneeds : handler.needs with
  | admin => rw [h.admin hneeds]
  | writer => exact h.writer hneeds
  | reader => cases requiredRole method path <;> decide

/-- The role check of a request that the router takes to a handler holds exactly when no
segment of its path starts with a word that misleads `required_role` for this handler. -/
theorem role_holds_iff {segs : List (List Char)} (h : dispatch method path = some handler)
    (hsegs : segmentsOf path = some segs) :
    RoleHolds method path handler ↔ Clear handler segs :=
  ⟨fun hholds => (needs_le_requiredRole_iff h hsegs).1 hholds.le,
    fun hclear => roleHolds_of_le ((needs_le_requiredRole_iff h hsegs).2 hclear)⟩

theorem role_holds_iff_books :
    RoleHolds .put "/collections/books" .createCollection ∧
      ¬ RoleHolds .put "/collections/books/docs/_search-tips" .upsertDocument := by
  constructor
  · have hsegs : segmentsOf "/collections/books" = some ["collections".toList, "books".toList] := by decide
    rw [role_holds_iff (by decide) hsegs]
    simp [Clear, Handler.misleading]
  · have hsegs : segmentsOf "/collections/books/docs/_search-tips" =
        some ["collections".toList, "books".toList, "docs".toList, "_search-tips".toList] := by decide
    rw [role_holds_iff (by decide) hsegs]
    simp [Clear, Handler.misleading]

/-- A node with one registered key, a writer's. -/
def writerAuth : AuthState := ⟨none, ApiKeyRegistry.register ∅ ⟨"w", .writer⟩, none⟩

/-- The key of a writer deletes the collection `docs-archive`. -/
theorem writer_deletes_docs_archive :
    dispatch .delete "/collections/docs-archive" = some .deleteCollection ∧
      grantedRole writerAuth ⟨some "w", none⟩ = some .writer ∧
      authMiddleware writerAuth ⟨some "w", none⟩ .delete "/collections/docs-archive" = .ok () ∧
      ¬ RoleHolds .delete "/collections/docs-archive" .deleteCollection := by
  have hrole : requiredRole .delete "/collections/docs-archive" = .writer := by decide
  have hkey : writerAuth.apiKeyRegistry["w"]? = some ⟨"w", .writer⟩ := by
    simp [writerAuth, ApiKeyRegistry.register]
  refine ⟨by decide, ?_, ?_, fun h => ?_⟩
  · simp [grantedRole, hkey]
  · simp [authMiddleware, hkey, hrole, ApiKeyEntry.hasPermission]
  · cases hrole.symm.trans (h.admin rfl)

end Dispatch

end MSearchDB.Node
