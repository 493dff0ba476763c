import MSearchDB.Lib.Text
import MSearchDB.Node.DocumentCache

/-!
# Keys of the document cache

`DocumentCache` of `crates/node/src/cache.rs` keeps the documents of all collections under
one text each, the name of the collection and the identifier with a NUL between them, and
drops a collection by a test on the start of the key. Neither names nor identifiers are
checked for a NUL, which a path can carry. `keptApart_iff` says that the documents are kept
apart in every sequence of calls exactly if no document is put whose collection or
identifier has a NUL in it; the other arguments may be any texts.
-/

set_option autoImplicit false

namespace MSearchDB.Node

open MSearchDB.Lib
open MSearchDB.Core

/-- A call of the cache. -/
inductive CacheCall where
  | put (collection : String) (entry : CacheEntry)
  | invalidate (collection : String) (id : DocumentId)
  | invalidateCollection (collection : String)
  /-- An entry has become too old, or gives way to another one. -/
  | evict (key : String)

namespace CacheCall

/-- The cache after a call. -/
def exec (cache : DocumentCache) : CacheCall → DocumentCache
  | put collection entry => cache.put collection entry
  | invalidate collection id => cache.invalidate collection id
  | invalidateCollection collection => cache.invalidateCollection collection
  | evict key => cache.evict key

/-- The call is to remove the document. -/
def Invalidates (collection : String) (id : DocumentId) : CacheCall → Prop
  | put _ _ => False
  | invalidate c i => c = collection ∧ i = id
  | invalidateCollection c => c = collection
  | evict _ => False

end CacheCall

/-- The cache after a sequence of calls. -/
def afterCalls (calls : List CacheCall) : DocumentCache := calls.foldl CacheCall.exec DocumentCache.new

theorem afterCalls_concat (calls : List CacheCall) (call : CacheCall) :
    afterCalls (calls ++ [call]) = call.exec (afterCalls calls) := by
  rw [afterCalls, List.foldl_append]
  rfl

/-- The document was put for the collection and has not been invalidated since. -/
def IsLive (calls : List CacheCall) (collection : String) (entry : CacheEntry) : Prop :=
  ∃ pre post, calls = pre ++ CacheCall.put collection entry :: post ∧
    ∀ call ∈ post, ¬ call.Invalidates collection entry.doc.id

/-- The documents of collections are kept apart: what is found for a collection and an
identifier was put for them, and the invalidation of a collection removes what was put for
this collection and nothing else. -/
structure KeptApart (calls : List CacheCall) : Prop where
  origin : ∀ collection id entry, (afterCalls calls).get collection id = some entry →
    entry.doc.id = id ∧ IsLive calls collection entry
  evicts : ∀ dropped collection id, ((afterCalls calls).invalidateCollection dropped).get collection id =
    if collection = dropped then none else (afterCalls calls).get collection id

/-! ## Origins of the entries -/

theorem isLive_put (calls : List CacheCall) (collection : String) (entry : CacheEntry) :
    IsLive (calls ++ [CacheCall.put collection entry]) collection entry :=
  ⟨calls, [], rfl, fun _ h => absurd h List.not_mem_nil⟩

theorem IsLive.concat {calls : List CacheCall} {collection : String} {entry : CacheEntry}
    (h : IsLive calls collection entry) {call : CacheCall}
    (hcall : ¬ call.Invalidates collection entry.doc.id) : IsLive (calls ++ [call]) collection entry := by
  obtain ⟨pre, post, rfl, hpost⟩ := h
  refine ⟨pre, post ++ [call], by simp, fun c hc => ?_⟩
  rcases List.mem_append.1 hc with hc | hc
  · exact hpost c hc
  · rw [List.mem_singleton.1 hc]
    exact hcall

theorem IsLive.put_mem {calls : List CacheCall} {collection : String} {entry : CacheEntry}
    (h : IsLive calls collection entry) : CacheCall.put collection entry ∈ calls := by
  obtain ⟨pre, post, rfl, -⟩ := h
  exact List.mem_append_right _ List.mem_cons_self

theorem startsWith_cacheKey (collection : String) (id : DocumentId) :
    startsWith (cacheKey collection id) (collection ++ "\x00") = true := by
  refine decide_eq_true ⟨id.val.toList, ?_⟩
  rw [toList_cacheKey, String.toList_append, List.append_assoc]
  rfl

theorem inner_evict {cache : DocumentCache} {gone key : String} {entry : CacheEntry}
    (h : (cache.evict gone).inner key = some entry) : key ≠ gone ∧ cache.inner key = some entry := by
  by_cases hkey : key = gone
  · simp [DocumentCache.evict, hkey] at h
  · exact ⟨hkey, by simpa [DocumentCache.evict, hkey] using h⟩

/-- An entry is there after a call because the call has put it, or because it was there
before and the call is not about its document. -/
theorem inner_exec {cache : DocumentCache} {call : CacheCall} {key : String} {entry : CacheEntry}
    (h : (call.exec cache).inner key = some entry) :
    (∃ collection, call = CacheCall.put collection entry ∧ key = cacheKey collection entry.doc.id) ∨
      cache.inner key = some entry ∧
        ∀ collection id, key = cacheKey collection id → ¬ call.Invalidates collection id := by
  cases call with
  | put collection new =>
      by_cases hkey : key = cacheKey collection new.doc.id
      · left
        have hnew : some new = some entry := by
          simpa [CacheCall.exec, DocumentCache.put, hkey] using h
        obtain rfl := Option.some.inj hnew
        exact ⟨collection, rfl, hkey⟩
      · right
        exact ⟨by simpa [CacheCall.exec, DocumentCache.put, hkey] using h, fun _ _ _ => id⟩
  | invalidate collection id =>
      right
      obtain ⟨hkey, hold⟩ := inner_evict h
      refine ⟨hold, ?_⟩
      rintro c i rfl ⟨rfl, rfl⟩
      exact hkey rfl
  | invalidateCollection collection =>
      right
      obtain ⟨hstart, hold⟩ := Option.ite_none_left_eq_some.1 h
      refine ⟨hold, ?_⟩
      rintro c i rfl rfl
      exact hstart (startsWith_cacheKey collection i)
  | evict gone =>
      right
      exact ⟨(inner_evict h).2, fun _ _ _ => id⟩

/-- Every entry is under the key of a document that was put and not invalidated since,
whatever the names are. -/
theorem exists_isLive (calls : List CacheCall) :
    ∀ key entry, (afterCalls calls).inner key = some entry →
      ∃ collection, key = cacheKey collection entry.doc.id ∧ IsLive calls collection entry := by
  induction calls using List.reverseRecOn with
  | nil =>
      intro key entry h
      cases h
  | append_singleton calls call ih =>
      intro key entry h
      rw [afterCalls_concat] at h
      rcases inner_exec h with ⟨collection, rfl, hkey⟩ | ⟨hold, hcall⟩
      · exact ⟨collection, hkey, isLive_put calls collection entry⟩
      · obtain ⟨collection, hkey, hlive⟩ := ih key entry hold
        exact ⟨collection, hkey, hlive.concat (hcall collection entry.doc.id hkey)⟩

/-! ## Keys that can be read back -/

/-- There is no NUL in the name of the collection or in the identifier. -/
def NulFree (collection : String) (id : DocumentId) : Prop :=
  '\x00' ∉ collection.toList ∧ '\x00' ∉ id.val.toList

/-- No other pair has the key of a pair without a NUL. -/
theorem NulFree.eq_of_cacheKey_eq {c c' : String} {id id' : DocumentId} (h : NulFree c id)
    (hkey : cacheKey c' id' = cacheKey c id) : c' = c ∧ id' = id := by
  have hlist := congrArg String.toList hkey
  rw [toList_cacheKey, toList_cacheKey, eq_comm, List.append_cons_inj_of_notMem h.1 h.2] at hlist
  refine ⟨String.toList_injective hlist.1.symm, ?_⟩
  obtain ⟨text⟩ := id
  obtain ⟨text'⟩ := id'
  rw [DocumentId.mk.injEq]
  exact String.toList_injective hlist.2.2.symm

theorem NulFree.startsWith_cacheKey_iff {c dropped : String} {id : DocumentId} (h : NulFree c id) :
    startsWith (cacheKey c id) (dropped ++ "\x00") = true ↔ c = dropped := by
  have hprefix : (dropped ++ "\x00").toList = dropped.toList ++ ['\x00'] := String.toList_append
  rw [startsWith, decide_eq_true_iff, toList_cacheKey, hprefix, append_cons_prefix_iff h.1 h.2,
    String.toList_inj]
  exact eq_comm

/-- If the key of a pair is read back, then there is no NUL in the pair. -/
theorem nulFree_of_forall {c : String} {id : DocumentId}
    (h : ∀ c' id', cacheKey c' id' = cacheKey c id → id' = id) : NulFree c id := by
  apply forall_append_cons_eq_iff.1
  intro l r hlist
  have hkey : cacheKey (String.ofList l) ⟨String.ofList r⟩ = cacheKey c id := by
    apply String.toList_injective
    rw [toList_cacheKey, toList_cacheKey, String.toList_ofList, String.toList_ofList]
    exact hlist
  rw [← h _ _ hkey, String.toList_ofList]

theorem keptApart_of_nulFree {calls : List CacheCall}
    (h : ∀ collection entry, CacheCall.put collection entry ∈ calls → NulFree collection entry.doc.id) :
    KeptApart calls := by
  -- an entry found for a pair was put for this pair
  have hput : ∀ c id entry, (afterCalls calls).get c id = some entry →
      entry.doc.id = id ∧ IsLive calls c entry ∧ NulFree c id := by
    intro c id entry hget
    obtain ⟨c', hkey, hlive⟩ := exists_isLive calls _ entry hget
    have hfree : NulFree c' entry.doc.id := h c' entry hlive.put_mem
    obtain ⟨rfl, rfl⟩ := hfree.eq_of_cacheKey_eq hkey
    exact ⟨rfl, hlive, hfree⟩
  refine ⟨fun c id entry hget => ⟨(hput c id entry hget).1, (hput c id entry hget).2.1⟩, ?_⟩
  intro dropped c id
  change (if startsWith (cacheKey c id) (dropped ++ "\x00") then none else (afterCalls calls).get c id) = _
  by_cases hc : c = dropped
  · rw [if_pos hc, if_pos (hc ▸ startsWith_cacheKey c id)]
  · rw [if_neg hc]
    cases hget : (afterCalls calls).get c id with
    | none => exact ite_self none
    | some entry =>
        apply if_neg
        rw [(hput c id entry hget).2.2.startsWith_cacheKey_iff]
        exact hc

/-- What was put is found under every pair with the same key. -/
theorem get_afterCalls_put (calls : List CacheCall) {c collection : String} {id : DocumentId}
    {entry : CacheEntry} (hkey : cacheKey c id = cacheKey collection entry.doc.id) :
    (afterCalls (calls ++ [CacheCall.put collection entry])).get c id = some entry := by
  rw [afterCalls_concat, DocumentCache.get, hkey]
  exact Function.update_self _ _ _

theorem KeptApart.nulFree {calls : List CacheCall} {collection : String} {entry : CacheEntry}
    (h : KeptApart (calls ++ [CacheCall.put collection entry])) : NulFree collection entry.doc.id := by
  apply nulFree_of_forall
  intro c id hkey
  exact (h.origin c id entry (get_afterCalls_put calls hkey)).1.symm

theorem keptApart_iff (calls : List CacheCall) :
    (∀ pre, pre <+: calls → KeptApart pre) ↔
      ∀ collection entry, CacheCall.put collection entry ∈ calls → NulFree collection entry.doc.id := by
  constructor
  · intro h collection entry hmem
    obtain ⟨pre, post, rfl⟩ := List.append_of_mem hmem
    apply (h (pre ++ [CacheCall.put collection entry]) _).nulFree
    exact ⟨post, by simp⟩
  · intro h pre hpre
    apply keptApart_of_nulFree
    exact fun collection entry hmem => h collection entry (hpre.subset hmem)

/-- The document `b\x00x` of the collection `a` is found as the document `x` of another
collection. -/
theorem not_keptApart_nul : ¬ KeptApart [CacheCall.put "a" ⟨Document.new ⟨"b\x00x"⟩, 0⟩] := by
  intro h
  have hkey : cacheKey "a\x00b" ⟨"x"⟩ = cacheKey "a" ⟨"b\x00x"⟩ := by decide
  have hid : (⟨"b\x00x"⟩ : DocumentId) = ⟨"x"⟩ := (h.origin _ _ _ (get_afterCalls_put [] hkey)).1
  exact absurd hid (by decide)

end MSearchDB.Node
