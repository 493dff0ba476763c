import MSearchDB.Lib.Run
import MSearchDB.Node.DocumentCache

/-!
# Reads through the cache

A write of the document endpoints removes the cached document after the storage has
changed, which is not enough: a read that is still on its way puts back the version that
it has read before, and `_bulk`, the creation and the deletion of a collection change
documents without touching the cache. `neverBack_of_along` says which runs never answer
with an old version all the same.

An entry of the cache is current when it was read after every call of a settled write,
one that has been invalidated or has responded. `Coherent` keeps all entries current,
and with them the answers that come out of the cache.
-/

set_option autoImplicit false

namespace MSearchDB.Node

open MSearchDB.Lib
open MSearchDB.Core
open MSearchDB.Consensus
open MSearchDB.Storage.RocksDb
open MSearchDB.Storage.RocksDb.RocksDbStorage

/-! ## Never back -/

/-- The call is about the document, or about the collection that it is in. -/
def Touches (collection : String) (id : DocumentId) : StorageCall → Prop
  | .put _ => False
  | .delete _ => False
  | .createCollection c => c = collection
  | .dropCollection c => c = collection
  | .putInCollection c doc => c = collection ∧ doc.id = id
  | .deleteFromCollection c id' => c = collection ∧ id' = id

/-- The write has responded with success. -/
def HasResponded (writes : List HandledWrite) (i : Nat) : Prop :=
  ∃ w, writes[i]? = some w ∧ w.phase = .responded

/-- The handler is past the invalidation of the cache, or has responded without one. -/
def WritePhase.IsSettled : WritePhase → Prop
  | .invalidated => True
  | .responded => True
  | _ => False

/-- The handler of the write `i` is settled. -/
def HasSettled (writes : List HandledWrite) (i : Nat) : Prop :=
  ∃ w, writes[i]? = some w ∧ w.phase.IsSettled

theorem HasResponded.hasSettled {writes : List HandledWrite} {i : Nat} (h : HasResponded writes i) :
    HasSettled writes i := by
  obtain ⟨w, hw, hphase⟩ := h
  refine ⟨w, hw, ?_⟩
  rw [hphase]
  trivial

namespace CachedNode

/-- The call number `p` comes from the write `i` and touches the document. -/
def Wrote (s : CachedNode) (i p : Nat) (collection : String) (id : DocumentId) : Prop :=
  ∃ call, s.applied[p]? = some ⟨some i, call⟩ ∧ Touches collection id call

theorem Wrote.lt {s : CachedNode} {i p : Nat} {collection : String} {id : DocumentId}
    (h : s.Wrote i p collection id) : p < s.applied.length := by
  obtain ⟨call, hcall, -⟩ := h
  exact (List.getElem?_eq_some_iff.1 hcall).1

variable [RmpSerde Document]

/-- The document after the first `t` calls. -/
def valueAt (s : CachedNode) (t : Nat) (collection : String) (id : DocumentId) : Option Document :=
  (StorageBackend.getFromCollection (s.storageAt t) collection id).toOption

/-- The answer `v` to the read is not what the document was before a write that had
responded when the read began, unless the document has been the same since. -/
def NotBefore (s : CachedNode) (g : HandledGet) (v : Option Document) : Prop :=
  ∀ i p, HasResponded g.before i → s.Wrote i p g.collection g.id →
    (∃ t, t ≤ p ∧ s.valueAt t g.collection g.id = v) →
      ∃ t, p < t ∧ t ≤ s.applied.length ∧ s.valueAt t g.collection g.id = v

/-- No read has gone back in time. -/
def NeverBack (s : CachedNode) : Prop :=
  ∀ g ∈ s.gets, ∀ response v, g.phase = .responded response → response.value = some v →
    s.NotBefore g v

/-- The steps that keep the cache coherent. A write is answered when the node has applied
it, as the leader has. When a write responds that does not invalidate, the entries of the
documents that it touched have been read after its calls. When a read fills the cache, the
writes that have touched its document since it was read have still to invalidate. A read
that is refused for its collection does not hide a document that is there. -/
def KeepsCurrent (s : CachedNode) : CacheStep → Prop
  | .answer i => ∀ x ∈ s.queue, x.origin ≠ some i
  | .respond i => ∀ w, s.writes[i]? = some w → w.request.invalidates = none →
      w.request.Finished w.phase = true →
        ∀ c id entry, '\x00' ∉ c.toList → s.cache.get c id = some entry →
          ∀ p, s.Wrote i p c id → p < entry.readAt
  | .fill j => ∀ g entry, s.gets[j]? = some g → g.phase = .read entry →
      ∀ i p, HasSettled s.writes i → s.Wrote i p g.collection g.id → p < entry.readAt
  | .checkCollection j => ∀ g, s.gets[j]? = some g → g.phase = .received →
      s.collections g.collection = none →
        (∃ i p, HasResponded g.before i ∧ s.Wrote i p g.collection g.id) →
          s.valueAt s.applied.length g.collection g.id = none
  | _ => True

end CachedNode

/-! ## Keys and stored documents -/

theorem cacheKey_inj {c c' : String} {id id' : DocumentId} (hc : '\x00' ∉ c.toList)
    (hc' : '\x00' ∉ c'.toList) (h : cacheKey c id = cacheKey c' id') : c = c' ∧ id = id' := by
  have hlist := congrArg String.toList h
  rw [toList_cacheKey, toList_cacheKey] at hlist
  -- the names end before the first NUL
  have htake : ∀ (xs ys : List Char), '\x00' ∉ xs →
      (xs ++ '\x00' :: ys).takeWhile (· ≠ '\x00') = xs := by
    intro xs ys hxs
    rw [List.takeWhile_append_of_pos (by simpa using fun a ha => ne_of_mem_of_not_mem ha hxs)]
    simp
  have hnames : c.toList = c'.toList := by
    rw [← htake c.toList id.val.toList hc, hlist, htake _ _ hc']
  rw [hnames, List.append_cancel_left_eq, List.cons.injEq] at hlist
  refine ⟨String.toList_injective hnames, ?_⟩
  obtain ⟨name⟩ := id
  obtain ⟨name'⟩ := id'
  rw [DocumentId.mk.injEq]
  exact String.toList_injective hlist.2

section Stored

variable [RmpSerde Document]

/-- What a lookup finds has the id looked up, in a collection that exists. -/
theorem getFromCollection_ok {st : RocksDbStorage} (h : WellFormed st) {c : String} {id : DocumentId}
    {doc : Document} (hget : StorageBackend.getFromCollection st c id = .ok doc) :
    doc.id = id ∧ st.db.slot (collectionCfName c) ≠ none := by
  have hname : cfSequence ≠ collectionCfName c := (collectionCfName_ne_sequence c).symm
  have hlookup : okOr (documentNotFoundIn c id) (st.getDocumentFrom (collectionCfName c) id) = .ok doc :=
    hget
  cases hslot : st.db.slot (collectionCfName c) with
  | none =>
      rw [getDocumentFrom_of_none hslot] at hlookup
      cases hlookup
  | some f =>
      refine ⟨?_, Option.some_ne_none f⟩
      rcases getDocumentFrom_eq (h.encoded _ hname) hslot id with ⟨-, hnone⟩ | ⟨v, doc', -, -, hid, hsome⟩
      · rw [hnone] at hlookup
        cases hlookup
      · rw [hsome] at hlookup
        cases hlookup
        exact hid

/-- No call creates a collection with a NUL in its name. -/
theorem slot_execAll_nul {st : RocksDbStorage} (h : WellFormed st) {c : String} (hc : '\x00' ∈ c.toList)
    (hnone : st.db.slot (collectionCfName c) = none) (calls : List StorageCall) :
    (StorageCall.execAll st calls).db.slot (collectionCfName c) = none := by
  have hname : cfSequence ≠ collectionCfName c := (collectionCfName_ne_sequence c).symm
  rw [slot_execAll hname calls h, hnone]
  refine SlotOp.runAll_none_of_create_not_mem _ fun hmem => ?_
  obtain ⟨call, -, hop⟩ := List.mem_flatMap.1 hmem
  cases call with
  | put doc => simp [opsOn, putOps, (collectionCfName_ne_documents c).symm] at hop
  | delete id => simp [opsOn, (collectionCfName_ne_documents c).symm] at hop
  | createCollection d =>
      simp only [opsOn] at hop
      split at hop
      · next hd => exact hd.2 (collectionCfName_injective hd.1 ▸ hc)
      · cases hop
  | dropCollection d => simp [opsOn] at hop
  | putInCollection d doc =>
      simp only [opsOn, putOps] at hop
      split at hop
      · split at hop
        · cases hop
        · simp at hop
      · cases hop
  | deleteFromCollection d id => simp [opsOn] at hop

end Stored

namespace CachedNode

/-! ## Where the calls are -/

section Trace

variable [BulkInput]

/-- A call comes from a command of its write, and is in the queue only while the write
waits for its answer. -/
structure Traced (s : CachedNode) : Prop where
  origin : ∀ x ∈ s.applied ++ s.queue, ∀ i, x.origin = some i →
    ∃ w cmd, s.writes[i]? = some w ∧ cmd ∈ w.request.commands ∧ x.call ∈ cmd.storageCalls
  todo : ∀ w ∈ s.writes, ∀ todo, w.phase = .running todo ∨ w.phase = .waiting todo →
    todo ⊆ w.request.commands
  queued : ∀ x ∈ s.queue, ∀ i, x.origin = some i →
    ∃ w todo, s.writes[i]? = some w ∧ w.phase = .waiting todo

theorem start_traced (opened : RocksDbStorage) : Traced (start opened) := by
  refine ⟨?_, ?_, ?_⟩
  · simp [start]
  · simp [start]
  · simp [start]

variable {s : CachedNode}

theorem Traced.not_queued (h : Traced s) {i : Nat} {w : HandledWrite} (hw : s.writes[i]? = some w)
    (hphase : ∀ todo, w.phase ≠ .waiting todo) : ∀ x ∈ s.queue, x.origin ≠ some i := by
  intro x hx hi
  obtain ⟨w', todo, hw', hwaiting⟩ := h.queued x hx i hi
  rw [hw] at hw'
  cases hw'
  exact hphase todo hwaiting

/-- A handler moves on. -/
theorem Traced.setWrite (h : Traced s) {i : Nat} {w w' : HandledWrite} (hw : s.writes[i]? = some w)
    (hrequest : w'.request = w.request)
    (htodo : ∀ todo, w'.phase = .running todo ∨ w'.phase = .waiting todo →
      todo ⊆ w'.request.commands)
    (hqueue : ∀ x ∈ s.queue, x.origin ≠ some i) : Traced (s.setWrite i w') where
  origin x hx k hk := by
    obtain ⟨v, cmd, hv, hcmd, hcall⟩ := h.origin x hx k hk
    simp only [CachedNode.setWrite, getElem?_set_of_some hw]
    by_cases hik : i = k
    · subst hik
      rw [hw] at hv
      cases hv
      exact ⟨w', cmd, if_pos rfl, hrequest ▸ hcmd, hcall⟩
    · exact ⟨v, cmd, by rw [if_neg hik, hv], hcmd, hcall⟩
  todo v hv todo hphase := by
    rcases List.mem_or_eq_of_mem_set hv with hold | rfl
    · exact h.todo v hold todo hphase
    · exact htodo todo hphase
  queued x hx k hk := by
    have hik : i ≠ k := fun hik => hqueue x hx (hik ▸ hk)
    simp only [CachedNode.setWrite, getElem?_set_of_some hw, if_neg hik]
    exact h.queued x hx k hk

theorem Traced.enqueue (h : Traced s) {origin : Option Nat} {cmd : RaftCommand}
    (horigin : ∀ i, origin = some i → ∃ w todo, s.writes[i]? = some w ∧ w.phase = .waiting todo ∧
      cmd ∈ w.request.commands) : Traced (s.enqueue origin cmd) where
  origin x hx i hi := by
    rw [CachedNode.enqueue, ← List.append_assoc] at hx
    rcases List.mem_append.1 hx with hold | hnew
    · exact h.origin x hold i hi
    · obtain ⟨call, hcall, rfl⟩ := List.mem_map.1 hnew
      obtain ⟨w, todo, hw, -, hcmd⟩ := horigin i hi
      exact ⟨w, cmd, hw, hcmd, hcall⟩
  todo := h.todo
  queued x hx i hi := by
    rcases List.mem_append.1 hx with hold | hnew
    · exact h.queued x hold i hi
    · obtain ⟨call, hcall, rfl⟩ := List.mem_map.1 hnew
      obtain ⟨w, todo, hw, hphase, -⟩ := horigin i hi
      exact ⟨w, todo, hw, hphase⟩

theorem Traced.apply (h : Traced s) {x : LoggedCall} {queue : List LoggedCall}
    (hqueue : s.queue = x :: queue) :
    Traced { s with applied := s.applied ++ [x], queue := queue } where
  origin y hy i hi := by
    rw [List.append_assoc, List.singleton_append, ← hqueue] at hy
    exact h.origin y hy i hi
  todo := h.todo
  queued y hy i hi := by
    apply h.queued y _ i hi
    rw [hqueue]
    exact List.mem_cons_of_mem x hy

/-- The next call belongs to no settled write, so their calls are those that they were. -/
theorem Traced.wrote_of_apply (h : Traced s) {x : LoggedCall} {queue : List LoggedCall}
    (hqueue : s.queue = x :: queue) {i p : Nat} {c : String} {id : DocumentId}
    (hsettled : HasSettled s.writes i)
    (hwrote : { s with applied := s.applied ++ [x], queue := queue }.Wrote i p c id) :
    s.Wrote i p c id := by
  obtain ⟨call, hcall, htouches⟩ := hwrote
  obtain ⟨w, hw, hsettled⟩ := hsettled
  have hx : x.origin ≠ some i := by
    refine h.not_queued hw (fun todo hphase => ?_) x (by rw [hqueue]; exact List.mem_cons_self)
    rw [hphase] at hsettled
    exact hsettled
  refine ⟨call, ?_, htouches⟩
  by_cases hp : p < s.applied.length
  · simpa only [List.getElem?_append_left hp] using hcall
  · simp only [List.getElem?_append_right (Nat.not_lt.1 hp)] at hcall
    have hlast : (⟨some i, call⟩ : LoggedCall) = x :=
      List.mem_singleton.1 (List.mem_of_getElem? hcall)
    exact absurd (congrArg LoggedCall.origin hlast).symm hx

/-- The document endpoints touch the document that they invalidate, and no other. -/
theorem touches_of_invalidates {request : WriteRequest} {id₀ : DocumentId}
    (hinvalidates : request.invalidates = some id₀) {cmd : RaftCommand} (hcmd : cmd ∈ request.commands)
    {call : StorageCall} (hcall : call ∈ cmd.storageCalls) {c : String} {id : DocumentId}
    (htouches : Touches c id call) : request.collection = c ∧ id₀ = id := by
  cases request with
  | index collection id' fields =>
      obtain rfl := Option.some.inj hinvalidates
      obtain rfl := List.mem_singleton.1 hcmd
      obtain rfl := List.mem_singleton.1 hcall
      exact htouches
  | upsert collection id' fields =>
      obtain rfl := Option.some.inj hinvalidates
      obtain rfl := List.mem_singleton.1 hcmd
      obtain rfl := List.mem_singleton.1 hcall
      exact htouches
  | delete collection id' =>
      obtain rfl := Option.some.inj hinvalidates
      obtain rfl := List.mem_singleton.1 hcmd
      obtain rfl := List.mem_singleton.1 hcall
      exact htouches
  | bulk collection body => cases hinvalidates
  | createCollection name schema => cases hinvalidates
  | deleteCollection name => cases hinvalidates

theorem Traced.wrote_of_invalidates (h : Traced s) {i p : Nat} {w : HandledWrite}
    (hw : s.writes[i]? = some w) {id₀ : DocumentId} (hinvalidates : w.request.invalidates = some id₀)
    {c : String} {id : DocumentId} (hwrote : s.Wrote i p c id) :
    w.request.collection = c ∧ id₀ = id := by
  obtain ⟨call, hcall, htouches⟩ := hwrote
  obtain ⟨w', cmd, hw', hcmd, hmem⟩ :=
    h.origin ⟨some i, call⟩ (List.mem_append_left _ (List.mem_of_getElem? hcall)) i rfl
  rw [hw] at hw'
  cases hw'
  exact touches_of_invalidates hinvalidates hcmd hmem htouches

end Trace

/-! ## Current entries -/

section Current

variable [RmpSerde Document]

/-- The document was in the storage when it was read. -/
def Held (s : CachedNode) (collection : String) (id : DocumentId) (entry : CacheEntry) : Prop :=
  entry.readAt ≤ s.applied.length ∧ s.valueAt entry.readAt collection id = some entry.doc

/-- The entries of the cache and the answers are current. -/
structure Coherent (s : CachedNode) : Prop where
  opened : ∃ options, RocksDbStorage.new none options = .ok s.opened
  cached : ∀ key entry, s.cache.inner key = some entry →
    ∃ c id, key = cacheKey c id ∧ '\x00' ∉ c.toList ∧ s.Held c id entry ∧
      ∀ i p, HasSettled s.writes i → s.Wrote i p c id → p < entry.readAt
  reading : ∀ g ∈ s.gets, ∀ entry, g.phase = .read entry → s.Held g.collection g.id entry ∧
    ∀ i p, HasResponded g.before i → s.Wrote i p g.collection g.id → p < entry.readAt
  answers : NeverBack s
  before : ∀ g ∈ s.gets, ∀ i, HasResponded g.before i → HasResponded s.writes i

theorem start_coherent {opened : RocksDbStorage} {options : StorageOptions}
    (hnew : RocksDbStorage.new none options = .ok opened) : Coherent (start opened) := by
  refine ⟨⟨options, hnew⟩, ?_, ?_, ?_, ?_⟩
  · intro key entry hentry
    cases hentry
  · simp [start]
  · intro g hg
    cases hg
  · simp [start]

variable {s : CachedNode}

theorem valueAt_eq_some {options : StorageOptions} (hnew : RocksDbStorage.new none options = .ok s.opened)
    {t : Nat} {c : String} {id : DocumentId} {doc : Document} (h : s.valueAt t c id = some doc) :
    doc.id = id ∧ '\x00' ∉ c.toList := by
  have hwf := wellFormed_of_new hnew
  have hget : StorageBackend.getFromCollection (s.storageAt t) c id = .ok doc := by
    rw [valueAt] at h
    cases hget : StorageBackend.getFromCollection (s.storageAt t) c id with
    | error e => simp [hget, Except.toOption] at h
    | ok found => simpa [hget, Except.toOption] using h
  obtain ⟨hid, hslot⟩ := getFromCollection_ok (hwf.execAll _) hget
  exact ⟨hid, fun hc => hslot (slot_execAll_nul hwf hc (slot_collection_of_new hnew c) _)⟩

/-- A further call does not change the past. -/
theorem valueAt_append (s : CachedNode) (x : LoggedCall) (queue : List LoggedCall) {t : Nat}
    (ht : t ≤ s.applied.length) (c : String) (id : DocumentId) :
    { s with applied := s.applied ++ [x], queue := queue }.valueAt t c id = s.valueAt t c id := by
  simp only [valueAt, storageAt, List.take_append_of_le_length ht]

/-- A version that the document had after the calls of all the writes that count. -/
theorem notBefore_of_valueAt {g : HandledGet} {v : Option Document} {t : Nat} (ht : t ≤ s.applied.length)
    (hv : s.valueAt t g.collection g.id = v)
    (hcurrent : ∀ i p, HasResponded g.before i → s.Wrote i p g.collection g.id → p < t) :
    s.NotBefore g v :=
  fun i p hi hp _ => ⟨t, hcurrent i p hi hp, ht, hv⟩

/-- What the cache finds for a collection that can exist is an entry of the document. -/
theorem Coherent.get (h : Coherent s) {c : String} {id : DocumentId} {entry : CacheEntry}
    (hc : '\x00' ∉ c.toList) (hget : s.cache.get c id = some entry) :
    s.Held c id entry ∧ ∀ i p, HasSettled s.writes i → s.Wrote i p c id → p < entry.readAt := by
  obtain ⟨c', id', hkey, hc', hentry⟩ := h.cached _ entry hget
  obtain ⟨rfl, rfl⟩ := cacheKey_inj hc hc' hkey
  exact hentry

theorem Coherent.enqueue (h : Coherent s) (origin : Option Nat) (cmd : RaftCommand) :
    Coherent (s.enqueue origin cmd) :=
  ⟨h.opened, h.cached, h.reading, h.answers, h.before⟩

theorem Coherent.updateRegistry (h : Coherent s) (collections : String → Option FieldMapping) :
    Coherent { s with collections := collections } :=
  ⟨h.opened, h.cached, h.reading, h.answers, h.before⟩

theorem Coherent.evict (h : Coherent s) (key : String) :
    Coherent { s with cache := s.cache.evict key } := by
  refine ⟨h.opened, fun key' entry hentry => ?_, h.reading, h.answers, h.before⟩
  by_cases hkey : key' = key
  · subst hkey
    simp [DocumentCache.evict] at hentry
  · simp only [DocumentCache.evict, Function.update_of_ne hkey] at hentry
    exact h.cached key' entry hentry

/-- A handler moves on. If it is settled by that, the entries of the documents that it
has touched have been read after its calls. -/
theorem Coherent.setWrite (h : Coherent s) {i : Nat} {w w' : HandledWrite} (hw : s.writes[i]? = some w)
    (hphase : w.phase ≠ .responded)
    (hsettle : w'.phase.IsSettled → ∀ c id entry, '\x00' ∉ c.toList → s.cache.get c id = some entry →
      ∀ p, s.Wrote i p c id → p < entry.readAt) : Coherent (s.setWrite i w') where
  opened := h.opened
  cached key entry hentry := by
    obtain ⟨c, id, hkey, hc, hheld, hcurrent⟩ := h.cached key entry hentry
    refine ⟨c, id, hkey, hc, hheld, fun k p hk hp => ?_⟩
    obtain ⟨v, hv, hsettled⟩ := hk
    simp only [CachedNode.setWrite, getElem?_set_of_some hw] at hv
    split at hv
    · next hik =>
        subst hik
        cases hv
        subst hkey
        exact hsettle hsettled c id entry hc hentry p hp
    · exact hcurrent k p ⟨v, hv, hsettled⟩ hp
  reading := h.reading
  answers := h.answers
  before g hg k hk := by
    obtain ⟨v, hv, hresponded⟩ := h.before g hg k hk
    refine ⟨v, ?_, hresponded⟩
    simp only [CachedNode.setWrite, getElem?_set_of_some hw]
    rw [if_neg, hv]
    rintro rfl
    rw [hw] at hv
    cases hv
    exact hphase hresponded

/-- A read moves on. -/
theorem Coherent.setGet (h : Coherent s) {j : Nat} {g : HandledGet} {phase : GetPhase}
    (hg : s.gets[j]? = some g)
    (hread : ∀ entry, phase = .read entry → s.Held g.collection g.id entry ∧
      ∀ i p, HasResponded g.before i → s.Wrote i p g.collection g.id → p < entry.readAt)
    (hanswer : ∀ response v, phase = .responded response → response.value = some v → s.NotBefore g v) :
    Coherent (s.setGet j { g with phase := phase }) where
  opened := h.opened
  cached := h.cached
  reading g' hg' entry hphase := by
    rcases List.mem_or_eq_of_mem_set hg' with hold | rfl
    · exact h.reading g' hold entry hphase
    · exact hread entry hphase
  answers g' hg' response v hphase hv := by
    rcases List.mem_or_eq_of_mem_set hg' with hold | rfl
    · exact h.answers g' hold response v hphase hv
    · exact hanswer response v hphase hv
  before g' hg' i hi := by
    rcases List.mem_or_eq_of_mem_set hg' with hold | rfl
    · exact h.before g' hold i hi
    · exact h.before g (List.mem_of_getElem? hg) i hi

theorem Coherent.apply [BulkInput] (h : Coherent s) (ht : Traced s) {x : LoggedCall}
    {queue : List LoggedCall} (hqueue : s.queue = x :: queue) :
    Coherent { s with applied := s.applied ++ [x], queue := queue } where
  opened := h.opened
  cached key entry hentry := by
    obtain ⟨c, id, hkey, hc, ⟨hle, hvalue⟩, hcurrent⟩ := h.cached key entry hentry
    refine ⟨c, id, hkey, hc, ⟨?_, ?_⟩, fun i p hi hp => hcurrent i p hi (ht.wrote_of_apply hqueue hi hp)⟩
    · simpa using Nat.le_succ_of_le hle
    · rw [valueAt_append s x queue hle, hvalue]
  reading g hg entry hphase := by
    obtain ⟨⟨hle, hvalue⟩, hcurrent⟩ := h.reading g hg entry hphase
    refine ⟨⟨?_, ?_⟩, fun i p hi hp => ?_⟩
    · simpa using Nat.le_succ_of_le hle
    · rw [valueAt_append s x queue hle, hvalue]
    · exact hcurrent i p hi (ht.wrote_of_apply hqueue (h.before g hg i hi).hasSettled hp)
  answers g hg response v hphase hv i p hi hp := by
    rintro ⟨t, htp, hvalue⟩
    have hwrote := ht.wrote_of_apply hqueue (h.before g hg i hi).hasSettled hp
    have hlt := hwrote.lt
    rw [valueAt_append s x queue (by omega)] at hvalue
    obtain ⟨t', hpt, hle, hvalue'⟩ := h.answers g hg response v hphase hv i p hi hwrote ⟨t, htp, hvalue⟩
    refine ⟨t', hpt, ?_, ?_⟩
    · simpa using Nat.le_succ_of_le hle
    · rw [valueAt_append s x queue hle, hvalue']
  before := h.before

/-! ## Steps of the handlers -/

section Steps

variable [BulkInput]

/-- The invariant. -/
structure Sound (s : CachedNode) : Prop where
  traced : Traced s
  coherent : Coherent s

/-- A handler moves on without settling. -/
theorem Sound.setWrite (h : Sound s) {i : Nat} {w w' : HandledWrite} (hw : s.writes[i]? = some w)
    (hphase : w.phase ≠ .responded) (hrequest : w'.request = w.request)
    (htodo : ∀ todo, w'.phase = .running todo ∨ w'.phase = .waiting todo →
      todo ⊆ w'.request.commands)
    (hqueue : ∀ x ∈ s.queue, x.origin ≠ some i) (hsettled : ¬ w'.phase.IsSettled) :
    Sound (s.setWrite i w') :=
  ⟨h.traced.setWrite hw hrequest htodo hqueue,
    h.coherent.setWrite hw hphase fun hsettled' => absurd hsettled' hsettled⟩

theorem Sound.check (h : Sound s) {i : Nat} {w : HandledWrite} (hw : s.writes[i]? = some w) :
    Sound (s.writeStep i w (.check i)) := by
  unfold writeStep
  dsimp only
  split
  · next hphase =>
      have hqueue := h.traced.not_queued hw (fun todo => by rw [hphase]; nofun)
      refine h.setWrite hw (by rw [hphase]; nofun) rfl (fun todo htodo => ?_) hqueue ?_
      · rcases w.request.check_cases s.collections with hcheck | hcheck | ⟨e, hcheck⟩
        · simp [hcheck] at htodo
        · simp only [hcheck, WritePhase.running.injEq, reduceCtorEq, or_false] at htodo
          rw [htodo]
          exact List.Subset.refl _
        · simp [hcheck] at htodo
      · rcases w.request.check_cases s.collections with hcheck | hcheck | ⟨e, hcheck⟩
        · rw [hcheck]
          exact not_false
        · rw [hcheck]
          exact not_false
        · rw [hcheck]
          exact not_false
  · exact h

theorem Sound.validate (h : Sound s) {i : Nat} {w : HandledWrite} (hw : s.writes[i]? = some w) :
    Sound (s.writeStep i w (.validate i)) := by
  unfold writeStep
  dsimp only
  split
  · next hphase _ =>
      have hqueue := h.traced.not_queued hw (fun todo => by rw [hphase]; nofun)
      split
      · refine h.setWrite hw (by rw [hphase]; nofun) rfl (fun todo htodo => ?_) hqueue not_false
        simp only [WritePhase.running.injEq, reduceCtorEq, or_false] at htodo
        rw [← htodo]
        exact List.Subset.refl _
      · exact h.setWrite hw (by rw [hphase]; nofun) rfl (fun todo htodo => by simp at htodo) hqueue
          not_false
  · exact h

theorem Sound.propose (h : Sound s) {i : Nat} {w : HandledWrite} (hw : s.writes[i]? = some w)
    (outcome : ProposalOutcome) : Sound (s.writeStep i w (.propose i outcome)) := by
  unfold writeStep
  dsimp only
  split
  · next cmd todo hphase =>
      have hqueue := h.traced.not_queued hw (fun todo => by rw [hphase]; nofun)
      have hsub := h.traced.todo w (List.mem_of_getElem? hw) _ (Or.inl hphase)
      have hset : Sound (s.setWrite i { w with phase := .waiting todo }) := by
        refine h.setWrite hw (by rw [hphase]; nofun) rfl (fun todo' htodo => ?_) hqueue not_false
        simp only [WritePhase.waiting.injEq, reduceCtorEq, false_or] at htodo
        rw [← htodo]
        exact List.subset_of_cons_subset hsub
      refine ⟨hset.traced.enqueue fun k hk => ?_, hset.coherent.enqueue _ _⟩
      obtain rfl := Option.some.inj hk
      refine ⟨{ w with phase := .waiting todo }, todo, ?_, rfl, hsub List.mem_cons_self⟩
      simp only [CachedNode.setWrite, getElem?_set_of_some hw, if_true]
  · next cmd todo e appended hphase =>
      have hqueue := h.traced.not_queued hw (fun todo => by rw [hphase]; nofun)
      have hsub := h.traced.todo w (List.mem_of_getElem? hw) _ (Or.inl hphase)
      have hset : Sound (s.setWrite i { w with phase := w.request.afterFailure todo e }) := by
        -- a bulk request goes on with the commands that are left
        have hafter : w.request.afterFailure todo e = .running todo ∨
            w.request.afterFailure todo e = .failed e := by
          cases w.request <;> simp [WriteRequest.afterFailure]
        rcases hafter with hafter | hafter
        · refine h.setWrite hw (by rw [hphase]; nofun) rfl (fun todo' htodo => ?_) hqueue
            (by rw [hafter]; exact not_false)
          simp only [hafter, WritePhase.running.injEq, reduceCtorEq, or_false] at htodo
          rw [← htodo]
          exact List.subset_of_cons_subset hsub
        · exact h.setWrite hw (by rw [hphase]; nofun) rfl (fun todo' htodo => by simp [hafter] at htodo)
            hqueue (by rw [hafter]; exact not_false)
      split
      · exact ⟨hset.traced.enqueue nofun, hset.coherent.enqueue _ _⟩
      · exact hset
  · exact h

theorem Sound.answer (h : Sound s) {i : Nat} {w : HandledWrite} (hw : s.writes[i]? = some w)
    (hqueue : ∀ x ∈ s.queue, x.origin ≠ some i) : Sound (s.writeStep i w (.answer i)) := by
  unfold writeStep
  dsimp only
  split
  · next todo hphase =>
      have hsub := h.traced.todo w (List.mem_of_getElem? hw) _ (Or.inr hphase)
      refine h.setWrite hw (by rw [hphase]; nofun) rfl (fun todo' htodo => ?_) hqueue not_false
      simp only [WritePhase.running.injEq, reduceCtorEq, or_false] at htodo
      rw [← htodo]
      exact hsub
  · exact h

/-- After the invalidation nothing is cached of what the write has touched. -/
theorem Sound.invalidate (h : Sound s) {i : Nat} {w : HandledWrite} (hw : s.writes[i]? = some w) :
    Sound (s.writeStep i w (.invalidate i)) := by
  unfold writeStep
  dsimp only
  split
  · next id₀ hphase hinvalidates =>
      have hqueue := h.traced.not_queued hw (fun todo => by rw [hphase]; nofun)
      have htraced : Traced (s.setWrite i { w with phase := .invalidated }) :=
        h.traced.setWrite hw rfl (fun todo htodo => by simp at htodo) hqueue
      refine ⟨⟨htraced.origin, htraced.todo, htraced.queued⟩, ?_⟩
      refine (h.coherent.evict (cacheKey w.request.collection id₀)).setWrite hw
        (by rw [hphase]; nofun) fun _ c id entry _ hentry p hp => ?_
      obtain ⟨rfl, rfl⟩ := h.traced.wrote_of_invalidates hw hinvalidates hp
      simp [DocumentCache.get, DocumentCache.evict] at hentry
  · exact h

theorem Sound.respond (h : Sound s) {i : Nat} {w : HandledWrite} (hw : s.writes[i]? = some w)
    (hkeeps : s.KeepsCurrent (.respond i)) : Sound (s.writeStep i w (.respond i)) := by
  unfold writeStep
  dsimp only
  split
  · next hfinished =>
      have hnot : (∀ todo, w.phase ≠ .waiting todo) ∧ w.phase ≠ .responded := by
        refine ⟨fun todo hphase => ?_, fun hphase => ?_⟩
        · simp [hphase, WriteRequest.Finished] at hfinished
        · simp [hphase, WriteRequest.Finished] at hfinished
      have hqueue := h.traced.not_queued hw hnot.1
      have htraced : Traced (s.setWrite i { w with phase := .responded }) :=
        h.traced.setWrite hw rfl (fun todo htodo => by simp at htodo) hqueue
      have hcoherent : Coherent (s.setWrite i { w with phase := .responded }) := by
        refine h.coherent.setWrite hw hnot.2 fun _ c id entry hc hentry p hp => ?_
        cases hinvalidates : w.request.invalidates with
        | none => exact hkeeps w hw hinvalidates hfinished c id entry hc hentry p hp
        | some id₀ =>
            -- such a request has been settled by its invalidation
            have hsettled : w.phase.IsSettled := by
              revert hfinished
              cases w.phase with
              | invalidated => exact fun _ => trivial
              | running todo => cases todo <;> simp [WriteRequest.Finished, hinvalidates]
              | _ => simp [WriteRequest.Finished]
            exact (h.coherent.get hc hentry).2 i p ⟨w, hw, hsettled⟩ hp
      exact ⟨⟨htraced.origin, htraced.todo, htraced.queued⟩, hcoherent.updateRegistry _⟩
  · exact h

/-- A read moves on. -/
theorem Sound.setGet (h : Sound s) {j : Nat} {g : HandledGet} {phase : GetPhase}
    (hg : s.gets[j]? = some g)
    (hread : ∀ entry, phase = .read entry → s.Held g.collection g.id entry ∧
      ∀ i p, HasResponded g.before i → s.Wrote i p g.collection g.id → p < entry.readAt)
    (hanswer : ∀ response v, phase = .responded response → response.value = some v → s.NotBefore g v) :
    Sound (s.setGet j { g with phase := phase }) :=
  ⟨⟨h.traced.origin, h.traced.todo, h.traced.queued⟩, h.coherent.setGet hg hread hanswer⟩

theorem Sound.checkCollection (h : Sound s) {j : Nat} {g : HandledGet} (hg : s.gets[j]? = some g)
    (hkeeps : s.KeepsCurrent (.checkCollection j)) : Sound (s.getStep j g (.checkCollection j)) := by
  unfold getStep
  dsimp only
  split
  · exact h.setGet hg nofun fun response v hresponse => by cases hresponse
  · next hphase hcollection =>
      refine h.setGet hg nofun fun response v hresponse hv i p hi hp _ => ?_
      cases hresponse
      cases hv
      exact ⟨s.applied.length, hp.lt, Nat.le_refl _, hkeeps g hg hphase hcollection ⟨i, p, hi, hp⟩⟩
  · exact h

theorem Sound.tokenFails (h : Sound s) {j : Nat} {g : HandledGet} (hg : s.gets[j]? = some g)
    (e : DbError) : Sound (s.getStep j g (.tokenFails j e)) := by
  unfold getStep
  dsimp only
  split
  · refine h.setGet hg nofun fun response v hresponse hv => ?_
    cases hresponse
    cases hv
  · exact h

/-- A hit answers with an entry that is current, or for a collection that never existed. -/
theorem Sound.lookUp (h : Sound s) {j : Nat} {g : HandledGet} (hg : s.gets[j]? = some g) :
    Sound (s.getStep j g (.lookUp j)) := by
  unfold getStep
  dsimp only
  split
  · next entry _ hget =>
      refine h.setGet hg nofun fun response v hresponse hv => ?_
      cases hresponse
      cases hv
      by_cases hc : '\x00' ∈ g.collection.toList
      · obtain ⟨options, hnew⟩ := h.coherent.opened
        rintro i p _ _ ⟨t, _, hvalue⟩
        exact absurd hc (valueAt_eq_some hnew hvalue).2
      · obtain ⟨⟨hle, hvalue⟩, hcurrent⟩ := h.coherent.get hc hget
        refine notBefore_of_valueAt hle hvalue fun i p hi hp => hcurrent i p ?_ hp
        exact (h.coherent.before g (List.mem_of_getElem? hg) i hi).hasSettled
  · exact h.setGet hg nofun fun response v hresponse => by cases hresponse
  · exact h

/-- The storage answers with what it holds now. -/
theorem Sound.readStorage (h : Sound s) {j : Nat} {g : HandledGet} (hg : s.gets[j]? = some g) :
    Sound (s.getStep j g (.readStorage j)) := by
  have hnow : s.valueAt s.applied.length g.collection g.id =
      (StorageBackend.getFromCollection s.storage g.collection g.id).toOption := rfl
  unfold getStep
  dsimp only
  split
  · next doc _ hget =>
      rw [hget] at hnow
      refine h.setGet hg (fun entry hentry => ?_) fun response v hresponse => by cases hresponse
      cases hentry
      exact ⟨⟨Nat.le_refl _, hnow⟩, fun i p _ hp => hp.lt⟩
  · next hget =>
      rw [hget] at hnow
      refine h.setGet hg nofun fun response v hresponse hv => ?_
      cases hresponse
      cases hv
      exact notBefore_of_valueAt (Nat.le_refl _) hnow fun i p _ hp => hp.lt
  · refine h.setGet hg nofun fun response v hresponse hv => ?_
    cases hresponse
    cases hv
  · exact h

/-- A read that fills the cache has read a document of a collection that exists. -/
theorem Sound.fill (h : Sound s) {j : Nat} {g : HandledGet} (hg : s.gets[j]? = some g)
    (hkeeps : s.KeepsCurrent (.fill j)) : Sound (s.getStep j g (.fill j)) := by
  unfold getStep
  dsimp only
  split
  · next entry hphase =>
      obtain ⟨options, hnew⟩ := h.coherent.opened
      obtain ⟨hheld, hcurrent⟩ := h.coherent.reading g (List.mem_of_getElem? hg) entry hphase
      obtain ⟨hid, hc⟩ := valueAt_eq_some hnew hheld.2
      have hset : Sound (s.setGet j { g with phase := .responded (.found entry.doc) }) := by
        refine h.setGet hg nofun fun response v hresponse hv => ?_
        cases hresponse
        cases hv
        exact notBefore_of_valueAt hheld.1 hheld.2 hcurrent
      refine ⟨⟨hset.traced.origin, hset.traced.todo, hset.traced.queued⟩, hset.coherent.opened,
        fun key entry' hentry => ?_, hset.coherent.reading, hset.coherent.answers,
        hset.coherent.before⟩
      by_cases hkey : key = cacheKey g.collection entry.doc.id
      · simp only [DocumentCache.put, hkey, Function.update_self, Option.some.injEq] at hentry
        subst hentry
        exact ⟨g.collection, g.id, by rw [hkey, hid], hc, hheld, hkeeps g entry hg hphase⟩
      · simp only [DocumentCache.put, Function.update_of_ne hkey] at hentry
        exact h.coherent.cached key entry' hentry
  · exact h

/-! ## Runs -/

theorem Sound.receiveWrite (h : Sound s) (request : WriteRequest) :
    Sound { s with writes := s.writes ++ [⟨request, FieldMapping.new, .received⟩] } := by
  have hold : ∀ {i : Nat} {w}, s.writes[i]? = some w →
      (s.writes ++ [⟨request, FieldMapping.new, .received⟩])[i]? = some w := by
    intro i w hw
    rw [List.getElem?_append_left (List.getElem?_eq_some_iff.1 hw).1, hw]
  have hsettled : ∀ i, HasSettled (s.writes ++ [⟨request, FieldMapping.new, .received⟩]) i →
      HasSettled s.writes i := by
    rintro i ⟨w, hw, hphase⟩
    by_cases hi : i < s.writes.length
    · rw [List.getElem?_append_left hi] at hw
      exact ⟨w, hw, hphase⟩
    · rw [List.getElem?_append_right (Nat.not_lt.1 hi)] at hw
      rw [List.mem_singleton.1 (List.mem_of_getElem? hw)] at hphase
      cases hphase
  refine ⟨⟨fun x hx i hi => ?_, fun w hw todo hphase => ?_, fun x hx i hi => ?_⟩,
    h.coherent.opened, fun key entry hentry => ?_, h.coherent.reading, h.coherent.answers,
    fun g hg i hi => ?_⟩
  · obtain ⟨w, cmd, hw, hcmd⟩ := h.traced.origin x hx i hi
    exact ⟨w, cmd, hold hw, hcmd⟩
  · rcases List.mem_append.1 hw with hw | hw
    · exact h.traced.todo w hw todo hphase
    · rw [List.mem_singleton.1 hw] at hphase
      simp at hphase
  · obtain ⟨w, todo, hw, hphase⟩ := h.traced.queued x hx i hi
    exact ⟨w, todo, hold hw, hphase⟩
  · obtain ⟨c, id, hkey, hc, hheld, hcurrent⟩ := h.coherent.cached key entry hentry
    exact ⟨c, id, hkey, hc, hheld, fun i p hi hp => hcurrent i p (hsettled i hi) hp⟩
  · obtain ⟨w, hw, hphase⟩ := h.coherent.before g hg i hi
    exact ⟨w, hold hw, hphase⟩

theorem Sound.receiveGet (h : Sound s) (collection : String) (id : DocumentId) :
    Sound { s with gets := s.gets ++ [⟨collection, id, s.writes, .received⟩] } := by
  refine ⟨⟨h.traced.origin, h.traced.todo, h.traced.queued⟩, h.coherent.opened, h.coherent.cached,
    fun g hg entry hphase => ?_, fun g hg response v hphase => ?_, fun g hg i hi => ?_⟩
  · rcases List.mem_append.1 hg with hg | hg
    · exact h.coherent.reading g hg entry hphase
    · rw [List.mem_singleton.1 hg] at hphase
      cases hphase
  · rcases List.mem_append.1 hg with hg | hg
    · exact h.coherent.answers g hg response v hphase
    · rw [List.mem_singleton.1 hg] at hphase
      cases hphase
  · rcases List.mem_append.1 hg with hg | hg
    · exact h.coherent.before g hg i hi
    · rw [List.mem_singleton.1 hg] at hi
      exact hi

/-- A step of a handler of a write; there may be no such write. -/
theorem Sound.ofWrite (h : Sound s) {i : Nat} {a : CacheStep}
    (hstep : ∀ w, s.writes[i]? = some w → Sound (s.writeStep i w a)) :
    Sound (match s.writes[i]? with
      | some w => s.writeStep i w a
      | none => s) := by
  split
  next w hw => exact hstep w hw
  · exact h

/-- A step of a handler of a read; there may be no such read. -/
theorem Sound.ofGet (h : Sound s) {j : Nat} {a : CacheStep}
    (hstep : ∀ g, s.gets[j]? = some g → Sound (s.getStep j g a)) :
    Sound (match s.gets[j]? with
      | some g => s.getStep j g a
      | none => s) := by
  split
  next g hg => exact hstep g hg
  · exact h

/-- **One step.** -/
theorem Sound.step (h : Sound s) {a : CacheStep} (hkeeps : s.KeepsCurrent a) : Sound (s.step a) := by
  cases a with
  | receiveWrite request => exact h.receiveWrite request
  | receiveGet collection id => exact h.receiveGet collection id
  | replicate cmd => exact ⟨h.traced.enqueue nofun, h.coherent.enqueue _ _⟩
  | apply =>
      simp only [CachedNode.step]
      split
      · exact h
      · next x queue hqueue => exact ⟨h.traced.apply hqueue, h.coherent.apply h.traced hqueue⟩
  | evict key =>
      exact ⟨⟨h.traced.origin, h.traced.todo, h.traced.queued⟩, h.coherent.evict key⟩
  | check i => exact h.ofWrite fun w hw => h.check hw
  | validate i => exact h.ofWrite fun w hw => h.validate hw
  | propose i outcome => exact h.ofWrite fun w hw => h.propose hw outcome
  | answer i => exact h.ofWrite fun w hw => h.answer hw hkeeps
  | invalidate i => exact h.ofWrite fun w hw => h.invalidate hw
  | respond i => exact h.ofWrite fun w hw => h.respond hw hkeeps
  | checkCollection j => exact h.ofGet fun g hg => h.checkCollection hg hkeeps
  | tokenFails j e => exact h.ofGet fun g hg => h.tokenFails hg e
  | lookUp j => exact h.ofGet fun g hg => h.lookUp hg
  | readStorage j => exact h.ofGet fun g hg => h.readStorage hg
  | fill j => exact h.ofGet fun g hg => h.fill hg hkeeps

/-- **Never back.** In every run whose steps keep the cache current, and in each of its
states, no read has answered with what a document was before a write that had responded
when the read began. -/
theorem neverBack_of_along {opened : RocksDbStorage} {options : StorageOptions}
    (hnew : RocksDbStorage.new none options = .ok opened) {steps : List CacheStep}
    (halong : Along step KeepsCurrent (start opened) steps) :
    ∀ pre, pre <+: steps → NeverBack ((start opened).run pre) := by
  intro pre hpre
  have hstart : Sound (start opened) := ⟨start_traced opened, start_coherent hnew⟩
  exact ((halong.of_prefix hpre).invariant (fun _ _ h ha => h.step ha) hstart).coherent.answers

end Steps

theorem answer_of_queue_nil (h : s.queue = []) (i : Nat) :
    s.KeepsCurrent (.answer i) := by
  intro x hx
  rw [h] at hx
  cases hx

theorem respond_of_invalidates {i : Nat}
    (h : (s.writes[i]?.map fun w => w.request.invalidates.isSome) = some true) :
    s.KeepsCurrent (.respond i) := by
  intro w hw hnone
  rw [hw, Option.map_some, hnone] at h
  cases h

theorem checkCollection_of_registered {j : Nat}
    (h : (s.gets[j]?.map fun g => (s.collections g.collection).isSome) = some true) :
    s.KeepsCurrent (.checkCollection j) := by
  intro g hg _ hnone
  rw [hg, Option.map_some, hnone] at h
  cases h

end Current

/-! ## A document that is read and deleted -/

/-- A document is stored, and a read of it fills the cache. -/
def cachedRead : List CacheStep :=
  [.receiveWrite (.createCollection "c" SchemaConfig.new), .check 0, .propose 0 .ok, .apply,
    .answer 0, .respond 0, .receiveWrite (.upsert "c" ⟨"d"⟩ ∅), .check 1, .propose 1 .ok, .apply,
    .answer 1, .invalidate 1, .respond 1, .receiveGet "c" ⟨"d"⟩, .checkCollection 0, .lookUp 0,
    .readStorage 0, .fill 0]

/-- The document is deleted and read again. -/
def deleteAndRead : List CacheStep :=
  [.receiveWrite (.delete "c" ⟨"d"⟩), .check 2, .propose 2 .ok, .apply, .answer 2, .invalidate 2,
    .respond 2, .receiveGet "c" ⟨"d"⟩, .checkCollection 1, .lookUp 1, .readStorage 1]

/-- A bulk request deletes the document, which is then read again. -/
def bulkDeleteAndRead : List CacheStep :=
  [.receiveWrite (.bulk "c" "\x7b\"delete\":\x7b\"_id\":\"d\"\x7d\x7d\n"), .check 2, .propose 2 .ok,
    .apply, .answer 2, .respond 2, .receiveGet "c" ⟨"d"⟩, .checkCollection 1, .lookUp 1]

/-- A node over a new store. -/
def freshNode : CachedNode := start freshMachine.storage

theorem along_cachedRead : Along step KeepsCurrent freshNode cachedRead := by
  refine ⟨trivial, trivial, trivial, trivial, answer_of_queue_nil (by decide) 0, ?_, trivial,
    trivial, trivial, trivial, answer_of_queue_nil (by decide) 1, trivial,
    respond_of_invalidates (by decide), trivial,
    checkCollection_of_registered (by decide), trivial, trivial, ?_, trivial⟩
  · -- nothing has been cached yet
    intro w _ _ _ c id entry _ hentry
    cases hentry
  · -- nothing has been called since the read
    intro g entry hg hphase i p _ hp
    have hread : ((freshNode.run (cachedRead.take 17)).gets[0]?.map HandledGet.phase) =
        some (.read ⟨Document.new ⟨"d"⟩, 2⟩) := by decide
    have hget : (freshNode.run (cachedRead.take 17)).gets[0]? = some g := hg
    rw [hget, Option.map_some, hphase] at hread
    cases hread
    exact hp.lt

/-- The second read does not find the document. -/
theorem neverBack_deleteAndRead :
    Along step KeepsCurrent freshNode (cachedRead ++ deleteAndRead) ∧
      NeverBack (freshNode.run (cachedRead ++ deleteAndRead)) := by
  have halong : Along step KeepsCurrent freshNode (cachedRead ++ deleteAndRead) := by
    refine (along_append _ _ _).2 ⟨along_cachedRead, trivial, trivial, trivial, trivial,
      answer_of_queue_nil (by decide) 2, trivial, respond_of_invalidates (by decide),
      trivial, checkCollection_of_registered (by decide), trivial, trivial, trivial⟩
  exact ⟨halong, neverBack_of_along new_freshMachine halong _ (List.prefix_refl _)⟩

/-- After a bulk request has deleted it, the document is still found in the cache. -/
theorem not_neverBack :
    RocksDbStorage.new none {} = .ok freshMachine.storage ∧
      ¬ NeverBack ((start freshMachine.storage).run (cachedRead ++ bulkDeleteAndRead)) := by
  refine ⟨new_freshMachine, fun hnever => ?_⟩
  have hphase : ((freshNode.run (cachedRead ++ bulkDeleteAndRead)).gets[1]?.map HandledGet.phase) =
      some (.responded (.found (Document.new ⟨"d"⟩))) := by decide
  have hbefore : ((freshNode.run (cachedRead ++ bulkDeleteAndRead)).gets[1]?.map fun g =>
      (g.collection, g.id, g.before[2]?.map HandledWrite.phase)) =
        some ("c", ⟨"d"⟩, some .responded) := by decide
  obtain ⟨g, hg, hresponded⟩ := Option.map_eq_some_iff.1 hphase
  rw [hg, Option.map_some, Option.some.injEq, Prod.mk.injEq, Prod.mk.injEq] at hbefore
  obtain ⟨hcollection, hid, hwrite⟩ := hbefore
  obtain ⟨w, hw, hwphase⟩ := Option.map_eq_some_iff.1 hwrite
  -- the read was answered with the document as it was before the third call
  have hnot := hnever g (List.mem_of_getElem? hg) _ _ hresponded rfl 2 2 ⟨w, hw, hwphase⟩
  rw [hcollection, hid] at hnot
  have hwrote : (freshNode.run (cachedRead ++ bulkDeleteAndRead)).Wrote 2 2 "c" ⟨"d"⟩ :=
    ⟨.deleteFromCollection "c" ⟨"d"⟩, by decide, rfl, rfl⟩
  have hold : (freshNode.run (cachedRead ++ bulkDeleteAndRead)).valueAt 2 "c" ⟨"d"⟩ =
      some (Document.new ⟨"d"⟩) := by decide
  obtain ⟨t, hlt, hle, hvalue⟩ := hnot hwrote ⟨2, Nat.le_refl 2, hold⟩
  have hlength : (freshNode.run (cachedRead ++ bulkDeleteAndRead)).applied.length = 3 := by
    decide
  have ht : t = 3 := Nat.le_antisymm (hlength ▸ hle) hlt
  have hgone : (freshNode.run (cachedRead ++ bulkDeleteAndRead)).valueAt 3 "c" ⟨"d"⟩ = none := by
    decide
  rw [ht] at hvalue
  exact absurd (hgone.symm.trans hvalue) nofun

end CachedNode

end MSearchDB.Node
