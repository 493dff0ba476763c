import MSearchDB.Storage.Collections
import MSearchDB.Consensus.LogReplay

/-!
# The search index beside the storage

The state machine keeps every document twice, in the storage and in the index of
its collection. Here the index is the plainest one that does what the calls say: a
multiset of documents for each collection, to which `index_document` adds one and
from which `delete_document` removes all with an id, and a copy of it that a search
reads and that a commit renews.

`UpdateDocument` removes the old entry before it adds the new one, but
`InsertDocument` and `BatchInsert` only add. `indexMirrors_iff` says what follows:
however a log is cut into batches, the index has after each of them one entry for
each stored document, if and only if every insertion of the log was for an id that
its collection did not hold.
-/

set_option autoImplicit false

namespace MSearchDB.Consensus

open MSearchDB.Lib
open MSearchDB.Core
open MSearchDB.Storage.RocksDb
open MSearchDB.Storage.RocksDb.RocksDbStorage

/-- The index of a collection: the documents added to it, and those that a search
finds. -/
structure IndexEntries where
  current : Multiset Document
  visible : Multiset Document

/-- Indexes of collections. -/
structure MultisetIndex where
  collections : String → Option IndexEntries

namespace IndexEntries

/-- An index without documents. -/
def empty : IndexEntries := ⟨0, 0⟩

def add (e : IndexEntries) (doc : Document) : IndexEntries := { e with current := doc ::ₘ e.current }

def remove (e : IndexEntries) (id : DocumentId) : IndexEntries :=
  { e with current := e.current.filter fun doc => doc.id ≠ id }

def commit (e : IndexEntries) : IndexEntries := { e with visible := e.current }

end IndexEntries

namespace MultisetIndex

/-- No collection has an index. -/
def new : MultisetIndex := ⟨fun _ => none⟩

/-- Change the index of a collection that has one. -/
def modify (i : MultisetIndex) (c : String) (f : IndexEntries → IndexEntries) :
    DbResult Unit × MultisetIndex :=
  match i.collections c with
  | none => (.error (.notFound ("collection index '" ++ c ++ "' not found")), i)
  | some e => (.ok (), ⟨Function.update i.collections c (some (f e))⟩)

/-- What a search of the collection reads. -/
def visible (i : MultisetIndex) (c : String) : Option (Multiset Document) :=
  (i.collections c).map (·.visible)

/-- Everything in the index of the collection has been committed. -/
def Committed (i : MultisetIndex) (c : String) : Prop :=
  ∀ e, i.collections c = some e → e.visible = e.current

theorem collections_modify (i : MultisetIndex) (c : String) (f : IndexEntries → IndexEntries)
    (d : String) :
    (i.modify c f).2.collections d =
      if d = c then (i.collections d).map f else i.collections d := by
  rw [modify]
  cases hc : i.collections c with
  | none =>
      by_cases hd : d = c
      · subst hd
        simp [hc]
      · simp [hd]
  | some e =>
      by_cases hd : d = c
      · subst hd
        simp [hc]
      · simp [hd]

theorem Committed.modify {i : MultisetIndex} {d : String} (h : i.Committed d) {c : String}
    (hc : c ≠ d) (f : IndexEntries → IndexEntries) : (i.modify c f).2.Committed d := by
  intro e he
  rw [collections_modify, if_neg (Ne.symm hc)] at he
  exact h e he

end MultisetIndex

/-- The collection-scoped methods; the default index is not looked at. -/
instance : IndexBackend MultisetIndex where
  indexDocument i _ := (.ok (), i)
  deleteDocument i _ := (.ok (), i)
  createCollectionIndex i c :=
    match i.collections c with
    | some _ => (.ok (), i)
    | none => (.ok (), ⟨Function.update i.collections c (some .empty)⟩)
  dropCollectionIndex i c := (.ok (), ⟨Function.update i.collections c none⟩)
  indexDocumentInCollection i c doc mapping :=
    let added := i.modify c (·.add doc)
    (added.1.map fun _ => mapping, added.2)
  deleteDocumentFromCollection i c id := i.modify c (·.remove id)
  commitCollectionIndex i c := i.modify c IndexEntries.commit

/-- A collection and its index exist together, and what has been added to the index
mirrors the collection. -/
def Follows : Option (DocumentId → Option Document) → Option IndexEntries → Prop :=
  Option.Rel fun m e => Mirrors Document.id m e.current

theorem Follows.eq_none {slot : Option (DocumentId → Option Document)} {entries : Option IndexEntries}
    (h : Follows slot entries) (hslot : slot = none) : entries = none := by
  cases h with
  | none => rfl
  | some _ => cases hslot

section Mirror

variable [RmpSerde Document]

/-- Every index follows its collection. -/
def Tracks (sm : DbStateMachine RocksDbStorage MultisetIndex) : Prop :=
  ∀ c, Follows (sm.storage.docs c) (sm.index.collections c)

/-- A search finds in every collection one entry for each document that is stored
there, and no others. -/
def IndexMirrors (sm : DbStateMachine RocksDbStorage MultisetIndex) : Prop :=
  ∀ c, Option.Rel (Mirrors Document.id) (sm.storage.docs c) (sm.index.visible c)

/-- The ids that a command inserts are not in its collection, and not twice in the
command. -/
def InsertsFresh (s : RocksDbStorage) : RaftCommand → Prop
  | .insertDocument c document => ∀ m, s.docs c = some m → m document.id = none
  | .batchInsert c documents =>
      ∀ m, s.docs c = some m →
        (∀ doc ∈ documents, m doc.id = none) ∧ (documents.map Document.id).Nodup
  | _ => True

/-- Every insertion of the log is fresh at its place. -/
def AllFresh (s : RocksDbStorage) : List Entry → Prop
  | [] => True
  | entry :: entries =>
      (∀ cmd, entry.payload = .normal cmd → InsertsFresh s cmd) ∧
        AllFresh (StorageCall.execAll s entry.storageCalls) entries

/-- Only one collection has changed. -/
theorem Tracks.iff_of_changed {sm sm' : DbStateMachine RocksDbStorage MultisetIndex} (h : Tracks sm)
    {c : String} {f : Option (DocumentId → Option Document) → Option (DocumentId → Option Document)}
    {g : Option IndexEntries → Option IndexEntries}
    (hdocs : ∀ d, sm'.storage.docs d = if d = c then f (sm.storage.docs d) else sm.storage.docs d)
    (hcollections : ∀ d, sm'.index.collections d =
      if d = c then g (sm.index.collections d) else sm.index.collections d) :
    Tracks sm' ↔ Follows (f (sm.storage.docs c)) (g (sm.index.collections c)) := by
  constructor
  · intro hafter
    have hc := hafter c
    rwa [hdocs, hcollections, if_pos rfl, if_pos rfl] at hc
  · intro hc d
    rw [hdocs, hcollections]
    by_cases hd : d = c
    · subst hd
      rw [if_pos rfl, if_pos rfl]
      exact hc
    · rw [if_neg hd, if_neg hd]
      exact h d

namespace DbStateMachine

variable {sm : DbStateMachine RocksDbStorage MultisetIndex}

/-! ## One command -/

/-- A document that is stored is indexed, and no other. -/
theorem collections_putAndIndex (hwf : WellFormed sm.storage) {doc : Document} (henc : Encodes doc)
    {c : String} (hnone : sm.storage.docs c = none → sm.index.collections c = none) (d : String) :
    (sm.putAndIndex c doc).2.index.collections d =
      if d = c then (sm.index.collections d).map (·.add doc) else sm.index.collections d := by
  have hok := putInCollection_ok_iff hwf henc c
  rw [putAndIndex]
  split
  · next e storage hput =>
      -- without the collection there is no index either
      have hdocs : sm.storage.docs c = none := by
        rw [hput] at hok
        simpa using hok
      by_cases hd : d = c
      · subst hd
        simp [hnone hdocs]
      · simp [hd]
  · exact MultisetIndex.collections_modify _ _ _ _

/-- The loop of `BatchInsert` adds the documents one after the other. -/
theorem collections_foldl_batchStep (c : String) {documents : List Document}
    (henc : ∀ doc ∈ documents, Encodes doc) (d : String) :
    ∀ acc : DbStateMachine RocksDbStorage MultisetIndex × Nat, WellFormed acc.1.storage →
      (acc.1.storage.docs c = none → acc.1.index.collections c = none) →
        (documents.foldl (batchStep c) acc).1.index.collections d =
          if d = c then
            (acc.1.index.collections d).map fun e => { e with current := addAll e.current documents }
          else acc.1.index.collections d := by
  induction documents with
  | nil => intro acc _ _; simp [addAll]
  | cons doc documents ih =>
      intro acc hwf hnone
      have hdoc : Encodes doc := henc doc List.mem_cons_self
      have hcall : EncodesCall (.putInCollection c doc) := hdoc
      have hstorage : (batchStep c acc doc).1.storage =
          StorageCall.exec acc.1.storage (.putInCollection c doc) := by
        rw [batchStep_fst]
        exact (putAndIndex_effect acc.1 c doc).1
      have hcollections := collections_putAndIndex hwf hdoc hnone
      rw [List.foldl_cons, ih (fun doc' hdoc' => henc doc' (List.mem_cons_of_mem _ hdoc'))]
      · rw [batchStep_fst, hcollections]
        by_cases hd : d = c
        · subst hd
          simp [IndexEntries.add, addAll, Function.comp_def]
        · simp [hd]
      · rw [hstorage]
        exact hwf.exec _
      · -- a put creates neither the collection nor its index
        rw [hstorage, docs_exec hwf hcall, batchStep_fst, hcollections]
        intro hdocs
        have hbefore : acc.1.storage.docs c = none := by
          simpa [docOpsOn, SlotOp.run] using hdocs
        simp [hnone hbefore]

/-- **Insertions.** Documents added one after the other keep the index beside the
storage exactly when their ids are new. -/
theorem tracks_foldl_batchStep_iff (hwf : WellFormed sm.storage) (h : Tracks sm) {c : String}
    {documents : List Document} (henc : ∀ doc ∈ documents, Encodes doc) :
    Tracks (documents.foldl (batchStep c) (sm, 0)).1 ↔
      InsertsFresh sm.storage (.batchInsert c documents) := by
  have hdocs := fun d => docs_execAll_puts hwf c henc d
  rw [← (foldl_batchStep_effect c documents (sm, 0)).1] at hdocs
  rw [h.iff_of_changed (c := c) (f := Option.map fun m => putAll Document.id m documents) hdocs
    fun d => collections_foldl_batchStep c henc d (sm, 0) hwf (h c).eq_none]
  simp only [InsertsFresh]
  have hc := h c
  generalize sm.storage.docs c = slot at hc ⊢
  generalize sm.index.collections c = entries at hc ⊢
  cases hc with
  | none =>
      refine ⟨fun _ m hm => ?_, fun _ => .none⟩
      cases hm
  | @some m e hmirrors =>
      have hiff := mirrors_addAll_iff documents hmirrors
      constructor
      · rintro (hafter | _) m' hm'
        cases hm'
        exact hiff.1 hafter
      · exact fun hfresh => .some (hiff.2 (hfresh m rfl))

/-- A command that makes one storage call. -/
theorem tracks_applyCommand_of_call (hwf : WellFormed sm.storage) (h : Tracks sm)
    {cmd : RaftCommand} {call : StorageCall} (hcalls : cmd.storageCalls = [call])
    (henc : EncodesCall call) {c : String} {op : SlotOp DocumentId Document}
    (hops : ∀ d, docOpsOn d call = if c = d then [op] else [])
    {g : Option IndexEntries → Option IndexEntries}
    (hcollections : ∀ d, (sm.applyCommand cmd).2.index.collections d =
      if d = c then g (sm.index.collections d) else sm.index.collections d)
    (hfollows : Follows (SlotOp.run (sm.storage.docs c) op) (g (sm.index.collections c))) :
    Tracks (sm.applyCommand cmd).2 := by
  have hdocs := docs_exec_of_ops hwf henc hops
  have hstorage := (applyCommand_effect sm cmd).1
  rw [hcalls, StorageCall.execAll_cons, StorageCall.execAll_nil] at hstorage
  rw [← hstorage] at hdocs
  exact (h.iff_of_changed (f := fun slot => SlotOp.run slot op) hdocs hcollections).2 hfollows

/-- The old entry leaves the index before the new one enters. -/
theorem tracks_updateDocument (hwf : WellFormed sm.storage) (h : Tracks sm) (c : String)
    {doc : Document} (henc : Encodes doc) : Tracks (sm.applyCommand (.updateDocument c doc)).2 := by
  have hcall : EncodesCall (.putInCollection c doc) := henc
  have hok := putInCollection_ok_iff hwf henc c
  refine tracks_applyCommand_of_call hwf h rfl hcall (fun _ => rfl)
    (g := Option.map fun e => (e.remove doc.id).add doc) (fun d => ?_) ?_
  · simp only [applyCommand]
    split
    · next e storage hput =>
        rw [hput] at hok
        have hnone := (h c).eq_none (by simpa using hok)
        split
        · next hd => rw [hd, hnone]; rfl
        · rfl
    · show ((sm.index.modify c _).2.modify c _).2.collections d = _
      rw [MultisetIndex.collections_modify, MultisetIndex.collections_modify]
      split
      · rw [Option.map_map]; rfl
      · rfl
  · have hc := h c
    generalize sm.storage.docs c = slot at hc ⊢
    generalize sm.index.collections c = entries at hc ⊢
    cases hc with
    | none => exact .none
    | some hmirrors => exact .some (hmirrors.replace doc)

theorem tracks_deleteDocument (hwf : WellFormed sm.storage) (h : Tracks sm) (c : String)
    (id : DocumentId) : Tracks (sm.applyCommand (.deleteDocument c id)).2 := by
  have hcall : EncodesCall (.deleteFromCollection c id) := trivial
  have hok := deleteFromCollection_ok_iff hwf c id
  have hc := h c
  refine tracks_applyCommand_of_call hwf h rfl hcall (fun _ => rfl)
    (g := Option.map fun e => e.remove id) (fun d => ?_) ?_
  · simp only [applyCommand]
    split
    · next e storage hdelete =>
        -- nothing was found, so there is nothing to remove
        rw [hdelete] at hok
        split
        · next hd =>
            subst hd
            generalize sm.storage.docs d = slot at hc hok
            generalize sm.index.collections d = entries at hc ⊢
            cases hc with
            | none => rfl
            | @some m entry hmirrors =>
                have hfree : m id = none := by
                  cases hid : m id with
                  | none => rfl
                  | some doc => cases hok.2 ⟨m, doc, rfl, hid⟩
                rw [Option.map_some, IndexEntries.remove, hmirrors.remove_of_none hfree]
        · rfl
    · exact MultisetIndex.collections_modify _ _ _ _
  · generalize sm.storage.docs c = slot at hc ⊢
    generalize sm.index.collections c = entries at hc ⊢
    cases hc with
    | none => exact .none
    | some hmirrors => exact .some (hmirrors.remove id)

theorem tracks_deleteCollection (hwf : WellFormed sm.storage) (h : Tracks sm) (c : String) :
    Tracks (sm.applyCommand (.deleteCollection c)).2 := by
  have hcall : EncodesCall (.dropCollection c) := trivial
  refine tracks_applyCommand_of_call hwf h rfl hcall (fun _ => rfl) (g := fun _ => none)
    (fun d => ?_) ?_
  · exact Function.update_apply _ _ _ _
  · cases sm.storage.docs c <;> exact .none

/-- A collection and its index are created together, or neither is. -/
theorem tracks_createCollection (hwf : WellFormed sm.storage) (h : Tracks sm) (c : String)
    (schema : SchemaConfig) : Tracks (sm.applyCommand (.createCollection c schema)).2 := by
  have hcall : EncodesCall (.createCollection c) := trivial
  have hok := createCollection_ok_iff (s := sm.storage) c
  have hc := h c
  by_cases hnul : '\x00' ∈ c.toList
  · -- the storage accepts such a name only when it is there, and then nothing changes
    have hdocs : ∀ d, (sm.applyCommand (.createCollection c schema)).2.storage.docs d =
        sm.storage.docs d := by
      intro d
      rw [(applyCommand_effect sm _).1]
      refine (docs_exec hwf hcall d).trans ?_
      simp [docOpsOn, hnul]
    have hcollections : (sm.applyCommand (.createCollection c schema)).2.index = sm.index := by
      simp only [applyCommand]
      split
      · rfl
      · next storage hcreate =>
          rw [hcreate] at hok
          have hsome : (sm.index.collections c).isSome := by
            have hdocs := hok.1 rfl
            generalize sm.storage.docs c = slot at hc hdocs
            generalize sm.index.collections c = entries at hc ⊢
            cases hc with
            | none => simp [hnul] at hdocs
            | some _ => rfl
          obtain ⟨e, he⟩ := Option.isSome_iff_exists.1 hsome
          simp [IndexBackend.createCollectionIndex, he]
    intro d
    rw [hdocs, hcollections]
    exact h d
  · have hops : ∀ d, docOpsOn d (.createCollection c) = if c = d then [.create] else [] := by
      simp [docOpsOn, hnul]
    refine tracks_applyCommand_of_call hwf h rfl hcall hops
      (g := fun entries => some (entries.getD .empty)) (fun d => ?_) ?_
    · simp only [applyCommand]
      split
      · next e storage hcreate =>
          rw [hcreate] at hok
          cases hok.2 (.inr hnul)
      · simp only [IndexBackend.createCollectionIndex]
        cases he : sm.index.collections c with
        | some e =>
            by_cases hd : d = c
            · subst hd
              simp [he]
            · simp [hd]
        | none =>
            by_cases hd : d = c
            · subst hd
              simp [he]
            · simp [hd]
    · generalize sm.storage.docs c = slot at hc ⊢
      generalize sm.index.collections c = entries at hc ⊢
      cases hc with
      | none => exact .some mirrors_empty
      | some hmirrors => exact .some hmirrors

/-- **One command.** The index stays beside the storage exactly when what the
command inserts is new. -/
theorem tracks_applyCommand_iff (hwf : WellFormed sm.storage) (h : Tracks sm) {cmd : RaftCommand}
    (henc : ∀ call ∈ cmd.storageCalls, EncodesCall call) :
    Tracks (sm.applyCommand cmd).2 ↔ InsertsFresh sm.storage cmd := by
  cases cmd with
  | insertDocument c doc =>
      have hdoc : ∀ doc' ∈ [doc], Encodes doc' := by
        intro doc' hdoc'
        rw [List.mem_singleton.1 hdoc']
        exact henc (.putInCollection c doc) (List.mem_singleton_self _)
      have hiff := tracks_foldl_batchStep_iff hwf h (c := c) hdoc
      rw [List.foldl_cons, List.foldl_nil, batchStep_fst] at hiff
      rw [applyCommand_insertDocument_snd, hiff]
      simp [InsertsFresh]
  | batchInsert c documents =>
      have hdocs : ∀ doc ∈ documents, Encodes doc := fun doc hdoc =>
        henc (.putInCollection c doc) (List.mem_map_of_mem hdoc)
      rw [applyCommand_batchInsert_snd]
      exact tracks_foldl_batchStep_iff hwf h hdocs
  | updateDocument c doc =>
      have hdoc : Encodes doc := henc (.putInCollection c doc) (List.mem_singleton_self _)
      exact iff_of_true (tracks_updateDocument hwf h c hdoc) trivial
  | deleteDocument c id => exact iff_of_true (tracks_deleteDocument hwf h c id) trivial
  | createCollection c schema => exact iff_of_true (tracks_createCollection hwf h c schema) trivial
  | deleteCollection c => exact iff_of_true (tracks_deleteCollection hwf h c) trivial
  | createAlias aliasName collections => exact iff_of_true h trivial
  | deleteAlias aliasName => exact iff_of_true h trivial

/-! ## Commits -/

theorem committed_putAndIndex {c d : String} (hc : c ≠ d) (doc : Document)
    (h : sm.index.Committed d) : (sm.putAndIndex c doc).2.index.Committed d := by
  rw [putAndIndex]
  split
  · exact h
  · exact h.modify hc _

/-- What a command leaves uncommitted is in the index that it leaves to commit. -/
theorem committed_applyCommand {cmd : RaftCommand} {d : String} (hd : commitTarget cmd ≠ some d)
    (h : sm.index.Committed d) : (sm.applyCommand cmd).2.index.Committed d := by
  cases cmd with
  | insertDocument c doc =>
      have hc : c ≠ d := fun hc => hd (congrArg some hc)
      rw [applyCommand_insertDocument_snd]
      exact committed_putAndIndex hc doc h
  | deleteDocument c id =>
      have hc : c ≠ d := fun hc => hd (congrArg some hc)
      simp only [applyCommand]
      split
      · exact h
      · exact h.modify hc _
  | updateDocument c doc =>
      have hc : c ≠ d := fun hc => hd (congrArg some hc)
      simp only [applyCommand]
      split
      · exact h
      · exact (h.modify hc _).modify hc _
  | createCollection c schema =>
      simp only [applyCommand, IndexBackend.createCollectionIndex]
      split
      · exact h
      · cases sm.index.collections c with
        | some e => exact h
        | none =>
            -- a new index has nothing to commit
            intro e he
            by_cases hc : d = c
            · subst hc
              simp only [Function.update_self, Option.some.injEq] at he
              rw [← he]
              rfl
            · simp only [Function.update_of_ne hc] at he
              exact h e he
  | deleteCollection c =>
      intro e he
      by_cases hc : d = c
      · subst hc
        simp [applyCommand, IndexBackend.dropCollectionIndex] at he
      · simp only [applyCommand, IndexBackend.dropCollectionIndex, Function.update_of_ne hc] at he
        exact h e he
  | batchInsert c documents =>
      have hc : c ≠ d := fun hc => hd (congrArg some hc)
      -- no document of the batch goes to the collection `d`
      have hloop : ∀ acc : DbStateMachine RocksDbStorage MultisetIndex × Nat,
          acc.1.index.Committed d → (documents.foldl (batchStep c) acc).1.index.Committed d := by
        clear hd
        induction documents with
        | nil => exact fun acc hacc => hacc
        | cons doc documents ih =>
            intro acc hacc
            refine ih _ ?_
            rw [batchStep_fst]
            exact committed_putAndIndex hc doc hacc
      rw [applyCommand_batchInsert_snd]
      exact hloop (sm, 0) h
  | createAlias aliasName collections => exact h
  | deleteAlias aliasName => exact h

omit [RmpSerde Document] in
/-- The commits at the end of `apply`. -/
theorem collections_foldl_commitIndexOf {σ : Type} (d : String) (collections : List String) :
    ∀ sm : DbStateMachine σ MultisetIndex,
      (collections.foldl commitIndexOf sm).index.collections d =
        if d ∈ collections then (sm.index.collections d).map IndexEntries.commit
        else sm.index.collections d := by
  induction collections with
  | nil => exact fun sm => rfl
  | cons c collections ih =>
      intro sm
      have hone : (commitIndexOf sm c).index.collections d =
          if d = c then (sm.index.collections d).map IndexEntries.commit
          else sm.index.collections d :=
        MultisetIndex.collections_modify _ _ _ _
      rw [List.foldl_cons, ih, hone]
      by_cases hd : d = c
      · subst hd
        cases sm.index.collections d <;> simp [IndexEntries.commit]
      · simp [hd]

/-- The commits change what a search finds and nothing else. -/
theorem tracks_foldl_commitIndexOf_iff (collections : List String)
    (sm : DbStateMachine RocksDbStorage MultisetIndex) :
    Tracks (collections.foldl commitIndexOf sm) ↔ Tracks sm := by
  refine forall_congr' fun d => ?_
  rw [(foldl_commitIndexOf_effect collections sm).1, collections_foldl_commitIndexOf]
  split
  · generalize sm.storage.docs d = slot
    generalize sm.index.collections d = entries
    constructor
    · intro h
      cases entries with
      | none => exact h
      | some e =>
          rcases h with h | _
          exact .some h
    · rintro (h | _)
      · exact .some h
      · exact .none
  · rfl

/-- Once everything is committed, a search finds what has been added. -/
theorem indexMirrors_iff_tracks (h : ∀ d, sm.index.Committed d) : IndexMirrors sm ↔ Tracks sm := by
  refine forall_congr' fun d => ?_
  have hd := h d
  rw [MultisetIndex.Committed] at hd
  rw [MultisetIndex.visible]
  generalize sm.storage.docs d = slot
  generalize sm.index.collections d = entries at hd ⊢
  cases entries with
  | none =>
      constructor
      · rintro (_ | _)
        exact .none
      · rintro (_ | _)
        exact .none
  | some e =>
      rw [Option.map_some, hd e rfl]
      constructor
      · rintro (hmirrors | _)
        exact .some hmirrors
      · rintro (hmirrors | _)
        exact .some hmirrors

/-! ## Whole logs -/

theorem committed_foldl_applyEntry {d : String} (entries : List Entry) :
    ∀ acc : ApplyState RocksDbStorage MultisetIndex,
      (d ∉ acc.collectionsToCommit → acc.sm.index.Committed d) →
        d ∉ (entries.foldl applyEntry acc).collectionsToCommit →
          (entries.foldl applyEntry acc).sm.index.Committed d := by
  induction entries with
  | nil => exact fun acc h => h
  | cons entry entries ih =>
      intro acc h
      refine ih _ ?_
      simp only [applyEntry]
      cases entry.payload with
      | blank => exact h
      | membership mem => exact h
      | normal cmd =>
          dsimp only
          intro hd
          cases htarget : commitTarget cmd with
          | none =>
              rw [htarget] at hd
              exact committed_applyCommand (by rw [htarget]; simp) (h hd)
          | some c =>
              simp only [htarget] at hd
              have hsplit : d ≠ c ∧ d ∉ acc.collectionsToCommit := by
                split at hd
                · next hc => exact ⟨fun hdc => hd (hdc ▸ hc), hd⟩
                · simpa [not_or, and_comm] using hd
              refine committed_applyCommand ?_ (h hsplit.2)
              rw [htarget]
              exact fun hc => hsplit.1 (Option.some.inj hc).symm

/-- After a batch everything is committed. -/
theorem committed_apply (h : ∀ d, sm.index.Committed d) (entries : List Entry) (d : String) :
    (sm.apply entries).2.index.Committed d := by
  intro e he
  rw [apply] at he
  simp only [collections_foldl_commitIndexOf] at he
  split at he
  · obtain ⟨e', -, rfl⟩ := Option.map_eq_some_iff.1 he
    rfl
  · next hd => exact committed_foldl_applyEntry entries ⟨sm, [], []⟩ (fun _ => h d) hd e he

/-- An entry on the state machine that has seen the entries before it. -/
theorem tracks_applyEntry_iff {acc : ApplyState RocksDbStorage MultisetIndex}
    (hwf : WellFormed acc.sm.storage) (h : Tracks acc.sm) {entry : Entry}
    (henc : ∀ call ∈ entry.storageCalls, EncodesCall call) :
    Tracks (applyEntry acc entry).sm ↔
      ∀ cmd, entry.payload = .normal cmd → InsertsFresh acc.sm.storage cmd := by
  simp only [applyEntry]
  rw [Entry.storageCalls] at henc
  cases hpayload : entry.payload with
  | blank =>
      refine iff_of_true h fun cmd hcmd => ?_
      cases hcmd
  | membership mem =>
      refine iff_of_true h fun cmd hcmd => ?_
      cases hcmd
  | normal cmd =>
      rw [hpayload] at henc
      have hmoved : WellFormed { acc.sm with lastAppliedLog := some entry.logId }.storage := hwf
      have hiff := tracks_applyCommand_iff hmoved h henc
      exact hiff.trans ⟨fun hfresh cmd' hcmd' => by cases hcmd'; exact hfresh,
        fun hfresh => hfresh cmd rfl⟩

/-- Between two batches. -/
structure Settled (sm : DbStateMachine RocksDbStorage MultisetIndex) : Prop where
  wellFormed : WellFormed sm.storage
  tracks : Tracks sm
  committed : ∀ d, sm.index.Committed d

theorem settled_of_new {options : StorageOptions}
    (hnew : RocksDbStorage.new none options = .ok sm.storage) (hindex : sm.index = .new) :
    Settled sm where
  wellFormed := wellFormed_of_new hnew
  tracks c := by
    rw [docs, slot_collection_of_new hnew, hindex]
    exact .none
  committed d e he := by
    rw [hindex] at he
    cases he

theorem tracks_foldl_applyEntry {entries : List Entry}
    (henc : ∀ entry ∈ entries, ∀ call ∈ entry.storageCalls, EncodesCall call) :
    ∀ acc : ApplyState RocksDbStorage MultisetIndex, WellFormed acc.sm.storage → Tracks acc.sm →
      AllFresh acc.sm.storage entries → Tracks (entries.foldl applyEntry acc).sm := by
  induction entries with
  | nil => exact fun acc _ h _ => h
  | cons entry entries ih =>
      rintro acc hwf h ⟨hfresh, hrest⟩
      have hstorage := (applyEntry_effect acc entry).1
      refine ih (fun entry' hentry' => henc entry' (List.mem_cons_of_mem _ hentry')) _ ?_ ?_ ?_
      · rw [hstorage]
        exact hwf.execAll _
      · exact (tracks_applyEntry_iff hwf h (henc entry List.mem_cons_self)).2 hfresh
      · rw [hstorage]
        exact hrest

/-- **One batch.** -/
theorem Settled.apply (h : Settled sm) {entries : List Entry}
    (henc : ∀ entry ∈ entries, ∀ call ∈ entry.storageCalls, EncodesCall call)
    (hfresh : AllFresh sm.storage entries) : Settled (sm.apply entries).2 where
  wellFormed := by
    rw [storage_apply]
    exact h.wellFormed.execAll _
  tracks := (tracks_foldl_commitIndexOf_iff _ _).2
    (tracks_foldl_applyEntry henc ⟨sm, [], []⟩ h.wellFormed h.tracks hfresh)
  committed := committed_apply h.committed entries

/-- A batch of one entry shows whether the entry inserts what is there. -/
theorem Settled.insertsFresh (h : Settled sm) {entry : Entry}
    (henc : ∀ call ∈ entry.storageCalls, EncodesCall call)
    (hmirrors : IndexMirrors (sm.apply [entry]).2) :
    ∀ cmd, entry.payload = .normal cmd → InsertsFresh sm.storage cmd := by
  have htracks := (indexMirrors_iff_tracks (committed_apply h.committed [entry])).1 hmirrors
  have hiff : Tracks (applyEntry ⟨sm, [], []⟩ entry).sm ↔
      ∀ cmd, entry.payload = .normal cmd → InsertsFresh sm.storage cmd :=
    tracks_applyEntry_iff h.wellFormed h.tracks henc
  exact hiff.1 ((tracks_foldl_commitIndexOf_iff _ _).1 htracks)

end DbStateMachine

theorem allFresh_append (xs ys : List Entry) :
    ∀ s : RocksDbStorage, AllFresh s (xs ++ ys) ↔
      AllFresh s xs ∧ AllFresh (StorageCall.execAll s (xs.flatMap Entry.storageCalls)) ys := by
  induction xs with
  | nil => simp [AllFresh]
  | cons entry xs ih =>
      intro s
      simp only [List.cons_append, AllFresh, List.flatMap_cons, StorageCall.execAll_append]
      rw [ih, and_assoc]

theorem settled_applyBatches (batches : List (List Entry)) :
    ∀ {sm : DbStateMachine RocksDbStorage MultisetIndex}, sm.Settled →
      (∀ entry ∈ batches.flatten, ∀ call ∈ entry.storageCalls, EncodesCall call) →
        AllFresh sm.storage batches.flatten → (sm.applyBatches batches).Settled := by
  induction batches with
  | nil => exact fun h _ _ => h
  | cons entries batches ih =>
      intro sm h henc hfresh
      rw [List.flatten_cons] at henc hfresh
      obtain ⟨hfirst, hrest⟩ := (allFresh_append _ _ _).1 hfresh
      refine ih (h.apply (fun entry hentry => henc entry (List.mem_append_left _ hentry)) hfirst)
        (fun entry hentry => henc entry (List.mem_append_right _ hentry)) ?_
      rw [DbStateMachine.storage_apply]
      exact hrest

/-- **The index mirrors the storage.** However the log is cut into batches, after
each batch the index of every collection has one entry for each stored document, the
document itself, and no others: exactly when every id that an `InsertDocument` or a
`BatchInsert` of the log names is one that its collection does not hold then. -/
theorem indexMirrors_iff {sm : DbStateMachine RocksDbStorage MultisetIndex}
    {options : StorageOptions} (hnew : RocksDbStorage.new none options = .ok sm.storage)
    (hindex : sm.index = .new) {log : List Entry}
    (henc : ∀ entry ∈ log, ∀ call ∈ entry.storageCalls, EncodesCall call) :
    (∀ batches, batches.flatten <+: log → IndexMirrors (sm.applyBatches batches)) ↔
      AllFresh sm.storage log := by
  have h := DbStateMachine.settled_of_new hnew hindex
  constructor
  · intro hall
    clear hnew hindex
    -- the entries one by one, from a state that is settled as long as they are fresh
    induction log generalizing sm with
    | nil => trivial
    | cons entry log ih =>
        have hentry := henc entry List.mem_cons_self
        have hone : ∀ entry' ∈ [entry], ∀ call ∈ entry'.storageCalls, EncodesCall call := by
          simpa using hentry
        have hfresh := h.insertsFresh hentry (hall [[entry]] (by simp))
        have hsettled := h.apply hone ⟨hfresh, trivial⟩
        refine ⟨hfresh, ?_⟩
        have hstorage := DbStateMachine.storage_apply sm [entry]
        rw [List.flatMap_cons, List.flatMap_nil, List.append_nil] at hstorage
        rw [← hstorage]
        refine ih (fun entry' hentry' => henc entry' (List.mem_cons_of_mem _ hentry')) hsettled ?_
        intro batches hpre
        exact hall ([entry] :: batches) (List.cons_prefix_cons.2 ⟨rfl, hpre⟩)
  · rintro hfresh batches ⟨rest, rfl⟩
    have hsettled := settled_applyBatches batches h
      (fun entry hentry => henc entry (List.mem_append_left _ hentry))
      ((allFresh_append _ _ _).1 hfresh).1
    exact (DbStateMachine.indexMirrors_iff_tracks hsettled.committed).2 hsettled.tracks

end Mirror

/-- A state machine over a new store, with no collection in the index. -/
def freshIndexed : DbStateMachine RocksDbStorage MultisetIndex :=
  DbStateMachine.new freshMachine.storage .new

/-- The log of `createAndInsert` with the insertion once more. -/
def createAndInsertTwice : List Entry :=
  createAndInsert ++ [⟨⟨⟨1, 1⟩, 3⟩, .normal (.insertDocument "c" (Document.new ⟨"d"⟩))⟩]

theorem encodesCall_createAndInsertTwice :
    ∀ entry ∈ createAndInsertTwice, ∀ call ∈ entry.storageCalls, EncodesCall call := by
  have hd : Encodes (Document.new ⟨"d"⟩) := encodes_bare (by decide)
  simp [createAndInsertTwice, createAndInsert, Entry.storageCalls, RaftCommand.storageCalls,
    EncodesCall, hd]

theorem allFresh_createAndInsert : AllFresh freshIndexed.storage createAndInsert := by
  have hcall : EncodesCall (.createCollection "c") := trivial
  have hdocs : freshMachine.storage.docs "c" = none := by
    rw [docs, slot_collection_of_new new_freshMachine]
    rfl
  have hcreated := docs_exec (wellFormed_of_new new_freshMachine) hcall "c"
  rw [hdocs] at hcreated
  refine ⟨?_, ?_, trivial⟩
  · intro cmd hcmd
    cases hcmd
    trivial
  · intro cmd hcmd
    cases hcmd
    intro m hm
    -- the collection has just been created
    have hm' := Option.some.inj (hcreated.symm.trans hm)
    rw [← hm']

/-- A collection with one document, and one entry in its index. -/
theorem indexMirrors_createAndInsert :
    AllFresh freshIndexed.storage createAndInsert ∧
      IndexMirrors (freshIndexed.applyBatches [createAndInsert]) :=
  ⟨allFresh_createAndInsert,
    (indexMirrors_iff new_freshMachine rfl fun entry hentry =>
      encodesCall_createAndInsertTwice entry (List.mem_append_left _ hentry)).2
      allFresh_createAndInsert [createAndInsert] (List.prefix_refl _)⟩

/-- A document that is inserted again has two entries. -/
theorem not_indexMirrors :
    RocksDbStorage.new none {} = .ok freshIndexed.storage ∧ freshIndexed.index = .new ∧
      (∀ entry ∈ [createAndInsertTwice].flatten, ∀ call ∈ entry.storageCalls, EncodesCall call) ∧
      ¬ IndexMirrors (freshIndexed.applyBatches [createAndInsertTwice]) := by
  refine ⟨new_freshMachine, rfl, encodesCall_createAndInsertTwice, fun hindex => ?_⟩
  have hmirrors := hindex "c"
  have htwo : ((freshIndexed.applyBatches [createAndInsertTwice]).index.visible "c").map
      (fun e => (entriesFor Document.id e ⟨"d"⟩).card) = some 2 := by
    decide
  generalize (freshIndexed.applyBatches [createAndInsertTwice]).storage.docs "c" = slot at hmirrors
  generalize (freshIndexed.applyBatches [createAndInsertTwice]).index.visible "c" = entries
    at hmirrors htwo
  cases hmirrors with
  | none => cases htwo
  | some hone =>
      rw [Option.map_some, hone.card_eq, Option.some.injEq] at htwo
      split at htwo
      · cases htwo
      · cases htwo

end MSearchDB.Consensus
