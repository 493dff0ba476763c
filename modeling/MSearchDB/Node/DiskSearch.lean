import MSearchDB.Core.SortOrder
import MSearchDB.Index.BareDocuments
import MSearchDB.Network.RemoteSearch
import MSearchDB.Node.HandlerRuns
import MSearchDB.Node.SimpleSearch

/-!
# Searches of a node with a disk

The search endpoints of a node that applies a log: the state machine of
`crates/consensus/src/state_machine.rs` over a RocksDB store and an index with one manager of
the collections, as `TantivyIndex::new` makes it over a directory.

`create_collection` prepares the directory of a collection with the meta-fields before any
document comes, and the state machine writes to a collection only where the store has it. So
the indexes stay bare in every run (`bareNode_run`): a search endpoint never returns a hit
with a field, and every hit is a document none of whose values an index would store
(`disk_search_run`).
-/

set_option autoImplicit false

namespace MSearchDB.Index

open MSearchDB.Core

/-! ## The indexes of the collections behind the trait -/

/-- What a call of `index_document` of the manager meets, by the number of the call: the
orders of the fields and of the mapping, and the clock. -/
class CollectionTimes where
  fieldOrder : Nat → HashOrder FieldValue
  mappingOrder : Nat → HashOrder MappedFieldType
  now : Nat → UInt64

/-- The manager of the indexes of the collections. Its calls of `index_document` are counted. -/
structure CollectionIndexes where
  manager : CollectionIndexManager
  calls : Nat

namespace CollectionIndexes

/-- The manager of a new node with a disk. -/
def new : CollectionIndexes := ⟨.new, 0⟩

variable [CollectionTimes]

/-- The next call of `index_document`. -/
def nextCall (i : CollectionIndexes) (collection : String) (doc : Document) (mapping : FieldMapping) : IndexCall :=
  ⟨collection, doc, mapping, CollectionTimes.fieldOrder i.calls, CollectionTimes.mappingOrder i.calls,
    CollectionTimes.now i.calls⟩

/-- The methods for collections; the node-wide ones are those of `NodeIndex`. A panic ends the
task that applies entries. Here it is the error of the lock that it leaves poisoned, so that the
run goes on and every later search fails. -/
instance [Tantivy] [FileSystem] : IndexBackend CollectionIndexes where
  indexDocument i _ := (.ok (), i)
  deleteDocument i _ := (.ok (), i)
  createCollectionIndex i c :=
    let created := i.manager.createCollection c
    (created.1, { i with manager := created.2 })
  dropCollectionIndex i c :=
    let dropped := i.manager.dropCollection c
    (dropped.1, { i with manager := dropped.2 })
  indexDocumentInCollection i c doc mapping :=
    let added := i.manager.indexDocument (i.nextCall c doc mapping)
    (added.1.getD (.error CollectionIndexManager.lockPoisoned), ⟨added.2, i.calls + 1⟩)
  deleteDocumentFromCollection i c id :=
    let removed := i.manager.deleteDocument c id
    (removed.1, { i with manager := removed.2 })
  commitCollectionIndex i c :=
    let committed := i.manager.commit c
    (committed.1, { i with manager := committed.2 })

end CollectionIndexes

end MSearchDB.Index

namespace MSearchDB.Node

open MSearchDB.Lib
open MSearchDB.Core
open MSearchDB.Index
open MSearchDB.Index.CollectionIndexManager
open MSearchDB.Consensus
open MSearchDB.Network (firstSecond)
open MSearchDB.Storage.RocksDb
open MSearchDB.Storage.RocksDb.RocksDbStorage
open Std (ExtTreeMap)

/-! ## Collections of the store -/

section Store

variable [RmpSerde Document]

/-- A call brings no collection to the store but the one it creates. -/
theorem isSome_docs_exec {s : RocksDbStorage} (h : WellFormed s) (call : StorageCall) {c : String}
    (hsome : ((StorageCall.exec s call).docs c).isSome) :
    (s.docs c).isSome ∨ (call = .createCollection c ∧ '\x00' ∉ c.toList) := by
  rw [docs, Option.isSome_map, slot_exec h call (collectionCfName_ne_sequence c).symm] at hsome
  rw [docs, Option.isSome_map]
  cases hslot : s.db.slot (collectionCfName c) with
  | some slot => exact .inl rfl
  | none =>
      refine .inr ?_
      rw [hslot] at hsome
      -- a column family that was missing has been created
      have hcreate : SlotOp.create ∈ opsOn (collectionCfName c) call := by
        by_contra hnot
        rw [SlotOp.runAll_none_of_create_not_mem _ hnot] at hsome
        cases hsome
      have hput : ∀ (cf : String) (doc : Document), SlotOp.create ∉ putOps cf (collectionCfName c) doc := by
        intro cf doc
        unfold putOps
        split
        · split
          · simp
          · simp
        · simp
      cases call with
      | put doc => exact absurd hcreate (hput _ doc)
      | putInCollection d doc => exact absurd hcreate (hput _ doc)
      | delete id => simp [opsOn] at hcreate
      | dropCollection d => simp [opsOn] at hcreate
      | deleteFromCollection d id => simp [opsOn] at hcreate
      | createCollection d =>
          simp only [opsOn] at hcreate
          split at hcreate
          · next hd =>
              obtain rfl := collectionCfName_injective hd.1
              exact ⟨rfl, hd.2⟩
          · cases hcreate

/-- Only a collection that the store has takes a document. -/
theorem isSome_docs_of_put {s : RocksDbStorage} {c : String} {doc : Document}
    (h : (StorageBackend.putInCollection s c doc).1 = .ok ()) : (s.docs c).isSome := by
  rw [Option.isSome_iff_ne_none, Ne, docs_eq_none_iff]
  intro hmissing
  replace h : (s.putDocumentIn (collectionCfName c) doc).1 = .ok () := h
  rw [putDocumentIn] at h
  split at h
  · cases h
  · simp [RocksDbStorage.put, fetchAdd, writeBatch, hmissing] at h

end Store

/-! ## Nodes with bare indexes -/

/-- The state machine of a node with a disk. -/
abbrev DiskNode := DbStateMachine RocksDbStorage (NodeIndex CollectionIndexes)

/-- The manager that the search endpoints ask. -/
def managerOf (sm : DiskNode) : CollectionIndexManager := sm.index.collectionManager.manager

section Nodes

variable [RmpSerde Document] [FileSystem]

/-- The indexes are bare, and a collection of the store has its directory prepared as long as
the lock can be taken. -/
structure BareNode (ids : Set DocumentId) (sm : DiskNode) : Prop where
  wellFormed : WellFormed sm.storage
  bare : BareIndexes ids (managerOf sm)
  prepared : (managerOf sm).poisoned = true ∨
    ∀ c, (sm.storage.docs c).isSome → (managerOf sm).Prepared c

variable {ids : Set DocumentId} {sm : DiskNode}

/-- The store makes a call, and the indexes change as a manager does. A collection that is new to
the store is prepared. -/
theorem BareNode.next (h : BareNode ids sm) (call : StorageCall) {sm' : DiskNode}
    (hstorage : sm'.storage = StorageCall.exec sm.storage call)
    (hnext : BareNext ids (managerOf sm) (managerOf sm'))
    (hcreated : ∀ c, call = .createCollection c → '\x00' ∉ c.toList →
      (managerOf sm').poisoned = true ∨ (managerOf sm').Prepared c) : BareNode ids sm' := by
  refine ⟨hstorage ▸ h.wellFormed.exec call, hnext.bare, ?_⟩
  rcases h.prepared with hpoisoned | hprepared
  · exact .inl (hnext.poisoned hpoisoned)
  · by_cases hpoisoned : (managerOf sm').poisoned = true
    · exact .inl hpoisoned
    · refine .inr fun c hsome => ?_
      rw [hstorage] at hsome
      rcases isSome_docs_exec h.wellFormed call hsome with hold | ⟨hcall, hnul⟩
      · exact hnext.prepared (hprepared c hold)
      · exact (hcreated c hcall hnul).resolve_left hpoisoned

/-- A put goes to the store, whether it is refused or not. -/
theorem BareNode.put (h : BareNode ids sm) {c : String} {doc : Document} {sm' : DiskNode}
    (hstorage : sm'.storage = (StorageBackend.putInCollection sm.storage c doc).2)
    (hnext : BareNext ids (managerOf sm) (managerOf sm')) : BareNode ids sm' := by
  apply h.next (.putInCollection c doc) hstorage hnext
  -- no put creates a collection
  intro c' hcall
  cases hcall

/-- The indexes change alone. -/
theorem BareNode.reindex (h : BareNode ids sm) {sm' : DiskNode} (hstorage : sm'.storage = sm.storage)
    (hnext : BareNext ids (managerOf sm) (managerOf sm')) : BareNode ids sm' := by
  refine ⟨hstorage ▸ h.wellFormed, hnext.bare, ?_⟩
  rcases h.prepared with hpoisoned | hprepared
  · exact .inl (hnext.poisoned hpoisoned)
  · refine .inr fun c hsome => hnext.prepared (hprepared c ?_)
    rwa [hstorage] at hsome

theorem BareNode.preparedFor (h : BareNode ids sm) {c : String} (hsome : (sm.storage.docs c).isSome) :
    (managerOf sm).poisoned = true ∨ (managerOf sm).Prepared c :=
  h.prepared.imp_right fun hprepared => hprepared c hsome

/-- A new node. -/
theorem bareNode_new {options : StorageOptions} {storage : RocksDbStorage}
    (hnew : RocksDbStorage.new none options = .ok storage) (schema : Schema) (fieldMap : FieldMap) :
    BareNode ids (.new storage (.new schema fieldMap .new)) where
  wellFormed := wellFormed_of_new hnew
  bare := bareIndexes_new ids
  prepared := by
    refine .inr fun c hsome => ?_
    have hnone : storage.docs c = none := congrFun (congrArg DocumentMaps.collections (view_of_new hnew)) c
    replace hsome : (storage.docs c).isSome := hsome
    rw [hnone] at hsome
    cases hsome

variable [Tantivy] [IndexingTimes] [CollectionTimes]

/-- A document is stored and indexed. -/
theorem BareNode.putAndIndex (h : BareNode ids sm) (c : String) {doc : Document}
    (hid : Sourceless doc → doc.id ∈ ids) : BareNode ids (sm.putAndIndex c doc).2 := by
  unfold DbStateMachine.putAndIndex
  cases hput : StorageBackend.putInCollection sm.storage c doc with
  | mk result storage =>
      have hstorage : storage = (StorageBackend.putInCollection sm.storage c doc).2 :=
        congrArg Prod.snd hput.symm
      cases result with
      | error e => exact h.put hstorage h.bare.refl
      | ok =>
          have hsome : (sm.storage.docs c).isSome := isSome_docs_of_put (congrArg Prod.fst hput)
          apply h.put hstorage
          exact h.bare.indexDocument (sm.index.collectionManager.nextCall c doc .new) rfl (h.preparedFor hsome) hid

/-- **One command keeps the indexes bare.** -/
theorem BareNode.applyCommand (h : BareNode ids sm) (cmd : RaftCommand)
    (hids : ∀ doc ∈ documentsOf cmd, Sourceless doc → doc.id ∈ ids) : BareNode ids (sm.applyCommand cmd).2 := by
  cases cmd with
  | insertDocument c doc =>
      rw [DbStateMachine.applyCommand_insertDocument_snd]
      exact h.putAndIndex c (hids doc (List.mem_singleton_self doc))
  | deleteDocument c id =>
      rw [DbStateMachine.applyCommand]
      cases hdelete : StorageBackend.deleteFromCollection sm.storage c id with
      | mk result storage =>
          have hexec : storage = StorageCall.exec sm.storage (.deleteFromCollection c id) :=
            congrArg Prod.snd hdelete.symm
          cases result with
          | error e => exact h.next (.deleteFromCollection c id) hexec h.bare.refl fun _ hcall => by cases hcall
          | ok =>
              exact h.next (.deleteFromCollection c id) hexec (h.bare.deleteDocument c id) fun _ hcall => by cases hcall
  | updateDocument c doc =>
      rw [DbStateMachine.applyCommand]
      cases hput : StorageBackend.putInCollection sm.storage c doc with
      | mk result storage =>
          have hstorage : storage = (StorageBackend.putInCollection sm.storage c doc).2 :=
            congrArg Prod.snd hput.symm
          cases result with
          | error e => exact h.put hstorage h.bare.refl
          | ok =>
              have hsome : (sm.storage.docs c).isSome := isSome_docs_of_put (congrArg Prod.fst hput)
              -- the old version leaves first
              have hremoved := h.bare.deleteDocument c doc.id
              apply h.put hstorage
              apply hremoved.trans
              have hprepared := (h.preparedFor hsome).imp hremoved.poisoned hremoved.prepared
              exact hremoved.bare.indexDocument
                (CollectionIndexes.nextCall ⟨_, sm.index.collectionManager.calls⟩ c doc .new) rfl hprepared
                (hids doc (List.mem_singleton_self doc))
  | createCollection name schema =>
      rw [DbStateMachine.applyCommand]
      cases hcreate : StorageBackend.createCollection sm.storage name with
      | mk result storage =>
          have hexec : storage = StorageCall.exec sm.storage (.createCollection name) :=
            congrArg Prod.snd hcreate.symm
          cases result with
          | error e =>
              refine h.next (.createCollection name) hexec h.bare.refl fun c hcall hnul => ?_
              -- the store refuses no name without NUL
              cases hcall
              have hok := (createCollection_ok_iff (s := sm.storage) name).2 (.inr hnul)
              rw [hcreate] at hok
              cases hok
          | ok =>
              obtain ⟨hnext, hprepared⟩ := h.bare.createCollection name
              refine h.next (.createCollection name) hexec hnext fun c hcall _ => ?_
              cases hcall
              exact hprepared.imp_left hnext.poisoned
  | deleteCollection name =>
      exact h.next (.dropCollection name) rfl (h.bare.dropCollection name) fun _ hcall => by cases hcall
  | batchInsert c docs =>
      rw [DbStateMachine.applyCommand_batchInsert_snd]
      have hbatch : ∀ (docs : List Document) (acc : DiskNode × Nat), BareNode ids acc.1 →
          (∀ doc ∈ docs, Sourceless doc → doc.id ∈ ids) →
            BareNode ids (docs.foldl (DbStateMachine.batchStep c) acc).1 := by
        intro docs
        induction docs with
        | nil => exact fun _ hacc _ => hacc
        | cons doc docs ih =>
            intro acc hacc hdocs
            apply ih
            · rw [DbStateMachine.batchStep_fst]
              exact hacc.putAndIndex c (hdocs doc List.mem_cons_self)
            · exact fun doc' hmem => hdocs doc' (List.mem_cons_of_mem _ hmem)
      exact hbatch docs (sm, 0) h hids
  | createAlias name collections => exact h
  | deleteAlias name => exact h

/-- The documents that an entry carries. -/
def carried (entry : Entry) : List Document :=
  match entry.payload with
  | .normal cmd => documentsOf cmd
  | _ => []

/-- A batch of entries, with the commits that follow it. -/
theorem BareNode.apply (h : BareNode ids sm) (entries : List Entry)
    (hids : ∀ entry ∈ entries, ∀ doc ∈ carried entry, Sourceless doc → doc.id ∈ ids) :
    BareNode ids (sm.apply entries).2 := by
  have hentries : ∀ {acc : DbStateMachine.ApplyState RocksDbStorage (NodeIndex CollectionIndexes)},
      BareNode ids acc.sm → BareNode ids (entries.foldl DbStateMachine.applyEntry acc).sm := by
    induction entries with
    | nil => exact fun hacc => hacc
    | cons entry entries ih =>
        intro acc hacc
        apply ih fun other hmem => hids other (List.mem_cons_of_mem _ hmem)
        have hentry := hids entry List.mem_cons_self
        unfold carried at hentry
        unfold DbStateMachine.applyEntry
        cases hpayload : entry.payload with
        | blank => exact hacc.reindex rfl hacc.bare.refl
        | normal cmd =>
            rw [hpayload] at hentry
            have hlogged : BareNode ids { acc.sm with lastAppliedLog := some entry.logId } :=
              hacc.reindex rfl hacc.bare.refl
            exact hlogged.applyCommand cmd hentry
        | membership mem => exact hacc.reindex rfl hacc.bare.refl
  have hcommits : ∀ (collections : List String) {sm : DiskNode}, BareNode ids sm →
      BareNode ids (collections.foldl DbStateMachine.commitIndexOf sm) := by
    intro collections
    induction collections with
    | nil => exact fun h => h
    | cons c collections ih =>
        intro sm hsm
        apply ih
        exact hsm.reindex rfl (hsm.bare.commit c)
  exact hcommits _ (hentries h)

variable [SerdeJson (List Document)]

/-- A snapshot goes to the node-wide index and to no collection. -/
theorem BareNode.installSnapshot (h : BareNode ids sm) (m : SnapshotMeta) (data : Bytes) :
    BareNode ids (sm.installSnapshot m data).2 := by
  have hrestored : ∀ (documents : List Document) {sm : DiskNode}, BareNode ids sm →
      BareNode ids (documents.foldl DbStateMachine.restoreDocument sm) := by
    intro documents
    induction documents with
    | nil => exact fun h => h
    | cons doc documents ih =>
        intro sm hsm
        apply ih
        have hsame : managerOf (sm.restoreDocument doc) = managerOf sm := by
          show ((sm.index.indexDocument doc).2).collectionManager.manager = _
          rw [NodeIndex.indexDocument]
          split
          · rfl
          · rfl
        exact hsm.next (.put doc) rfl (hsame ▸ hsm.bare.refl) fun _ hcall => by cases hcall
  unfold DbStateMachine.installSnapshot
  split
  · exact h
  · next documents _ =>
      have hdocuments := hrestored documents h
      exact hdocuments.reindex rfl hdocuments.bare.refl

variable [LeaderIdDisplay]

/-- The documents of the entries of a run. -/
def logged (events : List (Event RocksDbStorage)) : List Document :=
  events.flatMap fun
    | .apply entries => entries.flatMap carried
    | _ => []

/-- **Every run keeps the indexes bare.** -/
theorem bareNode_run (events : List (Event RocksDbStorage)) :
    ∀ {n : Consensus.Node RocksDbStorage (NodeIndex CollectionIndexes)}, BareNode ids n.sm →
      (∀ doc ∈ logged events, Sourceless doc → doc.id ∈ ids) → BareNode ids (n.run events).sm := by
  induction events with
  | nil => exact fun h _ => h
  | cons e events ih =>
      intro n h hids
      rw [logged, List.flatMap_cons] at hids
      apply ih
      · cases e with
        | apply entries =>
            refine h.apply entries fun entry hentry doc hdoc => ?_
            exact hids doc (List.mem_append_left _ (List.mem_flatMap.2 ⟨entry, hentry, hdoc⟩))
        | getSnapshotBuilder => exact h
        | buildSnapshot i atScan =>
            rcases Consensus.Node.step_buildSnapshot n i atScan with ⟨-, hstep⟩ | ⟨b, snap, -, -, hstep⟩
            · rwa [hstep]
            · rwa [hstep]
        | installSnapshot m data => exact h.installSnapshot m data
      · exact fun doc hdoc => hids doc (List.mem_append_right _ hdoc)

end Nodes

/-! ## What the endpoints return -/

section Responses

variable [Searcher] {ids : Set DocumentId} {index : CollectionIndexManager}

omit [Searcher] in
/-- A hit of a page is one of the documents that were found, with other sort values. -/
theorem mem_pageOf {options : SearchOptions} {docs : List ScoredDocument} {hit : ScoredDocument}
    (h : hit ∈ pageOf options (orderDocuments options docs)) : ∃ doc ∈ docs, hit.document = doc.document := by
  have hcollapsed := List.mem_of_mem_drop (List.mem_of_mem_take h)
  have hcut := (collapseDocuments_sublist options _).subset hcollapsed
  rw [cutDocuments_eq_filter] at hcut
  have hsorted := List.mem_of_mem_filter hcut
  rw [Core.applySort_eq_map] at hsorted
  obtain ⟨doc, hdoc, rfl⟩ := List.mem_map.1 hsorted
  refine ⟨doc, (perm_sortBy _ docs).mem_iff.1 hdoc, ?_⟩
  unfold storeSort
  split
  · rfl
  · rfl

/-- A response has only hits without a field. -/
def BareResponse (docs : List Document) (response : SearchResponse) : Prop :=
  ∀ hit ∈ response.hits, hit.source = .object [] ∧ ∃ doc ∈ docs, doc.id.val = hit.id ∧ Sourceless doc

omit [Searcher] in
/-- What both endpoints make of the outcome of their search. -/
theorem bareResponse_of_search {docs : List Document} {consistency : Option String} {found : DbResult SearchResult}
    {response : SearchResponse} (hresponse : searchResponse consistency found = .ok response)
    (hfound : ∀ result, found = .ok result → ∀ hit ∈ result.documents,
      BareHit {id | ∃ doc ∈ docs, doc.id = id ∧ Sourceless doc} hit) : BareResponse docs response := by
  cases found with
  | error e => cases hresponse
  | ok result =>
      cases hresponse
      intro hit hhit
      obtain ⟨scored, hscored, rfl⟩ := List.mem_map.1 hhit
      obtain ⟨hfields, doc, hdoc, hid, hsourceless⟩ := hfound result rfl scored hscored
      refine ⟨?_, doc, hdoc, congrArg DocumentId.val hid, hsourceless⟩
      show fieldsToValue scored.document.fields = .object []
      rw [hfields]
      rfl

variable [FileSystem]

/-- The hits of one target. -/
theorem bare_searchTarget
    (hhits : ∀ schema docs query hits, Searcher.hits schema docs query = .ok hits → ∀ hit ∈ hits, hit.2 ∈ docs)
    (h : BareIndexes ids index) {query : Query} {target : String} {options : Option SearchOptions} {result : SearchResult}
    (hsearch : searchTarget index query target options = .ok result) : ∀ hit ∈ result.documents, BareHit ids hit := by
  cases hdocs : index.matchingDocuments target query with
  | error e =>
      cases options with
      | none =>
          rw [searchTarget, CollectionIndexManager.search, matchingDocuments_error hdocs] at hsearch
          cases hsearch
      | some options =>
          rw [searchTarget, CollectionIndexManager.searchWithOptions, matchingDocuments_error hdocs] at hsearch
          cases hsearch
  | ok docs =>
      have hbare := bare_of_matching hhits h hdocs
      intro hit hhit
      cases options with
      | none =>
          rw [searchTarget, CollectionIndexManager.search, topDocs_eq hdocs] at hsearch
          cases hsearch
          exact hbare hit (List.mem_of_mem_take hhit)
      | some options =>
          rw [searchTarget, searchWithOptions_eq hdocs] at hsearch
          cases hsearch
          obtain ⟨doc, hdoc, hsame⟩ := mem_pageOf hhit
          rw [BareHit, hsame]
          exact hbare doc (List.mem_of_mem_take hdoc)

/-- The hits of all targets. -/
theorem bare_fanOutSearch
    (hhits : ∀ schema docs query hits, Searcher.hits schema docs query = .ok hits → ∀ hit ∈ hits, hit.2 ∈ docs)
    (h : BareIndexes ids index) {query : Query} {targets : List String} {options : Option SearchOptions}
    {result : SearchResult} (hsearch : fanOutSearch index targets query options = .ok result) :
    ∀ hit ∈ result.documents, BareHit ids hit := by
  -- the loop adds the hits of one target after the other
  have hloop : ∀ (targets : List String) {acc found : SearchResult}, (∀ hit ∈ acc.documents, BareHit ids hit) →
      targets.foldlM (fanOutStep index query options) acc = .ok found → ∀ hit ∈ found.documents, BareHit ids hit := by
    intro targets
    induction targets with
    | nil =>
        intro acc found hacc hfold
        cases hfold
        exact hacc
    | cons target targets ih =>
        intro acc found hacc hfold
        rw [List.foldlM_cons] at hfold
        cases hone : searchTarget index query target options with
        | error e =>
            rw [fanOutStep, hone] at hfold
            cases hfold
        | ok one =>
            rw [fanOutStep, hone] at hfold
            apply ih _ hfold
            intro hit hhit
            rcases List.mem_append.1 hhit with hold | hnew
            · exact hacc hit hold
            · exact bare_searchTarget hhits h hone hit hnew
  rw [fanOutSearch] at hsearch
  cases hfold : targets.foldlM (fanOutStep index query options) SearchResult.empty with
  | error e =>
      rw [hfold] at hsearch
      cases hsearch
  | ok found =>
      rw [hfold] at hsearch
      cases hsearch
      intro hit hhit
      have hmem : hit ∈ found.documents := by
        unfold mergeDocuments at hhit
        split at hhit
        · exact (perm_sortBy _ _).mem_iff.1 hhit
        · exact hhit
      exact hloop targets (fun _ hmem => by cases hmem) hfold hit hmem

variable [Tantivy] [IndexingTimes] [CollectionTimes] [SerdeJson (List Document)] [LeaderIdDisplay] [RmpSerde Document]
  [JsonDisplay]

/-- **A node with a disk finds only documents without stored values.** Take any run of a new node: batches of
entries, snapshots built and installed. Whatever is sent to the two search endpoints, a hit of a
response has an empty source, and its id is that of a document of the log none of whose values
an index would store. -/
theorem disk_search_run
    (hhits : ∀ schema docs query hits, Searcher.hits schema docs query = .ok hits → ∀ hit ∈ hits, hit.2 ∈ docs)
    {options : StorageOptions} {storage : RocksDbStorage} (hnew : RocksDbStorage.new none options = .ok storage)
    (schema : Schema) (fieldMap : FieldMap) (events : List (Event RocksDbStorage)) (registries : Registries)
    (collection : String) :
    let node := (Consensus.Node.start (.new storage (.new schema fieldMap .new))).run events
    (∀ order consistency body response,
        searchDocuments order registries (managerOf node.sm) collection consistency body = .ok response →
          BareResponse (logged events) response) ∧
      ∀ params response, simpleSearch registries (managerOf node.sm) collection params = .ok response →
        BareResponse (logged events) response := by
  intro node
  have hnode : BareNode {id | ∃ doc ∈ logged events, doc.id = id ∧ Sourceless doc} node.sm := by
    apply bareNode_run events
    · exact bareNode_new hnew schema fieldMap
    · exact fun doc hdoc hsourceless => ⟨doc, hdoc, rfl, hsourceless⟩
  refine ⟨fun order consistency body response hresponse => ?_, fun params response hresponse => ?_⟩
  · unfold searchDocuments at hresponse
    split at hresponse
    · cases hresponse
    · exact bareResponse_of_search hresponse fun result hresult => bare_fanOutSearch hhits hnode.bare hresult
  · unfold simpleSearch at hresponse
    split at hresponse
    · cases hresponse
    · exact bareResponse_of_search hresponse fun result hresult => bare_fanOutSearch hhits hnode.bare hresult

end Responses

/-! ## A node that has stored a document without fields -/

/-- The fields and the mappings in the order of their keys, at one point in time. -/
@[reducible] def keyedTimes : CollectionTimes := ⟨fun _ => keyOrder _, fun _ => keyOrder _, fun _ => 0⟩

/-- A collection is created, and a document without fields inserted. -/
def plainLog : List (Event RocksDbStorage) :=
  [.apply [⟨⟨⟨1, 1⟩, 1⟩, .normal (.createCollection "books" .new)⟩,
    ⟨⟨⟨1, 1⟩, 2⟩, .normal (.insertDocument "books" (.new ⟨"plain"⟩))⟩]]

/-- The search for its id. -/
def plainRequest : SearchRequest :=
  { bodyRequest "" with query := .term ((∅ : ExtTreeMap String String).insert "_id" "plain") }

theorem intoCoreQuery_plainRequest : plainRequest.query.intoCoreQuery keyedOrder = .term ⟨"_id", "plain"⟩ := by
  have hiter : keyedOrder.termFields.iter ((∅ : ExtTreeMap String String).insert "_id" "plain") = [("_id", "plain")] := rfl
  rw [plainRequest, QueryDsl.intoCoreQuery, hiter]
  rfl

/-- The documents of a search are among those it was given. -/
theorem mem_of_wordSearcher (schema : Schema) (docs : List TantivyDocument) (query : TantivyQuery)
    (hits : List (F32 × TantivyDocument)) (h : Searcher.hits schema docs query = .ok hits) : ∀ hit ∈ hits, hit.2 ∈ docs := by
  intro hit hhit
  cases query with
  | term field text =>
      cases h
      obtain ⟨doc, hdoc, rfl⟩ := List.mem_map.1 hhit
      exact List.mem_of_mem_filter hdoc
  | _ =>
      cases h
      cases hhit

/-- It is found, without a source. -/
theorem disk_search_run_plain :
    letI := firstSecond
    letI := keyedTimes
    letI : LeaderIdDisplay := ⟨fun _ => ""⟩
    let node := (Consensus.Node.start (.new fresh (.new initialSchema initialFieldMap .new))).run plainLog
    ∃ response, searchDocuments keyedOrder oneShelf (managerOf node.sm) "books" none plainRequest = .ok response ∧
      response.hits.map Hit.id = ["plain"] ∧ BareResponse (logged plainLog) response := by
  let _ := firstSecond
  let _ := keyedTimes
  let _ : LeaderIdDisplay := ⟨fun _ => ""⟩
  intro node
  have hsearch : (fanOutSearch (managerOf node.sm) ["books"] (.term ⟨"_id", "plain"⟩)
      (some plainRequest.toSearchOptions)).toOption.map (fun found => found.documents.map (·.document.id.val)) =
        some ["plain"] := by
    decide +kernel
  cases hfound : fanOutSearch (managerOf node.sm) ["books"] (.term ⟨"_id", "plain"⟩)
      (some plainRequest.toSearchOptions) with
  | error e =>
      rw [hfound] at hsearch
      cases hsearch
  | ok found =>
      rw [hfound] at hsearch
      have hresponse : searchDocuments keyedOrder oneShelf (managerOf node.sm) "books" none plainRequest =
          searchResponse none (.ok found) := by
        rw [← hfound, ← intoCoreQuery_plainRequest]
        rfl
      refine ⟨_, hresponse, ?_, ?_⟩
      · rw [List.map_map]
        exact Option.some.inj hsearch
      · exact (disk_search_run mem_of_wordSearcher (new_none {}) initialSchema initialFieldMap plainLog oneShelf
          "books").1 keyedOrder none plainRequest _ hresponse

end MSearchDB.Node
