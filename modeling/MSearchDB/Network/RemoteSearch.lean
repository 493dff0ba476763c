import MSearchDB.Consensus.IndexMirror
import MSearchDB.Consensus.SnapshotService
import MSearchDB.Index.FieldHandles
import MSearchDB.Network.ScatterGather

/-!
# Searches between nodes

The index of a node with its writer: the methods of `IndexBackend` for `TantivyIndex` in
`crates/index/src/tantivy_index.rs`. The node-wide index is written by `index_document` and
`delete_document` and published by `commit_index`; the collections have indexes of their own
behind the same trait, which are a parameter here.

Searches over gRPC read the node-wide index. The state machine adds to it the documents of a
snapshot it installs, but it commits the indexes of collections only (`KeptByCommands` lists
its calls). So nothing is ever published there: a node answers every search of another node
with nothing, and so does a search that is scattered over a cluster (`remote_search_run`).
-/

set_option autoImplicit false

namespace MSearchDB.Consensus

open MSearchDB.Core

/-! ## The calls of the state machine -/

/-- A property of the index that the calls of the state machine keep. It calls neither
`delete_document` nor `commit_index`. -/
structure KeptByCommands {ι : Type} [IndexBackend ι] (P : ι → Prop) : Prop where
  indexDocument : ∀ {i}, P i → ∀ doc, P (IndexBackend.indexDocument i doc).2
  createCollectionIndex : ∀ {i}, P i → ∀ name, P (IndexBackend.createCollectionIndex i name).2
  dropCollectionIndex : ∀ {i}, P i → ∀ name, P (IndexBackend.dropCollectionIndex i name).2
  indexDocumentInCollection : ∀ {i}, P i → ∀ collection doc mapping,
    P (IndexBackend.indexDocumentInCollection i collection doc mapping).2
  deleteDocumentFromCollection : ∀ {i}, P i → ∀ collection id,
    P (IndexBackend.deleteDocumentFromCollection i collection id).2
  commitCollectionIndex : ∀ {i}, P i → ∀ collection, P (IndexBackend.commitCollectionIndex i collection).2

namespace KeptByCommands

variable {σ ι : Type} [StorageBackend σ] [IndexBackend ι] {P : ι → Prop} {sm : DbStateMachine σ ι}

theorem putAndIndex (hP : KeptByCommands P) (h : P sm.index) (collection : String) (doc : Document) :
    P (sm.putAndIndex collection doc).2.index := by
  unfold DbStateMachine.putAndIndex
  split
  · exact h
  · exact hP.indexDocumentInCollection h collection doc FieldMapping.new

theorem batchInsert (hP : KeptByCommands P) (collection : String) (documents : List Document) :
    ∀ acc : DbStateMachine σ ι × Nat, P acc.1.index →
      P (documents.foldl (DbStateMachine.batchStep collection) acc).1.index := by
  induction documents with
  | nil => exact fun _ h => h
  | cons doc documents ih =>
      intro acc h
      apply ih
      have hput := hP.putAndIndex h collection doc
      unfold DbStateMachine.batchStep
      split
      · next hfail => rwa [hfail] at hput
      · next hstored => rwa [hstored] at hput

/-- One command. -/
theorem applyCommand (hP : KeptByCommands P) (h : P sm.index) (cmd : RaftCommand) :
    P (sm.applyCommand cmd).2.index := by
  cases cmd with
  | insertDocument collection document =>
      have hput := hP.putAndIndex h collection document
      rw [DbStateMachine.applyCommand]
      split
      · next hfail => rwa [hfail] at hput
      · next hstored => rwa [hstored] at hput
  | deleteDocument collection id =>
      rw [DbStateMachine.applyCommand]
      split
      · exact h
      · exact hP.deleteDocumentFromCollection h collection id
  | updateDocument collection document =>
      rw [DbStateMachine.applyCommand]
      split
      · exact h
      · apply hP.indexDocumentInCollection
        exact hP.deleteDocumentFromCollection h collection document.id
  | createCollection name schema =>
      rw [DbStateMachine.applyCommand]
      split
      · exact h
      · exact hP.createCollectionIndex h name
  | deleteCollection name => exact hP.dropCollectionIndex h name
  | batchInsert collection documents =>
      have hbatch := hP.batchInsert collection documents (sm, 0) h
      simp only [DbStateMachine.applyCommand]
      split_ifs
      · exact hbatch
      · exact hbatch
      · exact hbatch
  | createAlias name collections => exact h
  | deleteAlias name => exact h

/-- A batch of entries, with the commits that follow it. -/
theorem apply (hP : KeptByCommands P) (h : P sm.index) (entries : List Entry) :
    P (sm.apply entries).2.index := by
  have hentries : ∀ {acc : DbStateMachine.ApplyState σ ι}, P acc.sm.index →
      P (entries.foldl DbStateMachine.applyEntry acc).sm.index := by
    induction entries with
    | nil => exact fun h => h
    | cons entry entries ih =>
        intro acc hacc
        apply ih
        unfold DbStateMachine.applyEntry
        cases entry.payload with
        | blank => exact hacc
        | normal cmd =>
            have hlogged : P { acc.sm with lastAppliedLog := some entry.logId }.index := hacc
            exact hP.applyCommand hlogged cmd
        | membership mem => exact hacc
  have hcommits : ∀ (collections : List String) {sm : DbStateMachine σ ι}, P sm.index →
      P (collections.foldl DbStateMachine.commitIndexOf sm).index := by
    intro collections
    induction collections with
    | nil => exact fun h => h
    | cons collection collections ih =>
        intro sm hsm
        exact ih (hP.commitCollectionIndex hsm collection)
  exact hcommits _ (hentries h)

variable [SerdeJson (List Document)]

theorem installSnapshot (hP : KeptByCommands P) (h : P sm.index) (m : SnapshotMeta) (data : Lib.Bytes) :
    P (sm.installSnapshot m data).2.index := by
  have hrestored : ∀ (documents : List Document) {sm : DbStateMachine σ ι}, P sm.index →
      P (documents.foldl DbStateMachine.restoreDocument sm).index := by
    intro documents
    induction documents with
    | nil => exact fun h => h
    | cons doc documents ih =>
        intro sm hsm
        exact ih (hP.indexDocument hsm doc)
  unfold DbStateMachine.installSnapshot
  split
  · exact h
  · exact hrestored _ h

variable [LeaderIdDisplay]

/-- **What the calls keep holds in every state of a run.** -/
theorem run (hP : KeptByCommands P) (events : List (Event σ)) :
    ∀ {n : Node σ ι}, P n.sm.index → P (n.run events).sm.index := by
  induction events with
  | nil => exact fun h => h
  | cons e events ih =>
      intro n h
      apply ih
      cases e with
      | apply entries => exact hP.apply h entries
      | getSnapshotBuilder => exact h
      | buildSnapshot i atScan =>
          rcases Node.step_buildSnapshot n i atScan with ⟨-, hstep⟩ | ⟨b, snap, -, -, hstep⟩
          · rwa [hstep]
          · rwa [hstep]
      | installSnapshot m data => exact hP.installSnapshot h m data

end KeptByCommands

end MSearchDB.Consensus

namespace MSearchDB.Index

open MSearchDB.Core

/-! ## The index of a node with its writer -/

/-- What a call of `index_document` meets, by the number of the call: an order of the fields
and the clock. -/
class IndexingTimes where
  fieldOrder : Nat → HashOrder FieldValue
  now : Nat → UInt64

/-- `TantivyIndex` with the writer, and a manager of the indexes of the collections. The calls
of `index_document` are counted. -/
structure NodeIndex (κ : Type) where
  node : TantivyIndex
  writer : IndexWriter
  collectionManager : κ
  indexed : Nat

namespace NodeIndex

variable {κ : Type}

/-- `TantivyIndex::new` over a new directory, with what `DynamicSchemaBuilder::build` returns. -/
def new (schema : Schema) (fieldMap : FieldMap) (manager : κ) : NodeIndex κ :=
  ⟨⟨schema, [], fieldMap⟩, ⟨[], false⟩, manager, 0⟩

variable [Tantivy] [IndexingTimes]

/-- `index_document`: the document is added, and the versions that are there stay. -/
def indexDocument (i : NodeIndex κ) (doc : Document) : DbResult Unit × NodeIndex κ :=
  let i := { i with indexed := i.indexed + 1 }
  let tantivyDoc :=
    buildTantivyDoc doc i.node.fieldMap (IndexingTimes.fieldOrder i.indexed) (IndexingTimes.now i.indexed)
  match i.writer.addDocument i.node.index tantivyDoc with
  | (.error e, writer) => (.error (.indexError ("index document: " ++ e)), { i with writer := writer })
  | (.ok (), writer) => (.ok (), { i with writer := writer })

omit [IndexingTimes] in
/-- `delete_document`. -/
def deleteDocument (i : NodeIndex κ) (id : DocumentId) : DbResult Unit × NodeIndex κ :=
  match i.node.fieldMap["_id"]? with
  | none => (.error (.indexError "_id field not in schema"), i)
  | some idField => (.ok (), { i with writer := i.writer.deleteTerm i.node.index idField id.val })

omit [IndexingTimes] in
/-- `commit_index`, with the reload of the reader. -/
def commitIndex (i : NodeIndex κ) : DbResult Unit × NodeIndex κ :=
  match i.writer.commit with
  | .error e => (.error (.indexError ("commit failed: " ++ e)), i)
  | .ok docs => (.ok (), { i with node := { i.node with reader := docs } })

/-- The rest of the trait goes to the manager of the collections. -/
instance [IndexBackend κ] : IndexBackend (NodeIndex κ) where
  indexDocument := indexDocument
  deleteDocument := deleteDocument
  commitIndex := commitIndex
  createCollectionIndex i c :=
    let created := IndexBackend.createCollectionIndex i.collectionManager c
    (created.1, { i with collectionManager := created.2 })
  dropCollectionIndex i c :=
    let dropped := IndexBackend.dropCollectionIndex i.collectionManager c
    (dropped.1, { i with collectionManager := dropped.2 })
  indexDocumentInCollection i c doc mapping :=
    let added := IndexBackend.indexDocumentInCollection i.collectionManager c doc mapping
    (added.1, { i with collectionManager := added.2 })
  deleteDocumentFromCollection i c id :=
    let removed := IndexBackend.deleteDocumentFromCollection i.collectionManager c id
    (removed.1, { i with collectionManager := removed.2 })
  commitCollectionIndex i c :=
    let committed := IndexBackend.commitCollectionIndex i.collectionManager c
    (committed.1, { i with collectionManager := committed.2 })

theorem node_indexDocument (i : NodeIndex κ) (doc : Document) : (i.indexDocument doc).2.node = i.node := by
  simp only [indexDocument]
  split
  · rfl
  · rfl

variable [IndexBackend κ]

/-- **What a search reads is no business of the commands**: only `commit_index` changes it. -/
theorem keptByCommands_node (node : TantivyIndex) :
    Consensus.KeptByCommands fun i : NodeIndex κ => i.node = node where
  indexDocument := fun {i} h doc => (node_indexDocument i doc).trans h
  createCollectionIndex := fun h _ => h
  dropCollectionIndex := fun h _ => h
  indexDocumentInCollection := fun h _ _ _ => h
  deleteDocumentFromCollection := fun h _ _ => h
  commitCollectionIndex := fun h _ => h

end NodeIndex

end MSearchDB.Index

namespace MSearchDB.Network

open MSearchDB.Core
open MSearchDB.Consensus
open MSearchDB.Index
open MSearchDB.Storage.RocksDb

/-! ## Nodes without published documents -/

theorem toString_ne_empty (e : DbError) : e.toString ≠ "" := by
  have happend : ∀ {s t : String}, s ≠ "" → s ++ t ≠ "" :=
    fun hs h => hs (String.append_eq_empty_iff.1 h).1
  cases e with
  | schemaConflict field existing incoming =>
      repeat' apply happend
      decide
  | _ => exact happend (by decide)

/-- An index without published documents finds none. -/
theorem search_emptyReader [Searcher]
    (hhits : ∀ schema query hits, Searcher.hits schema [] query = .ok hits → hits = []) {index : TantivyIndex}
    (hreader : index.reader = []) {query : Query} {result : SearchResult} (h : index.search query = .ok result) :
    result = .empty := by
  rw [TantivyIndex.search, TantivyIndex.searchSync] at h
  cases hquery : index.translateQuery query with
  | error e =>
      rw [hquery] at h
      cases h
  | ok tq =>
      cases hfound : Searcher.hits index.index index.reader tq with
      | error e =>
          simp only [hquery, hfound, bind, Except.bind] at h
          cases h
      | ok hits =>
          simp only [hquery, hfound, bind, Except.bind, Except.ok.injEq] at h
          rw [hreader] at hfound
          rw [← h, hhits _ _ _ hfound]
          rfl

section Answers

variable [StatusDisplay] [SerdeJson Query] [SerdeJson SearchResult]

/-- So does a client of a node with such an index, whatever query is read there. -/
theorem search_connectedTo [Searcher]
    (hhits : ∀ schema query hits, Searcher.hits schema [] query = .ok hits → hits = [])
    (hempty : ∀ result, SerdeJson.ReadsAs SearchResult.empty result → result = .empty) {index : TantivyIndex}
    (hreader : index.reader = []) {query : Query} {limit : UInt64} {result : SearchResult}
    (h : (QueryClient.connectedTo index).search query limit = .ok result) :
    result = .empty := by
  unfold QueryClient.search at h
  cases hwrite : (SerdeJson.toVec query : Except String Lib.Bytes) with
  | error e =>
      rw [hwrite] at h
      cases h
  | ok bytes =>
      cases hread : (SerdeJson.fromSlice bytes : Except String Query) with
      | error e => simp [hwrite, QueryClient.connectedTo, serveSearch, hread] at h
      | ok query' =>
          simp only [hwrite, QueryClient.connectedTo, serveSearch, hread] at h
          cases hsearch : index.search query' with
          | error e =>
              -- the text of an error is never empty, so it is not taken for a result
              simp [hsearch, toString_ne_empty] at h
          | ok found =>
              obtain rfl := search_emptyReader hhits hreader hsearch
              cases hpayload : (SerdeJson.toVec SearchResult.empty : Except String Lib.Bytes) with
              | error e => simp [hsearch, hpayload] at h
              | ok payload =>
                  cases hback : (SerdeJson.fromSlice payload : Except String SearchResult) with
                  | error e => simp [hsearch, hpayload, hback] at h
                  | ok result' =>
                      simp only [hsearch, hpayload, hback, ne_eq, not_true_eq_false, if_false, Except.ok.injEq] at h
                      rw [← h]
                      exact hempty result' ⟨payload, hpayload, hback⟩

/-- Empty answers add up to an empty result. -/
theorem gather_empty (order : HashOrder ScoredDocument) {query : Query} {limit : UInt64}
    {calls : List ((NodeId × QueryClient) × Bool)}
    (h : ∀ call ∈ calls, ∀ result, call.1.2.search query limit = .ok result → result = .empty) :
    gather order query limit calls = .empty := by
  have hanswers : ∀ answer ∈ answersOf query limit calls, answer = .empty := by
    intro answer hanswer
    obtain ⟨call, hcall, hin⟩ := List.mem_filterMap.1 hanswer
    split at hin
    · cases hsearch : call.1.2.search query limit with
      | error e =>
          rw [hsearch] at hin
          cases hin
      | ok result =>
          rw [hsearch] at hin
          rw [← Option.some.inj hin]
          exact h call hcall result hsearch
    · cases hin
  have hdocuments : (answersOf query limit calls).flatMap SearchResult.documents = [] := by
    rw [List.flatMap_eq_nil_iff]
    intro answer hanswer
    rw [hanswers answer hanswer]
    rfl
  have htotal : ((answersOf query limit calls).map SearchResult.total).sum = 0 := by
    apply List.sum_eq_zero
    intro total htotal
    obtain ⟨answer, hanswer, rfl⟩ := List.mem_map.1 htotal
    rw [hanswers answer hanswer]
    rfl
  rw [← gather_nil order query limit, gather_eq, gather_eq, hdocuments, htotal]
  rfl

end Answers

/-! ## Searching nodes that have run -/

/-- A node of a cluster: where it started, and what has happened on it since. -/
structure ClusterNode (σ κ : Type) where
  id : NodeId
  sm : DbStateMachine σ (NodeIndex κ)
  events : List (Event σ)

section Cluster

variable {σ κ : Type} [StorageBackend σ] [IndexBackend κ] [Tantivy] [IndexingTimes] [LeaderIdDisplay]
  [SerdeJson (List Document)]

/-- Nothing is published on a node. -/
theorem node_run {n : ClusterNode σ κ} {schema : Schema} {fieldMap : FieldMap} {manager : κ}
    (hnew : n.sm.index = .new schema fieldMap manager) :
    ((Node.start n.sm).run n.events).sm.index.node = ⟨schema, [], fieldMap⟩ := by
  have hstart : (Node.start n.sm).sm.index.node = ⟨schema, [], fieldMap⟩ := by
    show n.sm.index.node = _
    rw [hnew]
    rfl
  exact (NodeIndex.keptByCommands_node ⟨schema, [], fieldMap⟩).run n.events hstart

variable [Searcher] [StatusDisplay] [SerdeJson Query] [SerdeJson SearchResult]

/-- A client of the query service of the node. -/
def ClusterNode.client (n : ClusterNode σ κ) : NodeId × QueryClient :=
  (n.id, .connectedTo ((Node.start n.sm).run n.events).sm.index.node)

/-- **Searches between nodes find nothing.** Take any nodes whose indexes were new, and any run
of each: batches of entries, snapshots built and installed. Whatever a search finds in the
collections of a node, a search of the node over gRPC that succeeds returns the empty result, and so
do the searches that are scattered over such nodes, in whatever order they answer and whichever are
late. A search without documents has no hits, and the JSON of the empty result is read as no other. -/
theorem remote_search_run (hhits : ∀ schema query hits, Searcher.hits schema [] query = .ok hits → hits = [])
    (hempty : ∀ result, SerdeJson.ReadsAs SearchResult.empty result → result = .empty)
    (nodes : List (ClusterNode σ κ))
    (hnew : ∀ n ∈ nodes, ∃ schema fieldMap manager, n.sm.index = .new schema fieldMap manager)
    (query : Query) (limit : UInt64) :
    (∀ n ∈ nodes, ∀ result, n.client.2.search query limit = .ok result → result = .empty) ∧
      (∀ order (arrival : Arrival (NodeId × QueryClient) (nodes.map ClusterNode.client)),
        scatterSearch order (nodes.map ClusterNode.client) query limit arrival = .ok .empty) ∧
      ∀ (τ Address : Type) (pool : Pool τ Address) (st : τ) (nodeAddrs : List (NodeId × Address)) order
        (arrival : Arrival (NodeId × QueryClient) (pool.acquire st nodeAddrs).1),
        (pool.acquire st nodeAddrs).1 ⊆ nodes.map ClusterNode.client →
          (scatterSearchWithPool order pool st nodeAddrs query limit arrival).1 = .ok .empty := by
  have hnode : ∀ n ∈ nodes, ∀ result, n.client.2.search query limit = .ok result → result = .empty := by
    intro n hn result hsearch
    obtain ⟨schema, fieldMap, manager, hindex⟩ := hnew n hn
    refine search_connectedTo hhits hempty ?_ hsearch
    rw [node_run hindex]
  have hcalls : ∀ {clients : List (NodeId × QueryClient)} (arrival : Arrival (NodeId × QueryClient) clients),
      clients ⊆ nodes.map ClusterNode.client → ∀ call ∈ arrival.calls, ∀ result,
        call.1.2.search query limit = .ok result → result = .empty := by
    intro clients arrival hclients call hcall
    have hclient : call.1 ∈ clients := arrival.perm.subset (List.mem_map_of_mem hcall)
    obtain ⟨n, hn, heq⟩ := List.mem_map.1 (hclients hclient)
    rw [← heq]
    exact hnode n hn
  refine ⟨hnode, fun order arrival => ?_, fun τ Address pool st nodeAddrs order arrival hclients => ?_⟩
  · rw [scatterSearch_eq, gather_empty order (hcalls arrival (List.Subset.refl _))]
  · rw [scatterSearchWithPool_eq, gather_empty order (hcalls arrival hclients)]

end Cluster

/-! ## A node that has inserted a document -/

/-- The fields in the order of their names, at one point in time. -/
@[reducible] def firstSecond : IndexingTimes := ⟨fun _ => keyOrder _, fun _ => 0⟩

theorem wordSearcher_hits_nil (schema : Schema) (query : TantivyQuery) (hits : List (F32 × TantivyDocument))
    (h : Searcher.hits schema [] query = .ok hits) : hits = [] := by
  cases query with
  | term field text => exact (Except.ok.inj h).symm
  | _ => exact (Except.ok.inj h).symm

/-- A node over a new store that creates a collection, inserts a document into it and installs
a snapshot. -/
def insertingNode : ClusterNode RocksDbStorage MultisetIndex :=
  ⟨⟨1⟩, .new RocksDbStorage.fresh (.new initialSchema initialFieldMap .new),
    [.apply createAndInsert, .installSnapshot ⟨some ⟨⟨1, 1⟩, 2⟩, .default, "1-1-2-snapshot"⟩ [1]]⟩

/-- The search of a cluster of this node and a new one. -/
theorem remote_search_run_insertingNode :
    letI := firstSecond
    letI : SerdeJson (List Document) := oneValueJson [Document.new ⟨"restored"⟩] [1]
    letI : SerdeJson SearchResult := oneValueJson .empty [2]
    letI : StatusDisplay := plainStatus
    let nodes := [insertingNode, { insertingNode with id := ⟨2⟩, events := [] }]
    scatterSearch (keyOrder _) (nodes.map ClusterNode.client) CollectionIndexManager.wordQuery 10
      ⟨nodes.map fun n => (n.client, true), .of_eq List.map_map⟩ = .ok .empty := by
  let _ := firstSecond
  let _ : SerdeJson (List Document) := oneValueJson [Document.new ⟨"restored"⟩] [1]
  let _ : SerdeJson SearchResult := oneValueJson .empty [2]
  let _ : StatusDisplay := plainStatus
  have hnew : ∀ n ∈ [insertingNode, { insertingNode with id := ⟨2⟩, events := [] }],
      ∃ schema fieldMap manager, n.sm.index = NodeIndex.new schema fieldMap manager := by
    intro n hn
    refine ⟨initialSchema, initialFieldMap, .new, ?_⟩
    simp only [List.mem_cons, List.not_mem_nil, or_false] at hn
    rcases hn with rfl | rfl
    · rfl
    · rfl
  have hempty : ∀ result, SerdeJson.ReadsAs SearchResult.empty result → result = .empty :=
    fun _ hread => (readsBack_oneValueJson _ _).eq_of_readsAs hread
  exact (remote_search_run wordSearcher_hits_nil hempty _ hnew CollectionIndexManager.wordQuery 10).2.1 (keyOrder _) _

end MSearchDB.Network
