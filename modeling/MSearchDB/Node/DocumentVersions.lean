import MSearchDB.Core.ReadCoordinator
import MSearchDB.Node.DocumentCache

/-!
# The versions of written documents

`Document::version` is documented to be incremented by every write. This module follows
the documents of the write requests, from the handlers through the commands and the
state machine into the store: each of them carries the clock with which `Document::new`
made it (`version_of_mem_commands`), and the state machine stores what it is given. Of
two writes of a document the later one therefore never dominates the earlier
(`versions_do_not_grow`), and reading both back returns the one that answers first.
-/

set_option autoImplicit false

namespace MSearchDB.Node

open MSearchDB.Lib
open MSearchDB.Core
open MSearchDB.Consensus
open MSearchDB.Storage.RocksDb

/-! ## The documents of the requests -/

section Requests

variable [BulkInput]

theorem version_of_mem_validActions {lines : List String} {i : Nat} {doc : Document}
    (h : doc ∈ (validActions lines i).filterMap Write.outcome) : doc.version = VectorClock.new := by
  fun_induction validActions lines i with
  | case1 => simp at h
  | case2 actionLine rest i e haction ih => exact ih h
  | case3 => simp at h
  | case4 actionLine i id' haction docLine rest e hbody ih => exact ih h
  | case5 actionLine i id' haction docLine rest fields hbody doc' ih =>
      have hcons : doc ∈ doc' :: (validActions rest (i + 2)).filterMap Write.outcome := h
      rcases List.mem_cons.1 hcons with rfl | hrest
      · rfl
      · exact ih hrest
  | case6 actionLine rest i id' haction hid ih => exact ih h
  | case7 actionLine rest i id' haction hid ih => exact ih (by simpa [Write.outcome] using h)

omit [BulkInput] in
/-- A batch holds documents that were pending or are still to come. -/
theorem mem_of_mem_bulkBatches {collection c : String} {doc : Document} {cmd : RaftCommand}
    (docs : List Document) : ∀ pending, cmd ∈ bulkBatches collection pending docs →
      .putInCollection c doc ∈ cmd.storageCalls → doc ∈ pending ++ docs := by
  have hbatch : ∀ batch : List Document, .putInCollection c doc ∈
      (RaftCommand.batchInsert collection batch).storageCalls → doc ∈ batch := by
    intro batch h
    obtain ⟨doc', hmem, heq⟩ := List.mem_map.1 h
    cases heq
    exact hmem
  induction docs with
  | nil =>
      intro pending hcmd hcall
      rw [bulkBatches] at hcmd
      split at hcmd
      · simp at hcmd
      · rw [List.mem_singleton.1 hcmd] at hcall
        simpa using hbatch _ hcall
  | cons d docs ih =>
      intro pending hcmd hcall
      rw [bulkBatches] at hcmd
      split at hcmd
      -- a full batch goes out with `d`, a smaller one waits for more
      · rcases List.mem_cons.1 hcmd with rfl | hcmd
        · have hmem := hbatch _ hcall
          simp only [List.mem_append, List.mem_cons] at hmem ⊢
          tauto
        · have hmem := ih [] hcmd hcall
          simp only [List.nil_append] at hmem
          simp [hmem]
      · have hmem := ih _ hcmd hcall
        simpa using hmem

/-- **No handler sets a version.** -/
theorem version_of_mem_commands {request : WriteRequest} {cmd : RaftCommand} {c : String}
    {doc : Document} (hcmd : cmd ∈ request.commands) (hcall : .putInCollection c doc ∈ cmd.storageCalls) :
    doc.version = VectorClock.new := by
  cases request with
  | index collection id fields =>
      rw [List.mem_singleton.1 hcmd] at hcall
      cases List.mem_singleton.1 hcall
      rfl
  | upsert collection id fields =>
      rw [List.mem_singleton.1 hcmd] at hcall
      cases List.mem_singleton.1 hcall
      rfl
  | delete collection id =>
      rw [List.mem_singleton.1 hcmd] at hcall
      cases List.mem_singleton.1 hcall
  | createCollection name schema =>
      rw [List.mem_singleton.1 hcmd] at hcall
      cases List.mem_singleton.1 hcall
  | deleteCollection name =>
      rw [List.mem_singleton.1 hcmd] at hcall
      cases List.mem_singleton.1 hcall
  | bulk collection body =>
      -- the batches of the puts come before the commands of the deletes
      rcases List.mem_append.1 hcmd with hcmd | hcmd
      · have hmem := mem_of_mem_bulkBatches _ [] hcmd hcall
        exact version_of_mem_validActions (by simpa using hmem)
      · obtain ⟨id, -, rfl⟩ := List.mem_map.1 hcmd
        cases List.mem_singleton.1 hcall

end Requests

/-! ## What a write stores -/

section Stored

variable [RmpSerde Document]

theorem encodes_of_putInCollection {s : RocksDbStorage} {c : String} {doc : Document}
    (h : (StorageBackend.putInCollection s c doc).1 = .ok ()) : Encodes doc := by
  change (s.putDocumentIn (RocksDbStorage.collectionCfName c) doc).1 = .ok () at h
  rw [RocksDbStorage.putDocumentIn] at h
  split at h
  · simp at h
  · exact ⟨_, ‹_›⟩

/-- A document that was put successfully is read back. -/
theorem getFromCollection_put {s : RocksDbStorage} (hs : RocksDbStorage.WellFormed s) {c : String} {doc : Document}
    (h : (StorageBackend.putInCollection s c doc).1 = .ok ()) :
    StorageBackend.getFromCollection (StorageCall.exec s (.putInCollection c doc)) c doc.id = .ok doc := by
  have henc := encodes_of_putInCollection h
  obtain ⟨m, hm⟩ := Option.isSome_iff_exists.1
    ((RocksDbStorage.putInCollection_ok_iff hs henc c).1 h)
  have hcall : EncodesCall (.putInCollection c doc) := henc
  rw [RocksDbStorage.getFromCollection_eq (hs.exec _), RocksDbStorage.docs_exec hs hcall, hm]
  simp [RocksDbStorage.docOpsOn, SlotOp.run, Write.exec, Write.key, Write.outcome, RocksDbStorage.okOr]

variable {ι : Type} [IndexBackend ι]

/-- Commands make their calls in the order of the log. -/
theorem storage_applyCommands (cmds : List RaftCommand) :
    ∀ sm : DbStateMachine RocksDbStorage ι, (applyCommands sm cmds).storage =
      StorageCall.execAll sm.storage (cmds.flatMap RaftCommand.storageCalls) := by
  induction cmds with
  | nil => exact fun sm => rfl
  | cons cmd cmds ih =>
      intro sm
      obtain ⟨hstorage, -⟩ := DbStateMachine.applyCommand_effect sm cmd
      rw [List.flatMap_cons, StorageCall.execAll_append, ← hstorage]
      exact ih (sm.applyCommand cmd).2

variable [BulkInput]

/-- **Versions do not grow.** The state machine applies commands of the handlers, of any
requests and in any order, to a new store. Of any two successful writes of one document
in one collection, what the later one stored does not dominate what the earlier one
stored; a read that gets the earlier copy first returns it, and names no stale node. -/
theorem versions_do_not_grow {options : StorageOptions} {storage : RocksDbStorage}
    (hnew : RocksDbStorage.new none options = .ok storage) (index : ι) (cmds : List RaftCommand)
    (hcmds : ∀ cmd ∈ cmds, ∃ request : WriteRequest, cmd ∈ request.commands)
    (c : String) (doc doc' : Document) (hid : doc.id = doc'.id)
    (before between after : List StorageCall)
    (hcalls : cmds.flatMap RaftCommand.storageCalls =
      before ++ .putInCollection c doc :: (between ++ .putInCollection c doc' :: after))
    (hput : (StorageBackend.putInCollection (StorageCall.execAll storage before) c doc).1 = .ok ())
    (hput' : (StorageBackend.putInCollection
      (StorageCall.execAll storage (before ++ .putInCollection c doc :: between)) c doc').1 = .ok ()) :
    (applyCommands (.new storage index) cmds).storage = StorageCall.execAll storage
        (before ++ .putInCollection c doc :: (between ++ .putInCollection c doc' :: after)) ∧
      ∃ d d', StorageBackend.getFromCollection
          (StorageCall.execAll storage (before ++ [.putInCollection c doc])) c doc.id = .ok d ∧
        StorageBackend.getFromCollection (StorageCall.execAll storage
          (before ++ .putInCollection c doc :: (between ++ [.putInCollection c doc']))) c doc.id = .ok d' ∧
        d'.version.dominates d.version = false ∧
        ∀ (coordinator : ReadCoordinator) (level : ConsistencyLevel) (n n' : NodeId),
          level.requiredResponses coordinator.replicationFactor ≤ 2 →
            ∃ res, coordinator.resolve [⟨n, d, d.version⟩, ⟨n', d', d'.version⟩] level = .ok res ∧
              res.document = d ∧ res.staleNodes = [] := by
  have hs := RocksDbStorage.wellFormed_of_new hnew
  have hversion : ∀ doc, .putInCollection c doc ∈ cmds.flatMap RaftCommand.storageCalls →
      doc.version = VectorClock.new := by
    intro doc hmem
    obtain ⟨cmd, hcmd, hcall⟩ := List.mem_flatMap.1 hmem
    obtain ⟨request, hrequest⟩ := hcmds cmd hcmd
    exact version_of_mem_commands hrequest hcall
  have hsame : doc.version = doc'.version := by
    rw [hversion doc (by simp [hcalls]), hversion doc' (by simp [hcalls])]
  refine ⟨by rw [storage_applyCommands, hcalls]; rfl, doc, doc', ?_, ?_, ?_, ?_⟩
  · rw [StorageCall.execAll_append]
    exact getFromCollection_put (hs.execAll before) hput
  · rw [← List.cons_append, ← List.append_assoc, StorageCall.execAll_append, hid]
    exact getFromCollection_put (hs.execAll _) hput'
  · rw [hsame, VectorClock.dominates_irrefl]
  · exact fun coordinator level n n' henough => ReadCoordinator.resolve_pair hsame henough

end Stored

/-- The requests that create the collection `c`, index the document `d` and replace it. -/
def indexedTwice : List WriteRequest :=
  [.createCollection "c" SchemaConfig.new, .index "c" ⟨"d"⟩ ∅, .upsert "c" ⟨"d"⟩ ∅]

theorem mem_commands_indexedTwice {cmd : RaftCommand}
    (h : cmd ∈ indexedTwice.flatMap WriteRequest.commands) :
    ∃ request : WriteRequest, cmd ∈ request.commands := by
  obtain ⟨request, -, hcmd⟩ := List.mem_flatMap.1 h
  exact ⟨request, hcmd⟩

theorem put_indexedTwice : (StorageBackend.putInCollection
    (StorageCall.execAll freshMachine.storage [.createCollection "c"]) "c" (documentOf ⟨"d"⟩ ∅)).1 = .ok () := by
  decide

theorem put_again_indexedTwice : (StorageBackend.putInCollection
    (StorageCall.execAll freshMachine.storage
      ([.createCollection "c"] ++ .putInCollection "c" (documentOf ⟨"d"⟩ ∅) :: [])) "c"
        (documentOf ⟨"d"⟩ ∅)).1 = .ok () := by
  decide

/-- A document that is indexed and then replaced. -/
theorem versions_do_not_grow_upsert :
    ∃ d d', StorageBackend.getFromCollection (StorageCall.execAll freshMachine.storage
          ([.createCollection "c"] ++ [.putInCollection "c" (documentOf ⟨"d"⟩ ∅)])) "c" ⟨"d"⟩ = .ok d ∧
      StorageBackend.getFromCollection (StorageCall.execAll freshMachine.storage
          ([.createCollection "c"] ++ .putInCollection "c" (documentOf ⟨"d"⟩ ∅) ::
            ([] ++ [.putInCollection "c" (documentOf ⟨"d"⟩ ∅)]))) "c" ⟨"d"⟩ = .ok d' ∧
      d'.version.dominates d.version = false := by
  obtain ⟨-, d, d', hd, hd', hdom, -⟩ := versions_do_not_grow new_freshMachine ()
    (indexedTwice.flatMap WriteRequest.commands) (fun cmd h => mem_commands_indexedTwice h) "c"
    (documentOf ⟨"d"⟩ ∅) (documentOf ⟨"d"⟩ ∅) rfl [.createCollection "c"] [] [] rfl
    put_indexedTwice put_again_indexedTwice
  exact ⟨d, d', hd, hd', hdom⟩

/-- Two successive writes store versions of which the later does not dominate. -/
theorem not_versions_grow :
    let doc := documentOf ⟨"d"⟩ ∅
    let cmds := indexedTwice.flatMap WriteRequest.commands
    (∀ cmd ∈ cmds, ∃ request : WriteRequest, cmd ∈ request.commands) ∧
      cmds.flatMap RaftCommand.storageCalls =
        [.createCollection "c", .putInCollection "c" doc, .putInCollection "c" doc] ∧
      (StorageBackend.putInCollection
        (StorageCall.execAll freshMachine.storage [.createCollection "c"]) "c" doc).1 = .ok () ∧
      (StorageBackend.putInCollection (StorageCall.execAll freshMachine.storage
        [.createCollection "c", .putInCollection "c" doc]) "c" doc).1 = .ok () ∧
      ∃ d d', StorageBackend.getFromCollection (StorageCall.execAll freshMachine.storage
          [.createCollection "c", .putInCollection "c" doc]) "c" doc.id = .ok d ∧
        StorageBackend.getFromCollection (StorageCall.execAll freshMachine.storage
          [.createCollection "c", .putInCollection "c" doc, .putInCollection "c" doc]) "c" doc.id = .ok d' ∧
        d'.version.dominates d.version = false := by
  have hs := RocksDbStorage.wellFormed_of_new new_freshMachine
  refine ⟨fun cmd h => mem_commands_indexedTwice h, rfl, put_indexedTwice, put_again_indexedTwice, documentOf ⟨"d"⟩ ∅,
    documentOf ⟨"d"⟩ ∅, ?_, ?_, VectorClock.dominates_irrefl _⟩
  · exact getFromCollection_put (hs.execAll _) put_indexedTwice
  · exact getFromCollection_put (hs.execAll _) put_again_indexedTwice

end MSearchDB.Node
