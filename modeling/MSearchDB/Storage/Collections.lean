import MSearchDB.Lib.Mirror
import MSearchDB.Core.DocumentPayload
import MSearchDB.Storage.RocksDbSlots

/-!
# Collections as maps of documents

The contents of a collection, read through the serialisation: `docs s c` is the map
from ids to documents that the store `s` holds for the collection `c`, if there is
one. On a well-formed store every call of the backend is a create, a drop or a
write of that map (`docs_exec`), and the answers of the calls are determined by it
(`putInCollection_ok_iff`, `deleteFromCollection_ok_iff`, `getFromCollection_eq`).
-/

set_option autoImplicit false

namespace MSearchDB.Storage.RocksDb

open MSearchDB.Lib
open MSearchDB.Core

section

variable [RmpSerde Document]

/-- The document can be serialised. -/
def Encodes (doc : Document) : Prop := ∃ bytes, RmpSerde.toVec doc = .ok bytes

/-- The documents that a call hands to the store can be serialised. -/
def EncodesCall : StorageCall → Prop
  | .put doc => Encodes doc
  | .putInCollection _ doc => Encodes doc
  | _ => True

/-- The documents behind stored bytes. -/
def decoded (f : Bytes → Option Bytes) : DocumentId → Option Document :=
  fun id => (f id.key).bind fun bytes => (RmpSerde.fromSlice bytes).toOption

theorem decoded_put {f : Bytes → Option Bytes} {doc : Document} {bytes : Bytes}
    (henc : RmpSerde.toVec doc = .ok bytes) :
    decoded (Write.exec f (.put doc.id.key bytes)) = Write.exec (decoded f) (.put doc.id doc) := by
  funext id
  by_cases hid : id = doc.id
  · subst hid
    simp [decoded, Write.exec, Write.key, Write.outcome, RmpSerde.fromSlice_toVec henc, Except.toOption]
  · have hkey : id.key ≠ doc.id.key := fun h => hid (DocumentId.key_injective h)
    simp [decoded, Write.exec, Write.key, Write.outcome, hid, hkey]

theorem decoded_delete (f : Bytes → Option Bytes) (id : DocumentId) :
    decoded (Write.exec f (.delete id.key)) = Write.exec (decoded f) (.delete id) := by
  funext id'
  by_cases hid : id' = id
  · subst hid
    simp [decoded, Write.exec, Write.key, Write.outcome]
  · have hkey : id'.key ≠ id.key := fun h => hid (DocumentId.key_injective h)
    simp [decoded, Write.exec, Write.key, Write.outcome, hid, hkey]

namespace RocksDbStorage

/-- The documents of a collection by their ids, or nothing when there is no such
collection. -/
def docs (s : RocksDbStorage) (c : String) : Option (DocumentId → Option Document) :=
  (s.db.slot (collectionCfName c)).map decoded

/-- What a call does to the documents of the collection `c`. -/
def docOpsOn (c : String) : StorageCall → List (SlotOp DocumentId Document)
  | .put _ => []
  | .delete _ => []
  | .createCollection d => if d = c ∧ '\x00' ∉ d.toList then [.create] else []
  | .dropCollection d => if d = c then [.drop] else []
  | .putInCollection d doc => if d = c then [.write (.put doc.id doc)] else []
  | .deleteFromCollection d id => if d = c then [.write (.delete id)] else []

/-- The map sees the operations of the slot. -/
theorem map_decoded_runAll {c : String} {call : StorageCall} (henc : EncodesCall call)
    (slot : Option (Bytes → Option Bytes)) :
    (SlotOp.runAll slot (opsOn (collectionCfName c) call)).map decoded =
      SlotOp.runAll (slot.map decoded) (docOpsOn c call) := by
  have hdocs : cfDocuments ≠ collectionCfName c := (collectionCfName_ne_documents c).symm
  have hname : ∀ d, collectionCfName d = collectionCfName c ↔ d = c :=
    fun d => collectionCfName_injective.eq_iff
  cases call with
  | put doc => simp [opsOn, putOps, docOpsOn, hdocs]
  | delete id => simp [opsOn, docOpsOn, hdocs]
  | createCollection d =>
      simp only [opsOn, docOpsOn, hname]
      split
      · cases slot <;> rfl
      · rfl
  | dropCollection d =>
      simp only [opsOn, docOpsOn, hname]
      split
      · cases slot <;> rfl
      · rfl
  | putInCollection d doc =>
      obtain ⟨bytes, hbytes⟩ := henc
      simp only [opsOn, putOps, docOpsOn, hname, hbytes]
      split
      · cases slot with
        | none => rfl
        | some f => exact congrArg some (decoded_put hbytes)
      · rfl
  | deleteFromCollection d id =>
      simp only [opsOn, docOpsOn, hname]
      split
      · cases slot with
        | none => rfl
        | some f => exact congrArg some (decoded_delete f id)
      · rfl

/-- **Calls as operations on documents.** -/
theorem docs_exec {s : RocksDbStorage} (h : WellFormed s) {call : StorageCall}
    (henc : EncodesCall call) (c : String) :
    (StorageCall.exec s call).docs c = SlotOp.runAll (s.docs c) (docOpsOn c call) := by
  have hname : cfSequence ≠ collectionCfName c := (collectionCfName_ne_sequence c).symm
  rw [docs, slot_exec h call hname, map_decoded_runAll henc, docs]

/-- A call that is one operation on one collection. -/
theorem docs_exec_of_ops {s : RocksDbStorage} (h : WellFormed s) {call : StorageCall}
    (henc : EncodesCall call) {c : String} {op : SlotOp DocumentId Document}
    (hops : ∀ d, docOpsOn d call = if c = d then [op] else []) (d : String) :
    (StorageCall.exec s call).docs d = if d = c then SlotOp.run (s.docs d) op else s.docs d := by
  rw [docs_exec h henc, hops]
  by_cases hd : d = c
  · rw [if_pos hd, if_pos hd.symm]
    rfl
  · rw [if_neg hd, if_neg (Ne.symm hd)]
    rfl

/-- Documents put into one collection, one after the other. -/
theorem docs_execAll_puts {s : RocksDbStorage} (h : WellFormed s) (c : String)
    {documents : List Document} (henc : ∀ doc ∈ documents, Encodes doc) (d : String) :
    (StorageCall.execAll s (documents.map (.putInCollection c))).docs d =
      if d = c then (s.docs d).map fun m => putAll Document.id m documents else s.docs d := by
  induction documents generalizing s with
  | nil => simp [putAll]
  | cons doc documents ih =>
      have hcall : EncodesCall (.putInCollection c doc) := henc doc List.mem_cons_self
      rw [List.map_cons, StorageCall.execAll_cons,
        ih (h.exec _) fun doc' hdoc' => henc doc' (List.mem_cons_of_mem _ hdoc'),
        docs_exec h hcall]
      by_cases hd : d = c
      · subst hd
        cases s.docs d <;> simp [docOpsOn, SlotOp.run, putAll_cons]
      · simp [docOpsOn, hd, Ne.symm hd]

/-! ## Answers -/

theorem docs_eq_none_iff {s : RocksDbStorage} {c : String} :
    s.docs c = none ↔ s.db.cfHandle (collectionCfName c) = none := by
  simp [docs, DB.slot]

/-- A document that can be serialised is stored when the collection exists. -/
theorem putInCollection_ok_iff {s : RocksDbStorage} (h : WellFormed s) {doc : Document}
    (henc : Encodes doc) (c : String) :
    (StorageBackend.putInCollection s c doc).1 = .ok () ↔ (s.docs c).isSome := by
  obtain ⟨bytes, hbytes⟩ := henc
  have hseq : (s.db.cfHandle cfSequence).isSome := by
    rw [← isSome_slot]
    exact h.base _ (by decide)
  obtain ⟨seq, hseq⟩ := Option.isSome_iff_exists.1 hseq
  have hput : StorageBackend.putInCollection s c doc =
      s.put (collectionCfName c) doc.id.key bytes := by
    show s.putDocumentIn (collectionCfName c) doc = _
    rw [putDocumentIn, hbytes]
  rw [hput, Option.isSome_iff_ne_none, Ne, docs_eq_none_iff, RocksDbStorage.put]
  simp only [fetchAdd, writeBatch]
  cases hcf : s.db.cfHandle (collectionCfName c) with
  | none => simp
  | some cf => simp [hseq]

/-- A collection is created unless its name cannot be passed on, and one that exists
is accepted. -/
theorem createCollection_ok_iff {s : RocksDbStorage} (c : String) :
    (StorageBackend.createCollection s c).1 = .ok () ↔ (s.docs c).isSome ∨ '\x00' ∉ c.toList := by
  have hnul : '\x00' ∈ (collectionCfName c).toList ↔ '\x00' ∈ c.toList := by
    simp [collectionCfName]
  show (s.createCollectionCf c).1 = .ok () ↔ _
  rw [createCollectionCf, Option.isSome_iff_ne_none, Ne, docs_eq_none_iff]
  cases hcf : s.db.cfHandle (collectionCfName c) with
  | some m => simp
  | none =>
      by_cases hc : '\x00' ∈ c.toList
      · simp [DB.createCf, hnul, hc]
      · simp [DB.createCf, hnul, hc, hcf]

/-- A lookup returns what the column family holds. -/
theorem getDocumentFrom_eq_decoded {s : RocksDbStorage} (h : WellFormed s) {cf : String}
    (hcf : cfSequence ≠ cf) (id : DocumentId) :
    s.getDocumentFrom cf id =
      match (s.db.slot cf).map decoded with
      | none => .error (unknownCf cf)
      | some m => .ok (m id) := by
  cases hslot : s.db.slot cf with
  | none => exact getDocumentFrom_of_none hslot id
  | some f =>
      rcases getDocumentFrom_eq (h.encoded _ hcf) hslot id with
        ⟨hnone, hget⟩ | ⟨v, doc, hv, hdoc, -, hget⟩
      · simp [hget, decoded, hnone]
      · simp [hget, decoded, hv, RmpSerde.fromSlice_toVec hdoc, Except.toOption]

/-- A lookup returns what the map holds. -/
theorem getDocumentFromCollection_eq {s : RocksDbStorage} (h : WellFormed s) (c : String)
    (id : DocumentId) :
    s.getDocumentFromCollection c id =
      match s.docs c with
      | none => .error (unknownCf (collectionCfName c))
      | some m => .ok (m id) :=
  getDocumentFrom_eq_decoded h (collectionCfName_ne_sequence c).symm id

/-- `get_from_collection` on the map. -/
theorem getFromCollection_eq {s : RocksDbStorage} (h : WellFormed s) (c : String) (id : DocumentId) :
    StorageBackend.getFromCollection s c id =
      okOr (documentNotFoundIn c id) (match s.docs c with
        | none => .error (unknownCf (collectionCfName c))
        | some m => .ok (m id)) :=
  congrArg (okOr (documentNotFoundIn c id)) (getDocumentFromCollection_eq h c id)

omit [RmpSerde Document] in
/-- Lookups that find different documents have different answers. -/
theorem okOr_ok_inj (missing : DbError) {x y : Option Document} :
    okOr missing (.ok x) = okOr missing (.ok y) ↔ x = y := by
  cases x <;> cases y <;> simp [okOr]

/-- A deletion succeeds when it finds the document. -/
theorem deleteFromCollection_ok_iff {s : RocksDbStorage} (h : WellFormed s) (c : String)
    (id : DocumentId) :
    (StorageBackend.deleteFromCollection s c id).1 = .ok () ↔
      ∃ m doc, s.docs c = some m ∧ m id = some doc := by
  show (deleteIfFound _ s (s.deleteDocumentFromCollection c id)
    (s.getDocumentFromCollection c id)).1 = .ok () ↔ _
  rw [getDocumentFromCollection_eq h]
  cases hdocs : s.docs c with
  | none => simp [deleteIfFound]
  | some m =>
      cases hm : m id with
      | none => simp [deleteIfFound, hm]
      | some doc =>
          have hcf : s.db.cfHandle (collectionCfName c) ≠ none := by
            rw [Ne, ← docs_eq_none_iff, hdocs]
            simp
          obtain ⟨cf, hcf⟩ := Option.ne_none_iff_exists'.1 hcf
          simp [deleteIfFound, hm, deleteDocumentFromCollection, RocksDbStorage.delete, hcf]

end RocksDbStorage

end

theorem encodes_bare {id : String} (h : (asBytes id).length < 32) :
    Encodes (Document.new ⟨id⟩) :=
  ⟨encBare id, if_pos ⟨rfl, h⟩⟩

end MSearchDB.Storage.RocksDb
