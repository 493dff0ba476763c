import MSearchDB.Lib.Run
import MSearchDB.Storage.Collections
import MSearchDB.Storage.RocksDbReopen

/-!
# Collections are independent maps

`DocumentMaps` is what the store is for: a map from ids to documents for each collection
that exists, and one default map beside them. A store is seen as such maps (`view`), and
every call of the backend answers and acts as on the maps (`view_execMap`), so that all
answers of a run are those of the maps. `Frame` lists what a call leaves alone in the
database: the families of other collections, the default map, the metadata, and the
sequence family but for the counter of a put.
-/

set_option autoImplicit false

namespace MSearchDB.Storage.RocksDb

open MSearchDB.Lib
open MSearchDB.Core

/-- A call of a method of `StorageBackend`. -/
inductive MapCall where
  | write (call : StorageCall)
  | get (id : DocumentId)
  | getFromCollection (collection : String) (id : DocumentId)
  deriving DecidableEq

/-! ## The reference model -/

/-- Documents by their ids. -/
abbrev DocumentMap := DocumentId → Option Document

/-- The collections that exist, and the default map. -/
@[ext] structure DocumentMaps where
  defaultMap : DocumentMap
  collections : String → Option DocumentMap

/-- Why a call on the maps fails. -/
inductive MapError where
  | noCollection (collection : String)
  | nothingToDrop (collection : String)
  | notFound (id : DocumentId)
  | notFoundIn (collection : String) (id : DocumentId)
  deriving DecidableEq

namespace DocumentMaps

/-- Nothing is stored and no collection exists. -/
def empty : DocumentMaps := ⟨fun _ => none, fun _ => none⟩

/-- Replace or remove a collection. -/
def setCollection (m : DocumentMaps) (c : String) (f : Option DocumentMap) : DocumentMaps :=
  { m with collections := Function.update m.collections c f }

/-- A call on the maps, with its answer. -/
def exec (m : DocumentMaps) : MapCall → DocumentMaps × Except MapError (Option Document)
  -- a collection that exists keeps its documents
  | .write (.createCollection c) =>
      (m.setCollection c ((m.collections c).or (some fun _ => none)), .ok none)
  | .write (.dropCollection c) =>
      match m.collections c with
      | none => (m, .error (.nothingToDrop c))
      | some _ => (m.setCollection c none, .ok none)
  | .write (.putInCollection c doc) =>
      match m.collections c with
      | none => (m, .error (.noCollection c))
      | some f => (m.setCollection c (some (Function.update f doc.id (some doc))), .ok none)
  | .write (.deleteFromCollection c id) =>
      match m.collections c with
      | none => (m, .error (.noCollection c))
      | some f =>
          match f id with
          | none => (m, .error (.notFoundIn c id))
          | some _ => (m.setCollection c (some (Function.update f id none)), .ok none)
  | .write (.put doc) =>
      ({ m with defaultMap := Function.update m.defaultMap doc.id (some doc) }, .ok none)
  | .write (.delete id) =>
      match m.defaultMap id with
      | none => (m, .error (.notFound id))
      | some _ => ({ m with defaultMap := Function.update m.defaultMap id none }, .ok none)
  | .get id =>
      match m.defaultMap id with
      | none => (m, .error (.notFound id))
      | some doc => (m, .ok (some doc))
  | .getFromCollection c id =>
      match m.collections c with
      | none => (m, .error (.noCollection c))
      | some f =>
          match f id with
          | none => (m, .error (.notFoundIn c id))
          | some doc => (m, .ok (some doc))

end DocumentMaps

/-- The error with which the store reports a failure. -/
def MapError.toDbError : MapError → DbError
  | .noCollection c => RocksDbStorage.unknownCf (RocksDbStorage.collectionCfName c)
  | .nothingToDrop c =>
      let cfName := RocksDbStorage.collectionCfName c
      .storageError ("failed to drop CF '" ++ cfName ++ "': " ++ ("Invalid column family: " ++ cfName))
  | .notFound id => RocksDbStorage.documentNotFound id
  | .notFoundIn c id => RocksDbStorage.documentNotFoundIn c id

/-- A call on the maps, with failures reported as the store does. -/
def DocumentMaps.respond (m : DocumentMaps) (call : MapCall) :
    DocumentMaps × DbResult (Option Document) :=
  ((m.exec call).1, (m.exec call).2.mapError MapError.toDbError)

namespace RocksDbStorage

section

variable [RmpSerde Document]

/-! ## Calls of the store -/

/-- What a call that can change the store returns. -/
def answer (s : RocksDbStorage) : StorageCall → DbResult Unit
  | .put doc => (StorageBackend.put s doc).1
  | .delete id => (StorageBackend.delete s id).1
  | .createCollection c => (StorageBackend.createCollection s c).1
  | .dropCollection c => (StorageBackend.dropCollection s c).1
  | .putInCollection c doc => (StorageBackend.putInCollection s c doc).1
  | .deleteFromCollection c id => (StorageBackend.deleteFromCollection s c id).1

/-- A call of the store, with its answer. -/
def execMap (s : RocksDbStorage) : MapCall → RocksDbStorage × DbResult (Option Document)
  | .write call => (StorageCall.exec s call, (s.answer call).map fun _ => none)
  | .get id => (s, (StorageBackend.get s id).map some)
  | .getFromCollection c id => (s, (StorageBackend.getFromCollection s c id).map some)

/-- The store after a call. -/
def stepMap (s : RocksDbStorage) (call : MapCall) : RocksDbStorage := (s.execMap call).1

/-- RocksDB accepts the name of a new collection, and the document can be serialised. -/
def Accepted : MapCall → Prop
  | .write (.createCollection c) => '\x00' ∉ c.toList
  | .write call => EncodesCall call
  | _ => True

theorem Accepted.encodes {call : StorageCall} (h : Accepted (.write call)) : EncodesCall call := by
  cases call with
  | createCollection c => trivial
  | put doc => exact h
  | delete id => exact h
  | dropCollection c => exact h
  | putInCollection c doc => exact h
  | deleteFromCollection c id => exact h

/-- A store that was opened at an empty path, used, closed and opened again. -/
inductive Reached : RocksDbStorage → Prop where
  | opened {options : StorageOptions} {s : RocksDbStorage} :
      RocksDbStorage.new none options = .ok s → Reached s
  | called {s : RocksDbStorage} (call : MapCall) : Reached s → Reached (s.stepMap call)
  | reopened {options : StorageOptions} {s s' : RocksDbStorage} :
      Reached s → RocksDbStorage.new (some s.db) options = .ok s' → Reached s'

/-! ## The maps of a store -/

/-- The documents of the default map. -/
def defaultDocs (s : RocksDbStorage) : DocumentMap :=
  ((s.db.slot cfDocuments).map decoded).getD fun _ => none

/-- The store as maps. -/
def view (s : RocksDbStorage) : DocumentMaps := ⟨s.defaultDocs, s.docs⟩

variable {s : RocksDbStorage}

theorem view_defaultMap : s.view.defaultMap = s.defaultDocs := rfl

theorem view_collections (c : String) :
    s.view.collections c = (s.db.slot (collectionCfName c)).map decoded := rfl

theorem map_decoded_documents (h : HasBase s) :
    (s.db.slot cfDocuments).map decoded = some s.defaultDocs := by
  obtain ⟨f, hf⟩ := Option.isSome_iff_exists.1 (h cfDocuments (by decide))
  rw [defaultDocs, hf]
  rfl

omit [RmpSerde Document] in
/-- An opened database is the one that was closed. -/
theorem db_of_reopened (h : HasBase s) {options : StorageOptions} {s' : RocksDbStorage}
    (hs' : RocksDbStorage.new (some s.db) options = .ok s') : s'.db = s.db := by
  obtain ⟨hopen, -⟩ := new_isOk_iff.1 ⟨s', hs', rfl⟩
  obtain ⟨-, hdb⟩ := (DB.openCfDescriptors_some rfl).1 hopen
  rw [← hdb]
  -- no family is missing, so that none is created
  refine DB.createMissing_of_exists fun name hname => ?_
  rw [← isSome_slot]
  exact h name hname

theorem Reached.wellFormed (h : Reached s) : WellFormed s := by
  induction h with
  | opened hnew => exact wellFormed_of_new hnew
  | called call _ ih =>
      cases call with
      | write call => exact ih.exec call
      | get id => exact ih
      | getFromCollection c id => exact ih
  | reopened _ hnew ih =>
      -- the counter may differ, the database does not
      have hdb := db_of_reopened ih.base hnew
      exact ⟨fun name hname => hdb ▸ ih.base name hname, fun name hname => hdb ▸ ih.encoded name hname⟩

theorem view_of_new {options : StorageOptions} (h : RocksDbStorage.new none options = .ok s) :
    s.view = .empty := by
  refine DocumentMaps.ext ?_ (funext fun c => ?_)
  · show s.defaultDocs = fun _ => none
    rw [defaultDocs, slot_of_new h, if_pos (by decide)]
    rfl
  · show s.docs c = none
    rw [docs, slot_collection_of_new h]
    rfl

/-! ## What a call does to the maps -/

/-- What a call does to the default map. -/
def defaultOps : StorageCall → List (Write DocumentId Document)
  | .put doc => [.put doc.id doc]
  | .delete id => [.delete id]
  | _ => []

theorem defaultDocs_exec (h : WellFormed s) {call : StorageCall} (henc : EncodesCall call) :
    (StorageCall.exec s call).defaultDocs = Write.execAll s.defaultDocs (defaultOps call) := by
  obtain ⟨f, hf⟩ := Option.isSome_iff_exists.1 (h.base cfDocuments (by decide))
  have hdefault : s.defaultDocs = decoded f := by
    rw [defaultDocs, hf]
    rfl
  rw [hdefault, defaultDocs, slot_exec h call (by decide), hf]
  cases call with
  | put doc =>
      obtain ⟨bytes, hbytes⟩ := henc
      rw [opsOn, putOps, if_pos rfl, hbytes]
      exact decoded_put hbytes
  | delete id =>
      rw [opsOn, if_pos rfl]
      exact decoded_delete f id
  | createCollection c => simp [opsOn, defaultOps]
  | dropCollection c => simp [opsOn, defaultOps]
  | putInCollection c doc => simp [opsOn, putOps, defaultOps]
  | deleteFromCollection c id => simp [opsOn, defaultOps]

omit [RmpSerde Document] in
theorem setCollection_self (m : DocumentMaps) (c : String) :
    m.setCollection c (m.collections c) = m := by
  rw [DocumentMaps.setCollection, Function.update_eq_self]

omit [RmpSerde Document] in
/-- One slot operation on one collection. -/
theorem setCollection_run (m : DocumentMaps) (c d : String) (op : SlotOp DocumentId Document) :
    (m.setCollection c (SlotOp.run (m.collections c) op)).collections d =
      SlotOp.runAll (m.collections d) (if c = d then [op] else []) := by
  by_cases hd : c = d
  · subst hd
    rw [if_pos rfl]
    exact Function.update_self c _ m.collections
  · rw [if_neg hd]
    exact Function.update_of_ne (Ne.symm hd) _ m.collections

omit [RmpSerde Document] in
theorem exec_createCollection (m : DocumentMaps) (c : String) :
    (m.exec (.write (.createCollection c))).1 =
      m.setCollection c (SlotOp.run (m.collections c) .create) := by
  rw [DocumentMaps.exec]
  cases m.collections c with
  | none => rfl
  | some f => rfl

omit [RmpSerde Document] in
theorem exec_dropCollection (m : DocumentMaps) (c : String) :
    (m.exec (.write (.dropCollection c))).1 =
      m.setCollection c (SlotOp.run (m.collections c) .drop) := by
  rw [DocumentMaps.exec]
  cases hc : m.collections c with
  | none => exact (hc ▸ setCollection_self m c).symm
  | some f => rfl

omit [RmpSerde Document] in
theorem exec_putInCollection (m : DocumentMaps) (c : String) (doc : Document) :
    (m.exec (.write (.putInCollection c doc))).1 =
      m.setCollection c (SlotOp.run (m.collections c) (.write (.put doc.id doc))) := by
  rw [DocumentMaps.exec]
  cases hc : m.collections c with
  | none => exact (hc ▸ setCollection_self m c).symm
  | some f => rfl

omit [RmpSerde Document] in
theorem exec_deleteFromCollection (m : DocumentMaps) (c : String) (id : DocumentId) :
    (m.exec (.write (.deleteFromCollection c id))).1 =
      m.setCollection c (SlotOp.run (m.collections c) (.write (.delete id))) := by
  rw [DocumentMaps.exec]
  cases hc : m.collections c with
  | none => exact (hc ▸ setCollection_self m c).symm
  | some f =>
      cases hf : f id with
      | some doc => simp [hf, SlotOp.run, Write.exec, Write.key, Write.outcome]
      | none =>
          -- nothing is at the id already
          have hsame : Write.exec f (.delete id) = f := Function.update_eq_self_iff.2 hf.symm
          have hself : m.setCollection c (some f) = m := hc ▸ setCollection_self m c
          simp [hf, SlotOp.run, hsame, hself]

/-- A call on the maps changes a collection as its slot operations do. -/
theorem collections_exec (m : DocumentMaps) {call : StorageCall} (hcall : Accepted (.write call))
    (d : String) :
    (m.exec (.write call)).1.collections d = SlotOp.runAll (m.collections d) (docOpsOn d call) := by
  cases call with
  | put doc => rfl
  | delete id =>
      rw [DocumentMaps.exec]
      split
      · rfl
      · rfl
  | createCollection c =>
      rw [exec_createCollection, setCollection_run, docOpsOn]
      exact congrArg _ (if_congr (and_iff_left hcall).symm rfl rfl)
  | dropCollection c =>
      rw [exec_dropCollection, setCollection_run, docOpsOn]
  | putInCollection c doc =>
      rw [exec_putInCollection, setCollection_run, docOpsOn]
  | deleteFromCollection c id =>
      rw [exec_deleteFromCollection, setCollection_run, docOpsOn]

omit [RmpSerde Document] in
/-- A call on the maps changes the default map as its writes do. -/
theorem defaultMap_exec (m : DocumentMaps) (call : StorageCall) :
    (m.exec (.write call)).1.defaultMap = Write.execAll m.defaultMap (defaultOps call) := by
  cases call with
  | put doc => rfl
  | delete id =>
      rw [DocumentMaps.exec]
      cases hid : m.defaultMap id with
      | none => exact (Function.update_eq_self_iff.2 hid.symm).symm
      | some doc => rfl
  | createCollection c => rfl
  | dropCollection c =>
      rw [DocumentMaps.exec]
      split <;> rfl
  | putInCollection c doc =>
      rw [DocumentMaps.exec]
      split <;> rfl
  | deleteFromCollection c id =>
      rw [DocumentMaps.exec]
      split
      · rfl
      · split <;> rfl

theorem view_exec (h : WellFormed s) {call : StorageCall} (hcall : Accepted (.write call)) :
    (StorageCall.exec s call).view = (s.view.exec (.write call)).1 := by
  refine DocumentMaps.ext ?_ (funext fun c => ?_)
  · rw [defaultMap_exec]
    exact defaultDocs_exec h hcall.encodes
  · rw [collections_exec _ hcall]
    exact docs_exec h hcall.encodes c

/-! ## Answers -/

/-- A document that can be serialised is put into a family that exists. -/
theorem putDocumentIn_fst (h : HasBase s) {doc : Document} (henc : Encodes doc) (cf : String) :
    (s.putDocumentIn cf doc).1 = match s.db.slot cf with
      | none => .error (unknownCf cf)
      | some _ => .ok () := by
  obtain ⟨bytes, hbytes⟩ := henc
  obtain ⟨f, hf⟩ := Option.isSome_iff_exists.1 (h cfSequence (by decide))
  obtain ⟨seq, hseq, -⟩ := Option.map_eq_some_iff.1 hf
  simp only [putDocumentIn, hbytes, RocksDbStorage.put, fetchAdd, writeBatch, hseq, DB.slot]
  cases s.db.cfHandle cf with
  | none => rfl
  | some m => rfl

/-- A deletion looks the document up in the family. -/
theorem deleteIfFound_fst (h : WellFormed s) {cf : String} (hcf : cfSequence ≠ cf) (missing : DbError)
    (id : DocumentId) :
    (deleteIfFound missing s (s.delete cf id.key) (s.getDocumentFrom cf id)).1 =
      match (s.db.slot cf).map decoded with
      | none => .error (unknownCf cf)
      | some m =>
          match m id with
          | none => .error missing
          | some _ => .ok () := by
  rw [getDocumentFrom_eq_decoded h hcf]
  cases hslot : s.db.slot cf with
  | none => rfl
  | some f =>
      obtain ⟨m, hm, -⟩ := Option.map_eq_some_iff.1 hslot
      cases hid : decoded f id with
      | none => simp [deleteIfFound, hid]
      | some doc => simp [deleteIfFound, hid, RocksDbStorage.delete, hm]

theorem okOr_getDocumentFrom (h : WellFormed s) {cf : String} (hcf : cfSequence ≠ cf)
    (missing : DbError) (id : DocumentId) :
    okOr missing (s.getDocumentFrom cf id) =
      match (s.db.slot cf).map decoded with
      | none => .error (unknownCf cf)
      | some m =>
          match m id with
          | none => .error missing
          | some doc => .ok doc := by
  rw [getDocumentFrom_eq_decoded h hcf]
  cases (s.db.slot cf).map decoded with
  | none => rfl
  | some m => cases hid : m id <;> simp [okOr, hid]

theorem answer_eq (h : WellFormed s) {call : StorageCall} (hcall : Accepted (.write call)) :
    (s.answer call).map (fun _ => none) =
      (s.view.exec (.write call)).2.mapError MapError.toDbError := by
  cases call with
  | put doc =>
      obtain ⟨f, hf⟩ := Option.isSome_iff_exists.1 (h.base cfDocuments (by decide))
      have hput : s.answer (.put doc) = .ok () := by
        refine (putDocumentIn_fst h.base hcall cfDocuments).trans ?_
        rw [hf]
      rw [hput]
      rfl
  | delete id =>
      have hdelete : s.answer (.delete id) = _ :=
        deleteIfFound_fst h (by decide : cfSequence ≠ cfDocuments) (documentNotFound id) id
      rw [hdelete, map_decoded_documents h.base, DocumentMaps.exec, view_defaultMap]
      cases hid : s.defaultDocs id <;> simp [hid, Except.map, Except.mapError, MapError.toDbError]
  | createCollection c =>
      have hcreate : s.answer (.createCollection c) = .ok () :=
        (createCollection_ok_iff c).2 (Or.inr hcall)
      rw [hcreate]
      rfl
  | dropCollection c =>
      simp only [answer, StorageBackend.dropCollection, dropCollectionCf, DB.dropCf, DocumentMaps.exec,
        view_collections, DB.slot]
      cases s.db.cfHandle (collectionCfName c) with
      | none => rfl
      | some m => rfl
  | putInCollection c doc =>
      have hput : s.answer (.putInCollection c doc) = _ :=
        putDocumentIn_fst h.base hcall (collectionCfName c)
      rw [hput, DocumentMaps.exec, view_collections]
      cases s.db.slot (collectionCfName c) with
      | none => rfl
      | some f => rfl
  | deleteFromCollection c id =>
      have hdelete : s.answer (.deleteFromCollection c id) = _ :=
        deleteIfFound_fst h (collectionCfName_ne_sequence c).symm (documentNotFoundIn c id) id
      rw [hdelete, DocumentMaps.exec, view_collections]
      cases (s.db.slot (collectionCfName c)).map decoded with
      | none => rfl
      | some f => cases hf : f id <;> simp [hf, Except.map, Except.mapError, MapError.toDbError]

/-- **A call of the store is a call of its maps.** -/
theorem view_execMap (h : WellFormed s) {call : MapCall} (hcall : Accepted call) :
    (s.execMap call).2 = (s.view.respond call).2 ∧ (s.execMap call).1.view = (s.view.respond call).1 := by
  cases call with
  | write call => exact ⟨answer_eq h hcall, view_exec h hcall⟩
  | get id =>
      have hget : StorageBackend.get s id = _ :=
        okOr_getDocumentFrom h (by decide : cfSequence ≠ cfDocuments) (documentNotFound id) id
      rw [execMap, hget, map_decoded_documents h.base, DocumentMaps.respond, DocumentMaps.exec,
        view_defaultMap]
      cases hid : s.defaultDocs id <;> simp [hid, Except.map, Except.mapError, MapError.toDbError]
  | getFromCollection c id =>
      have hget : StorageBackend.getFromCollection s c id = _ :=
        okOr_getDocumentFrom h (collectionCfName_ne_sequence c).symm (documentNotFoundIn c id) id
      rw [execMap, hget, DocumentMaps.respond, DocumentMaps.exec, view_collections]
      cases (s.db.slot (collectionCfName c)).map decoded with
      | none => simp [Except.map, Except.mapError, MapError.toDbError]
      | some f => cases hf : f id <;> simp [hf, Except.map, Except.mapError, MapError.toDbError]

/-! ## What a call leaves alone -/

/-- The column family a call changes. -/
def familyOf : MapCall → Option String
  | .write (.put _) => some cfDocuments
  | .write (.delete _) => some cfDocuments
  | .write (.createCollection c) => some (collectionCfName c)
  | .write (.dropCollection c) => some (collectionCfName c)
  | .write (.putInCollection c _) => some (collectionCfName c)
  | .write (.deleteFromCollection c _) => some (collectionCfName c)
  | .get _ => none
  | .getFromCollection _ _ => none

/-- The call puts a document. -/
def isPut : MapCall → Bool
  | .write (.put _) => true
  | .write (.putInCollection _ _) => true
  | _ => false

/-- The families that a call does not change. A put advances the sequence counter, and
writes it when it succeeds. -/
structure Frame (s : RocksDbStorage) (call : MapCall) : Prop where
  collections : ∀ c, familyOf call ≠ some (collectionCfName c) →
    (s.stepMap call).db.slot (collectionCfName c) = s.db.slot (collectionCfName c)
  documents : familyOf call ≠ some cfDocuments →
    (s.stepMap call).db.slot cfDocuments = s.db.slot cfDocuments
  metadata : (s.stepMap call).db.slot cfMetadata = s.db.slot cfMetadata
  sequence : isPut call = false → (s.stepMap call).db.slot cfSequence = s.db.slot cfSequence ∧
    (s.stepMap call).sequence = s.sequence
  advance : isPut call = true → (s.stepMap call).sequence = s.sequence + 1 ∧
    ((s.stepMap call).db.slot cfSequence = s.db.slot cfSequence ∨
      (s.stepMap call).db.slot cfSequence = SlotOp.run (s.db.slot cfSequence)
        (.write (.put currentSeqKey (toLeBytes64 (s.sequence + 1)))))

theorem opsOn_eq_nil {name : String} {call : StorageCall} (h : familyOf (.write call) ≠ some name) :
    opsOn name call = [] := by
  have hne : ∀ cf, familyOf (.write call) = some cf → cf ≠ name := fun cf hcf heq => h (heq ▸ hcf)
  cases call with
  | put doc => exact if_neg (hne _ rfl)
  | delete id => exact if_neg (hne _ rfl)
  | createCollection c => exact if_neg fun hc => hne _ rfl hc.1
  | dropCollection c => exact if_neg (hne _ rfl)
  | putInCollection c doc => exact if_neg (hne _ rfl)
  | deleteFromCollection c id => exact if_neg (hne _ rfl)

/-- Other families, apart from the one of the sequence counter. -/
theorem slot_stepMap_of_ne (h : WellFormed s) {call : MapCall} {name : String}
    (hfamily : familyOf call ≠ some name) (hname : cfSequence ≠ name) :
    (s.stepMap call).db.slot name = s.db.slot name := by
  cases call with
  | write call =>
      show (StorageCall.exec s call).db.slot name = _
      rw [slot_exec h call hname, opsOn_eq_nil hfamily]
      rfl
  | get id => rfl
  | getFromCollection c id => rfl

omit [RmpSerde Document] in
theorem familyOf_ne_metadata (call : MapCall) : familyOf call ≠ some cfMetadata := by
  have hcollection : ∀ c, collectionCfName c ≠ cfMetadata := fun c =>
    collectionCfName_ne_of_head (by decide)
  cases call with
  | write call =>
      cases call with
      | put doc => exact fun heq => absurd (Option.some.inj heq) (by decide)
      | delete id => exact fun heq => absurd (Option.some.inj heq) (by decide)
      | createCollection c => exact fun heq => hcollection c (Option.some.inj heq)
      | dropCollection c => exact fun heq => hcollection c (Option.some.inj heq)
      | putInCollection c doc => exact fun heq => hcollection c (Option.some.inj heq)
      | deleteFromCollection c id => exact fun heq => hcollection c (Option.some.inj heq)
  | get id => exact nofun
  | getFromCollection c id => exact nofun

/-- A put takes a number, and its batch ends with it. -/
theorem sequence_putDocumentIn (h : HasBase s) {doc : Document} (henc : Encodes doc) {cf : String}
    (hcf : cf ≠ cfSequence) :
    (s.putDocumentIn cf doc).2.sequence = s.sequence + 1 ∧
      ((s.putDocumentIn cf doc).2.db.slot cfSequence = s.db.slot cfSequence ∨
        (s.putDocumentIn cf doc).2.db.slot cfSequence = SlotOp.run (s.db.slot cfSequence)
          (.write (.put currentSeqKey (toLeBytes64 (s.sequence + 1))))) := by
  obtain ⟨bytes, hbytes⟩ := henc
  rw [putDocumentIn, hbytes]
  constructor
  · simp only [RocksDbStorage.put, fetchAdd, writeBatch]
    split
    · rfl
    · split <;> rfl
  · simp only [slot_put h, if_neg hcf]
    split
    · exact Or.inr (if_pos trivial)
    · exact Or.inl rfl

omit [RmpSerde Document] in
theorem sequence_delete (s : RocksDbStorage) (cf : String) (key : Bytes) :
    (s.delete cf key).2.sequence = s.sequence := by
  rw [RocksDbStorage.delete]
  split <;> rfl

/-- A deletion leaves the sequence counter. -/
theorem sequence_deleteIfFound (h : WellFormed s) {cf : String} (hcf : cf ≠ cfSequence)
    (missing : DbError) (id : DocumentId) (found : DbResult (Option Document))
    (hfound : found = s.getDocumentFrom cf id) :
    (deleteIfFound missing s (s.delete cf id.key) found).2.db.slot cfSequence = s.db.slot cfSequence ∧
      (deleteIfFound missing s (s.delete cf id.key) found).2.sequence = s.sequence := by
  constructor
  · rw [hfound, slot_deleteIfFound (h.encoded _ hcf.symm), if_neg hcf]
  · rcases deleteIfFound_cases missing s (s.delete cf id.key) found with heq | heq
    · rw [heq]
    · rw [heq, sequence_delete]

theorem sequence_stepMap (h : WellFormed s) {call : MapCall} (hput : isPut call = false) :
    (s.stepMap call).db.slot cfSequence = s.db.slot cfSequence ∧
      (s.stepMap call).sequence = s.sequence := by
  cases call with
  | get id => exact ⟨rfl, rfl⟩
  | getFromCollection c id => exact ⟨rfl, rfl⟩
  | write call =>
      cases call with
      | put doc => simp [isPut] at hput
      | putInCollection c doc => simp [isPut] at hput
      | delete id => exact sequence_deleteIfFound h (by decide) _ id _ rfl
      | deleteFromCollection c id =>
          exact sequence_deleteIfFound h (collectionCfName_ne_sequence c) _ id _ rfl
      | createCollection c =>
          refine ⟨(slot_createCollectionCf s c cfSequence).trans ?_, ?_⟩
          · exact if_neg fun hc => collectionCfName_ne_sequence c hc.1
          · show (s.createCollectionCf c).2.sequence = _
            simp only [createCollectionCf]
            split
            · rfl
            · split <;> rfl
      | dropCollection c =>
          refine ⟨(slot_dropCollectionCf s c cfSequence).trans ?_, ?_⟩
          · exact if_neg (collectionCfName_ne_sequence c)
          · show (s.dropCollectionCf c).2.sequence = _
            simp only [dropCollectionCf]
            split <;> rfl

theorem frame (h : WellFormed s) {call : MapCall} (hcall : Accepted call) : Frame s call where
  collections c hc := slot_stepMap_of_ne h hc (collectionCfName_ne_sequence c).symm
  documents hdocuments := slot_stepMap_of_ne h hdocuments (by decide)
  metadata := slot_stepMap_of_ne h (familyOf_ne_metadata call) (by decide)
  sequence hput := sequence_stepMap h hput
  advance hput := by
    cases call with
    | get id => simp [isPut] at hput
    | getFromCollection c id => simp [isPut] at hput
    | write call =>
        cases call with
        | put doc => exact sequence_putDocumentIn h.base hcall (by decide)
        | putInCollection c doc =>
            exact sequence_putDocumentIn h.base hcall (collectionCfName_ne_sequence c)
        | delete id => simp [isPut] at hput
        | deleteFromCollection c id => simp [isPut] at hput
        | createCollection c => simp [isPut] at hput
        | dropCollection c => simp [isPut] at hput

/-! ## Runs -/

theorem Reached.run {s : RocksDbStorage} (h : Reached s) (calls : List MapCall) :
    Reached (calls.foldl stepMap s) := by
  induction calls generalizing s with
  | nil => exact h
  | cons call calls ih => exact ih (.called call h)

end

/-- A collection with the name of a fixed family, and the same id looked up in both maps. -/
def metadataCollection : List MapCall :=
  [.write (.createCollection "metadata"), .write (.putInCollection "metadata" (.new ⟨"d"⟩)),
    .getFromCollection "metadata" ⟨"d"⟩, .get ⟨"d"⟩, .write (.dropCollection "metadata"),
    .write (.createCollection "metadata"), .getFromCollection "metadata" ⟨"d"⟩]

theorem accepted_metadataCollection : ∀ call ∈ metadataCollection, Accepted call := by
  have hd : Encodes (Document.new ⟨"d"⟩) := encodes_bare (by decide)
  have hname : '\x00' ∉ "metadata".toList := by decide
  simp only [metadataCollection, List.forall_mem_cons, List.not_mem_nil, false_imp_iff, implies_true,
    and_true]
  exact ⟨hname, hd, trivial, trivial, trivial, hname, trivial⟩

end RocksDbStorage

end MSearchDB.Storage.RocksDb
