import MSearchDB.Lib.WriteLog
import MSearchDB.Core.Document

/-!
# RocksDB

The part of the `rocksdb` crate that the storage engine calls, as its
documentation describes it. A database is a map from column-family names to
ordered maps of keys and values; it is faultless, and closing it keeps all that
was written. A handle of a column family is the family's name.

`DB.slot` is the abstract view of one column family: missing, or a partial
function. `DB.slot_putCf`, `DB.slot_deleteCf`, `DB.slot_createCf` and
`DB.slot_dropCf` describe the operations as slot operations.
-/

set_option autoImplicit false

namespace MSearchDB.Storage.RocksDb

open MSearchDB.Lib
open Std

/-- The contents of a column family, in the bytewise order of the keys. -/
abbrev ColumnFamily := ExtTreeMap Bytes Bytes

/-- A database: its column families by name. -/
structure DB where
  cfs : ExtTreeMap String ColumnFamily
  deriving DecidableEq

/-- The `rocksdb::Options` that decide whether a database opens. -/
structure Options where
  createIfMissing : Bool
  createMissingColumnFamilies : Bool
  deriving DecidableEq, Repr

/-- One record of a `WriteBatch`. -/
inductive BatchOp where
  | putCf (cf : String) (key value : Bytes)
  deriving DecidableEq, Repr

namespace DB

/-- `DB::cf_handle`, followed by a read of the family. -/
def cfHandle (db : DB) (name : String) : Option ColumnFamily := db.cfs[name]?

/-- Change the contents of a column family. -/
def modifyCf (db : DB) (cf : String) (f : ColumnFamily → ColumnFamily) : DB :=
  match db.cfHandle cf with
  | none => db
  | some m => ⟨db.cfs.insert cf (f m)⟩

/-- A put into a column family. -/
def putCf (db : DB) (cf : String) (key value : Bytes) : DB :=
  db.modifyCf cf fun m => m.insert key value

/-- `DB::delete_cf`. -/
def deleteCf (db : DB) (cf : String) (key : Bytes) : DB :=
  db.modifyCf cf fun m => m.erase key

/-- `DB::write`. -/
def write (db : DB) (batch : List BatchOp) : DB :=
  batch.foldl (fun db op => match op with | .putCf cf key value => db.putCf cf key value) db

/-- `DB::create_cf`. A name is passed on as a C string. -/
def createCf (db : DB) (name : String) : Except String DB :=
  if '\x00' ∈ name.toList then
    .error ("Failed to convert path to CString when creating cf: nul byte found in provided data at position: " ++
      toString ((Core.asBytes name).findIdx fun b => b = 0))
  else
    match db.cfHandle name with
    | some _ => .error "Invalid argument: Column family already exists"
    | none => .ok ⟨db.cfs.insert name ∅⟩

/-- `DB::drop_cf`. -/
def dropCf (db : DB) (name : String) : Except String DB :=
  match db.cfHandle name with
  | none => .error ("Invalid column family: " ++ name)
  | some _ => .ok ⟨db.cfs.erase name⟩

/-- The entries an iterator yields from the key `start` on, in key order. -/
def iteratorFrom (m : ColumnFamily) (start : Bytes) : List (Bytes × Bytes) :=
  m.toList.filter fun kv => (compare start kv.1).isLE

/-- Create the column families of the list that are missing. -/
def createMissing (db : DB) (names : List String) : DB :=
  names.foldl
    (fun db name => match db.cfHandle name with
      | some _ => db
      | none => ⟨db.cfs.insert name ∅⟩) db

/-- The default family is opened also when it is not listed. -/
def withDefault (names : List String) : List String :=
  if "default" ∈ names then names else names ++ ["default"]

/-- `DB::open_cf_descriptors`: every family on disk has to be listed, and the
listed families that are missing are created or missed. `none` is a path with no
database. -/
def openCfDescriptors (opts : Options) (disk : Option DB) (names : List String) :
    Except String DB :=
  let names := withDefault names
  match disk with
  -- a new database has no family, not even the default one
  | none =>
      if opts.createIfMissing then
        if opts.createMissingColumnFamilies ∨ names = ["default"] then
          .ok (createMissing ⟨∅⟩ names)
        else
          .error "Invalid argument: Column family not found"
      else
        .error "Invalid argument: does not exist (create_if_missing is false)"
  | some db =>
      let notOpened := db.cfs.keys.filter fun name => name ∉ names
      if notOpened ≠ [] then
        .error ("Invalid argument: Column families not opened: " ++ ", ".intercalate notOpened)
      else if opts.createMissingColumnFamilies ∨ ∀ name ∈ names, (db.cfHandle name).isSome then
        .ok (createMissing db names)
      else
        .error "Invalid argument: Column family not found"

/-! ## Column families as slots -/

/-- The abstract view of a column family. -/
def slot (db : DB) (name : String) : Option (Bytes → Option Bytes) :=
  (db.cfHandle name).map fun m k => m[k]?

/-- The view determines the column family. -/
theorem cfHandle_eq_of_slot_eq {db db' : DB} {name name' : String}
    (h : db.slot name = db'.slot name') : db.cfHandle name = db'.cfHandle name' := by
  simp only [slot] at h
  cases hcf : db.cfHandle name with
  | none =>
      rw [hcf] at h
      exact (Option.map_eq_none_iff.1 h.symm).symm
  | some m =>
      rw [hcf] at h
      obtain ⟨m', hm', hmap⟩ := Option.map_eq_some_iff.1 h.symm
      have hmm : m = m' := ExtTreeMap.ext_getElem? fun k => (congrFun hmap k).symm
      rw [hm', hmm]

theorem cfHandle_insert (db : DB) (name : String) (m : ColumnFamily) (other : String) :
    (DB.mk (db.cfs.insert name m)).cfHandle other =
      if name = other then some m else db.cfHandle other := by
  simp [cfHandle, ExtTreeMap.getElem?_insert]

theorem cfHandle_erase (db : DB) (name other : String) :
    (DB.mk (db.cfs.erase name)).cfHandle other =
      if name = other then none else db.cfHandle other := by
  simp [cfHandle, ExtTreeMap.getElem?_erase]

/-- A column family whose contents are replaced. -/
theorem slot_insert (db : DB) (name : String) (m : ColumnFamily) (other : String) :
    (DB.mk (db.cfs.insert name m)).slot other =
      if name = other then some fun k => m[k]? else db.slot other := by
  rw [slot, cfHandle_insert]
  split
  · rfl
  · rfl

/-- A change that acts as a write on the view of every family. -/
theorem slot_modifyCf {f : ColumnFamily → ColumnFamily} {w : Write Bytes Bytes}
    (hf : ∀ m : ColumnFamily, (fun k => (f m)[k]?) = Write.exec (fun k => m[k]?) w)
    (db : DB) (cf name : String) :
    (db.modifyCf cf f).slot name =
      if cf = name then SlotOp.run (db.slot name) (.write w) else db.slot name := by
  by_cases hname : cf = name
  · subst hname
    rw [if_pos rfl, modifyCf]
    cases hcf : db.cfHandle cf with
    | none => simp [slot, hcf, SlotOp.run]
    | some m =>
        rw [slot_insert, if_pos rfl, hf, slot, hcf]
        rfl
  · rw [if_neg hname, modifyCf]
    cases hcf : db.cfHandle cf with
    | none => rfl
    | some m => rw [slot_insert, if_neg hname]

theorem slot_putCf (db : DB) (cf : String) (key value : Bytes) (name : String) :
    (db.putCf cf key value).slot name =
      if cf = name then SlotOp.run (db.slot name) (.write (.put key value)) else db.slot name := by
  apply slot_modifyCf
  intro m
  funext k
  simp [Write.exec, Write.key, Write.outcome, Function.update_apply, ExtTreeMap.getElem?_insert,
    eq_comm (a := k)]

/-- A put creates no family and drops none. -/
theorem isSome_slot_putCf (db : DB) (cf : String) (key value : Bytes) (name : String) :
    ((db.putCf cf key value).slot name).isSome = (db.slot name).isSome := by
  rw [slot_putCf]
  split
  · exact SlotOp.isSome_run_write _ _
  · rfl

theorem slot_deleteCf (db : DB) (cf : String) (key : Bytes) (name : String) :
    (db.deleteCf cf key).slot name =
      if cf = name then SlotOp.run (db.slot name) (.write (.delete key)) else db.slot name := by
  apply slot_modifyCf
  intro m
  funext k
  simp [Write.exec, Write.key, Write.outcome, Function.update_apply, ExtTreeMap.getElem?_erase,
    eq_comm (a := k)]

theorem slot_createCf {db db' : DB} {cf : String} (h : db.createCf cf = .ok db') (name : String) :
    db'.slot name = if cf = name then some fun _ => none else db.slot name := by
  rw [createCf] at h
  -- a name with a NUL, an existing family, and the creation
  split at h
  · cases h
  · split at h
    · cases h
    · cases h
      rw [slot_insert]
      simp

theorem slot_dropCf {db db' : DB} {cf : String} (h : db.dropCf cf = .ok db') (name : String) :
    db'.slot name = if cf = name then none else db.slot name := by
  rw [dropCf] at h
  split at h
  · cases h
  · cases h
    rw [slot, cfHandle_erase]
    split
    · rfl
    · rfl

/-! ## Opening -/

theorem cfHandle_createMissing (names : List String) :
    ∀ (db : DB) (name : String), (createMissing db names).cfHandle name =
      (db.cfHandle name).or (if name ∈ names then some ∅ else none) := by
  induction names with
  | nil => intro db name; simp [createMissing]
  | cons n names ih =>
      intro db name
      have hstep : createMissing db (n :: names) = createMissing (match db.cfHandle n with
          | some _ => db
          | none => ⟨db.cfs.insert n ∅⟩) names := rfl
      rw [hstep, ih]
      cases hn : db.cfHandle n with
      | some m =>
          -- an existing family is kept as it is
          by_cases hname : name = n
          · subst hname
            simp [hn]
          · simp [hname]
      | none =>
          rw [cfHandle_insert]
          by_cases hname : n = name
          · subst hname
            simp [hn]
          · rw [if_neg hname]
            simp [Ne.symm hname]

/-- Nothing is created when all listed families are there. -/
theorem createMissing_of_exists {db : DB} {names : List String}
    (h : ∀ name ∈ names, (db.cfHandle name).isSome) : createMissing db names = db := by
  have hcfs : (createMissing db names).cfs = db.cfs := by
    apply ExtTreeMap.ext_getElem?
    intro name
    have hcf := cfHandle_createMissing names db name
    by_cases hname : name ∈ names
    · obtain ⟨m, hm⟩ := Option.isSome_iff_exists.1 (h name hname)
      rw [hm, Option.some_or] at hcf
      exact hcf.trans hm.symm
    · rwa [if_neg hname, Option.or_none] at hcf
  exact congrArg DB.mk hcfs

/-- An existing database opens, with the missing families created, exactly when
every family on disk is listed. -/
theorem openCfDescriptors_some {opts : Options} (hopts : opts.createMissingColumnFamilies = true)
    {db db' : DB} {names : List String} :
    openCfDescriptors opts (some db) names = .ok db' ↔
      (∀ name, (db.cfHandle name).isSome → name ∈ withDefault names) ∧
        createMissing db (withDefault names) = db' := by
  have hnone : (db.cfs.keys.filter fun name => name ∉ withDefault names) = [] ↔
      ∀ name, (db.cfHandle name).isSome → name ∈ withDefault names := by
    simp [List.filter_eq_nil_iff, cfHandle]
  rw [openCfDescriptors, ← hnone]
  by_cases hall : (db.cfs.keys.filter fun name => name ∉ withDefault names) = []
  · rw [if_neg (not_not.2 hall), if_pos (Or.inl hopts), and_iff_right hall, Except.ok.injEq]
  · rw [if_pos hall]
    simp only [reduceCtorEq, hall, false_and]

end DB

end MSearchDB.Storage.RocksDb
