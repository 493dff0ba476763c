import MSearchDB.Core.Error
import MSearchDB.Core.Document

/-!
# Backend traits

`StorageBackend` and `IndexBackend` of `crates/core/src/traits.rs`. A trait
object behind an `Arc` with interior mutability becomes a type of states: a
method that can change the backend returns the state it leaves, also when it
fails. The collection-scoped methods have the default bodies of the traits.

The search methods of `IndexBackend` are not part of the model, since nothing
that is modelled calls them.
-/

set_option autoImplicit false

namespace MSearchDB.Core

open Std

/-- `MappedFieldType`. -/
inductive MappedFieldType where
  | text
  | number
  | boolean
  | array
  deriving DecidableEq, Repr

/-- `FieldMapping`: the known fields of a collection and their types. -/
structure FieldMapping where
  fields : ExtTreeMap String MappedFieldType
  deriving DecidableEq

/-- `FieldMapping::new`. -/
def FieldMapping.new : FieldMapping := ⟨∅⟩

/-- The `Display` of `MappedFieldType`. -/
def MappedFieldType.toString : MappedFieldType → String
  | .text => "text"
  | .number => "number"
  | .boolean => "boolean"
  | .array => "array"

/-- `FieldMapping::register_field`: whether the field is new, and the mapping with
it. -/
def FieldMapping.registerField (m : FieldMapping) (name : String) (fieldType : MappedFieldType) :
    DbResult (Bool × FieldMapping) :=
  match m.fields[name]? with
  | some existing =>
      if existing = fieldType then .ok (false, m)
      else .error (.schemaConflict name existing.toString fieldType.toString)
  | none => .ok (true, ⟨m.fields.insert name fieldType⟩)

section RegisterField

variable {m : FieldMapping} {name : String} {fieldType : MappedFieldType}

theorem FieldMapping.registerField_of_none (h : m.fields[name]? = none) :
    m.registerField name fieldType = .ok (true, ⟨m.fields.insert name fieldType⟩) := by
  rw [registerField, h]

theorem FieldMapping.registerField_of_same (h : m.fields[name]? = some fieldType) :
    m.registerField name fieldType = .ok (false, m) := by
  rw [registerField, h]
  exact if_pos rfl

theorem FieldMapping.registerField_of_other {existing : MappedFieldType} (h : m.fields[name]? = some existing)
    (hne : existing ≠ fieldType) :
    m.registerField name fieldType = .error (.schemaConflict name existing.toString fieldType.toString) := by
  rw [registerField, h]
  exact if_neg hne

end RegisterField

/-- Every field of one mapping is in another, with its type. -/
def FieldMapping.Le (m m' : FieldMapping) : Prop :=
  ∀ (name : String) (ty : MappedFieldType), m.fields[name]? = some ty → m'.fields[name]? = some ty

/-- A registered field is in the mapping, and nothing else is new there. -/
theorem FieldMapping.registerField_ok {m m' : FieldMapping} {name : String} {fieldType : MappedFieldType}
    {isNew : Bool} (h : m.registerField name fieldType = .ok (isNew, m')) :
    m'.fields[name]? = some fieldType ∧ m.Le m' ∧
      ∀ (n : String) (ty : MappedFieldType), m'.fields[n]? = some ty →
        m.fields[n]? = some ty ∨ n = name ∧ ty = fieldType := by
  unfold registerField at h
  split at h
  next existing hfield =>
    split at h
    next htype =>
      obtain ⟨-, rfl⟩ := Prod.mk.inj (Except.ok.inj h)
      exact ⟨htype ▸ hfield, fun _ _ hold => hold, fun _ _ hold => .inl hold⟩
    · cases h
  next hfield =>
    obtain ⟨-, rfl⟩ := Prod.mk.inj (Except.ok.inj h)
    refine ⟨by simp, fun n ty hold => ?_, fun n ty hnew => ?_⟩
    · have hne : name ≠ n := by
        rintro rfl
        rw [hfield] at hold
        cases hold
      rw [ExtTreeMap.getElem?_insert, if_neg (mt Std.LawfulEqCmp.compare_eq_iff_eq.1 hne)]
      exact hold
    · rw [ExtTreeMap.getElem?_insert] at hnew
      split at hnew
      next heq => exact .inr ⟨(Std.LawfulEqCmp.compare_eq_iff_eq.1 heq).symm, (Option.some.inj hnew).symm⟩
      · exact .inl hnew

/-- `std::ops::RangeInclusive`. -/
structure RangeInclusive (α : Type) where
  start : α
  stop : α
  deriving DecidableEq, Repr

/-- The error of the default bodies of `StorageBackend`. -/
def storageNotSupported : DbError :=
  .invalidInput "collection-scoped storage not supported by this backend"

/-- `StorageBackend`. -/
class StorageBackend (σ : Type) where
  get : σ → DocumentId → DbResult Document
  put : σ → Document → DbResult Unit × σ
  delete : σ → DocumentId → DbResult Unit × σ
  scan : σ → RangeInclusive DocumentId → Nat → DbResult (List Document)
  createCollection : σ → String → DbResult Unit × σ :=
    fun s _ => (.error storageNotSupported, s)
  dropCollection : σ → String → DbResult Unit × σ :=
    fun s _ => (.error storageNotSupported, s)
  collectionExists : σ → String → DbResult Bool :=
    fun _ _ => .error storageNotSupported
  getFromCollection : σ → String → DocumentId → DbResult Document :=
    fun _ _ _ => .error storageNotSupported
  putInCollection : σ → String → Document → DbResult Unit × σ :=
    fun s _ _ => (.error storageNotSupported, s)
  deleteFromCollection : σ → String → DocumentId → DbResult Unit × σ :=
    fun s _ _ => (.error storageNotSupported, s)
  scanCollection : σ → String → RangeInclusive DocumentId → Nat → DbResult (List Document) :=
    fun _ _ _ _ => .error storageNotSupported

/-- A call of a method of `StorageBackend` that can change the backend. -/
inductive StorageCall where
  | put (doc : Document)
  | delete (id : DocumentId)
  | createCollection (collection : String)
  | dropCollection (collection : String)
  | putInCollection (collection : String) (doc : Document)
  | deleteFromCollection (collection : String) (id : DocumentId)
  deriving DecidableEq

namespace StorageCall

variable {σ : Type} [StorageBackend σ]

/-- The backend after a call, whatever the call returned. -/
def exec (s : σ) : StorageCall → σ
  | put doc => (StorageBackend.put s doc).2
  | delete id => (StorageBackend.delete s id).2
  | createCollection c => (StorageBackend.createCollection s c).2
  | dropCollection c => (StorageBackend.dropCollection s c).2
  | putInCollection c doc => (StorageBackend.putInCollection s c doc).2
  | deleteFromCollection c id => (StorageBackend.deleteFromCollection s c id).2

/-- The backend after a sequence of calls. -/
def execAll (s : σ) (calls : List StorageCall) : σ := calls.foldl exec s

@[simp] theorem execAll_nil (s : σ) : execAll s [] = s := rfl

@[simp] theorem execAll_cons (s : σ) (call : StorageCall) (calls : List StorageCall) :
    execAll s (call :: calls) = execAll (exec s call) calls := rfl

theorem execAll_append (s : σ) (xs ys : List StorageCall) :
    execAll s (xs ++ ys) = execAll (execAll s xs) ys :=
  List.foldl_append

/-- **Invariant rule.** What every call preserves, every sequence of calls
preserves. -/
theorem execAll_invariant {Inv : σ → Prop} (hstep : ∀ s call, Inv s → Inv (exec s call)) :
    ∀ (calls : List StorageCall) (s : σ), Inv s → Inv (execAll s calls) := by
  intro calls
  induction calls with
  | nil => exact fun s hs => hs
  | cons call calls ih => exact fun s hs => ih _ (hstep s call hs)

end StorageCall

/-- The error of the default bodies of `IndexBackend`. -/
def indexNotSupported : DbError :=
  .invalidInput "collection-scoped index not supported by this backend"

/-- `IndexBackend`, without its search methods. -/
class IndexBackend (ι : Type) where
  indexDocument : ι → Document → DbResult Unit × ι
  deleteDocument : ι → DocumentId → DbResult Unit × ι
  commitIndex : ι → DbResult Unit × ι := fun i => (.ok (), i)
  createCollectionIndex : ι → String → DbResult Unit × ι :=
    fun i _ => (.error indexNotSupported, i)
  dropCollectionIndex : ι → String → DbResult Unit × ι :=
    fun i _ => (.error indexNotSupported, i)
  indexDocumentInCollection : ι → String → Document → FieldMapping → DbResult FieldMapping × ι :=
    fun i _ _ _ => (.error indexNotSupported, i)
  deleteDocumentFromCollection : ι → String → DocumentId → DbResult Unit × ι :=
    fun i _ _ => (.error indexNotSupported, i)
  commitCollectionIndex : ι → String → DbResult Unit × ι :=
    fun i _ => (.error indexNotSupported, i)

/-- An index that keeps nothing. -/
instance : IndexBackend Unit where
  indexDocument i _ := (.ok (), i)
  deleteDocument i _ := (.ok (), i)

end MSearchDB.Core
