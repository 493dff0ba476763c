import Mathlib.Data.Prod.Lex
import MSearchDB.Core.Error
import MSearchDB.Core.Document

/-!
# Raft commands, responses and log entries

`RaftCommand` and `RaftResponse` of `crates/consensus/src/types.rs`, the schema
types they carry from `crates/index/src/schema_builder.rs`, and the types of
openraft that the state machine handles. Log identifiers are ordered by term,
node and index; a missing identifier is below all others.
-/

set_option autoImplicit false

namespace MSearchDB.Consensus

open MSearchDB.Lib
open MSearchDB.Core
open Std (ExtTreeMap)

/-! ## Application types -/

/-- `FieldType`. -/
inductive FieldType where
  | text
  | number
  | boolean
  deriving DecidableEq, Repr

/-- `FieldConfig`. -/
structure FieldConfig where
  name : String
  fieldType : FieldType
  stored : Bool
  indexed : Bool
  deriving DecidableEq, Repr

/-- `SchemaConfig`. -/
structure SchemaConfig where
  fields : List FieldConfig
  deriving DecidableEq, Repr

/-- `SchemaConfig::new`. -/
def SchemaConfig.new : SchemaConfig := ⟨[]⟩

/-- `RaftCommand`. -/
inductive RaftCommand where
  | insertDocument (collection : String) (document : Document)
  | deleteDocument (collection : String) (id : DocumentId)
  | updateDocument (collection : String) (document : Document)
  | createCollection (name : String) (schema : SchemaConfig)
  | deleteCollection (name : String)
  | batchInsert (collection : String) (documents : List Document)
  | createAlias (aliasName : String) (collections : List String)
  | deleteAlias (aliasName : String)
  deriving DecidableEq

/-- `RaftResponse`. -/
structure RaftResponse where
  success : Bool
  documentId : Option DocumentId
  affectedCount : Nat
  deriving DecidableEq, Repr

/-- `RaftResponse::ok`. -/
def RaftResponse.ok (id : DocumentId) : RaftResponse := ⟨true, some id, 1⟩

/-- `RaftResponse::ok_no_id`. -/
def RaftResponse.okNoId : RaftResponse := ⟨true, none, 0⟩

/-- `RaftResponse::fail`. -/
def RaftResponse.fail : RaftResponse := ⟨false, none, 0⟩

/-- `RaftResponse::ok_batch`. -/
def RaftResponse.okBatch (count : Nat) : RaftResponse := ⟨true, none, count⟩

/-! ## openraft -/

/-- `openraft::LeaderId`. -/
structure LeaderId where
  term : UInt64
  nodeId : UInt64
  deriving DecidableEq, Repr

/-- `openraft::LogId`. -/
structure LogId where
  leaderId : LeaderId
  index : UInt64
  deriving DecidableEq, Repr

/-- The components of a log identifier, in the order in which they are compared. -/
def LogId.key (l : LogId) : ℕ ×ₗ ℕ ×ₗ ℕ :=
  toLex (l.leaderId.term.toNat, toLex (l.leaderId.nodeId.toNat, l.index.toNat))

theorem LogId.key_injective : Function.Injective LogId.key := by
  rintro ⟨⟨t, n⟩, i⟩ ⟨⟨t', n'⟩, i'⟩ h
  have hpair := toLex.injective h
  simp only [Prod.mk.injEq, UInt64.toNat_inj] at hpair
  obtain ⟨rfl, hrest⟩ := hpair
  have hpair' := toLex.injective hrest
  simp only [Prod.mk.injEq, UInt64.toNat_inj] at hpair'
  obtain ⟨rfl, rfl⟩ := hpair'
  rfl

instance : LinearOrder LogId := LinearOrder.lift' LogId.key LogId.key_injective

/-- `Option<LogId>` in the order of Rust: `None` comes first. -/
def LogId.optLE : Option LogId → Option LogId → Prop
  | none, _ => True
  | some _, none => False
  | some a, some b => a ≤ b

instance : ∀ a b : Option LogId, Decidable (LogId.optLE a b)
  | none, _ => isTrue trivial
  | some _, none => isFalse id
  | some a, some b => inferInstanceAs (Decidable (a ≤ b))

/-- `openraft::BasicNode`. -/
structure BasicNode where
  addr : String
  deriving DecidableEq, Repr

/-- `openraft::Membership`. -/
structure Membership where
  configs : List (List UInt64)
  nodes : ExtTreeMap UInt64 BasicNode
  deriving DecidableEq

/-- `openraft::StoredMembership`. -/
structure StoredMembership where
  logId : Option LogId
  membership : Membership
  deriving DecidableEq

/-- `StoredMembership::default`. -/
def StoredMembership.default : StoredMembership := ⟨none, ⟨[], ∅⟩⟩

/-- `openraft::EntryPayload` over `RaftCommand`. -/
inductive EntryPayload where
  | blank
  | normal (cmd : RaftCommand)
  | membership (mem : Membership)
  deriving DecidableEq

/-- `openraft::Entry`. -/
structure Entry where
  logId : LogId
  payload : EntryPayload
  deriving DecidableEq

/-- `openraft::SnapshotMeta`. -/
structure SnapshotMeta where
  lastLogId : Option LogId
  lastMembership : StoredMembership
  snapshotId : String
  deriving DecidableEq

/-- `openraft::Snapshot`, with the bytes behind the cursor. -/
structure Snapshot where
  snapshotMeta : SnapshotMeta
  snapshot : Bytes
  deriving DecidableEq

/-- `SnapshotSignature`, as `SnapshotMeta::signature` computes it. -/
structure SnapshotSignature where
  lastLogId : Option LogId
  lastMembershipLogId : Option LogId
  snapshotId : String
  deriving DecidableEq

/-- `SnapshotMeta::signature`. -/
def SnapshotMeta.signature (m : SnapshotMeta) : SnapshotSignature :=
  ⟨m.lastLogId, m.lastMembership.logId, m.snapshotId⟩

/-- The error behind a storage error: one of the database, or of `serde_json`. -/
inductive ErrorSource where
  | db (e : DbError)
  | json (e : String)
  deriving DecidableEq, Repr

/-- `openraft::StorageError`, as far as the state machine raises it. -/
inductive StorageError where
  | readSnapshot (signature : Option SnapshotSignature) (e : ErrorSource)
  | readStateMachine (e : ErrorSource)
  deriving DecidableEq

/-- The `Display` of `openraft::LeaderId`. -/
class LeaderIdDisplay where
  fmt : LeaderId → String

end MSearchDB.Consensus
