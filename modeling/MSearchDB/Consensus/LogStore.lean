import MSearchDB.Lib.Bytes
import MSearchDB.Consensus.Types

/-!
# The Raft log store

The operations of openraft's `RaftLogStorage` and `RaftLogReader` that the stores of the
repository implement, and `MemLogStore` of `crates/consensus/src/log_store.rs`, which
keeps the log in an ordered map and the rest in fields.
-/

set_option autoImplicit false

namespace MSearchDB.Consensus

open MSearchDB.Lib
open Std

/-- `openraft::Vote`. -/
structure Vote where
  leaderId : LeaderId
  committed : Bool
  deriving DecidableEq, Repr

/-- `openraft::LogState`. -/
structure LogState where
  lastPurgedLogId : Option LogId
  lastLogId : Option LogId
  deriving DecidableEq, Repr

/-- `openraft::StorageError`, as far as the log stores raise it: the part of the store
that was read or written, and the message. -/
inductive LogStoreError where
  | readLogs (msg : String)
  | writeLogs (msg : String)
  | readVote (msg : String)
  | writeVote (msg : String)
  deriving DecidableEq, Repr

/-- `std::ops::Bound<u64>`. -/
inductive Bound where
  | included (x : UInt64)
  | excluded (x : UInt64)
  | unbounded
  deriving DecidableEq, Repr

/-- An index is within the start bound of a range. -/
def Bound.startsAt (lo : Bound) (i : UInt64) : Bool :=
  match lo with
  | included s => s ≤ i
  | excluded s => s < i
  | unbounded => true

/-- An index is within the end bound of a range. -/
def Bound.endsAt (hi : Bound) (i : UInt64) : Bool :=
  match hi with
  | included e => i ≤ e
  | excluded e => i < e
  | unbounded => true

/-- `BTreeMap::range` accepts the range: it panics if the start is after the end, and if
both are the same and excluded. -/
def Bound.Accepted : Bound → Bound → Prop
  | unbounded, _ => True
  | _, unbounded => True
  | excluded s, excluded e => s < e
  | included s, included e => s ≤ e
  | included s, excluded e => s ≤ e
  | excluded s, included e => s ≤ e

/-- The number of the bound is below `u64::MAX`. -/
def Bound.Below : Bound → Prop
  | included x => x.toNat + 1 < 2 ^ 64
  | excluded x => x.toNat + 1 < 2 ^ 64
  | unbounded => True

/-- A call of a log store. -/
inductive LogOp where
  | append (entries : List Entry)
  | truncate (logId : LogId)
  | purge (logId : LogId)
  | saveVote (vote : Vote)
  | readVote
  | saveCommitted (committed : Option LogId)
  | readCommitted
  | getLogState
  | tryGetLogEntries (lo hi : Bound)

/-- What a call returns. -/
inductive LogAnswer where
  | done (r : Except LogStoreError Unit)
  | vote (r : Except LogStoreError (Option Vote))
  | committed (r : Except LogStoreError (Option LogId))
  | state (r : Except LogStoreError LogState)
  | entries (r : Except LogStoreError (List Entry))
  deriving DecidableEq

/-- `LogStoreInner`. -/
structure MemLogStore where
  log : ExtTreeMap UInt64 Entry
  lastPurged : Option LogId
  vote : Option Vote
  committed : Option LogId

namespace MemLogStore

/-- `MemLogStore::new`. -/
def new : MemLogStore := ⟨∅, none, none, none⟩

/-- `try_get_log_entries`. -/
def tryGetLogEntries (m : MemLogStore) (lo hi : Bound) : List Entry :=
  (m.log.toList.filter fun ie => lo.startsAt ie.1 && hi.endsAt ie.1).map Prod.snd

/-- `get_log_state`. -/
def getLogState (m : MemLogStore) : LogState :=
  let lastLogId := m.log.toList.getLast?.map fun ie => ie.2.logId
  ⟨m.lastPurged, lastLogId.or m.lastPurged⟩

/-- `append`. -/
def append (m : MemLogStore) (entries : List Entry) : MemLogStore :=
  { m with log := entries.foldl (fun log e => log.insert e.logId.index e) m.log }

/-- `truncate`. -/
def truncate (m : MemLogStore) (logId : LogId) : MemLogStore :=
  let keysToRemove := (m.log.toList.filter fun ie => logId.index ≤ ie.1).map Prod.fst
  { m with log := keysToRemove.foldl ExtTreeMap.erase m.log }

/-- `purge`. -/
def purge (m : MemLogStore) (logId : LogId) : MemLogStore :=
  let keysToRemove := (m.log.toList.filter fun ie => ie.1 ≤ logId.index).map Prod.fst
  { m with log := keysToRemove.foldl ExtTreeMap.erase m.log, lastPurged := some logId }

/-- A call, with its answer. -/
def exec (m : MemLogStore) : LogOp → MemLogStore × LogAnswer
  | .append entries => (m.append entries, .done (.ok ()))
  | .truncate logId => (m.truncate logId, .done (.ok ()))
  | .purge logId => (m.purge logId, .done (.ok ()))
  | .saveVote vote => ({ m with vote := some vote }, .done (.ok ()))
  | .readVote => (m, .vote (.ok m.vote))
  | .saveCommitted committed => ({ m with committed := committed }, .done (.ok ()))
  | .readCommitted => (m, .committed (.ok m.committed))
  | .getLogState => (m, .state (.ok m.getLogState))
  | .tryGetLogEntries lo hi => (m, .entries (.ok (m.tryGetLogEntries lo hi)))

/-- The store after a call. -/
def step (m : MemLogStore) (op : LogOp) : MemLogStore := (m.exec op).1

end MemLogStore

end MSearchDB.Consensus
