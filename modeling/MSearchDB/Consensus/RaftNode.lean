import MSearchDB.Consensus.StateMachine

/-!
# Proposing a command

`RaftNode::propose` of `crates/consensus/src/raft_node.rs`. openraft itself is
outside the repository; a `RaftNode` is what a handler sees of it: the answer of
`client_write` to each command, the leader the node knows of, and the nodes of its
membership. `leader` and `follower` are the two roles: a leader answers with the
response its state machine gave to the entry, a follower refers to the leader.
-/

set_option autoImplicit false

namespace MSearchDB.Consensus

open MSearchDB.Core
open Std (ExtTreeMap)

/-- The result of `openraft::Raft::client_write`, its errors as `into_api_error`
sorts them. -/
inductive ClientWriteResult where
  | written (data : RaftResponse)
  | forwardToLeader (leaderId : Option UInt64)
  | changeMembershipError (e : String)
  | fatal
  deriving DecidableEq

/-- `RaftNode`, as its callers see it. -/
structure RaftNode where
  clientWrite : RaftCommand → ClientWriteResult
  currentLeader : Option UInt64
  membershipNodes : ExtTreeMap UInt64 BasicNode

namespace RaftNode

/-- The name of the leader in the error of a follower. -/
def leaderHint : Option UInt64 → String
  | some id => "node-" ++ toString id.toNat
  | none => "unknown"

/-- `RaftNode::propose`. -/
def propose (node : RaftNode) (cmd : RaftCommand) : DbResult RaftResponse :=
  match node.clientWrite cmd with
  | .written data => .ok data
  | .forwardToLeader leaderId =>
      .error (.consensusError ("not leader; forward to " ++ leaderHint leaderId))
  | .changeMembershipError e => .error (.consensusError ("membership change error: " ++ e))
  | .fatal => .error (.consensusError "fatal raft error")

section Roles

variable {σ ι : Type} [StorageBackend σ] [IndexBackend ι]

/-- A leader with the state machine `sm`: the command is committed and applied, and
the caller gets the response of `apply_command`. -/
def leader (sm : DbStateMachine σ ι) (id : UInt64) (nodes : ExtTreeMap UInt64 BasicNode) : RaftNode where
  clientWrite cmd := .written (sm.applyCommand cmd).1
  currentLeader := some id
  membershipNodes := nodes

end Roles

/-- A follower that knows the leader `id`. -/
def follower (id : UInt64) (nodes : ExtTreeMap UInt64 BasicNode) : RaftNode where
  clientWrite _ := .forwardToLeader (some id)
  currentLeader := some id
  membershipNodes := nodes

end RaftNode

end MSearchDB.Consensus
