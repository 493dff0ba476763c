import MSearchDB.Core.Serde
import MSearchDB.Consensus.RaftNode

/-!
# Forwarding a write

The two ends of the `ForwardWrite` call: `NodeClient::forward_write` of
`crates/network/src/client.rs` and `NodeServiceImpl::forward_write` of
`crates/network/src/server.rs`. The answer travels as a `WriteResponse`, which has
no field for the number of affected documents and no way to leave the document id
out. `forwardWrite_served` says what comes back when both messages arrive and the other
node can read the command, `forwardWrite_unread` when it cannot.
-/

set_option autoImplicit false

namespace MSearchDB.Network

open MSearchDB.Lib
open MSearchDB.Core
open MSearchDB.Consensus

/-- `proto::WriteRequest`. -/
structure WriteRequest where
  command : Bytes
  deriving DecidableEq

/-- `proto::WriteResponse`. -/
structure WriteResponse where
  success : Bool
  documentId : String
  error : String
  deriving DecidableEq

/-- `tonic::Status`, as the service raises it or the transport does. -/
inductive Status where
  | invalidArgument (msg : String)
  | internal (msg : String)
  | transport (msg : String)
  deriving DecidableEq

/-- The `Display` of `tonic::Status`. -/
class StatusDisplay where
  fmt : Status → String

/-- `NodeClient`: what a call of `ForwardWrite` over its channel returns. -/
structure NodeClient where
  call : WriteRequest → Except Status WriteResponse

section

variable [SerdeJson RaftCommand]

/-- `NodeServiceImpl::forward_write` on the node `raft`. -/
def serveForwardWrite (raft : RaftNode) (request : WriteRequest) : Except Status WriteResponse :=
  match SerdeJson.fromSlice request.command with
  | .error e => .error (.invalidArgument ("failed to deserialize RaftCommand: " ++ e))
  | .ok cmd =>
      match raft.propose cmd with
      | .ok resp =>
          .ok ⟨resp.success, (resp.documentId.map DocumentId.val).getD "", ""⟩
      | .error e => .ok ⟨false, "", e.toString⟩

/-- A client whose channel ends at the node `raft`, the network delivering both
messages. -/
def NodeClient.connectedTo (raft : RaftNode) : NodeClient := ⟨serveForwardWrite raft⟩

/-- `NodeClient::forward_write`. -/
def NodeClient.forwardWrite [StatusDisplay] (client : NodeClient) (cmd : RaftCommand) :
    DbResult RaftResponse :=
  match SerdeJson.toVec cmd with
  | .error e => .error (.serializationError ("serialize RaftCommand: " ++ e))
  | .ok command =>
      match client.call ⟨command⟩ with
      | .error e => .error (.networkError ("forward_write RPC failed: " ++ StatusDisplay.fmt e))
      | .ok inner =>
          if inner.success then
            let docId := if inner.documentId.isEmpty then none else some ⟨inner.documentId⟩
            .ok ⟨true, docId, 1⟩
          else .error (.networkError ("forward_write rejected: " ++ inner.error))

/-- What a forwarded command returns when the other node wrote `resp`: a success
loses its count and an empty id, a failure becomes an error. -/
def rebuilt (resp : RaftResponse) : DbResult RaftResponse :=
  if resp.success then .ok ⟨true, resp.documentId.filter fun id => id.val ≠ "", 1⟩
  else .error (.networkError "forward_write rejected: ")

/-- The other node proposes the command that it reads. -/
theorem forwardWrite_served [StatusDisplay] {raft : RaftNode} {cmd cmd' : RaftCommand} {resp : RaftResponse}
    (hcmd : SerdeJson.ReadsAs cmd cmd') (hresp : raft.propose cmd' = .ok resp) :
    (NodeClient.connectedTo raft).forwardWrite cmd = rebuilt resp := by
  obtain ⟨command, hwrite, hread⟩ := hcmd
  simp only [NodeClient.forwardWrite, hwrite, NodeClient.connectedTo, serveForwardWrite, hread, hresp,
    rebuilt]
  cases resp.success with
  | false => rfl
  | true =>
      cases resp.documentId with
      | none => rfl
      | some id =>
          by_cases hid : id.val = ""
          · simp [hid, Option.filter]
          · simp [hid, Option.filter]

/-- A command that is not written, or not read, ends in an error. -/
theorem forwardWrite_unread [StatusDisplay] {raft : RaftNode} {cmd : RaftCommand}
    (hcmd : ∀ cmd', ¬ SerdeJson.ReadsAs cmd cmd') : ∃ e, (NodeClient.connectedTo raft).forwardWrite cmd = .error e := by
  rw [NodeClient.forwardWrite]
  cases hwrite : (SerdeJson.toVec cmd : Except String Bytes) with
  | error e => exact ⟨_, rfl⟩
  | ok command =>
      cases hread : (SerdeJson.fromSlice command : Except String RaftCommand) with
      | ok cmd' => exact absurd ⟨command, hwrite, hread⟩ (hcmd cmd')
      | error e =>
          simp only [NodeClient.connectedTo, serveForwardWrite, hread]
          exact ⟨_, rfl⟩

end

end MSearchDB.Network
