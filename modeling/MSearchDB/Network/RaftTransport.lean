import MSearchDB.Lib.RemoteCall
import MSearchDB.Network.SnapshotStream

/-!
# Two transports of Raft

openraft calls the other nodes through a `RaftNetwork`. `GrpcNetwork` of
`crates/network/src/raft_network.rs` sends the request as JSON to the node service of
`crates/network/src/server.rs`; `ChannelNetwork` of `crates/consensus/src/network.rs`, which
the tests use, calls the Raft handle of the other node directly. A snapshot request travels
whole in the metadata of one chunk.

The handlers of a Raft node are openraft's (`RaftCore`). Over any run of calls between any
nodes the gRPC transport does to the nodes what the direct calls of the requests that they
receive would do, and returns an answer exactly when the direct call does and the answer gets
back (`grpc_refines_channel`). What is received is what the JSON of a request is read as, so a
request that cannot be read is as good as lost. The two differ in their errors: over gRPC every
failure, also that of the handler, is `Unreachable`; the channel calls it `Network`.
-/

set_option autoImplicit false

namespace MSearchDB.Network

open MSearchDB.Lib
open MSearchDB.Core

/-! ## Requests, errors and the Raft core -/

/-- The calls of a `RaftNetwork`. -/
inductive RaftRpc where
  | appendEntries
  | vote
  | installSnapshot
  deriving DecidableEq, Repr

/-- `io::ErrorKind`, as far as the transports use it. -/
inductive ErrorKind where
  | connectionRefused
  | connectionReset
  | invalidData
  | notConnected
  | other
  deriving DecidableEq, Repr

/-- `io::Error::new`. -/
structure IoError where
  kind : ErrorKind
  msg : String
  deriving DecidableEq, Repr

/-- `openraft::error::RPCError`. -/
inductive RPCError where
  | timeout
  | unreachable (source : IoError)
  | payloadTooLarge
  /-- With the text of the error it is made of. -/
  | network (source : String)
  | remoteError (source : String)
  deriving DecidableEq, Repr

/-- The `Display` of `RPCError`. -/
class RPCErrorDisplay where
  fmt : RPCError → String

/-- The Raft node behind a handle, with the requests and responses of each call; an error of
a handler is kept as its text. -/
structure RaftCore (σ : Type) (Req Resp : RaftRpc → Type) where
  handle : (rpc : RaftRpc) → σ → Req rpc → Except String (Resp rpc) × σ

variable {σ : Type} {Req Resp : RaftRpc → Type}

/-! ## The node service -/

section Service

variable [∀ rpc, SerdeJson (Req rpc)] [∀ rpc, SerdeJson (Resp rpc)]

/-- What the handlers of the service have in common: the texts are those of a request that
does not decode, of a call that fails and of a response that does not encode. -/
def serveRpc {ρ α : Type} [SerdeJson ρ] [SerdeJson α] (handle : σ → ρ → Except String α × σ)
    (readError callError writeError : String) (s : σ) (payload : Bytes) : Except Status Bytes × σ :=
  match (SerdeJson.fromSlice payload : Except String ρ) with
  | .error e => (.error (.invalidArgument (readError ++ e)), s)
  | .ok raftReq =>
      match handle s raftReq with
      | (.error e, s) => (.error (.internal (callError ++ e)), s)
      | (.ok resp, s) =>
          match SerdeJson.toVec resp with
          | .error e => (.error (.internal (writeError ++ e)), s)
          | .ok payload => (.ok payload, s)

namespace NodeServiceImpl

/-- `NodeServiceImpl::append_entries`. -/
def appendEntries (core : RaftCore σ Req Resp) : σ → Bytes → Except Status Bytes × σ :=
  serveRpc (core.handle .appendEntries) "failed to deserialize AppendEntries: " "append_entries failed: "
    "failed to serialize AppendEntries response: "

/-- `NodeServiceImpl::request_vote`. -/
def requestVote (core : RaftCore σ Req Resp) : σ → Bytes → Except Status Bytes × σ :=
  serveRpc (core.handle .vote) "failed to deserialize VoteRequest: " "request_vote failed: "
    "failed to serialize VoteResponse: "

/-- `NodeServiceImpl::install_snapshot`. -/
def installSnapshot (core : RaftCore σ Req Resp) (s : σ) (stream : List (Except Status SnapshotChunk)) :
    Except Status Bytes × σ :=
  match receiveChunks none [] stream with
  | .error e => (.error e, s)
  | .ok (none, _) => (.error (.invalidArgument "no snapshot metadata received"), s)
  | .ok (some metadata, _) =>
      serveRpc (core.handle .installSnapshot) "failed to deserialize snapshot metadata: "
        "install_snapshot failed: " "failed to serialize InstallSnapshot response: " s metadata

/-- The answer is that of the handler without a state. -/
theorem installSnapshot_fst (core : RaftCore σ Req Resp) (s : σ) (stream : List (Except Status SnapshotChunk)) :
    (installSnapshot core s stream).1.map InstallSnapshotResponse.mk =
      serveInstallSnapshot (fun raftReq : Req .installSnapshot => (core.handle .installSnapshot s raftReq).1)
        stream := by
  rw [installSnapshot, serveInstallSnapshot]
  cases receiveChunks none [] stream with
  | error e => rfl
  | ok received =>
      obtain ⟨metadataBytes, fullData⟩ := received
      cases metadataBytes with
      | none => rfl
      | some metadata =>
          show (serveRpc _ _ _ _ s metadata).1.map InstallSnapshotResponse.mk = _
          rw [serveRpc]
          cases hread : (SerdeJson.fromSlice metadata : Except String (Req .installSnapshot)) with
          | error e => simp only [hread]; rfl
          | ok raftReq =>
              simp only [hread]
              rcases core.handle .installSnapshot s raftReq with ⟨_ | resp, s'⟩
              · rfl
              · cases hwrite : (SerdeJson.toVec resp : Except String Bytes) with
                | error e => simp only [hwrite]; rfl
                | ok payload => simp only [hwrite]; rfl

end NodeServiceImpl

end Service

/-! ## The transport of production -/

section Grpc

/-- What the calls of `GrpcNetwork` have in common: connect, write the request, send it, read
the answer. `dial` is what connecting leads to and what then becomes of the messages. -/
def grpcCall {ρ α : Type} [SerdeJson ρ] [SerdeJson α] (refused : DbError → RPCError) (writeError : String)
    (failed : Status → String) (readError : String) (serve : σ → Bytes → Except Status Bytes × σ)
    (dial : DbResult (Transit Status)) (s : σ) (rpc : ρ) : Except RPCError α × σ :=
  match dial with
  | .error e => (.error (refused e), s)
  | .ok transit =>
      match SerdeJson.toVec rpc with
      | .error e => (.error (.unreachable ⟨.invalidData, writeError ++ e⟩), s)
      | .ok payload =>
          match transit.carry serve s payload with
          | (.error e, s) => (.error (.unreachable ⟨.connectionReset, failed e⟩), s)
          | (.ok respBytes, s) =>
              match SerdeJson.fromSlice respBytes with
              | .error e => (.error (.unreachable ⟨.invalidData, readError ++ e⟩), s)
              | .ok resp => (.ok resp, s)

namespace GrpcNetwork

variable [∀ rpc, SerdeJson (Req rpc)] [∀ rpc, SerdeJson (Resp rpc)] [StatusDisplay] [RPCErrorDisplay]

/-- `GrpcNetwork::connect` after a dial that failed. -/
def connectError (addr : String) (e : DbError) : RPCError :=
  .unreachable ⟨.connectionRefused, "failed to connect to " ++ addr ++ ": " ++ e.toString⟩

/-- The error of `NodeClient::send_append_entries`. -/
def appendEntriesFailed (e : Status) : DbError :=
  .networkError ("append_entries RPC failed: " ++ StatusDisplay.fmt e)

/-- The error of `NodeClient::send_vote`. -/
def voteFailed (e : Status) : DbError :=
  .networkError ("request_vote RPC failed: " ++ StatusDisplay.fmt e)

/-- `GrpcNetwork::append_entries` to the node at `addr`. -/
def appendEntries (core : RaftCore σ Req Resp) (addr : String) :
    DbResult (Transit Status) → σ → Req .appendEntries → Except RPCError (Resp .appendEntries) × σ :=
  grpcCall (connectError addr) "serialize AppendEntriesRequest: "
    (fun e => "append_entries RPC: " ++ (appendEntriesFailed e).toString)
    "deserialize AppendEntriesResponse: " (NodeServiceImpl.appendEntries core)

/-- `GrpcNetwork::vote`. -/
def vote (core : RaftCore σ Req Resp) (addr : String) :
    DbResult (Transit Status) → σ → Req .vote → Except RPCError (Resp .vote) × σ :=
  grpcCall (connectError addr) "serialize VoteRequest: " (fun e => "vote RPC: " ++ (voteFailed e).toString)
    "deserialize VoteResponse: " (NodeServiceImpl.requestVote core)

/-- `GrpcNetwork::install_snapshot`: one chunk, without data, and its error is wrapped twice. -/
def installSnapshot (core : RaftCore σ Req Resp) (addr : String) :
    DbResult (Transit Status) → σ → Req .installSnapshot → Except RPCError (Resp .installSnapshot) × σ :=
  grpcCall (fun e => .unreachable ⟨.connectionRefused, RPCErrorDisplay.fmt (connectError addr e)⟩)
    "serialize InstallSnapshotRequest: " (fun e => "install_snapshot RPC: " ++ StatusDisplay.fmt e)
    "deserialize InstallSnapshotResponse: "
    (fun s metadata => NodeServiceImpl.installSnapshot core s [.ok ⟨0, [], true, metadata⟩])

/-- The three calls. -/
def call (core : RaftCore σ Req Resp) (addr : String) (dial : DbResult (Transit Status)) (s : σ) :
    (rpc : RaftRpc) → Req rpc → Except RPCError (Resp rpc) × σ
  | .appendEntries, request => appendEntries core addr dial s request
  | .vote, request => vote core addr dial s request
  | .installSnapshot, request => installSnapshot core addr dial s request

end GrpcNetwork

end Grpc

/-! ## The transport of the tests -/

namespace ChannelNetwork

/-- `ChannelNetwork::get_target`. -/
def getTarget (routers : UInt64 → Option σ) (target : UInt64) : Except RPCError σ :=
  match routers target with
  | some raft => .ok raft
  | none => .error (.unreachable ⟨.notConnected, "node " ++ toString target ++ " not found in router map"⟩)

/-- A call of the Raft handle of `target`, which steps behind it; the snapshot call wraps a missing
handle once more. -/
def call [RPCErrorDisplay] (core : RaftCore σ Req Resp) (routers : UInt64 → Option σ) (target : UInt64)
    (rpc : RaftRpc) (request : Req rpc) : Except RPCError (Resp rpc) × Option σ :=
  match getTarget routers target with
  | .error e =>
      match rpc with
      | .installSnapshot => (.error (.network (RPCErrorDisplay.fmt e)), none)
      | _ => (.error e, none)
  | .ok raft =>
      let handled := core.handle rpc raft request
      (handled.1.mapError .network, some handled.2)

end ChannelNetwork

/-! ## What a call can do -/

section Carried

variable {ρ α : Type} [SerdeJson ρ] [SerdeJson α]

/-- The request gets to the other node, if it is sent. -/
def requestArrives : DbResult (Transit Status) → Bool
  | .ok transit => transit.arrives
  | .error _ => false

/-- The answer gets back, if there is one. -/
def answerReturns : DbResult (Transit Status) → Bool
  | .ok transit => transit.returns
  | .error _ => false

/-- What the other node reads of a request. -/
def received (dial : DbResult (Transit Status)) (rpc : ρ) : Option ρ :=
  match (SerdeJson.toVec rpc : Except String Bytes) with
  | .ok payload =>
      if requestArrives dial then (SerdeJson.fromSlice payload : Except String ρ).toOption else none
  | .error _ => none

theorem received_of_readsBack (dial : DbResult (Transit Status)) {rpc : ρ} (h : SerdeJson.ReadsBack rpc) :
    received dial rpc = if requestArrives dial then some rpc else none := by
  obtain ⟨payload, hwrite, hread⟩ := h
  simp only [received, hwrite, hread]
  rfl

/-- What is received of a request that is written. -/
theorem received_sent (transit : Transit Status) {rpc : ρ} {payload : Bytes}
    (hwrite : SerdeJson.toVec rpc = .ok payload) :
    received (.ok transit) rpc =
      if transit.arrives then (SerdeJson.fromSlice payload : Except String ρ).toOption else none := by
  simp only [received, hwrite]
  rfl

theorem received_sent_eq_some_iff {transit : Transit Status} {rpc rpc' : ρ} {payload : Bytes}
    (hwrite : SerdeJson.toVec rpc = .ok payload) :
    received (.ok transit) rpc = some rpc' ↔ transit.arrives = true ∧ SerdeJson.fromSlice payload = .ok rpc' := by
  rw [received_sent transit hwrite]
  cases (SerdeJson.fromSlice payload : Except String ρ) with
  | error e => simp [Except.toOption]
  | ok rpc'' => simp [Except.toOption]

/-- The service does with a payload what the handler does with the request that is read. -/
structure Answers (handle : σ → ρ → Except String α × σ) (s : σ) (payload : Bytes)
    (result : Except Status Bytes × σ) : Prop where
  state : result.2 = (SerdeJson.fromSlice payload : Except String ρ).toOption.elim s fun rpc => (handle s rpc).2
  answer : ∀ bytes, result.1 = .ok bytes ↔ ∃ rpc resp, SerdeJson.fromSlice payload = .ok rpc ∧
    (handle s rpc).1 = .ok resp ∧ SerdeJson.toVec resp = .ok bytes

/-- The result of a gRPC call, and what the other node does meanwhile. -/
structure Carried (handle : σ → ρ → Except String α × σ) (dial : DbResult (Transit Status)) (s : σ) (rpc : ρ)
    (result : Except RPCError α × σ) : Prop where
  /-- The handler runs, once and on what is read, exactly when a request is received. -/
  state : result.2 = (received dial rpc).elim s fun rpc' => (handle s rpc').2
  answer : ∀ resp, result.1 = .ok resp ↔ answerReturns dial = true ∧ ∃ rpc' resp',
    received dial rpc = some rpc' ∧ (handle s rpc').1 = .ok resp' ∧ SerdeJson.ReadsAs resp' resp
  error : ∀ e, result.1 = .error e → ∃ source, e = .unreachable source

/-- A call whose request is not received. -/
theorem carried_of_not_sent (handle : σ → ρ → Except String α × σ) {dial : DbResult (Transit Status)} (s : σ)
    {rpc : ρ} (hreceived : received dial rpc = none) (source : IoError) :
    Carried handle dial s rpc (.error (.unreachable source), s) where
  state := by rw [hreceived]; rfl
  answer resp := by
    rw [hreceived]
    constructor
    · exact nofun
    · rintro ⟨-, rpc', resp', h, -⟩
      cases h
  error e he := by
    cases he
    exact ⟨source, rfl⟩

/-- A payload that is read, of which the service makes what the handler makes of the request. -/
theorem answers_of_read {handle : σ → ρ → Except String α × σ} {s : σ} {payload : Bytes} {rpc : ρ}
    {result : Except Status Bytes × σ} (hread : SerdeJson.fromSlice payload = .ok rpc)
    (hstate : result.2 = (handle s rpc).2)
    (hanswer : ∀ bytes, result.1 = .ok bytes ↔
      ∃ resp, (handle s rpc).1 = .ok resp ∧ SerdeJson.toVec resp = .ok bytes) :
    Answers handle s payload result where
  state := by
    rw [hread, hstate]
    rfl
  answer bytes := by
    rw [hanswer]
    constructor
    · rintro ⟨resp, hresp⟩
      exact ⟨rpc, resp, hread, hresp⟩
    · rintro ⟨rpc', resp, hrpc, hresp⟩
      rw [← Except.ok.inj (hread.symm.trans hrpc)] at hresp
      exact ⟨resp, hresp⟩

/-- The service answers what the handler answers to the request that is read. -/
theorem answers_serveRpc (handle : σ → ρ → Except String α × σ) (readError callError writeError : String) (s : σ)
    (payload : Bytes) : Answers handle s payload (serveRpc handle readError callError writeError s payload) := by
  cases hread : (SerdeJson.fromSlice payload : Except String ρ) with
  | error e =>
      have hserved : serveRpc handle readError callError writeError s payload =
          ((.error (.invalidArgument (readError ++ e)), s) : Except Status Bytes × σ) := by
        simp only [serveRpc, hread]
      rw [hserved]
      refine ⟨by rw [hread]; rfl, fun bytes => ⟨nofun, ?_⟩⟩
      rintro ⟨rpc, resp, hrpc, -⟩
      cases hread.symm.trans hrpc
  | ok rpc =>
      rcases hhandled : handle s rpc with ⟨e | resp, s'⟩
      · have hserved : serveRpc handle readError callError writeError s payload =
            ((.error (.internal (callError ++ e)), s') : Except Status Bytes × σ) := by
          simp only [serveRpc, hread, hhandled]
        rw [hserved]
        refine answers_of_read hread (by rw [hhandled]) fun bytes => ?_
        simp [hhandled]
      · cases hwrite : (SerdeJson.toVec resp : Except String Bytes) with
        | error e =>
            have hserved : serveRpc handle readError callError writeError s payload =
                ((.error (.internal (writeError ++ e)), s') : Except Status Bytes × σ) := by
              simp only [serveRpc, hread, hhandled, hwrite]
            rw [hserved]
            refine answers_of_read hread (by rw [hhandled]) fun bytes => ?_
            simp [hhandled, hwrite]
        | ok out =>
            have hserved : serveRpc handle readError callError writeError s payload = (.ok out, s') := by
              simp only [serveRpc, hread, hhandled, hwrite]
            rw [hserved]
            refine answers_of_read hread (by rw [hhandled]) fun bytes => ?_
            simp [hhandled, hwrite]

/-- A call whose request is sent: the answer of the service is read where it gets back. -/
theorem grpcCall_sent (serve : σ → Bytes → Except Status Bytes × σ) (refused : DbError → RPCError)
    (writeError : String) (failed : Status → String) (readError : String) (transit : Transit Status) (s : σ) {rpc : ρ}
    {payload : Bytes} (hwrite : SerdeJson.toVec rpc = .ok payload) :
    let result : Except RPCError α × σ := grpcCall refused writeError failed readError serve (.ok transit) s rpc
    result.2 = (transit.carry serve s payload).2 ∧
      (∀ resp, result.1 = .ok resp ↔
        ∃ bytes, (transit.carry serve s payload).1 = .ok bytes ∧ SerdeJson.fromSlice bytes = .ok resp) ∧
      ∀ e, result.1 = .error e → ∃ source, e = .unreachable source := by
  intro result
  rcases hcarried : transit.carry serve s payload with ⟨e | bytes, s'⟩
  · have hcall : result = ((.error (.unreachable ⟨.connectionReset, failed e⟩), s') : Except RPCError α × σ) := by
      simp only [result, grpcCall, hwrite, hcarried]
    rw [hcall]
    simp
  · cases hread : (SerdeJson.fromSlice bytes : Except String α) with
    | error e =>
        have hcall : result = ((.error (.unreachable ⟨.invalidData, readError ++ e⟩), s') : Except RPCError α × σ) := by
          simp only [result, grpcCall, hwrite, hcarried, hread]
        rw [hcall]
        simp [hread]
    | ok resp =>
        have hcall : result = (.ok resp, s') := by
          simp only [result, grpcCall, hwrite, hcarried, hread]
        rw [hcall]
        simp [hread]

/-- **One call over gRPC**, to a service that answers as the handler does. -/
theorem carried_grpcCall {handle : σ → ρ → Except String α × σ} {serve : σ → Bytes → Except Status Bytes × σ}
    {refused : DbError → RPCError} (hrefused : ∀ e, ∃ source, refused e = .unreachable source)
    (writeError : String) (failed : Status → String) (readError : String) (dial : DbResult (Transit Status)) (s : σ)
    (rpc : ρ)
    (hserve : ∀ payload, SerdeJson.toVec rpc = .ok payload → Answers handle s payload (serve s payload)) :
    Carried handle dial s rpc (grpcCall refused writeError failed readError serve dial s rpc) := by
  cases dial with
  | error e =>
      -- nobody to send to
      obtain ⟨source, hsource⟩ := hrefused e
      have hcall : grpcCall refused writeError failed readError serve (.error e) s rpc =
          ((.error (.unreachable source), s) : Except RPCError α × σ) := by
        rw [← hsource]
        rfl
      rw [hcall]
      apply carried_of_not_sent
      rw [received]
      split
      · rfl
      · rfl
  | ok transit =>
      cases hwrite : (SerdeJson.toVec rpc : Except String Bytes) with
      | error e =>
          -- nothing to send
          have hcall : grpcCall refused writeError failed readError serve (.ok transit) s rpc =
              ((.error (.unreachable ⟨.invalidData, writeError ++ e⟩), s) : Except RPCError α × σ) := by
            simp only [grpcCall, hwrite]
          rw [hcall]
          apply carried_of_not_sent
          simp only [received, hwrite]
      | ok payload =>
          have hserved := hserve payload hwrite
          obtain ⟨hstate, hanswer, herror⟩ :=
            grpcCall_sent (α := α) serve refused writeError failed readError transit s hwrite
          refine ⟨?_, fun resp => ?_, herror⟩
          · rw [hstate, transit.carry_snd, hserved.state, received_sent transit hwrite]
            split
            · rfl
            · rfl
          · rw [hanswer]
            show _ ↔ transit.returns = true ∧ _
            constructor
            · rintro ⟨bytes, hcarried, hresp⟩
              obtain ⟨hback, hbytes⟩ := (transit.carry_fst_eq_ok_iff serve s payload bytes).1 hcarried
              obtain ⟨rpc', resp', hread, hhandled, hout⟩ := (hserved.answer bytes).1 hbytes
              have hrpc := (received_sent_eq_some_iff hwrite).2 ⟨Transit.arrives_of_returns hback, hread⟩
              exact ⟨hback, rpc', resp', hrpc, hhandled, bytes, hout, hresp⟩
            · rintro ⟨hback, rpc', resp', hrpc, hhandled, bytes, hout, hresp⟩
              obtain ⟨-, hread⟩ := (received_sent_eq_some_iff hwrite).1 hrpc
              have hbytes := (hserved.answer bytes).2 ⟨rpc', resp', hread, hhandled, hout⟩
              exact ⟨bytes, (transit.carry_fst_eq_ok_iff serve s payload bytes).2 ⟨hback, hbytes⟩, hresp⟩

end Carried

/-! ## Runs -/

section Runs

variable [∀ rpc, SerdeJson (Req rpc)] [∀ rpc, SerdeJson (Resp rpc)] [StatusDisplay] [RPCErrorDisplay]

/-- A call of the node `target`, registered at `addr`, and what becomes of it. -/
structure RaftCall (Req : RaftRpc → Type) where
  target : UInt64
  addr : String
  rpc : RaftRpc
  request : Req rpc
  dial : DbResult (Transit Status)

/-- The call as the target receives it. -/
def RaftCall.received (call : RaftCall Req) : Option (RaftCall Req) :=
  (Network.received call.dial call.request).map fun request => { call with request := request }

/-- A call over gRPC in a cluster. -/
def grpcStep (core : RaftCore σ Req Resp) (nodes : UInt64 → σ) (call : RaftCall Req) :
    Except RPCError (Resp call.rpc) × (UInt64 → σ) :=
  let result := GrpcNetwork.call core call.addr call.dial (nodes call.target) call.rpc call.request
  (result.1, Function.update nodes call.target result.2)

/-- A call through the router map, in which every node is. -/
def channelStep (core : RaftCore σ Req Resp) (nodes : UInt64 → σ) (call : RaftCall Req) :
    Except RPCError (Resp call.rpc) × (UInt64 → σ) :=
  let result := ChannelNetwork.call core (fun id => some (nodes id)) call.target call.rpc call.request
  (result.1, Function.update nodes call.target (result.2.getD (nodes call.target)))

/-- The cluster after a run of calls. -/
def grpcRun (core : RaftCore σ Req Resp) (nodes : UInt64 → σ) (calls : List (RaftCall Req)) : UInt64 → σ :=
  calls.foldl (fun nodes call => (grpcStep core nodes call).2) nodes

/-- The same through the router map. -/
def channelRun (core : RaftCore σ Req Resp) (nodes : UInt64 → σ) (calls : List (RaftCall Req)) : UInt64 → σ :=
  calls.foldl (fun nodes call => (channelStep core nodes call).2) nodes

omit [∀ rpc, SerdeJson (Req rpc)] [∀ rpc, SerdeJson (Resp rpc)] [StatusDisplay] in
/-- A call through the router map is a call of the handler. -/
theorem channelStep_eq (core : RaftCore σ Req Resp) (nodes : UInt64 → σ) (call : RaftCall Req) :
    channelStep core nodes call =
      ((core.handle call.rpc (nodes call.target) call.request).1.mapError .network,
        Function.update nodes call.target (core.handle call.rpc (nodes call.target) call.request).2) :=
  rfl

/-- **One call of each kind.** Requests of snapshots are written to texts that are not empty. -/
theorem carried_call (core : RaftCore σ Req Resp)
    (htext : ∀ request : Req .installSnapshot, SerdeJson.toVec request ≠ .ok []) (nodes : UInt64 → σ)
    (call : RaftCall Req) :
    Carried (core.handle call.rpc) call.dial (nodes call.target) call.request
      (GrpcNetwork.call core call.addr call.dial (nodes call.target) call.rpc call.request) := by
  obtain ⟨target, addr, rpc, request, dial⟩ := call
  cases rpc with
  | appendEntries =>
      apply carried_grpcCall (fun e => ⟨_, rfl⟩)
      exact fun payload _ => answers_serveRpc _ _ _ _ _ payload
  | vote =>
      apply carried_grpcCall (fun e => ⟨_, rfl⟩)
      exact fun payload _ => answers_serveRpc _ _ _ _ _ payload
  | installSnapshot =>
      apply carried_grpcCall (fun e => ⟨_, rfl⟩)
      intro payload h
      -- the one chunk is received as the request it carries
      have hne : payload ≠ [] := fun hnil => htext request (hnil ▸ h)
      have hreceived : receiveChunks none [] [.ok ⟨0, [], true, payload⟩] = .ok (some payload, []) := by
        rw [receiveChunks]
        simp [hne]
      simp only [NodeServiceImpl.installSnapshot, hreceived]
      exact answers_serveRpc _ _ _ _ _ payload

theorem grpcStep_snd (core : RaftCore σ Req Resp)
    (htext : ∀ request : Req .installSnapshot, SerdeJson.toVec request ≠ .ok []) (nodes : UInt64 → σ)
    (call : RaftCall Req) :
    (grpcStep core nodes call).2 = call.received.elim nodes fun call' => (channelStep core nodes call').2 := by
  have hstate := (carried_call core htext nodes call).state
  show Function.update nodes call.target _ = _
  rw [hstate, RaftCall.received]
  cases Network.received call.dial call.request with
  | none => exact Function.update_eq_self call.target nodes
  | some request => rfl

/-- **The transport of production refines the transport of the tests.** In every run of calls
between the nodes of a cluster, whatever the network loses, each node is in the state in which
the direct calls of the requests that are received leave it; a request whose JSON is read back is
received as it was sent, if it arrives. The next call returns a response exactly when its answer
gets back and the direct call of what is received returns a response that is read as this one.
Otherwise it returns `Unreachable`, where the direct call returns `Network`. -/
theorem grpc_refines_channel (core : RaftCore σ Req Resp)
    (htext : ∀ request : Req .installSnapshot, SerdeJson.toVec request ≠ .ok []) (nodes : UInt64 → σ)
    (calls : List (RaftCall Req)) (call : RaftCall Req) :
    grpcRun core nodes calls = channelRun core nodes (calls.filterMap RaftCall.received) ∧
      (∀ c : RaftCall Req, SerdeJson.ReadsBack c.request →
        c.received = if requestArrives c.dial then some c else none) ∧
      (∀ resp, (grpcStep core (grpcRun core nodes calls) call).1 = .ok resp ↔
        answerReturns call.dial = true ∧ ∃ request resp', received call.dial call.request = some request ∧
          (channelStep core (grpcRun core nodes calls) { call with request := request }).1 = .ok resp' ∧
          SerdeJson.ReadsAs resp' resp) ∧
      (∀ e, (grpcStep core (grpcRun core nodes calls) call).1 = .error e → ∃ source, e = .unreachable source) ∧
      ∀ e, (channelStep core (grpcRun core nodes calls) call).1 = .error e → ∃ source, e = .network source := by
  have hcarried := carried_call core htext (grpcRun core nodes calls) call
  refine ⟨?_, fun c hback => ?_, fun resp => ?_, hcarried.error, fun e he => ?_⟩
  · apply foldl_eq_foldl_filterMap
    · intro nodes call hlost
      rw [grpcStep_snd core htext, hlost]
      rfl
    · intro nodes call call' hreceived
      rw [grpcStep_snd core htext, hreceived]
      rfl
  · rw [RaftCall.received, received_of_readsBack c.dial hback]
    split
    · rfl
    · rfl
  · have hdirect : ∀ request resp', (channelStep core (grpcRun core nodes calls)
        { call with request := request }).1 = .ok resp' ↔
          (core.handle call.rpc (grpcRun core nodes calls call.target) request).1 = .ok resp' := by
      intro request resp'
      rw [channelStep_eq]
      show (core.handle call.rpc _ request).1.mapError RPCError.network = _ ↔ _
      cases (core.handle call.rpc (grpcRun core nodes calls call.target) request).1 with
      | error e => exact ⟨nofun, nofun⟩
      | ok resp => exact ⟨fun h => congrArg Except.ok (Except.ok.inj h), fun h => congrArg Except.ok (Except.ok.inj h)⟩
    simp only [hdirect]
    exact hcarried.answer resp
  · rw [channelStep_eq] at he
    cases hhandled : (core.handle call.rpc (grpcRun core nodes calls call.target) call.request).1 with
    | error text =>
        simp only [hhandled] at he
        cases he
        exact ⟨text, rfl⟩
    | ok resp =>
        simp only [hhandled] at he
        cases he

end Runs

/-! ## A lost answer -/

/-- The vote request of the first candidate. -/
inductive FirstVote where
  | ofCandidate
  deriving DecidableEq

/-- The vote that it is granted. -/
inductive FirstGrant where
  | granted
  deriving DecidableEq

instance firstVoteJson : SerdeJson FirstVote := oneValueJson .ofCandidate
  (asBytes "\x7b\"vote\":\x7b\"leader_id\":\x7b\"term\":1,\"node_id\":1\x7d,\"committed\":false\x7d,\"last_log_id\":null\x7d")

instance firstGrantJson : SerdeJson FirstGrant := oneValueJson .granted
  (asBytes ("\x7b\"vote\":\x7b\"leader_id\":\x7b\"term\":1,\"node_id\":1\x7d,\"committed\":false\x7d," ++
    "\"vote_granted\":true,\"last_log_id\":null\x7d"))

/-- A node that grants the vote and remembers it. -/
def grantingCore : RaftCore Bool (fun _ => FirstVote) (fun _ => FirstGrant) where
  handle _ _ _ := (.ok .granted, true)

/-- A vote request to the node `target`. -/
def askVote (target : UInt64) (transit : Transit Status) : RaftCall fun _ => FirstVote :=
  ⟨target, "127.0.0.1:9300", .vote, .ofCandidate, .ok transit⟩

/-- The text of the status below. -/
@[reducible] def brokenPipe : StatusDisplay where
  fmt _ := "status: Unavailable, message: \"broken pipe\", details: [], metadata: MetadataMap \x7b headers: \x7b\x7d \x7d"

/-- The text of an unreachable node. -/
@[reducible] def unreachableText : RPCErrorDisplay where
  fmt
    | .unreachable source => source.msg
    | _ => ""

/-- One vote gets through, and the answer to the next is lost. -/
theorem grpc_refines_channel_vote :
    letI : StatusDisplay := brokenPipe
    letI : RPCErrorDisplay := unreachableText
    (∀ request : FirstVote, SerdeJson.toVec request ≠ .ok []) ∧
      grpcRun grantingCore (fun _ => false) [askVote 2 .delivered] =
        channelRun grantingCore (fun _ => false) ([askVote 2 .delivered].filterMap RaftCall.received) ∧
      (askVote 2 .delivered).received = some (askVote 2 .delivered) ∧
      ∀ resp, (grpcStep grantingCore (grpcRun grantingCore (fun _ => false) [askVote 2 .delivered])
          (askVote 3 (.responseLost (.transport "broken pipe")))).1 ≠ .ok resp := by
  let : StatusDisplay := brokenPipe
  let : RPCErrorDisplay := unreachableText
  have htext : ∀ request : FirstVote, SerdeJson.toVec request ≠ .ok [] := by
    intro request
    cases request
    decide
  obtain ⟨hrun, hback, hanswer, -⟩ := grpc_refines_channel grantingCore htext (fun _ => false) [askVote 2 .delivered]
    (askVote 3 (.responseLost (.transport "broken pipe")))
  refine ⟨htext, hrun, hback (askVote 2 .delivered) (readsBack_oneValueJson _ _), fun resp hresp => ?_⟩
  exact absurd ((hanswer resp).1 hresp).1 Bool.false_ne_true

end MSearchDB.Network
