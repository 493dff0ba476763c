import MSearchDB.Lib.Run
import MSearchDB.Core.ClusterRouter
import MSearchDB.Network.CircuitBreaker
import MSearchDB.Node.Propose

/-!
# The connection pool

`ConnectionPool` of `crates/network/src/connection_pool.rs`, `NodeClient::connect` of
`client.rs` and `ClusterManager::join_cluster` of `crates/node/src/cluster_manager.rs`.
What the network does in the attempts to connect is a parameter.

`get` is a look into the cache (`cached`) and, where there is nothing, a connection that
is put into the cache (`insert`). The cache knows a client by the node's id alone, so
that a call gets a client for the address it asks for exactly when the client in the
cache, if any, is for that address (`connects_where_asked_iff`).
-/

set_option autoImplicit false

namespace MSearchDB.Network

open MSearchDB.Lib
open MSearchDB.Core
open MSearchDB.Node (NodeAddress)
open Std (ExtTreeMap)

/-! ## Clients -/

/-- `tonic::transport::Channel`: a channel ends where it was connected to. -/
structure Channel where
  endpoint : String
  deriving DecidableEq, Repr

/-- `NodeClient`, with the channel it wraps. -/
structure ChannelClient where
  channel : Channel
  addr : String
  deriving DecidableEq, Repr

/-- What `Channel::from_shared` and the attempts to connect return, by the endpoint and
the number of the attempt. -/
structure Dialing where
  fromShared : String → Except String Unit
  connect : String → Nat → Except String Unit

/-- `MAX_RETRIES`. -/
def maxRetries : Nat := 5

/-- The endpoint of an address. -/
def endpointOf (addr : NodeAddress) : String := "http://" ++ addr.toStr

theorem endpointOf_injective : Function.Injective endpointOf := by
  intro addr addr' h
  apply NodeAddress.toStr_injective
  have hlist := congrArg String.toList h
  rw [endpointOf, endpointOf, String.toList_append, String.toList_append] at hlist
  exact String.toList_injective (List.append_cancel_left hlist)

namespace ChannelClient

/-- The loop of `connect_to_endpoint`, with the last error. -/
def connectLoop (net : Dialing) (endpoint : String) : Option String → List Nat → DbResult ChannelClient
  | lastErr, [] =>
      .error (.networkError ("failed to connect to " ++ endpoint ++ " after " ++ toString maxRetries ++
        " retries: " ++ lastErr.getD "unknown"))
  | _, attempt :: rest =>
      match net.fromShared endpoint with
      | .error e => .error (.networkError ("invalid endpoint: " ++ e))
      | .ok () =>
          match net.connect endpoint attempt with
          | .ok () => .ok ⟨⟨endpoint⟩, endpoint⟩
          | .error e => connectLoop net endpoint (some e) rest

/-- `connect_to_endpoint`. -/
def connectToEndpoint (net : Dialing) (endpoint : String) : DbResult ChannelClient :=
  connectLoop net endpoint none (List.range maxRetries)

/-- `NodeClient::connect`. -/
def connect (net : Dialing) (addr : NodeAddress) : DbResult ChannelClient :=
  connectToEndpoint net (endpointOf addr)

/-- The client's channel ends at the address. -/
def ConnectedTo (client : ChannelClient) (addr : NodeAddress) : Prop :=
  client.channel.endpoint = endpointOf addr

/-- It ends at no other address. -/
theorem ConnectedTo.unique {client : ChannelClient} {addr addr' : NodeAddress} (h : client.ConnectedTo addr)
    (h' : client.ConnectedTo addr') : addr = addr' :=
  endpointOf_injective (h.symm.trans h')

theorem endpoint_of_connectLoop {net : Dialing} {endpoint : String} {client : ChannelClient}
    (attempts : List Nat) : ∀ lastErr, connectLoop net endpoint lastErr attempts = .ok client →
      client.channel.endpoint = endpoint := by
  -- induction on the attempts that are left
  induction attempts with
  | nil =>
      intro _ h
      cases h
  | cons attempt rest ih =>
      intro lastErr h
      rw [connectLoop] at h
      rcases hshared : net.fromShared endpoint with e | u
      · rw [hshared] at h
        cases h
      · rw [hshared] at h
        rcases hconnect : net.connect endpoint attempt with e | u
        · rw [hconnect] at h
          exact ih _ h
        · rw [hconnect] at h
          cases h
          rfl

/-- A client that was connected is connected to the address asked for. -/
theorem connectedTo_of_connect {net : Dialing} {addr : NodeAddress} {client : ChannelClient}
    (h : connect net addr = .ok client) : client.ConnectedTo addr :=
  endpoint_of_connectLoop _ _ h

end ChannelClient

/-! ## The pool -/

/-- `PoolEntry`. -/
structure PoolEntry where
  client : ChannelClient
  breaker : CircuitBreaker
  deriving DecidableEq, Repr

/-- `PoolConfig`. -/
structure PoolConfig where
  maxConnectionsPerNode : Nat
  failureThreshold : UInt32
  openDuration : Nat
  deriving DecidableEq, Repr

/-- `PoolConfig::default`. -/
def PoolConfig.default : PoolConfig := ⟨10, 3, 30000000000⟩

/-- `ConnectionPool`. -/
structure ConnectionPool where
  entries : ExtTreeMap UInt64 PoolEntry
  config : PoolConfig

/-- The error of a call that the circuit breaker refuses. -/
def circuitOpen (nodeId : NodeId) : DbError :=
  .networkError ("circuit breaker open for node node-" ++ toString nodeId.toNat)

namespace ConnectionPool

/-- `with_config`. -/
def withConfig (config : PoolConfig) : ConnectionPool := ⟨∅, config⟩

/-- A new breaker of the pool. -/
def newBreaker (pool : ConnectionPool) : CircuitBreaker :=
  .new pool.config.failureThreshold pool.config.openDuration

/-- The fast path of `get`: what it returns when there is an entry. -/
def cached (pool : ConnectionPool) (now : Nat) (nodeId : NodeId) : Option (DbResult ChannelClient) :=
  match pool.entries[nodeId]? with
  | some entry =>
      if entry.breaker.allowRequest now then some (.ok entry.client)
      else some (.error (circuitOpen nodeId))
  | none => none

/-- `insert`, and the end of the slow path of `get`. -/
def insert (pool : ConnectionPool) (nodeId : NodeId) (client : ChannelClient) : ConnectionPool :=
  { pool with entries := pool.entries.insert nodeId ⟨client, pool.newBreaker⟩ }

/-- `get`. -/
def get (pool : ConnectionPool) (now : Nat) (net : Dialing) (nodeId : NodeId) (addr : NodeAddress) :
    DbResult ChannelClient × ConnectionPool :=
  match pool.cached now nodeId with
  | some result => (result, pool)
  | none =>
      match ChannelClient.connect net addr with
      | .error e => (.error e, pool)
      | .ok client => (.ok client, pool.insert nodeId client)

/-- `get_mut` and a change of the breaker. -/
def modifyBreaker (pool : ConnectionPool) (nodeId : NodeId) (f : CircuitBreaker → CircuitBreaker) :
    ConnectionPool :=
  match pool.entries[nodeId]? with
  | some entry => { pool with entries := pool.entries.insert nodeId { entry with breaker := f entry.breaker } }
  | none => pool

/-- `record_success`. -/
def recordSuccess (pool : ConnectionPool) (nodeId : NodeId) : ConnectionPool :=
  pool.modifyBreaker nodeId CircuitBreaker.recordSuccess

/-- `record_failure`. -/
def recordFailure (pool : ConnectionPool) (now : Nat) (nodeId : NodeId) : ConnectionPool :=
  pool.modifyBreaker nodeId fun b => b.recordFailure now

/-- `remove`. -/
def remove (pool : ConnectionPool) (nodeId : NodeId) : ConnectionPool :=
  { pool with entries := pool.entries.erase nodeId }

theorem getElem?_insert (pool : ConnectionPool) (nodeId : NodeId) (client : ChannelClient) (id : NodeId) :
    (pool.insert nodeId client).entries[id]? =
      if nodeId = id then some ⟨client, pool.newBreaker⟩ else pool.entries[id]? := by
  simp [insert, ExtTreeMap.getElem?_insert]

theorem getElem?_modifyBreaker (pool : ConnectionPool) (nodeId : NodeId) (f : CircuitBreaker → CircuitBreaker)
    (id : NodeId) : (pool.modifyBreaker nodeId f).entries[id]? =
      if nodeId = id then pool.entries[id]?.map fun entry => { entry with breaker := f entry.breaker }
      else pool.entries[id]? := by
  rw [modifyBreaker]
  by_cases hid : nodeId = id
  · subst hid
    cases hentry : pool.entries[nodeId]? with
    | none => simp [hentry]
    | some entry => simp
  · cases hentry : pool.entries[nodeId]? with
    | none => simp [hid]
    | some entry => simp [ExtTreeMap.getElem?_insert, hid]

theorem getElem?_remove (pool : ConnectionPool) (nodeId id : NodeId) :
    (pool.remove nodeId).entries[id]? = if nodeId = id then none else pool.entries[id]? := by
  simp [remove, ExtTreeMap.getElem?_erase]

theorem config_modifyBreaker (pool : ConnectionPool) (nodeId : NodeId)
    (f : CircuitBreaker → CircuitBreaker) : (pool.modifyBreaker nodeId f).config = pool.config := by
  rw [modifyBreaker]
  split
  · rfl
  · rfl

end ConnectionPool

/-! ## Joining a cluster -/

/-- `proto::JoinRequest`. -/
structure JoinRequest where
  nodeId : UInt64
  address : String
  deriving DecidableEq, Repr

/-- `proto::JoinResponse`. -/
structure JoinResponse where
  success : Bool
  error : String
  deriving DecidableEq, Repr

/-- `NodeClient::join_cluster`, over a channel whose calls `rpc` answers. -/
def ChannelClient.joinCluster [StatusDisplay] (client : ChannelClient)
    (rpc : Channel → JoinRequest → Except Status JoinResponse) (nodeId : UInt64) (address : String) :
    DbResult Unit :=
  match rpc client.channel ⟨nodeId, address⟩ with
  | .error e => .error (.networkError ("join_cluster RPC failed: " ++ StatusDisplay.fmt e))
  | .ok inner =>
      if inner.success then .ok ()
      else .error (.networkError ("join_cluster rejected: " ++ inner.error))

/-- The id under which every bootstrap peer is asked for. -/
def bootstrapNodeId : NodeId := 0

/-- `ClusterManager::join_cluster` on the node `localId` at `localAddr`. -/
def joinCluster [StatusDisplay] (pool : ConnectionPool) (now : Nat) (net : Dialing)
    (rpc : Channel → JoinRequest → Except Status JoinResponse) (localId : NodeId) (localAddr : NodeAddress)
    (bootstrapPeer : NodeAddress) : DbResult Unit × ConnectionPool :=
  match pool.get now net bootstrapNodeId bootstrapPeer with
  | (.error e, pool) => (.error e, pool)
  | (.ok client, pool) => (client.joinCluster rpc localId localAddr.toStr, pool)

/-- Once a bootstrap peer is in the cache, every other one is taken for it. -/
theorem joinCluster_of_cached [StatusDisplay] {pool : ConnectionPool} {now : Nat} {entry : PoolEntry}
    (hentry : pool.entries[bootstrapNodeId]? = some entry) (hallow : entry.breaker.allowRequest now = true)
    (net : Dialing) (rpc : Channel → JoinRequest → Except Status JoinResponse) (localId : NodeId)
    (localAddr bootstrapPeer : NodeAddress) :
    joinCluster pool now net rpc localId localAddr bootstrapPeer =
      (entry.client.joinCluster rpc localId localAddr.toStr, pool) := by
  have hcached : pool.cached now bootstrapNodeId = some (.ok entry.client) := by
    rw [ConnectionPool.cached, hentry]
    exact if_pos hallow
  rw [joinCluster, ConnectionPool.get, hcached]

/-! ## Sequences of calls -/

/-- A call of the pool, with the time at which it is made and the network it meets. -/
inductive PoolCall where
  | get (now : Nat) (net : Dialing) (nodeId : NodeId) (addr : NodeAddress)
  | insert (nodeId : NodeId) (client : ChannelClient)
  | remove (nodeId : NodeId)

namespace ConnectionPool

/-- The pool after a call, and for a `get` the address asked for and what it returned. -/
def exec (pool : ConnectionPool) : PoolCall → ConnectionPool × Option (NodeAddress × DbResult ChannelClient)
  | .get now net nodeId addr =>
      let (result, pool) := pool.get now net nodeId addr
      (pool, some (addr, result))
  | .insert nodeId client => (pool.insert nodeId client, none)
  | .remove nodeId => (pool.remove nodeId, none)

/-- A client that a `get` returned is connected to the address asked for. -/
def Directed (answer : Option (NodeAddress × DbResult ChannelClient)) : Prop :=
  ∀ addr client, answer = some (addr, .ok client) → client.ConnectedTo addr

/-- A `get` finds no client in the cache, or one for the address it asks for. -/
def CachedThere (pool : ConnectionPool) : PoolCall → Prop
  | .get _ _ nodeId addr => ∀ entry : PoolEntry, pool.entries[nodeId]? = some entry → entry.client.ConnectedTo addr
  | .insert _ _ => True
  | .remove _ => True

/-- Every circuit is closed. -/
def AllClosed (pool : ConnectionPool) : Prop :=
  ∀ (id : NodeId) (entry : PoolEntry), pool.entries[id]? = some entry → entry.breaker.state = .closed

section Calls

variable {pool : ConnectionPool}

theorem AllClosed.insert (h : pool.AllClosed) (nodeId : NodeId) (client : ChannelClient) :
    (pool.insert nodeId client).AllClosed := by
  intro id entry hentry
  rw [getElem?_insert] at hentry
  split at hentry
  · rw [← Option.some.inj hentry]
    rfl
  · exact h id entry hentry

/-- Without failures no circuit opens. -/
theorem AllClosed.exec (h : pool.AllClosed) (call : PoolCall) : (pool.exec call).1.AllClosed := by
  cases call with
  | get now net nodeId addr =>
      rw [ConnectionPool.exec, get]
      cases pool.cached now nodeId with
      | some result => exact h
      | none =>
          cases ChannelClient.connect net addr with
          | error e => exact h
          | ok client => exact h.insert nodeId client
  | insert nodeId client => exact h.insert nodeId client
  | remove nodeId =>
      intro id entry hentry
      rw [ConnectionPool.exec, getElem?_remove] at hentry
      split at hentry
      · cases hentry
      · exact h id entry hentry

theorem cached_of_closed {entry : PoolEntry} (h : pool.AllClosed) {nodeId : NodeId}
    (hentry : pool.entries[nodeId]? = some entry) (now : Nat) :
    pool.cached now nodeId = some (.ok entry.client) := by
  have hallow : entry.breaker.allowRequest now = true := by
    rw [CircuitBreaker.allowRequest, CircuitBreaker.stateAt, h nodeId entry hentry]
  rw [cached, hentry]
  exact if_pos hallow

/-- The answer of one call is right exactly when the cache is. -/
theorem directed_exec_iff (h : pool.AllClosed) (call : PoolCall) :
    Directed (pool.exec call).2 ↔ pool.CachedThere call := by
  cases call with
  | get now net nodeId addr =>
      cases hentry : pool.entries[nodeId]? with
      | some entry =>
          -- the client in the cache is returned, whatever its address
          have hget : pool.get now net nodeId addr = (.ok entry.client, pool) := by
            rw [get, cached_of_closed h hentry now]
          rw [exec, hget, CachedThere, hentry]
          constructor
          · rintro hdirected _ ⟨⟩
            exact hdirected addr entry.client rfl
          · rintro hthere _ _ ⟨⟩
            exact hthere entry rfl
      | none =>
          -- a client that is connected now is connected to the address
          have hcached : pool.cached now nodeId = none := by rw [cached, hentry]
          rw [exec, get, hcached, CachedThere, hentry]
          refine iff_of_true ?_ (by simp)
          cases hconnect : ChannelClient.connect net addr with
          | error e =>
              rintro _ _ ⟨⟩
          | ok client =>
              rintro _ _ ⟨⟩
              exact ChannelClient.connectedTo_of_connect hconnect
  | insert nodeId client => exact iff_of_true (by rintro _ _ ⟨⟩) trivial
  | remove nodeId => exact iff_of_true (by rintro _ _ ⟨⟩) trivial

end Calls

/-- **The pool connects where it was asked to exactly when the cache agrees.** In every
sequence of calls, all clients returned are connected to the addresses asked for if and
only if no `get` finds a client in the cache that is for another address than its own. -/
theorem connects_where_asked_iff (config : PoolConfig) (calls : List PoolCall) :
    (∀ answer ∈ answers exec (withConfig config) calls, Directed answer) ↔
      Along (fun pool call => (exec pool call).1) CachedThere (withConfig config) calls := by
  refine forall_answers_iff_along (I := AllClosed) (fun pool call h => h.exec call)
    (fun pool call h => directed_exec_iff h call) calls ?_
  intro id entry hentry
  simp [withConfig] at hentry

/-- A network on which every connection succeeds. -/
def openNetwork : Dialing := ⟨fun _ => .ok (), fun _ _ => .ok ()⟩

/-- Two bootstrap peers, one after the other: the request to join through the second goes to the
first. -/
theorem connects_first_peer :
    let first : ChannelClient := ⟨⟨"http://10.0.0.1:9300"⟩, "http://10.0.0.1:9300"⟩
    let pool := ((withConfig .default).get 0 openNetwork bootstrapNodeId ⟨"10.0.0.1", 9300⟩).2
    some (⟨"10.0.0.2", 9300⟩, .ok first) ∈
        answers exec (withConfig .default) [.get 0 openNetwork bootstrapNodeId ⟨"10.0.0.1", 9300⟩,
          .get 1 openNetwork bootstrapNodeId ⟨"10.0.0.2", 9300⟩] ∧
      ¬ Directed (some (⟨"10.0.0.2", 9300⟩, .ok first)) ∧
      ∀ [StatusDisplay] (rpc : Channel → JoinRequest → Except Status JoinResponse) (localId : NodeId)
        (localAddr : NodeAddress), joinCluster pool 1 openNetwork rpc localId localAddr ⟨"10.0.0.2", 9300⟩ =
          (first.joinCluster rpc localId localAddr.toStr, pool) := by
  intro first pool
  have hfirst : first.ConnectedTo ⟨"10.0.0.1", 9300⟩ := by
    rw [ChannelClient.ConnectedTo]
    decide
  have hcached : pool.entries[bootstrapNodeId]? = some ⟨first, (withConfig .default).newBreaker⟩ := by
    decide
  refine ⟨by decide, fun hdirected => ?_, fun rpc localId localAddr => ?_⟩
  · exact absurd (hfirst.unique (hdirected _ _ rfl)) (by decide)
  · exact joinCluster_of_cached hcached (by decide) openNetwork rpc localId localAddr ⟨"10.0.0.2", 9300⟩

end ConnectionPool

end MSearchDB.Network
