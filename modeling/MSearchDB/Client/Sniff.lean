import MSearchDB.Node.ClusterReports
import MSearchDB.Client.Request

/-!
# Sniffing for hosts

`_sniff` of `crates/client/python/msearchdb/client.py`, which `async_client.py` has as well, over
what `GET /_nodes` answers.

The client reads the address of each node and falls back to `127.0.0.1` and `9200` where there is
none. The entries of a health table have no address. So a client that has sniffed sends all its
requests to its own machine, whatever the cluster and whichever of its nodes has answered
(`sniff_finds_localhost`).
-/

set_option autoImplicit false

namespace MSearchDB.Client

open MSearchDB.Lib
open MSearchDB.Core
open MSearchDB.Node

section Sniff

variable {φ : Type}

/-- `str` of a JSON value that is neither a string nor an integer. -/
class PyStr (φ : Type) where
  str : Json φ → String

/-- The text of a value in an f-string. -/
def formatted [PyStr φ] : Json φ → String
  | .string s => s
  | .int n => toString n
  | value => PyStr.str value

/-- `value.get(key, default)`: the last member with the key, and an exception for a value that is
not a `dict`. -/
def pyGet (value : Json φ) (key : String) (default : Json φ) : Option (Json φ) :=
  match value with
  | .object members => some (((members.reverse.find? fun m => m.1 = key).map Prod.snd).getD default)
  | _ => none

/-- The host that is read off an entry of the list of nodes. -/
def newHost [PyStr φ] (node : Json φ) : Option String := do
  let addr ← pyGet node "address" (.object [])
  let host ← pyGet addr "host" (.string "127.0.0.1")
  let port ← pyGet addr "port" (.int 9200)
  pure ("http://" ++ formatted host ++ ":" ++ formatted port)

/-- `_sniff`, for the body with which `_request` returned or its exception, and the number of attempts
it made. -/
def PythonClient.sniff [PyStr φ] (client : PythonClient) (attempts : Nat) (nodes : Option (Json φ)) :
    PythonClient :=
  let asked := { client with cycle := client.cycle + attempts }
  match nodes with
  | some (.array nodes) =>
      match nodes.mapM newHost with
      | some (host :: hosts) => { client with hosts := host :: hosts, nonempty := by simp, cycle := 0 }
      | some [] => asked
      -- an exception in the loop leaves the hosts
      | none => asked
  | _ => asked

end Sniff

/-- The host of a node without an address. -/
def localhost : String := "http://127.0.0.1:9200"

section Localhost

variable {φ : Type} [PyStr φ]

omit [PyStr φ] in
theorem localhost_eq : "http://" ++ "127.0.0.1" ++ ":" ++ toString (9200 : Int) = localhost := by decide

theorem newHost_nodeEntry (lastSeenMsAgo : Nat) (h : NodeHealth) :
    newHost (nodeEntry lastSeenMsAgo h : Json φ) = some localhost := by
  simp only [newHost, nodeEntry, pyGet, formatted, ← localhost_eq]
  rfl

theorem newHost_localEntry (nodeId : NodeId) (status : NodeStatus) :
    newHost (localEntry nodeId status : Json φ) = some localhost := by
  simp only [newHost, localEntry, pyGet, formatted, ← localhost_eq]
  rfl

theorem mapM_newHost {nodes : List (Json φ)} (h : ∀ node ∈ nodes, newHost node = some localhost) :
    nodes.mapM newHost = some (List.replicate nodes.length localhost) := by
  induction nodes with
  | nil => rfl
  | cons node nodes ih =>
      rw [List.forall_mem_cons] at h
      rw [List.mapM_cons, h.1, ih h.2]
      rfl

/-- Every entry that is listed leads to the same host, and there is at least one. -/
theorem mapM_listNodes (snapshot : List NodeHealth) (lastSeenMsAgo : NodeId → Nat) (nodeId : NodeId)
    (isLeader : Bool) :
    (listNodes snapshot lastSeenMsAgo nodeId isLeader : List (Json φ)).mapM newHost =
      some (List.replicate (max snapshot.length 1) localhost) := by
  cases snapshot with
  | nil => exact mapM_newHost (List.forall_mem_singleton.2 (newHost_localEntry nodeId _))
  | cons h snapshot =>
      have hlength : max (h :: snapshot).length 1 = (h :: snapshot).length := by simp
      have hentries : ∀ node ∈ (h :: snapshot).map fun h => (nodeEntry (lastSeenMsAgo h.nodeId) h : Json φ),
          newHost node = some localhost := List.forall_mem_map.2 fun h _ => newHost_nodeEntry _ h
      have hnodes := mapM_newHost hentries
      rw [List.length_map] at hnodes
      rw [hlength]
      exact hnodes

theorem hosts_sniff (client : PythonClient) (attempts : Nat) {nodes : List (Json φ)} {hosts : List String}
    (hnodes : nodes.mapM newHost = some hosts) (hhosts : hosts ≠ []) :
    (client.sniff attempts (some (.array nodes))).hosts = hosts := by
  obtain ⟨host, rest, rfl⟩ := List.exists_cons_of_ne_nil hhosts
  simp only [PythonClient.sniff, hnodes]

end Localhost

/-- **A client that sniffs stays at home.** Whatever has happened to the cluster, and in whatever order
the node lists its health table: the hosts that a client reads off the answer are one `localhost` for
each node that is tracked, or a single one, and every attempt of a call with these hosts goes there,
wherever in its cycle the client is. -/
theorem sniff_finds_localhost [Sha256] {φ : Type} [PyStr φ] (localNode : NodeInfo) (router : ClusterRouter)
    {events : List MonitorEvent} (hevents : ∀ e ∈ events, e.SentBy localNode) {snapshot : List NodeHealth}
    (hsnapshot : snapshot.Perm
      (events.foldl ClusterMonitor.step (ClusterMonitor.new localNode router)).manager.healthSnapshot)
    (lastSeenMsAgo : NodeId → Nat) (nodeId : NodeId) (isLeader : Bool) (client : PythonClient) (attempts : Nat) :
    let nodes : List (Json φ) := listNodes snapshot lastSeenMsAgo nodeId isLeader
    let sniffed := client.sniff attempts (some (.array nodes))
    sniffed.hosts =
        List.replicate (max {id | (standing localNode router events id).isSome = true}.ncard 1) localhost ∧
      ∀ call : Call, call.client.hosts = sniffed.hosts → ∀ i, call.nodeAt i = call.route localhost := by
  intro nodes sniffed
  obtain ⟨hcount, -⟩ := healthSnapshot_counts _ (ClusterMonitor.standing_run localNode router hevents)
  have hhosts : sniffed.hosts = List.replicate (max snapshot.length 1) localhost := by
    apply hosts_sniff client attempts (mapM_listNodes snapshot lastSeenMsAgo nodeId isLeader)
    simp
  constructor
  · rw [hhosts, hsnapshot.length_eq, hcount]
  · intro call hclient i
    -- the cycle runs over copies of one host
    have hhost : call.client.nextHost i ∈ sniffed.hosts := by
      rw [← hclient]
      exact List.get_mem _ _
    rw [hhosts] at hhost
    rw [Call.nodeAt, List.eq_of_mem_replicate hhost]

/-- Node 2 joins node 1. -/
def secondNodeJoins : List MonitorEvent := [.registerNode ⟨2, .follower⟩]

theorem standing_secondNodeJoins (id : NodeId) :
    (standing ⟨1, .leader⟩ (ClusterRouter.new [] 3) secondNodeJoins id).isSome = true ↔ id = 1 ∨ id = 2 := by
  by_cases hlocal : id = 1
  · subst hlocal
    exact iff_of_true rfl (.inl rfl)
  · rw [standing, if_neg hlocal, Option.isSome_map, or_iff_right hlocal]
    by_cases hremote : 2 = id
    · subst hremote
      exact iff_of_true rfl rfl
    · simp [secondNodeJoins, NodeRecord.add, NodeRecord.start, hremote, Ne.symm hremote]

/-- The addresses of two nodes are replaced. -/
theorem sniff_finds_localhost_secondNodeJoins :
    letI : PyStr Unit := ⟨fun _ => ""⟩
    let m := (secondNodeJoins.foldl ClusterMonitor.step
      (ClusterMonitor.new ⟨1, .leader⟩ (ClusterRouter.new [] 3))).manager
    let client : PythonClient := ⟨["http://node1:9200", "http://node2:9200"], by decide, 30, 3, true, 0⟩
    (client.sniff 1 (some (.array (listNodes m.healthSnapshot (fun _ => 0) 1 true : List (Json Unit))))).hosts =
      [localhost, localhost] := by
  let _ : PyStr Unit := ⟨fun _ => ""⟩
  intro m client
  have hsent : ∀ e ∈ secondNodeJoins, e.SentBy ⟨1, .leader⟩ := by
    simp [secondNodeJoins, MonitorEvent.SentBy]
  have hcount : {id | (standing ⟨1, .leader⟩ (ClusterRouter.new [] 3) secondNodeJoins id).isSome = true}.ncard = 2 := by
    have hset : {id | (standing ⟨1, .leader⟩ (ClusterRouter.new [] 3) secondNodeJoins id).isSome = true} =
        {1, 2} := by
      ext id
      exact standing_secondNodeJoins id
    rw [hset]
    exact Set.ncard_pair (by decide)
  obtain ⟨hhosts, -⟩ := sniff_finds_localhost (φ := Unit) ⟨1, .leader⟩ (ClusterRouter.new [] 3) hsent
    (List.Perm.refl m.healthSnapshot) (fun _ => 0) 1 true client 1
  rw [hhosts, hcount]
  rfl

end MSearchDB.Client
