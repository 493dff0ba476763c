import MSearchDB.Lib.Text
import MSearchDB.Network.ForwardWrite
import MSearchDB.Consensus.BatchInsert
import MSearchDB.Consensus.LogReplay

/-!
# Proposing here or at the leader

`propose_or_forward` of `crates/node/src/handlers/mod.rs`, the way every write of
the HTTP handlers reaches the log. The connection pool is a parameter.

A follower's answer is what the wire format lets the client rebuild, so it is the
leader's own answer exactly when the command changed one document and named it, and the
leader could read it (`proposeOrForward_agrees_iff`): a collection or alias command, a
batch that stored any other number of documents, an empty id and every failure come back
changed.
-/

set_option autoImplicit false

namespace MSearchDB.Node

open MSearchDB.Lib
open MSearchDB.Core
open MSearchDB.Consensus
open MSearchDB.Network
open MSearchDB.Storage.RocksDb
open Std (ExtTreeMap)

/-- `NodeAddress`. -/
structure NodeAddress where
  host : String
  port : UInt16
  deriving DecidableEq

/-- `ConnectionPool::get`. -/
structure ConnectionPool where
  get : UInt64 → NodeAddress → DbResult NodeClient

/-- `str::parse::<u16>`: decimal digits after at most one plus sign. -/
def parseU16 (s : String) : Option UInt16 :=
  let digits := match s.toList with
    | '+' :: cs => cs
    | cs => cs
  if digits ≠ [] ∧ digits.all Char.isDigit then
    let n := digits.foldl (fun n c => 10 * n + (c.toNat - '0'.toNat)) 0
    if n < 65536 then some (UInt16.ofNat n) else none
  else none

/-- The parts of `addr.rsplitn(2, ':')`: the text before the last colon and the text
after it. -/
def rsplitColon (addr : String) : Option (String × String) :=
  let rev := addr.toList.reverse
  if ':' ∈ rev then
    some (String.ofList ((rev.dropWhile (· ≠ ':')).tail.reverse),
      String.ofList ((rev.takeWhile (· ≠ ':')).reverse))
  else none

/-- The gRPC address behind the address of a Raft member. -/
def leaderAddress (addr : String) : NodeAddress :=
  match rsplitColon addr with
  | some (host, port) => ⟨host, (parseU16 port).getD 9300⟩
  | none => ⟨addr, 9300⟩

/-- `NodeAddress::to_string`. -/
def NodeAddress.toStr (addr : NodeAddress) : String := addr.host ++ ":" ++ toString addr.port.toNat

theorem NodeAddress.toList_toStr (addr : NodeAddress) :
    addr.toStr.toList = addr.host.toList ++ ':' :: Nat.toDigits 10 addr.port.toNat := by
  rw [NodeAddress.toStr, String.toList_append, String.toList_append, List.append_assoc]
  exact congrArg (fun digits => addr.host.toList ++ (':' :: digits)) Nat.toList_repr

theorem colon_not_mem_toDigits (n : Nat) : ':' ∉ Nat.toDigits 10 n := by
  intro hmem
  have hdigit := Nat.isDigit_of_mem_toDigits (by decide) (by decide) hmem
  exact absurd hdigit (by decide)

theorem rsplitColon_toStr (addr : NodeAddress) :
    rsplitColon addr.toStr = some (addr.host, String.ofList (Nat.toDigits 10 addr.port.toNat)) := by
  have hnot : ∀ c ∈ (Nat.toDigits 10 addr.port.toNat).reverse, decide (c ≠ ':') = true := by
    intro c hc
    refine decide_eq_true fun hcolon => colon_not_mem_toDigits addr.port.toNat ?_
    rw [← hcolon]
    exact List.mem_reverse.1 hc
  have hrev : addr.toStr.toList.reverse =
      (Nat.toDigits 10 addr.port.toNat).reverse ++ ':' :: addr.host.toList.reverse := by
    rw [NodeAddress.toList_toStr, List.reverse_append, List.reverse_cons, List.append_assoc]
    rfl
  rw [rsplitColon]
  simp only [hrev]
  rw [if_pos (by simp), List.takeWhile_append_of_pos hnot, List.dropWhile_append_of_pos hnot]
  simp

theorem parseU16_toDigits (port : UInt16) : parseU16 (String.ofList (Nat.toDigits 10 port.toNat)) = some port := by
  have hdigits : (Nat.toDigits 10 port.toNat).all Char.isDigit = true :=
    List.all_eq_true.2 fun c hc => Nat.isDigit_of_mem_toDigits (by decide) (by decide) hc
  have hvalue : (Nat.toDigits 10 port.toNat).foldl (fun n c => 10 * n + (c.toNat - '0'.toNat)) 0 = port.toNat :=
    Nat.ofDigitChars_ten_toDigits
  have hne : Nat.toDigits 10 port.toNat ≠ [] := Nat.toDigits_ne_nil
  rw [parseU16, String.toList_ofList]
  generalize Nat.toDigits 10 port.toNat = digits at hdigits hvalue hne
  -- a digit is no plus sign
  have hplus : ∀ cs, digits ≠ '+' :: cs := by
    rintro cs rfl
    simp at hdigits
  simp only
  rw [if_pos ⟨hne, hdigits⟩, hvalue, if_pos port.toNat_lt, UInt16.ofNat_toNat]

/-- A member registered under an address is reached there. -/
theorem leaderAddress_toStr (addr : NodeAddress) : leaderAddress addr.toStr = addr := by
  rw [leaderAddress, rsplitColon_toStr]
  simp only [parseU16_toDigits]
  rfl

theorem NodeAddress.toStr_injective {addr addr' : NodeAddress} (h : addr.toStr = addr'.toStr) : addr = addr' := by
  rw [← leaderAddress_toStr addr, h, leaderAddress_toStr]

theorem contains_not_leader (hint : String) :
    contains ("not leader; forward to " ++ hint) "not leader" = true := by
  rw [contains, decide_eq_true_iff, String.toList_append]
  exact (List.IsPrefix.isInfix (by decide)).trans (List.infix_append [] _ hint.toList)

/-- The same answer: equal responses, or an error on both sides. -/
def SameResult (x y : DbResult RaftResponse) : Prop :=
  (∃ resp, x = .ok resp ∧ y = .ok resp) ∨ ∃ e e', x = .error e ∧ y = .error e'

/-- The responses that the wire format carries: a success that affects one document
and does not name the empty id. -/
def Carried (resp : RaftResponse) : Prop :=
  resp.success = true ∧ resp.affectedCount = 1 ∧ resp.documentId ≠ some ⟨""⟩

theorem carried_ok_iff (id : DocumentId) : Carried (.ok id) ↔ id.val ≠ "" := by
  obtain ⟨name⟩ := id
  simp [Carried, RaftResponse.ok]

theorem carried_okBatch_iff (count : Nat) : Carried (.okBatch count) ↔ count = 1 := by
  simp [Carried, RaftResponse.okBatch]

theorem not_carried_okNoId : ¬ Carried .okNoId := by
  simp [Carried, RaftResponse.okNoId]

theorem not_carried_fail : ¬ Carried .fail := by
  simp [Carried, RaftResponse.fail]

theorem sameResult_ok_iff (resp : RaftResponse) (y : DbResult RaftResponse) :
    SameResult (.ok resp) y ↔ y = .ok resp := by
  constructor
  · rintro (⟨resp', h, hy⟩ | ⟨e, e', h, -⟩)
    · rw [hy, Except.ok.inj h]
    · cases h
  · intro hy
    exact .inl ⟨resp, rfl, hy⟩

/-- What is rebuilt from a response is another one if that one is carried, and the first is a success
for the same document. -/
theorem sameResult_rebuilt_iff (resp resp' : RaftResponse) :
    SameResult (.ok resp) (rebuilt resp') ↔
      Carried resp ∧ resp'.success = true ∧
        (resp'.documentId.filter fun id => id.val ≠ "") = resp.documentId := by
  rw [sameResult_ok_iff, rebuilt]
  cases hsuccess : resp'.success with
  | false => simp
  | true =>
      rw [if_pos rfl, Except.ok.injEq]
      constructor
      · intro h
        have hnamed : resp'.documentId.filter (fun id => id.val ≠ "") ≠ some ⟨""⟩ := by
          intro hempty
          simpa using (Option.filter_eq_some_iff.1 hempty).2
        rw [← h]
        exact ⟨⟨rfl, rfl, hnamed⟩, rfl, rfl⟩
      · rintro ⟨⟨hok, hone, -⟩, -, hid⟩
        obtain ⟨success, documentId, affectedCount⟩ := resp
        obtain rfl : success = true := hok
        obtain rfl : affectedCount = 1 := hone
        obtain rfl := hid
        rfl

section Condition

variable {σ ι : Type} [StorageBackend σ] [IndexBackend ι]

/-- How many of the documents the storage takes, one after the other. -/
def storedCount (storage : σ) (collection : String) : List Document → Nat
  | [] => 0
  | doc :: docs =>
      match StorageBackend.putInCollection storage collection doc with
      | (.ok (), storage) => storedCount storage collection docs + 1
      | (.error _, storage) => storedCount storage collection docs

/-- The command changes one document, and a command for a single document names it
by an id that is not empty. -/
def ChangesOne (storage : σ) : RaftCommand → Prop
  | .insertDocument collection document =>
      document.id.val ≠ "" ∧ (StorageBackend.putInCollection storage collection document).1 = .ok ()
  | .updateDocument collection document =>
      document.id.val ≠ "" ∧ (StorageBackend.putInCollection storage collection document).1 = .ok ()
  | .deleteDocument collection id =>
      id.val ≠ "" ∧ (StorageBackend.deleteFromCollection storage collection id).1 = .ok ()
  | .batchInsert collection documents => storedCount storage collection documents = 1
  | .createCollection _ _ => False
  | .deleteCollection _ => False
  | .createAlias _ _ => False
  | .deleteAlias _ => False

/-- The storage carries the command out. -/
def CarriedOut {σ : Type} [StorageBackend σ] (storage : σ) : RaftCommand → Prop
  | .insertDocument collection document =>
      (StorageBackend.putInCollection storage collection document).1 = .ok ()
  | .updateDocument collection document =>
      (StorageBackend.putInCollection storage collection document).1 = .ok ()
  | .deleteDocument collection id => (StorageBackend.deleteFromCollection storage collection id).1 = .ok ()
  | .createCollection name _ => (StorageBackend.createCollection storage name).1 = .ok ()
  | .batchInsert collection documents => true ∈ putResults storage collection documents ∨ documents = []
  | .deleteCollection _ => True
  | .createAlias _ _ => True
  | .deleteAlias _ => True

/-- The document that a success of the command names. -/
def named : RaftCommand → Option DocumentId
  | .insertDocument _ document => some document.id
  | .updateDocument _ document => some document.id
  | .deleteDocument _ id => some id
  | _ => none

/-- The storage carries the command out, and the success names the document and no empty id. -/
def AnswersFor {σ : Type} [StorageBackend σ] (storage : σ) (cmd : RaftCommand) (id : Option DocumentId) : Prop :=
  CarriedOut storage cmd ∧ ((named cmd).filter fun id => id.val ≠ "") = id

theorem storedCount_eq (collection : String) (docs : List Document) :
    ∀ storage : σ, storedCount storage collection docs = (putResults storage collection docs).count true := by
  induction docs with
  | nil => exact fun _ => rfl
  | cons doc docs ih =>
      intro storage
      rw [storedCount, putResults]
      rcases StorageBackend.putInCollection storage collection doc with ⟨e | u, storage'⟩
      · exact ih storage'
      · exact (congrArg (· + 1) (ih storage')).trans List.count_cons_self.symm

/-- A command that changes one document is carried out. -/
theorem ChangesOne.carriedOut {storage : σ} {cmd : RaftCommand} (h : ChangesOne storage cmd) :
    CarriedOut storage cmd := by
  cases cmd with
  | insertDocument collection document => exact h.2
  | updateDocument collection document => exact h.2
  | deleteDocument collection id => exact h.2
  | batchInsert collection documents =>
      rw [ChangesOne, storedCount_eq] at h
      exact .inl (List.count_pos_iff.1 (h ▸ Nat.one_pos))
  | createCollection name schema => exact h.elim
  | deleteCollection name => exact h.elim
  | createAlias aliasName collections => exact h.elim
  | deleteAlias aliasName => exact h.elim

/-- The response to a command that is carried out. -/
def responseTo (storage : σ) : RaftCommand → RaftResponse
  | .insertDocument _ document => .ok document.id
  | .updateDocument _ document => .ok document.id
  | .deleteDocument _ id => .ok id
  | .batchInsert collection documents => .okBatch ((putResults storage collection documents).count true)
  | .createCollection _ _ => .okNoId
  | .deleteCollection _ => .okNoId
  | .createAlias _ _ => .okNoId
  | .deleteAlias _ => .okNoId

theorem responseTo_success (storage : σ) (cmd : RaftCommand) : (responseTo storage cmd).success = true := by
  cases cmd <;> rfl

theorem responseTo_documentId (storage : σ) (cmd : RaftCommand) :
    (responseTo storage cmd).documentId = named cmd := by
  cases cmd <;> rfl

/-- The wire format carries that response exactly when the command changes one document and
names it. -/
theorem carried_responseTo_iff {storage : σ} {cmd : RaftCommand} (h : CarriedOut storage cmd) :
    Carried (responseTo storage cmd) ↔ ChangesOne storage cmd := by
  cases cmd with
  | insertDocument collection document => exact (carried_ok_iff document.id).trans (and_iff_left h).symm
  | updateDocument collection document => exact (carried_ok_iff document.id).trans (and_iff_left h).symm
  | deleteDocument collection id => exact (carried_ok_iff id).trans (and_iff_left h).symm
  | batchInsert collection documents =>
      rw [ChangesOne, storedCount_eq]
      exact carried_okBatch_iff _
  | createCollection name schema => exact iff_false_intro not_carried_okNoId
  | deleteCollection name => exact iff_false_intro not_carried_okNoId
  | createAlias aliasName collections => exact iff_false_intro not_carried_okNoId
  | deleteAlias aliasName => exact iff_false_intro not_carried_okNoId

/-- What the state machine answers: a success where the storage carries the command out. -/
theorem applyCommand_cases (sm : DbStateMachine σ ι) (cmd : RaftCommand) :
    CarriedOut sm.storage cmd ∧ (sm.applyCommand cmd).1 = responseTo sm.storage cmd ∨
      ¬ CarriedOut sm.storage cmd ∧ (sm.applyCommand cmd).1 = .fail := by
  cases cmd with
  | insertDocument collection document =>
      rw [DbStateMachine.applyCommand, DbStateMachine.putAndIndex, CarriedOut]
      rcases StorageBackend.putInCollection sm.storage collection document with ⟨e | u, storage⟩
      · exact .inr ⟨by simp, rfl⟩
      · exact .inl ⟨rfl, rfl⟩
  | updateDocument collection document =>
      rw [DbStateMachine.applyCommand, CarriedOut]
      rcases StorageBackend.putInCollection sm.storage collection document with ⟨e | u, storage⟩
      · exact .inr ⟨by simp, rfl⟩
      · exact .inl ⟨rfl, rfl⟩
  | deleteDocument collection id =>
      rw [DbStateMachine.applyCommand, CarriedOut]
      rcases StorageBackend.deleteFromCollection sm.storage collection id with ⟨e | u, storage⟩
      · exact .inr ⟨by simp, rfl⟩
      · exact .inl ⟨rfl, rfl⟩
  | createCollection name schema =>
      rw [DbStateMachine.applyCommand, CarriedOut]
      rcases StorageBackend.createCollection sm.storage name with ⟨e | u, storage⟩
      · exact .inr ⟨by simp, rfl⟩
      · exact .inl ⟨rfl, rfl⟩
  | batchInsert collection documents =>
      -- one document stored is enough
      have hsome : CarriedOut sm.storage (.batchInsert collection documents) ↔
          ¬ ((putResults sm.storage collection documents).count true = 0 ∧ documents ≠ []) := by
        rw [CarriedOut, List.count_eq_zero, not_and_or, not_not, ne_eq, not_not]
      rw [DbStateMachine.batchInsert_response, hsome, not_not]
      split
      case isTrue hnone => exact .inr ⟨hnone, rfl⟩
      case isFalse hdone => exact .inl ⟨hdone, rfl⟩
  | deleteCollection name => exact .inl ⟨trivial, rfl⟩
  | createAlias aliasName collections => exact .inl ⟨trivial, rfl⟩
  | deleteAlias aliasName => exact .inl ⟨trivial, rfl⟩

/-- The response to a command is a success where the storage carries it out. -/
theorem success_applyCommand_iff (sm : DbStateMachine σ ι) (cmd : RaftCommand) :
    (sm.applyCommand cmd).1.success = true ↔ CarriedOut sm.storage cmd := by
  rcases applyCommand_cases sm cmd with ⟨hdone, hresp⟩ | ⟨hnot, hresp⟩
  · rw [hresp]
    exact iff_of_true (responseTo_success _ cmd) hdone
  · rw [hresp]
    exact iff_of_false Bool.false_ne_true hnot

theorem documentId_applyCommand {sm : DbStateMachine σ ι} {cmd : RaftCommand}
    (h : (sm.applyCommand cmd).1.success = true) : (sm.applyCommand cmd).1.documentId = named cmd := by
  rcases applyCommand_cases sm cmd with ⟨-, hresp⟩ | ⟨hnot, -⟩
  · rw [hresp, responseTo_documentId]
  · exact absurd ((success_applyCommand_iff sm cmd).1 h) hnot

/-- The wire format carries the response to a command exactly when the command
changes one document and names it. -/
theorem carried_applyCommand_iff (sm : DbStateMachine σ ι) (cmd : RaftCommand) :
    Carried (sm.applyCommand cmd).1 ↔ ChangesOne sm.storage cmd := by
  rcases applyCommand_cases sm cmd with ⟨hdone, hresp⟩ | ⟨hnot, hresp⟩
  · rw [hresp]
    exact carried_responseTo_iff hdone
  · rw [hresp]
    exact iff_of_false not_carried_fail fun h => hnot h.carriedOut

theorem sameResult_applyCommand_iff (sm : DbStateMachine σ ι) (cmd cmd' : RaftCommand) :
    SameResult (.ok (sm.applyCommand cmd).1) (rebuilt (sm.applyCommand cmd').1) ↔
      ChangesOne sm.storage cmd ∧ AnswersFor sm.storage cmd' (named cmd) := by
  rw [sameResult_rebuilt_iff, ← carried_applyCommand_iff, AnswersFor, ← success_applyCommand_iff]
  apply and_congr_right
  intro hcarried
  apply and_congr_right
  intro hsuccess
  rw [documentId_applyCommand hcarried.1, documentId_applyCommand hsuccess]

/-- A command that is read back answers for its own document. -/
theorem answersFor_self {sm : DbStateMachine σ ι} {cmd : RaftCommand} (h : ChangesOne sm.storage cmd) :
    AnswersFor sm.storage cmd (named cmd) := by
  have hcarried := (carried_applyCommand_iff sm cmd).2 h
  refine ⟨(success_applyCommand_iff sm cmd).1 hcarried.1, ?_⟩
  have hnamed := hcarried.2.2
  rw [documentId_applyCommand hcarried.1] at hnamed
  cases hcase : named cmd with
  | none => rfl
  | some id =>
      have hid : id.val ≠ "" := fun hempty => hnamed (hcase.trans (congrArg (some ∘ DocumentId.mk) hempty))
      simp [Option.filter, hid]

end Condition

section

variable [SerdeJson RaftCommand] [StatusDisplay]

/-- `propose_or_forward`. -/
def proposeOrForward (raftNode : RaftNode) (pool : ConnectionPool) (cmd : RaftCommand) :
    DbResult RaftResponse :=
  match raftNode.propose cmd with
  | .ok resp => .ok resp
  | .error (.consensusError msg) =>
      -- a follower is told from the text of the error, not from its variant
      if contains msg "not leader" || contains msg "forward" then
        match raftNode.currentLeader with
        | none => .error (.networkError "no leader available")
        | some leaderId =>
            match raftNode.membershipNodes[leaderId]? with
            | none =>
                .error (.networkError
                  ("leader node-" ++ toString leaderId.toNat ++ " not found in membership"))
            | some basicNode =>
                match pool.get leaderId (leaderAddress basicNode.addr) with
                | .error e => .error e
                | .ok client => client.forwardWrite cmd
      else .error (.consensusError msg)
  | .error e => .error e

section Agreement

variable {σ ι : Type} [StorageBackend σ] [IndexBackend ι] {sm : DbStateMachine σ ι}
  {pool pool' : ConnectionPool} {id : UInt64} {nodes : ExtTreeMap UInt64 BasicNode}
  {basicNode : BasicNode} {cmd cmd' : RaftCommand}

theorem proposeOrForward_leader :
    proposeOrForward (RaftNode.leader sm id nodes) pool cmd = .ok (sm.applyCommand cmd).1 := rfl

/-- A follower forwards to the leader. -/
theorem proposeOrForward_forwards (hnode : nodes[id]? = some basicNode)
    (hpool : pool'.get id (leaderAddress basicNode.addr) =
      .ok (NodeClient.connectedTo (RaftNode.leader sm id nodes))) :
    proposeOrForward (RaftNode.follower id nodes) pool' cmd =
      (NodeClient.connectedTo (RaftNode.leader sm id nodes)).forwardWrite cmd := by
  simp only [proposeOrForward, RaftNode.propose, RaftNode.follower, contains_not_leader, hnode, hpool]
  rfl

/-- It returns what its client rebuilds from the response to the command that the leader reads. -/
theorem proposeOrForward_follower (hnode : nodes[id]? = some basicNode)
    (hpool : pool'.get id (leaderAddress basicNode.addr) =
      .ok (NodeClient.connectedTo (RaftNode.leader sm id nodes)))
    (hcmd : SerdeJson.ReadsAs cmd cmd') :
    proposeOrForward (RaftNode.follower id nodes) pool' cmd = rebuilt (sm.applyCommand cmd').1 :=
  (proposeOrForward_forwards hnode hpool).trans (forwardWrite_served hcmd rfl)

/-- **The two paths agree exactly on commands that change one document and arrive.** With the
network delivering both messages, a follower returns the leader's own answer if and only if the
command changes one document and does not name it by the empty id, and the leader reads it as a
command that answers for the same document (as a command that is read back does). -/
theorem proposeOrForward_agrees_iff (hnode : nodes[id]? = some basicNode)
    (hpool : pool'.get id (leaderAddress basicNode.addr) =
      .ok (NodeClient.connectedTo (RaftNode.leader sm id nodes))) :
    SameResult (proposeOrForward (RaftNode.leader sm id nodes) pool cmd)
        (proposeOrForward (RaftNode.follower id nodes) pool' cmd) ↔
      ChangesOne sm.storage cmd ∧
        ∃ cmd', SerdeJson.ReadsAs cmd cmd' ∧ AnswersFor sm.storage cmd' (named cmd) := by
  rw [proposeOrForward_leader]
  by_cases hread : ∃ cmd', SerdeJson.ReadsAs cmd cmd'
  · obtain ⟨cmd', hcmd⟩ := hread
    rw [proposeOrForward_follower hnode hpool hcmd, sameResult_applyCommand_iff]
    apply and_congr_right
    intro _
    constructor
    · exact fun hanswers => ⟨cmd', hcmd, hanswers⟩
    · rintro ⟨other, hother, hanswers⟩
      rwa [hcmd.unique hother]
  · -- nothing is proposed, and the error is no answer of the leader
    have herror : ∃ e, (NodeClient.connectedTo (RaftNode.leader sm id nodes)).forwardWrite cmd = .error e :=
      forwardWrite_unread fun cmd' hcmd => hread ⟨cmd', hcmd⟩
    obtain ⟨e, he⟩ := herror
    rw [proposeOrForward_forwards hnode hpool, he, sameResult_ok_iff]
    constructor
    · exact nofun
    · rintro ⟨-, cmd', hcmd, -⟩
      exact absurd ⟨cmd', hcmd⟩ hread

end Agreement

end

/-! ## Two commands on a small collection -/

/-- A leader with a collection `c` that holds the document `d`. -/
def smallLeader : DbStateMachine RocksDbStorage Unit := freshMachine.applyBatches [createAndInsert]

/-- The deletion of the document. -/
def deleteOne : RaftCommand := .deleteDocument "c" ⟨"d"⟩

/-- A batch of two documents. -/
def insertTwo : RaftCommand := .batchInsert "c" [Document.new ⟨"a"⟩, Document.new ⟨"b"⟩]

/-- The JSON text of `deleteOne`. -/
def deleteOneJson : String :=
  "\x7b\"DeleteDocument\":\x7b\"collection\":\"c\",\"id\":\"d\"\x7d\x7d"

/-- The JSON text of `insertTwo`. -/
def insertTwoJson : String :=
  "\x7b\"BatchInsert\":\x7b\"collection\":\"c\",\"documents\":[" ++
    "\x7b\"id\":\"a\",\"fields\":\x7b\x7d,\"version\":\x7b\"clocks\":\x7b\x7d\x7d\x7d," ++
    "\x7b\"id\":\"b\",\"fields\":\x7b\x7d,\"version\":\x7b\"clocks\":\x7b\x7d\x7d\x7d]\x7d\x7d"

/-- `serde_json` on the two commands. -/
instance jsonCommands : SerdeJson RaftCommand where
  toVec cmd :=
    if cmd = deleteOne then .ok (asBytes deleteOneJson)
    else if cmd = insertTwo then .ok (asBytes insertTwoJson)
    else .error "not one of the two commands"
  fromSlice bs :=
    if bs = asBytes deleteOneJson then .ok deleteOne
    else if bs = asBytes insertTwoJson then .ok insertTwo
    else .error "not one of the two texts"

/-- The text of `tonic` for the statuses of the service. -/
instance : StatusDisplay where
  fmt
    | .invalidArgument msg => "status: InvalidArgument, message: " ++ msg
    | .internal msg => "status: Internal, message: " ++ msg
    | .transport msg => "status: Unavailable, message: " ++ msg

/-- The members of the cluster: the leader, node 1. -/
def smallCluster : ExtTreeMap UInt64 BasicNode := (∅ : ExtTreeMap UInt64 BasicNode).insert 1 ⟨"10.0.0.1:9300"⟩

/-- A pool whose connections end at the leader. -/
def smallPool : ConnectionPool :=
  ⟨fun _ _ => .ok (NodeClient.connectedTo (RaftNode.leader smallLeader 1 smallCluster))⟩

/-- The deletion of one document returns the same on both paths. -/
theorem proposeOrForward_agrees_deleteOne :
    SameResult (proposeOrForward (RaftNode.leader smallLeader 1 smallCluster) smallPool deleteOne)
      (proposeOrForward (RaftNode.follower 1 smallCluster) smallPool deleteOne) := by
  have hnode : smallCluster[(1 : UInt64)]? = some ⟨"10.0.0.1:9300"⟩ := by simp [smallCluster]
  have hcmd : SerdeJson.ReadsBack deleteOne := ⟨_, if_pos rfl, if_pos rfl⟩
  have hchanges : ChangesOne smallLeader.storage deleteOne := ⟨by decide, by decide⟩
  exact (proposeOrForward_agrees_iff hnode rfl).2 ⟨hchanges, deleteOne, hcmd, answersFor_self hchanges⟩

/-- The leader counts the two documents of a batch, a follower returns the count
one. -/
theorem not_proposeOrForward_agrees :
    SerdeJson.ReadsBack insertTwo ∧
      proposeOrForward (RaftNode.leader smallLeader 1 smallCluster) smallPool insertTwo = .ok ⟨true, none, 2⟩ ∧
      proposeOrForward (RaftNode.follower 1 smallCluster) smallPool insertTwo = .ok ⟨true, none, 1⟩ := by
  have hnode : smallCluster[(1 : UInt64)]? = some ⟨"10.0.0.1:9300"⟩ := by simp [smallCluster]
  have hcmd : SerdeJson.ReadsBack insertTwo := ⟨asBytes insertTwoJson, by decide, by decide⟩
  have hresp : (smallLeader.applyCommand insertTwo).1 = ⟨true, none, 2⟩ := by decide
  refine ⟨hcmd, congrArg Except.ok hresp, ?_⟩
  rw [proposeOrForward_follower hnode rfl hcmd, hresp]
  rfl

end MSearchDB.Node
