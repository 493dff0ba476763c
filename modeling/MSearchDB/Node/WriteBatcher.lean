import MSearchDB.Lib.Grouping
import MSearchDB.Lib.Run
import MSearchDB.Consensus.RaftNode

/-!
# The write batcher

`WriteBatcher` of `crates/node/src/write_batcher.rs`. Calls of `submit` put entries into a
bounded channel; one task, the flush loop, takes them out, collects up to `MAX_BATCH_SIZE`
of them or as many as come before the deadline, and proposes one batch for each collection.

The parties move in any order: calls, the order in which waiting calls get room in the
channel, the deadline, the order in which the `HashMap` of a flush hands out its groups, and
the results of the proposals are all in the steps. The batcher is dropped when no call is in
progress, since a call borrows it; from then on the channel has no sender.

`batcher_faithful` is about every run: nothing is lost, doubled or reordered, every
submitter gets one reply, and the task comes to rest.
-/

set_option autoImplicit false

namespace MSearchDB.Node

open MSearchDB.Lib
open MSearchDB.Core
open MSearchDB.Consensus

/-- `MAX_BATCH_SIZE`. -/
def maxBatchSize : Nat := 100

/-- `BatchEntry`. The reply channel is named by the number of the call that holds its other
end. -/
structure BatchEntry where
  collection : String
  document : Document
  reply : Nat
  deriving DecidableEq

/-- A call of `propose_batch` and what it returned. -/
structure BatchProposal where
  collection : String
  entries : List BatchEntry
  result : DbResult RaftResponse
  deriving DecidableEq

/-- The documents that `propose_batch` was given. -/
def BatchProposal.documents (p : BatchProposal) : List Document := p.entries.map BatchEntry.document

/-- What the submitters of a batch are sent: the response, or the text of the error. -/
def replyOf : DbResult RaftResponse → DbResult RaftResponse
  | .ok resp => .ok resp
  | .error e => .error (.consensusError e.toString)

/-- The replies after a proposal. -/
def BatchProposal.replies (p : BatchProposal) : List (Nat × DbResult RaftResponse) :=
  p.entries.map fun e => (e.reply, replyOf p.result)

/-- Where the flush loop stands. `last` is set when the loop ends after the flush. -/
inductive FlushPhase where
  /-- Waits for the first entry of a batch. -/
  | receiving
  /-- Waits for more entries, until the deadline. -/
  | collecting
  /-- The batch is complete; `flush_batch` comes next. -/
  | collected (last : Bool)
  /-- In the loop of `flush_batch`, with the groups that are still to be proposed. -/
  | flushing (last : Bool) (groups : List (String × List BatchEntry))
  | exited

/-- The batcher, its channel and its task. `calls`, `received`, `proposals` and `replies`
are what has happened so far. -/
structure WriteBatcher where
  closed : Bool
  calls : List (String × Document)
  /-- Calls of `submit` that wait for room in the channel. -/
  sending : List BatchEntry
  channel : List BatchEntry
  buffer : List BatchEntry
  phase : FlushPhase
  received : List BatchEntry
  proposals : List BatchProposal
  replies : List (Nat × DbResult RaftResponse)

/-- A step of one of the parties. -/
inductive BatcherStep where
  | submit (collection : String) (document : Document)
  /-- A waiting call puts its entry into the channel. -/
  | send (i : Nat)
  /-- The batcher is dropped. -/
  | close
  | recv
  /-- The deadline is over. -/
  | timeout
  /-- `flush_batch` groups the batch; the map hands out the collections in this order. -/
  | flush (order : List String)
  /-- `propose_batch` returns for the next group. -/
  | propose (result : DbResult RaftResponse)

/-- The step is one of the task, or of a call that is in progress. -/
def BatcherStep.isTask : BatcherStep → Bool
  | submit _ _ => false
  | close => false
  | _ => true

/-- Where the loop goes with these groups left. -/
def FlushPhase.afterGroups (last : Bool) : List (String × List BatchEntry) → FlushPhase
  | [] => if last then exited else receiving
  | groups => flushing last groups

/-- The entries of the groups that are still to be proposed. -/
def FlushPhase.entries : FlushPhase → List BatchEntry
  | flushing _ groups => groups.flatMap Prod.snd
  | _ => []

namespace WriteBatcher

/-- `WriteBatcher::new` and `start`. -/
def start : WriteBatcher := ⟨false, [], [], [], [], .receiving, [], [], []⟩

/-- An entry is pushed to the buffer, and the condition of the inner loop is looked at. -/
def receive (s : WriteBatcher) (entry : BatchEntry) (rest : List BatchEntry) : WriteBatcher :=
  { s with
    channel := rest
    buffer := s.buffer ++ [entry]
    received := s.received ++ [entry]
    phase := if (s.buffer ++ [entry]).length < maxBatchSize then .collecting else .collected false }

/-- The groups of the buffer in the order of the map. -/
def groups (s : WriteBatcher) (order : List String) : List (String × List BatchEntry) :=
  let byCollection := groupBy BatchEntry.collection s.buffer
  order.map fun c => (c, byCollection[c]?.getD [])

/-- The batcher after a step; a step that is not possible changes nothing. -/
def step (s : WriteBatcher) : BatcherStep → WriteBatcher
  | .submit collection document =>
      if s.closed then s
      else
        { s with
          calls := s.calls ++ [(collection, document)]
          sending := s.sending ++ [⟨collection, document, s.calls.length⟩] }
  | .send i =>
      match s.sending[i]? with
      | some entry =>
          match s.phase with
          | .exited =>
              -- the receiver is dropped, and `submit` answers on a channel of its own
              { s with
                sending := s.sending.eraseIdx i
                replies := s.replies ++
                  [(entry.reply, .error (.consensusError "write batcher channel closed"))] }
          | _ =>
              -- the channel is bounded: a full one leaves the call waiting
              if s.channel.length < maxBatchSize * 4 then
                { s with sending := s.sending.eraseIdx i, channel := s.channel ++ [entry] }
              else s
      | none => s
  | .close => if s.sending.isEmpty then { s with closed := true } else s
  | .recv =>
      match s.phase, s.channel with
      | .receiving, entry :: rest => s.receive entry rest
      | .receiving, [] =>
          if s.closed then
            { s with phase := if s.buffer.isEmpty then .exited else .collected true }
          else s
      | .collecting, entry :: rest => s.receive entry rest
      | .collecting, [] => if s.closed then { s with phase := .collected false } else s
      | _, _ => s
  | .timeout =>
      match s.phase with
      | .collecting => { s with phase := .collected false }
      | _ => s
  | .flush order =>
      match s.phase with
      | .collected last =>
          -- `HashMap::into_iter` visits every key once, in no fixed order
          if order.Perm (groupBy BatchEntry.collection s.buffer).keys then
            { s with buffer := [], phase := .afterGroups last (s.groups order) }
          else s
      | _ => s
  | .propose result =>
      match s.phase with
      | .flushing last ((collection, entries) :: rest) =>
          { s with
            proposals := s.proposals ++ [⟨collection, entries, result⟩]
            replies := s.replies ++ BatchProposal.replies ⟨collection, entries, result⟩
            phase := .afterGroups last rest }
      | _ => s

/-- The batcher after a sequence of steps. -/
def run (s : WriteBatcher) (steps : List BatcherStep) : WriteBatcher := steps.foldl step s

/-! ## What is where -/

/-- The entries that have been proposed, in order. -/
def proposed (s : WriteBatcher) : List BatchEntry := s.proposals.flatMap BatchProposal.entries

/-- The entries that have been received and not yet proposed. -/
def pending (s : WriteBatcher) : List BatchEntry := s.phase.entries ++ s.buffer

/-- The replies that a call has got. -/
def repliesTo (s : WriteBatcher) (call : Nat) : List (DbResult RaftResponse) :=
  (ofKey Prod.fst call s.replies).map Prod.snd

/-! ## The invariant of the loop -/

/-- Groups that are still to be proposed: none is empty or too large, and every entry is in
the group of its collection. -/
def GroupsOk (groups : List (String × List BatchEntry)) : Prop :=
  ∀ g ∈ groups, g.2 ≠ [] ∧ g.2.length ≤ maxBatchSize ∧ ∀ e ∈ g.2, e.collection = g.1

/-- The buffer and the channel fit to where the loop stands. -/
def PhaseOk (s : WriteBatcher) : Prop :=
  match s.phase with
  | .receiving => s.buffer = []
  | .collecting => s.buffer.length < maxBatchSize
  | .collected last => s.buffer.length ≤ maxBatchSize ∧ (last = true → s.closed = true ∧ s.channel = [])
  | .flushing last groups =>
      s.buffer = [] ∧ groups ≠ [] ∧ GroupsOk groups ∧ (last = true → s.closed = true ∧ s.channel = [])
  | .exited => s.buffer = [] ∧ s.closed = true ∧ s.channel = []

/-- Every entry is accounted for. -/
structure Accounted (s : WriteBatcher) : Prop where
  ordered : ∀ c, ofKey BatchEntry.collection c (s.proposed ++ s.pending) =
    ofKey BatchEntry.collection c s.received
  numbered : ((s.received ++ s.channel ++ s.sending).map BatchEntry.reply).Perm
    (List.range s.calls.length)
  called : ∀ e ∈ s.received ++ s.channel ++ s.sending,
    s.calls[e.reply]? = some (e.collection, e.document)
  own : ∀ p ∈ s.proposals, ∀ e ∈ p.entries, e.collection = p.collection
  sized : ∀ p ∈ s.proposals, 1 ≤ p.entries.length ∧ p.entries.length ≤ maxBatchSize
  replied : s.replies = s.proposals.flatMap BatchProposal.replies
  dropped : s.closed = true → s.sending = []
  phaseOk : s.PhaseOk

theorem accounted_start : start.Accounted :=
  ⟨fun _ => rfl, .refl [], nofun, nofun, nofun, rfl, fun _ => rfl, rfl⟩

section Step

variable {s : WriteBatcher}

theorem accounted_submit (h : s.Accounted) (collection : String) (document : Document) :
    (s.step (.submit collection document)).Accounted := by
  rw [step]
  split
  · exact h
  · rename_i hopen
    refine { h with numbered := ?_, called := ?_, dropped := fun hclosed => absurd hclosed hopen }
    · simp only [← List.append_assoc, List.map_append, List.length_append, List.length_singleton,
        List.range_succ]
      have hnumbered := h.numbered
      simp only [List.map_append] at hnumbered
      exact hnumbered.append_right _
    · intro e he
      simp only [← List.append_assoc] at he
      rcases List.mem_append.1 he with he | he
      · have hcall := h.called e he
        rw [List.getElem?_append_left (List.getElem?_eq_some_iff.1 hcall).1]
        exact hcall
      · rw [List.mem_singleton.1 he]
        simp

theorem accounted_send (h : s.Accounted) (i : Nat) : (s.step (.send i)).Accounted := by
  rw [step]
  split
  · rename_i entry hentry
    have hopen : s.closed = false := by
      by_contra hclosed
      rw [h.dropped (by simpa using hclosed)] at hentry
      exact nomatch hentry
    have hphase := h.phaseOk
    split
    · -- the loop only ends after the batcher is dropped
      rename_i hexited
      simp only [PhaseOk, hexited] at hphase
      exact absurd (hopen.symm.trans hphase.2.1) (by decide)
    · split
      · have hmoved : (s.received ++ (s.channel ++ [entry]) ++ s.sending.eraseIdx i).Perm
            (s.received ++ s.channel ++ s.sending) := by
          simp only [List.append_assoc]
          refine (List.Perm.refl _).append ((List.Perm.refl _).append ?_)
          obtain ⟨hi, hget⟩ := List.getElem?_eq_some_iff.1 hentry
          rw [← hget]
          exact List.getElem_cons_eraseIdx_perm hi
        refine { h with
          numbered := (hmoved.map _).trans h.numbered
          called := fun e he => h.called e (hmoved.mem_iff.1 he)
          dropped := fun hclosed => absurd (hopen.symm.trans hclosed) (by decide)
          phaseOk := ?_ }
        simp only [PhaseOk] at hphase ⊢
        split at hphase
        · exact hphase
        · exact hphase
        · exact ⟨hphase.1, fun hlast => absurd (hopen.symm.trans (hphase.2 hlast).1) (by decide)⟩
        · exact ⟨hphase.1, hphase.2.1, hphase.2.2.1,
            fun hlast => absurd (hopen.symm.trans (hphase.2.2.2 hlast).1) (by decide)⟩
        · exact absurd (hopen.symm.trans hphase.2.1) (by decide)
      · exact h
  · exact h

theorem accounted_close (h : s.Accounted) : (s.step .close).Accounted := by
  rw [step]
  split
  · rename_i hempty
    refine { h with dropped := fun _ => by simpa using hempty, phaseOk := ?_ }
    have hphase := h.phaseOk
    simp only [PhaseOk] at hphase ⊢
    split at hphase
    · exact hphase
    · exact hphase
    · exact ⟨hphase.1, fun hlast => ⟨trivial, (hphase.2 hlast).2⟩⟩
    · exact ⟨hphase.1, hphase.2.1, hphase.2.2.1, fun hlast => ⟨trivial, (hphase.2.2.2 hlast).2⟩⟩
    · exact ⟨hphase.1, trivial, hphase.2.2⟩
  · exact h

/-- The loop goes on collecting while there is room. -/
theorem receive_phase (entry : BatchEntry) (rest : List BatchEntry)
    (hroom : s.buffer.length < maxBatchSize) :
    (s.receive entry rest).PhaseOk ∧ (s.receive entry rest).phase.entries = [] := by
  by_cases hmore : (s.buffer ++ [entry]).length < maxBatchSize
  · simp only [PhaseOk, receive, if_pos hmore]
    exact ⟨hmore, rfl⟩
  · simp only [PhaseOk, receive, if_neg hmore]
    refine ⟨⟨?_, nofun⟩, rfl⟩
    simp only [List.length_append, List.length_singleton]
    omega

/-- An entry goes from the channel to the buffer. -/
theorem accounted_receive (h : s.Accounted) {entry : BatchEntry} {rest : List BatchEntry}
    (hchannel : s.channel = entry :: rest) (hphase : s.phase.entries = [])
    (hroom : s.buffer.length < maxBatchSize) : (s.receive entry rest).Accounted := by
  have hsame : s.received ++ [entry] ++ rest ++ s.sending = s.received ++ s.channel ++ s.sending := by
    simp [hchannel]
  obtain ⟨hok, hnext⟩ := receive_phase entry rest hroom
  refine { h with
    ordered := fun c => ?_
    numbered := by simpa only [receive, hsame] using h.numbered
    called := fun e he => h.called e (by simpa only [receive, hsame] using he)
    phaseOk := hok }
  have hordered := h.ordered c
  rw [pending, hphase, List.nil_append] at hordered
  rw [pending, hnext, List.nil_append]
  calc ofKey BatchEntry.collection c (s.proposed ++ (s.buffer ++ [entry]))
      = ofKey BatchEntry.collection c (s.proposed ++ s.buffer) ++ ofKey BatchEntry.collection c [entry] := by
        rw [← List.append_assoc, ofKey_append]
    _ = ofKey BatchEntry.collection c (s.received ++ [entry]) := by rw [hordered, ofKey_append]

theorem accounted_recv (h : s.Accounted) : (s.step .recv).Accounted := by
  have hphase := h.phaseOk
  rw [step]
  split
  · rename_i hreceiving hchannel
    simp only [PhaseOk, hreceiving] at hphase
    exact accounted_receive h hchannel (by rw [hreceiving]; rfl) (by rw [hphase]; decide)
  · rename_i hreceiving hchannel
    simp only [PhaseOk, hreceiving] at hphase
    split
    · rename_i hclosed
      refine { h with ordered := fun c => ?_, phaseOk := ?_ }
      · have hordered := h.ordered c
        simpa [pending, hreceiving, hphase, FlushPhase.entries, proposed] using hordered
      · simp [PhaseOk, hphase, hclosed, hchannel]
    · exact h
  · rename_i hcollecting hchannel
    simp only [PhaseOk, hcollecting] at hphase
    exact accounted_receive h hchannel (by rw [hcollecting]; rfl) hphase
  · rename_i hcollecting hchannel
    simp only [PhaseOk, hcollecting] at hphase
    split
    · refine { h with ordered := fun c => ?_, phaseOk := ⟨hphase.le, by rintro ⟨⟩⟩ }
      have hordered := h.ordered c
      rwa [pending, hcollecting] at hordered
    · exact h
  · exact h

theorem accounted_timeout (h : s.Accounted) : (s.step .timeout).Accounted := by
  have hphase := h.phaseOk
  rw [step]
  split
  · rename_i hcollecting
    simp only [PhaseOk, hcollecting] at hphase
    refine { h with ordered := fun c => ?_, phaseOk := ⟨hphase.le, nofun⟩ }
    have hordered := h.ordered c
    rwa [pending, hcollecting] at hordered
  · exact h

/-- The groups of a flush are the entries of the buffer by collection. -/
theorem groups_eq (s : WriteBatcher) (order : List String) :
    s.groups order = order.map fun c => (c, ofKey BatchEntry.collection c s.buffer) := by
  refine List.map_congr_left fun c _ => ?_
  rw [getElem?_groupBy]
  split
  · rename_i hnil
    rw [hnil]
    rfl
  · rfl

theorem groupsOk_groups {order : List String} (hbuffer : s.buffer.length ≤ maxBatchSize)
    (horder : order.Perm (groupBy BatchEntry.collection s.buffer).keys) : GroupsOk (s.groups order) := by
  rw [groups_eq]
  intro g hg
  obtain ⟨c, hc, rfl⟩ := List.mem_map.1 hg
  obtain ⟨e, he, hec⟩ := (mem_keys_groupBy _).1 (horder.mem_iff.1 hc)
  refine ⟨List.ne_nil_of_mem ((mem_ofKey _).2 ⟨he, hec⟩), ?_, fun e he => ((mem_ofKey _).1 he).2⟩
  exact (List.length_filter_le _ _).trans hbuffer

/-- Whatever the order of the groups, each collection keeps its entries in order. -/
theorem ofKey_groups {order : List String}
    (horder : order.Perm (groupBy BatchEntry.collection s.buffer).keys) (c : String) :
    ofKey BatchEntry.collection c ((s.groups order).flatMap Prod.snd) =
      ofKey BatchEntry.collection c s.buffer := by
  have hnodup : order.Nodup := horder.nodup_iff.2 (Std.ExtTreeMap.nodup_keys)
  rw [groups_eq, List.flatMap_map, filter_flatMap_groups _ hnodup]
  split
  · rfl
  · rename_i hc
    refine (ofKey_eq_nil _ fun e he hec => hc ?_).symm
    exact horder.mem_iff.2 ((mem_keys_groupBy _).2 ⟨e, he, hec⟩)

/-- The loop after some groups have been proposed, or before the first. -/
theorem phaseOk_afterGroups {last : Bool} {groups : List (String × List BatchEntry)}
    (hgroups : GroupsOk groups) (hlast : last = true → s.closed = true ∧ s.channel = [])
    (hbuffer : s.buffer = []) (hphase : s.phase = .afterGroups last groups) : s.PhaseOk := by
  simp only [PhaseOk, hphase]
  cases groups with
  | nil =>
      cases last with
      | false => exact hbuffer
      | true => exact ⟨hbuffer, hlast rfl⟩
  | cons g gs => exact ⟨hbuffer, nofun, hgroups, hlast⟩

theorem entries_afterGroups (last : Bool) (groups : List (String × List BatchEntry)) :
    (FlushPhase.afterGroups last groups).entries = groups.flatMap Prod.snd := by
  cases groups with
  | nil => cases last <;> rfl
  | cons g gs => rfl

theorem accounted_flush (h : s.Accounted) (order : List String) : (s.step (.flush order)).Accounted := by
  have hphase := h.phaseOk
  rw [step]
  split
  · rename_i last hcollected
    simp only [PhaseOk, hcollected] at hphase
    split
    · rename_i horder
      refine { h with ordered := fun c => ?_, phaseOk := ?_ }
      · have hordered := h.ordered c
        rw [pending, hcollected] at hordered
        rw [← hordered, pending, entries_afterGroups, List.append_nil, ofKey_append, ofKey_groups horder,
          ← ofKey_append]
        rfl
      · exact phaseOk_afterGroups (groupsOk_groups hphase.1 horder) hphase.2 rfl rfl
    · exact h
  · exact h

theorem accounted_propose (h : s.Accounted) (result : DbResult RaftResponse) :
    (s.step (.propose result)).Accounted := by
  have hphase := h.phaseOk
  rw [step]
  split
  · rename_i last collection entries rest hflushing
    simp only [PhaseOk, hflushing] at hphase
    obtain ⟨hbuffer, -, hgroups, hlast⟩ := hphase
    obtain ⟨hne, hlength, hown⟩ := hgroups (collection, entries) List.mem_cons_self
    refine { h with
      ordered := fun c => ?_
      own := forall_mem_concat h.own hown
      sized := forall_mem_concat h.sized ⟨List.length_pos_of_ne_nil hne, hlength⟩
      replied := by rw [List.flatMap_append, ← h.replied]; simp
      phaseOk := phaseOk_afterGroups (fun g hg => hgroups g (List.mem_cons_of_mem _ hg)) hlast hbuffer rfl }
    have hordered := h.ordered c
    rw [pending, hflushing] at hordered
    rw [← hordered, pending, entries_afterGroups, proposed, proposed, List.flatMap_append]
    simp [FlushPhase.entries]
  · exact h

/-- **One step.** -/
theorem accounted_step (h : s.Accounted) (a : BatcherStep) : (s.step a).Accounted := by
  cases a with
  | submit collection document => exact accounted_submit h collection document
  | send i => exact accounted_send h i
  | close => exact accounted_close h
  | recv => exact accounted_recv h
  | timeout => exact accounted_timeout h
  | flush order => exact accounted_flush h order
  | propose result => exact accounted_propose h result

end Step

theorem accounted_run (steps : List BatcherStep) : (start.run steps).Accounted := by
  have halong : Along step (fun _ _ => True) start steps := along_true steps start
  exact halong.invariant (I := Accounted) (fun s a h _ => accounted_step h a) accounted_start

/-! ## What the batcher promises -/

/-- The documents of all proposals for a collection, in order. -/
def proposedDocuments (s : WriteBatcher) (c : String) : List Document :=
  (s.proposals.filter fun p => p.collection = c).flatMap BatchProposal.documents

/-- The call has been answered, with the outcome of the proposal that has its document. -/
def Answered (s : WriteBatcher) (call : Nat) (collection : String) (document : Document) : Prop :=
  ∃ p ∈ s.proposals, ⟨collection, document, call⟩ ∈ p.entries ∧ s.repliesTo call = [replyOf p.result]

/-- Nothing is lost, doubled or reordered. -/
structure Faithful (s : WriteBatcher) : Prop where
  /-- A received document is in one proposal, or still waits for it. -/
  once : ∀ e ∈ s.received, s.proposed.count e + s.pending.count e = 1
  own : ∀ p ∈ s.proposals, ∀ e ∈ p.entries, e.collection = p.collection
  ordered : ∀ c, s.proposedDocuments c ++
      (ofKey BatchEntry.collection c s.pending).map BatchEntry.document =
    (ofKey BatchEntry.collection c s.received).map BatchEntry.document
  sized : ∀ p ∈ s.proposals, 1 ≤ p.entries.length ∧ p.entries.length ≤ 100
  /-- A call has one reply, or none as long as its document has not been proposed. -/
  answered : ∀ call collection document, s.calls[call]? = some (collection, document) →
    s.Answered call collection document ∨
      (⟨collection, document, call⟩ ∈ s.pending ++ s.channel ++ s.sending ∧ s.repliesTo call = [])

section Accounted

variable {s : WriteBatcher}

theorem Accounted.perm (h : s.Accounted) : (s.proposed ++ s.pending).Perm s.received :=
  perm_of_filter_eq _ h.ordered

/-- Every call has one entry, which is in one place. -/
theorem Accounted.nodup (h : s.Accounted) :
    ((s.proposed ++ s.pending ++ s.channel ++ s.sending).map BatchEntry.reply).Nodup := by
  have hperm : (s.proposed ++ s.pending ++ s.channel ++ s.sending).Perm
      (s.received ++ s.channel ++ s.sending) :=
    (h.perm.append_right _).append_right _
  exact ((hperm.map _).trans h.numbered).nodup_iff.2 List.nodup_range

theorem Accounted.once (h : s.Accounted) {e : BatchEntry} (he : e ∈ s.received) :
    s.proposed.count e + s.pending.count e = 1 := by
  have hnodup : (s.proposed ++ s.pending).Nodup := by
    have hall := h.nodup.of_map
    rw [List.append_assoc] at hall
    exact hall.of_append_left
  rw [← List.count_append]
  exact List.count_eq_one_of_mem hnodup (h.perm.mem_iff.2 he)

theorem Accounted.proposedDocuments_eq (h : s.Accounted) (c : String) :
    s.proposedDocuments c = (ofKey BatchEntry.collection c s.proposed).map BatchEntry.document := by
  have hentries : ∀ ps : List BatchProposal, (∀ p ∈ ps, ∀ e ∈ p.entries, e.collection = p.collection) →
      (ps.filter fun p => p.collection = c).flatMap BatchProposal.documents =
        (ofKey BatchEntry.collection c (ps.flatMap BatchProposal.entries)).map BatchEntry.document := by
    intro ps
    induction ps with
    | nil => exact fun _ => rfl
    | cons p ps ih =>
        intro hown
        have hrest := ih fun q hq => hown q (List.mem_cons_of_mem _ hq)
        have hself := hown p List.mem_cons_self
        rw [List.flatMap_cons, ofKey_append, List.map_append, ← hrest]
        by_cases hc : p.collection = c
        · rw [List.filter_cons_of_pos (by simpa using hc), List.flatMap_cons,
            ofKey_eq_self _ fun e he => (hself e he).trans hc]
          rfl
        · rw [List.filter_cons_of_neg (by simpa using hc),
            ofKey_eq_nil _ fun e he heq => hc ((hself e he).symm.trans heq)]
          rfl
  exact hentries s.proposals h.own

/-- There is a reply for every entry that was proposed. -/
theorem Accounted.map_fst_replies (h : s.Accounted) :
    s.replies.map Prod.fst = s.proposed.map BatchEntry.reply := by
  rw [h.replied, proposed, List.map_flatMap, List.map_flatMap]
  refine List.flatMap_congr fun p _ => ?_
  rw [BatchProposal.replies, List.map_map]
  rfl

theorem Accounted.repliesTo_eq_nil (h : s.Accounted) {call : Nat}
    (hnone : ∀ e ∈ s.proposed, e.reply ≠ call) : s.repliesTo call = [] := by
  rw [repliesTo, List.map_eq_nil_iff]
  refine ofKey_eq_nil _ fun reply hreply heq => ?_
  have hmem : call ∈ s.replies.map Prod.fst := heq ▸ List.mem_map_of_mem hreply
  rw [h.map_fst_replies] at hmem
  obtain ⟨e, he, hcall⟩ := List.mem_map.1 hmem
  exact hnone e he hcall

/-- A document that was proposed has been answered, once. -/
theorem Accounted.answered_of_mem (h : s.Accounted) {e : BatchEntry} (he : e ∈ s.proposed) :
    s.Answered e.reply e.collection e.document := by
  obtain ⟨p, hp, hep⟩ := List.mem_flatMap.1 he
  refine ⟨p, hp, hep, ?_⟩
  have hnodup : (s.replies.map Prod.fst).Nodup := by
    have hall := h.nodup
    simp only [List.map_append, List.append_assoc] at hall
    rw [h.map_fst_replies]
    exact hall.of_append_left
  have hreply : (e.reply, replyOf p.result) ∈ s.replies := by
    rw [h.replied]
    exact List.mem_flatMap.2 ⟨p, hp, List.mem_map_of_mem hep⟩
  have hone := ofKey_eq_singleton Prod.fst hnodup hreply
  rw [repliesTo, hone]
  rfl

theorem Accounted.answered (h : s.Accounted) {call : Nat} {collection : String} {document : Document}
    (hcall : s.calls[call]? = some (collection, document)) :
    s.Answered call collection document ∨
      (⟨collection, document, call⟩ ∈ s.pending ++ s.channel ++ s.sending ∧ s.repliesTo call = []) := by
  -- the call has an entry, and the entry has what the call gave
  have hmem : call ∈ (s.received ++ s.channel ++ s.sending).map BatchEntry.reply :=
    h.numbered.mem_iff.2 (List.mem_range.2 (List.getElem?_eq_some_iff.1 hcall).1)
  obtain ⟨e, he, rfl⟩ := List.mem_map.1 hmem
  have hgiven := h.called e he
  rw [hcall] at hgiven
  obtain ⟨rfl, rfl⟩ := Prod.mk.inj (Option.some.inj hgiven)
  by_cases hproposed : e ∈ s.proposed
  · exact .inl (h.answered_of_mem hproposed)
  · have hwaits : e ∈ s.pending ++ s.channel ++ s.sending := by
      simp only [List.append_assoc, List.mem_append] at he ⊢
      rcases he with he | he
      · exact .inl ((List.mem_append.1 (h.perm.mem_iff.2 he)).resolve_left hproposed)
      · exact .inr he
    refine .inr ⟨hwaits, h.repliesTo_eq_nil fun f hf heq => ?_⟩
    have hnodup := h.nodup
    simp only [List.append_assoc, List.map_append] at hnodup hwaits
    rw [← List.map_append, ← List.map_append] at hnodup
    exact (List.disjoint_of_nodup_append hnodup) (List.mem_map_of_mem hf)
      (heq ▸ List.mem_map_of_mem hwaits)

theorem Accounted.faithful (h : s.Accounted) : s.Faithful where
  once := fun e he => h.once he
  own := h.own
  ordered := by
    intro c
    rw [h.proposedDocuments_eq, ← List.map_append, ← ofKey_append, h.ordered]
  sized := h.sized
  answered := fun call collection document hcall => h.answered hcall

end Accounted

/-! ## The task comes to rest -/

/-- How far the loop is from waiting for a new batch. -/
def phaseWork : FlushPhase → Nat
  | .receiving => 1
  | .collecting => 3
  | .collected _ => 2
  | .flushing _ groups => 1 + groups.length
  | .exited => 0

/-- A bound for the steps that are left, as long as no new call comes in. -/
def work (s : WriteBatcher) : Nat :=
  5 * s.sending.length + 4 * s.channel.length + s.buffer.length + phaseWork s.phase

/-- Nothing is left to do for the task or for a call in progress. -/
def Idle (s : WriteBatcher) : Prop := ∀ a, a.isTask = true → s.step a = s

section Progress

variable {s : WriteBatcher}

theorem phaseWork_afterGroups (last : Bool) (groups : List (String × List BatchEntry)) :
    phaseWork (.afterGroups last groups) ≤ 1 + groups.length := by
  cases groups with
  | nil => cases last <;> decide
  | cons g gs => exact le_rfl

theorem work_receive {entry : BatchEntry} {rest : List BatchEntry} (hchannel : s.channel = entry :: rest)
    (hphase : 1 ≤ phaseWork s.phase) : (s.receive entry rest).work < s.work := by
  have hnext : phaseWork (s.receive entry rest).phase ≤ 3 := by
    simp only [receive]
    split
    · decide
    · decide
  simp only [work, hchannel, List.length_cons]
  simp only [receive, List.length_append, List.length_singleton] at hnext ⊢
  omega

/-- The groups of a buffer are no more than its entries. -/
theorem length_order_le {order : List String}
    (horder : order.Perm (groupBy BatchEntry.collection s.buffer).keys) :
    order.length ≤ s.buffer.length := by
  have hnodup : order.Nodup := horder.nodup_iff.2 Std.ExtTreeMap.nodup_keys
  have hsub : order ⊆ s.buffer.map BatchEntry.collection := by
    intro c hc
    obtain ⟨e, he, hec⟩ := (mem_keys_groupBy _).1 (horder.mem_iff.1 hc)
    exact List.mem_map.2 ⟨e, he, hec⟩
  have hle := (hnodup.subperm hsub).length_le
  rwa [List.length_map] at hle

theorem work_send (s : WriteBatcher) (i : Nat) :
    s.step (.send i) = s ∨ (s.step (.send i)).work < s.work := by
  rw [step]
  split
  · rename_i entry hentry
    obtain ⟨hi, -⟩ := List.getElem?_eq_some_iff.1 hentry
    have herase : (s.sending.eraseIdx i).length + 1 = s.sending.length := by
      rw [List.length_eraseIdx_of_lt hi]
      omega
    split
    · right
      simp only [work]
      omega
    · split
      · right
        simp only [work, List.length_append, List.length_singleton]
        omega
      · exact .inl rfl
  · exact .inl rfl

theorem work_recv (h : s.Accounted) : s.step .recv = s ∨ (s.step .recv).work < s.work := by
  have hphase := h.phaseOk
  rw [step]
  split
  · rename_i hreceiving hchannel
    exact .inr (work_receive hchannel (by rw [hreceiving]; decide))
  · rename_i hreceiving hchannel
    simp only [PhaseOk, hreceiving] at hphase
    split
    · right
      simp [work, phaseWork, hphase, hreceiving]
    · exact .inl rfl
  · rename_i hcollecting hchannel
    exact .inr (work_receive hchannel (by rw [hcollecting]; decide))
  · rename_i hcollecting hchannel
    split
    · right
      simp [work, phaseWork, hcollecting]
    · exact .inl rfl
  · exact .inl rfl

theorem work_timeout (s : WriteBatcher) : s.step .timeout = s ∨ (s.step .timeout).work < s.work := by
  rw [step]
  split
  · rename_i hcollecting
    right
    simp [work, phaseWork, hcollecting]
  · exact .inl rfl

theorem work_flush (s : WriteBatcher) (order : List String) :
    s.step (.flush order) = s ∨ (s.step (.flush order)).work < s.work := by
  rw [step]
  split
  · rename_i last hcollected
    split
    · rename_i horder
      right
      have hlength := length_order_le horder
      have hgroups := phaseWork_afterGroups last (s.groups order)
      rw [groups_eq, List.length_map, ← groups_eq] at hgroups
      have hbefore : phaseWork s.phase = 2 := by rw [hcollected]; rfl
      simp only [work, List.length_nil]
      omega
    · exact .inl rfl
  · exact .inl rfl

theorem work_propose (s : WriteBatcher) (result : DbResult RaftResponse) :
    s.step (.propose result) = s ∨ (s.step (.propose result)).work < s.work := by
  rw [step]
  split
  · rename_i last collection entries rest hflushing
    right
    have hgroups := phaseWork_afterGroups last rest
    have hbefore : phaseWork s.phase = 1 + (rest.length + 1) := by rw [hflushing]; rfl
    simp only [work]
    omega
  · exact .inl rfl

/-- **One step.** Whatever the task does brings it closer to rest. -/
theorem work_step_lt (h : s.Accounted) {a : BatcherStep} (htask : a.isTask = true)
    (hmoves : s.step a ≠ s) : (s.step a).work < s.work := by
  cases a with
  | submit collection document => exact nomatch htask
  | close => exact nomatch htask
  | send i => exact (work_send s i).resolve_left hmoves
  | recv => exact (work_recv h).resolve_left hmoves
  | timeout => exact (work_timeout s).resolve_left hmoves
  | flush order => exact (work_flush s order).resolve_left hmoves
  | propose result => exact (work_propose s result).resolve_left hmoves

/-- The task makes no more steps than there is work. -/
theorem length_le_work (more : List BatcherStep) :
    ∀ {s : WriteBatcher}, s.Accounted → (∀ a ∈ more, a.isTask = true) →
      Along step (fun t a => t.step a ≠ t) s more → more.length ≤ s.work := by
  induction more with
  | nil => exact fun _ _ _ => Nat.zero_le _
  | cons a more ih =>
      intro s h htask hmoves
      have hrest := ih (accounted_step h a) (fun b hb => htask b (List.mem_cons_of_mem _ hb)) hmoves.2
      have hlt := work_step_lt h (htask a List.mem_cons_self) hmoves.1
      rw [List.length_cons]
      omega

/-- At rest the loop waits for a new batch, or has ended. -/
theorem Idle.phase_eq (hidle : s.Idle) (h : s.Accounted) : s.phase = .receiving ∨ s.phase = .exited := by
  have hphase := h.phaseOk
  cases hs : s.phase with
  | receiving => exact .inl rfl
  | exited => exact .inr rfl
  | collecting =>
      have hstep := congrArg phase (hidle .timeout rfl)
      simp [step, hs] at hstep
  | collected last =>
      have hstep := congrArg phase (hidle (.flush (groupBy BatchEntry.collection s.buffer).keys) rfl)
      simp only [step, hs, List.Perm.refl, if_true] at hstep
      cases hgroups : s.groups (groupBy BatchEntry.collection s.buffer).keys with
      | nil =>
          rw [hgroups] at hstep
          cases last <;> exact nomatch hstep
      | cons g gs =>
          rw [hgroups] at hstep
          exact nomatch hstep
  | flushing last groups =>
      simp only [PhaseOk, hs] at hphase
      obtain ⟨g, rest, rfl⟩ := List.exists_cons_of_ne_nil hphase.2.1
      have hstep := congrArg (fun t => t.proposals.length) (hidle (.propose (.ok ⟨true, none, 0⟩)) rfl)
      simp [step, hs] at hstep

/-- **At rest.** No document is left anywhere. -/
theorem Idle.drained (hidle : s.Idle) (h : s.Accounted) : s.pending = [] ∧ s.channel = [] ∧ s.sending = [] := by
  have hphase := h.phaseOk
  rcases hidle.phase_eq h with hs | hs
  · simp only [PhaseOk, hs] at hphase
    have hchannel : s.channel = [] := by
      cases hc : s.channel with
      | nil => rfl
      | cons entry rest =>
          have hstep := congrArg (fun t => t.received.length) (hidle .recv rfl)
          simp [step, hs, hc, receive] at hstep
    refine ⟨by simp [pending, hs, hphase, FlushPhase.entries], hchannel, ?_⟩
    cases hsend : s.sending with
    | nil => rfl
    | cons entry rest =>
        have hstep := congrArg (fun t => t.channel.length) (hidle (.send 0) rfl)
        simp [step, hs, hsend, hchannel, maxBatchSize] at hstep
  · simp only [PhaseOk, hs] at hphase
    exact ⟨by simp [pending, hs, hphase, FlushPhase.entries], hphase.2.2, h.dropped hphase.2.1⟩

end Progress

/-- **The batcher.** After every run it is faithful; the steps that its task can make from
there without a new call are bounded; and where none is left, every document has been
proposed and every call has its one reply, the outcome of the proposal that has its
document. -/
theorem batcher_faithful (steps : List BatcherStep) :
    (start.run steps).Faithful ∧
      (∀ more, (∀ a ∈ more, a.isTask = true) →
        Along step (fun t a => t.step a ≠ t) (start.run steps) more →
          more.length ≤ (start.run steps).work) ∧
      ((start.run steps).Idle →
        (start.run steps).pending = [] ∧
          ∀ call collection document, (start.run steps).calls[call]? = some (collection, document) →
            (start.run steps).Answered call collection document) := by
  have h := accounted_run steps
  refine ⟨h.faithful, fun more htask hmoves => length_le_work more h htask hmoves, fun hidle => ?_⟩
  obtain ⟨hpending, hchannel, hsending⟩ := hidle.drained h
  refine ⟨hpending, fun call collection document hcall => ?_⟩
  refine (h.answered hcall).resolve_right fun hwaits => ?_
  rw [hpending, hchannel, hsending] at hwaits
  exact List.not_mem_nil hwaits.1

/-- One document is submitted, and the node is not the leader. -/
def oneRefused : List BatcherStep :=
  [.submit "c" (Document.new ⟨"d"⟩), .send 0, .recv, .timeout, .flush ["c"],
    .propose (.error (.consensusError "not leader; forward to node-2"))]

/-- The submitter is not sent the error that the proposal returned. -/
theorem not_reply_eq_result :
    let e : BatchEntry := ⟨"c", Document.new ⟨"d"⟩, 0⟩
    let p : BatchProposal := ⟨"c", [e], .error (.consensusError "not leader; forward to node-2")⟩
    let reply : DbResult RaftResponse := .error (.consensusError "consensus error: not leader; forward to node-2")
    p ∈ (start.run oneRefused).proposals ∧ e ∈ p.entries ∧ (e.reply, reply) ∈ (start.run oneRefused).replies ∧
      reply ≠ p.result := by
  refine ⟨by decide, by simp, by decide, ?_⟩
  simp

end WriteBatcher

end MSearchDB.Node
