import MSearchDB.Core.DocumentPayload
import MSearchDB.Storage.RocksDbSlots
import MSearchDB.Consensus.LogReplay

/-!
# Serving built snapshots

A node applies entries, hands out snapshot builders, builds snapshots with them
and installs snapshots of others, in any order. openraft purges the log on the
strength of a built snapshot, so that `get_current_snapshot` has to return one
that reaches as far (`Served`).

A build does not write the slot that `get_current_snapshot` reads; only an
installation does. `served_run_iff` says in which runs every built snapshot is
served in every state, and `not_served_after_build` is a run of one build.
-/

set_option autoImplicit false

namespace MSearchDB.Consensus

open MSearchDB.Lib
open MSearchDB.Core

/-- One event on a node. The scan of a builder runs beside `apply`, and the
storage it finds is part of the event. -/
inductive Event (σ : Type) where
  | apply (entries : List Entry)
  | getSnapshotBuilder
  | buildSnapshot (i : Nat) (atScan : σ)
  | installSnapshot (m : SnapshotMeta) (data : Bytes)

/-- A node: its state machine, the builders it has handed out, and what they have
built so far. -/
structure Node (σ ι : Type) where
  sm : DbStateMachine σ ι
  builders : List DbSnapshotBuilder
  built : List SnapshotMeta

namespace Node

variable {σ ι : Type}

/-- A node on which nothing has been built. -/
def start (sm : DbStateMachine σ ι) : Node σ ι := ⟨sm, [], []⟩

/-- Every snapshot that was built is covered by the one the node can send. -/
def Served (n : Node σ ι) : Prop :=
  ∀ old ∈ n.built, ∃ snap, n.sm.getCurrentSnapshot = some snap ∧
    LogId.optLE old.lastLogId snap.snapshotMeta.lastLogId

theorem served_iff {n : Node σ ι} :
    n.Served ↔ ∀ old ∈ n.built, ∃ cur, n.sm.currentSnapshot = some cur ∧
      LogId.optLE old.lastLogId cur.snapshotMeta.lastLogId := by
  simp only [Served, DbStateMachine.getCurrentSnapshot]
  cases n.sm.currentSnapshot with
  | none => simp
  | some cur => simp

variable [StorageBackend σ] [IndexBackend ι] [SerdeJson (List Document)] [LeaderIdDisplay]

/-- The node after an event. -/
def step (n : Node σ ι) : Event σ → Node σ ι
  | .apply entries => { n with sm := (n.sm.apply entries).2 }
  | .getSnapshotBuilder => { n with builders := n.builders ++ [n.sm.getSnapshotBuilder] }
  | .buildSnapshot i atScan =>
      match n.builders[i]? with
      | none => n
      | some b =>
          match b.buildSnapshot atScan with
          | .error _ => n
          | .ok snap => { n with built := n.built ++ [snap.snapshotMeta] }
  | .installSnapshot m data => { n with sm := (n.sm.installSnapshot m data).2 }

/-- The node after a run. -/
def run (n : Node σ ι) (events : List (Event σ)) : Node σ ι := events.foldl step n

/-- The condition on one event: a build finds a snapshot at least as new as its
builder already in the slot, and an installation that succeeds is at least as new
as everything built before. -/
def StepOk (n : Node σ ι) : Event σ → Prop
  | .apply _ => True
  | .getSnapshotBuilder => True
  | .buildSnapshot i atScan => ∀ b snap, n.builders[i]? = some b → b.buildSnapshot atScan = .ok snap →
      ∃ cur, n.sm.currentSnapshot = some cur ∧
        LogId.optLE b.lastAppliedLog cur.snapshotMeta.lastLogId
  | .installSnapshot m data => ∀ docs : List Document, SerdeJson.fromSlice data = .ok docs →
      ∀ old ∈ n.built, LogId.optLE old.lastLogId m.lastLogId

/-- What a build can do. -/
theorem step_buildSnapshot (n : Node σ ι) (i : Nat) (atScan : σ) :
    ((∀ b snap, n.builders[i]? = some b → b.buildSnapshot atScan ≠ .ok snap) ∧
        n.step (.buildSnapshot i atScan) = n) ∨
      ∃ b snap, n.builders[i]? = some b ∧ b.buildSnapshot atScan = .ok snap ∧
        n.step (.buildSnapshot i atScan) = { n with built := n.built ++ [snap.snapshotMeta] } := by
  simp only [step]
  cases hb : n.builders[i]? with
  | none => exact Or.inl ⟨nofun, rfl⟩
  | some b =>
      cases hbuild : b.buildSnapshot atScan with
      | error e =>
          refine Or.inl ⟨?_, by simp only [hbuild]⟩
          rintro b' snap ⟨⟩
          rw [hbuild]
          exact nofun
      | ok snap => exact Or.inr ⟨b, snap, rfl, hbuild, by simp only [hbuild]⟩

/-- What an installation can do. -/
theorem step_installSnapshot (n : Node σ ι) (m : SnapshotMeta) (data : Bytes) :
    ((∀ docs : List Document, SerdeJson.fromSlice data ≠ .ok docs) ∧
        n.step (.installSnapshot m data) = n) ∨
      ∃ docs : List Document, SerdeJson.fromSlice data = .ok docs ∧
        (n.step (.installSnapshot m data)).built = n.built ∧
        (n.step (.installSnapshot m data)).sm.currentSnapshot = some ⟨m, data⟩ := by
  cases hdocs : (SerdeJson.fromSlice data : Except String (List Document)) with
  | error e =>
      refine Or.inl ⟨nofun, ?_⟩
      simp only [step, DbStateMachine.installSnapshot, hdocs]
  | ok docs =>
      refine Or.inr ⟨docs, rfl, rfl, ?_⟩
      simp only [step, DbStateMachine.installSnapshot, hdocs]

/-- A node that serves its snapshots goes on to do so exactly when the event meets
the condition. -/
theorem served_step_iff {n : Node σ ι} (h : n.Served) (e : Event σ) :
    (n.step e).Served ↔ n.StepOk e := by
  cases e with
  | apply entries =>
      rw [served_iff] at h
      refine iff_of_true (served_iff.2 ?_) trivial
      show ∀ old ∈ n.built, ∃ cur, (n.sm.apply entries).2.currentSnapshot = some cur ∧ _
      rwa [DbStateMachine.currentSnapshot_apply]
  | getSnapshotBuilder => exact iff_of_true h trivial
  | buildSnapshot i atScan =>
      -- a build that succeeds adds to what has to be served and leaves the slot
      rcases step_buildSnapshot n i atScan with ⟨hno, hstep⟩ | ⟨b, snap, hb, hbuild, hstep⟩
      · rw [hstep]
        exact iff_of_true h fun b snap hb hbuild => absurd hbuild (hno b snap hb)
      · rw [hstep, served_iff]
        rw [served_iff] at h
        obtain ⟨-, -, -, hlast, -⟩ := DbSnapshotBuilder.buildSnapshot_ok hbuild
        constructor
        · intro hnew b' _ hb' _
          cases hb.symm.trans hb'
          rw [← hlast]
          exact hnew _ (List.mem_append_right _ (List.mem_singleton_self _))
        · intro hok old hold
          rcases List.mem_append.1 hold with hold | hold
          · exact h old hold
          · rw [List.mem_singleton.1 hold, hlast]
            exact hok b snap hb hbuild
  | installSnapshot m data =>
      -- an installation that succeeds replaces what is served
      rcases step_installSnapshot n m data with ⟨hno, hstep⟩ | ⟨docs, hdocs, hbuilt, hcur⟩
      · rw [hstep]
        exact iff_of_true h fun docs hdocs => absurd hdocs (hno docs)
      · rw [served_iff, hbuilt, hcur]
        constructor
        · intro hnew _ _ old hold
          obtain ⟨cur, hsome, hle⟩ := hnew old hold
          cases hsome
          exact hle
        · exact fun hok old hold => ⟨_, rfl, hok docs hdocs old hold⟩

/-- The run rule: over the states of a run, the property is the condition at every
event. -/
theorem served_run_iff_of_served {n : Node σ ι} (h : n.Served) (events : List (Event σ)) :
    (∀ pre, pre <+: events → (n.run pre).Served) ↔
      ∀ pre e, pre ++ [e] <+: events → (n.run pre).StepOk e := by
  -- induction on the run, for every node it can start from
  induction events generalizing n with
  | nil =>
      refine iff_of_true (fun pre hpre => ?_) fun pre e hpre => ?_
      · rw [List.prefix_nil.1 hpre]
        exact h
      · simp at hpre
  | cons e events ih =>
      constructor
      · intro hall
        have hstep : (n.step e).Served := hall [e] (by simp)
        have hrest := (ih hstep).1 fun pre hpre => hall (e :: pre) (List.prefix_cons_inj e |>.2 hpre)
        intro pre e' hpre
        cases pre with
        | nil =>
            obtain rfl : e' = e := by simpa using hpre
            exact (served_step_iff h e').1 hstep
        | cons a pre =>
            obtain ⟨rfl, htail⟩ := List.cons_prefix_cons.1 hpre
            exact hrest pre e' htail
      · intro hall
        have hstep : (n.step e).Served :=
          (served_step_iff h e).2 (hall [] e (by simp))
        have hrest := (ih hstep).2 fun pre e' hpre =>
          hall (e :: pre) e' (List.cons_prefix_cons.2 ⟨rfl, hpre⟩)
        intro pre hpre
        cases pre with
        | nil => exact h
        | cons a pre =>
            obtain ⟨rfl, htail⟩ := List.cons_prefix_cons.1 hpre
            exact hrest pre htail

/-- **Served runs.** In a run from a node on which nothing has been built, every
state serves what was built before exactly when every event meets the condition:
each build finds a snapshot at least as new as its builder in the slot, and each
installation is at least as new as all that was built. -/
theorem served_run_iff (sm : DbStateMachine σ ι) (events : List (Event σ)) :
    (∀ pre, pre <+: events → ((start sm).run pre).Served) ↔
      ∀ pre e, pre ++ [e] <+: events → ((start sm).run pre).StepOk e :=
  served_run_iff_of_served (n := start sm) (fun _ hold => absurd hold (by simp [start])) events

end Node

open MSearchDB.Storage.RocksDb
open MSearchDB.Storage.RocksDb.RocksDbStorage

/-- The display of leader identifiers in openraft 0.9. -/
instance leaderIdDisplay : LeaderIdDisplay where
  fmt l := "T" ++ toString l.term ++ "-N" ++ toString l.nodeId

/-- A run that applies two entries and builds one snapshot. -/
def buildOnce : List (Event RocksDbStorage) :=
  [.apply createAndInsert, .getSnapshotBuilder,
    .buildSnapshot 0 (freshMachine.apply createAndInsert).2.storage]

/-- The snapshot that was built is not served. -/
theorem not_served_after_build : ¬ ((Node.start freshMachine).run buildOnce).Served := by
  intro hserved
  have hbuilt : ((Node.start freshMachine).run buildOnce).built =
      [⟨some ⟨⟨1, 1⟩, 2⟩, StoredMembership.default, "T1-N1-2-snapshot"⟩] := by
    decide
  have hslot : ((Node.start freshMachine).run buildOnce).sm.getCurrentSnapshot = none := by
    decide
  obtain ⟨snap, hsnap, -⟩ := hserved _ (by rw [hbuilt]; exact List.mem_singleton_self _)
  rw [hslot] at hsnap
  cases hsnap

end MSearchDB.Consensus
