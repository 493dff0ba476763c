import Mathlib.Data.List.DropRight
import MSearchDB.Lib.WriteLog
import MSearchDB.Storage.WalLog
import MSearchDB.Storage.WalPayload

/-!
# Replay of the write-ahead log

`WalReader::replay` reads the log, keeps its entries up to and including the last
checkpoint, and hands back the puts and the deletes among them as two lists.
`upToLastCheckpoint` and `loggedState` say what the log means: the kept entries,
executed one by one. `replay_eq` is the code in these terms.

The two lists do not tell in which order a put and a delete of one key came.
`replay_order_iff` says on which logs a fixed order of the two lists recovers the
logged state, and `not_replay_order` is a log that defeats both orders. What
follows the last checkpoint is not replayed; `mem_replay_iff` describes the two
lists of a synced log.
-/

set_option autoImplicit false

namespace MSearchDB.Storage.Wal

open MSearchDB.Lib
open MSearchDB.Core
open WalReader (isCheckpoint rposition collect replay readAll)

/-! ## The meaning of a log -/

/-- The write an entry logs; a checkpoint logs none. -/
def WalEntry.write? (e : WalEntry) : Option (Write Bytes Bytes) :=
  match e.operation with
  | .put key value => some (.put key value)
  | .delete key => some (.delete key)
  | .checkpoint => none

/-- The entries up to and including the last checkpoint, and all entries of a log
without checkpoints. -/
def upToLastCheckpoint (es : List WalEntry) : List WalEntry :=
  if es.any isCheckpoint then es.rdropWhile fun e => !isCheckpoint e else es

/-- The writes a recovery has to execute. -/
def replayedWrites (es : List WalEntry) : List (Write Bytes Bytes) :=
  (upToLastCheckpoint es).filterMap WalEntry.write?

/-- The state reached from the empty state by executing these writes in log order. -/
def loggedState (es : List WalEntry) : Bytes → Option Bytes :=
  Write.execAll (fun _ => none) (replayedWrites es)

/-- The two fixed orders in which the lists of `replay` can be applied. -/
inductive ReplayOrder where
  | putsFirst
  | deletesFirst
  deriving DecidableEq, Repr

/-- The writes of a replay result, in the given order of its two lists. -/
def ReplayOrder.writes (order : ReplayOrder) (r : List (Bytes × Bytes) × List Bytes) :
    List (Write Bytes Bytes) :=
  let puts := r.1.map fun kv => Write.put kv.1 kv.2
  let deletes := r.2.map Write.delete
  match order with
  | .putsFirst => puts ++ deletes
  | .deletesFirst => deletes ++ puts

/-- The state recovered from a replay result. -/
def ReplayOrder.state (order : ReplayOrder) (r : List (Bytes × Bytes) × List Bytes) :
    Bytes → Option Bytes :=
  Write.execAll (fun _ => none) (order.writes r)

theorem WalEntry.write?_eq_put {e : WalEntry} {k v : Bytes} :
    e.write? = some (.put k v) ↔ e.operation = .put k v := by
  cases h : e.operation <;> simp [WalEntry.write?, h]

theorem WalEntry.write?_eq_delete {e : WalEntry} {k : Bytes} :
    e.write? = some (.delete k) ↔ e.operation = .delete k := by
  cases h : e.operation <;> simp [WalEntry.write?, h]

theorem WalEntry.isCheckpoint_of_write? {e : WalEntry} {w : Write Bytes Bytes}
    (h : e.write? = some w) : isCheckpoint e = false := by
  cases hop : e.operation with
  | put key value => simp [isCheckpoint, hop]
  | delete key => simp [isCheckpoint, hop]
  | checkpoint => simp [WalEntry.write?, hop] at h

/-! ## The last checkpoint -/

/-- A log with a checkpoint, cut at the last one. -/
theorem exists_last_checkpoint {es : List WalEntry} (h : es.any isCheckpoint = true) :
    ∃ pre c post, es = pre ++ c :: post ∧ isCheckpoint c = true ∧
      ∀ e ∈ post, isCheckpoint e = false := by
  -- the last checkpoint is the first one of the reversed log
  obtain ⟨c, hc⟩ : ∃ c, es.reverse.find? isCheckpoint = some c := by
    rw [← Option.isSome_iff_exists, List.find?_isSome]
    simpa using h
  obtain ⟨hcp, post, pre, hsplit, hpost⟩ := List.find?_eq_some_iff_append.1 hc
  refine ⟨pre.reverse, c, post.reverse, ?_, hcp, ?_⟩
  · rw [← List.reverse_reverse es, hsplit]
    simp
  · intro e he
    simpa using hpost e (List.mem_reverse.1 he)

section LastCheckpoint

variable {pre post : List WalEntry} {c : WalEntry}

theorem upToLastCheckpoint_append (hc : isCheckpoint c = true)
    (hpost : ∀ e ∈ post, isCheckpoint e = false) :
    upToLastCheckpoint (pre ++ c :: post) = pre ++ [c] := by
  have hdrop : (post.reverse ++ (c :: pre.reverse)).dropWhile (fun e => !isCheckpoint e) =
      c :: pre.reverse := by
    rw [List.dropWhile_append_of_pos (by simpa using hpost), List.dropWhile_cons_of_neg (by simp [hc])]
  have hany : (pre ++ c :: post).any isCheckpoint = true := by
    simp [hc]
  rw [upToLastCheckpoint, if_pos hany, List.rdropWhile]
  simp [hdrop]

theorem rposition_append (hc : isCheckpoint c = true)
    (hpost : ∀ e ∈ post, isCheckpoint e = false) :
    rposition isCheckpoint (pre ++ c :: post) = some pre.length := by
  have hnone : post.reverse.findIdx? isCheckpoint = none := by
    rw [List.findIdx?_eq_none_iff]
    simpa using hpost
  have hfind : (pre ++ c :: post).reverse.findIdx? isCheckpoint = some post.length := by
    simp [List.findIdx?_append, hnone, List.findIdx?_cons, hc]
  rw [rposition, hfind, Option.map_some, List.length_append, List.length_cons]
  congr 1
  omega

end LastCheckpoint

/-- The entries `replay` keeps. -/
theorem kept_eq (es : List WalEntry) :
    (match rposition isCheckpoint es with
      | some idx => es.take (idx + 1)
      | none => es) = upToLastCheckpoint es := by
  by_cases hany : es.any isCheckpoint = true
  · obtain ⟨pre, c, post, rfl, hc, hpost⟩ := exists_last_checkpoint hany
    rw [rposition_append hc hpost, upToLastCheckpoint_append hc hpost]
    simp [List.take_append]
  · have hnone : rposition isCheckpoint es = none := by
      rw [rposition, Option.map_eq_none_iff, List.findIdx?_eq_none_iff]
      simpa using hany
    rw [hnone, upToLastCheckpoint, if_neg hany]

/-- An entry is kept when a checkpoint comes at or after it, or none at all. -/
theorem mem_upToLastCheckpoint_iff {es : List WalEntry} {e : WalEntry}
    (he : isCheckpoint e = false) :
    e ∈ upToLastCheckpoint es ↔ ∃ pre post, es = pre ++ e :: post ∧
      ((∃ c ∈ post, isCheckpoint c = true) ∨ ∀ c ∈ es, isCheckpoint c = false) := by
  by_cases hany : es.any isCheckpoint = true
  · obtain ⟨pre, c, post, rfl, hc, hpost⟩ := exists_last_checkpoint hany
    have hne : e ≠ c := by
      rintro rfl
      rw [hc] at he
      cases he
    rw [upToLastCheckpoint_append hc hpost]
    constructor
    · intro h
      -- a kept entry other than the checkpoint stands in front of it
      have hpre : e ∈ pre := by simpa [hne] using h
      obtain ⟨xs, ys, rfl⟩ := List.append_of_mem hpre
      exact ⟨xs, ys ++ c :: post, by simp, Or.inl ⟨c, by simp, hc⟩⟩
    · rintro ⟨xs, ys, hsplit, hlater⟩
      obtain ⟨c', hc', hcp⟩ : ∃ c' ∈ ys, isCheckpoint c' = true := by
        rcases hlater with hlater | hnone
        · exact hlater
        · have := hnone c (by simp)
          rw [hc] at this
          cases this
      -- `e` in front of the last checkpoint: else `c'` would come after it
      rcases List.append_eq_append_iff.1 hsplit with ⟨zs, rfl, htail⟩ | ⟨zs, rfl, htail⟩
      · cases zs with
        | nil =>
            rw [List.nil_append, List.cons.injEq] at htail
            exact absurd htail.1.symm hne
        | cons z zs =>
            rw [List.cons_append, List.cons.injEq] at htail
            have := hpost c' (by rw [htail.2]; simp [hc'])
            rw [hcp] at this
            cases this
      · cases zs with
        | nil =>
            rw [List.nil_append, List.cons.injEq] at htail
            exact absurd htail.1 hne
        | cons z zs =>
            rw [List.cons_append, List.cons.injEq] at htail
            simp [htail.1]
  · have hnone : ∀ c ∈ es, isCheckpoint c = false := by simpa using hany
    rw [upToLastCheckpoint, if_neg hany]
    constructor
    · intro h
      obtain ⟨xs, ys, rfl⟩ := List.append_of_mem h
      exact ⟨xs, ys, rfl, Or.inr hnone⟩
    · rintro ⟨xs, ys, rfl, -⟩
      simp

/-! ## The two lists -/

theorem foldl_collect (es : List WalEntry) :
    ∀ acc : List (Bytes × Bytes) × List Bytes,
      ((es.foldl collect acc).1.map fun kv => Write.put kv.1 kv.2) =
          (acc.1.map fun kv => Write.put kv.1 kv.2) ++
            (es.filterMap WalEntry.write?).filter Write.isPut ∧
        (es.foldl collect acc).2.map Write.delete =
          acc.2.map Write.delete ++
            (es.filterMap WalEntry.write?).filter fun w => !Write.isPut w := by
  -- induction on the entries, for any lists collected before
  induction es with
  | nil => intro acc; simp
  | cons e es ih =>
      intro acc
      obtain ⟨hputs, hdeletes⟩ := ih (collect acc e)
      rw [List.foldl_cons, hputs, hdeletes]
      cases hop : e.operation with
      | put key value =>
          have hw : e.write? = some (.put key value) := by simp [WalEntry.write?, hop]
          simp [collect, hop, List.filterMap_cons_some hw, List.filter_cons]
      | delete key =>
          have hw : e.write? = some (.delete key) := by simp [WalEntry.write?, hop]
          simp [collect, hop, List.filterMap_cons_some hw]
      | checkpoint =>
          have hw : e.write? = none := by simp [WalEntry.write?, hop]
          simp [collect, hop, List.filterMap_cons_none hw]

section Replay

variable [Crc32Fast] [RmpSerde WalEntry]

/-- `replay` on a log that reads: the puts and the deletes of the writes a
recovery has to execute, each in log order. -/
theorem replay_eq {file : Option Bytes} {es : List WalEntry} (h : readAll file = .ok es) :
    ∃ r, replay file = .ok r ∧
      (r.1.map fun kv => Write.put kv.1 kv.2) = (replayedWrites es).filter Write.isPut ∧
      r.2.map Write.delete = (replayedWrites es).filter fun w => !Write.isPut w := by
  have hreplay : replay file = .ok ((upToLastCheckpoint es).foldl collect ([], [])) := by
    rw [← kept_eq, replay, h]
    rfl
  obtain ⟨hputs, hdeletes⟩ := foldl_collect (upToLastCheckpoint es) ([], [])
  exact ⟨_, hreplay, by simpa [replayedWrites] using hputs, by simpa [replayedWrites] using hdeletes⟩

/-- Applying the lists of `replay` in the given order yields the logged state. -/
def Recovers (order : ReplayOrder) (file : Option Bytes) : Prop :=
  ∀ es r, readAll file = .ok es → replay file = .ok r → order.state r = loggedState es

/-- Every key that the replayed part of the log deletes ends deleted. -/
def DeletesLast (file : Option Bytes) : Prop :=
  ∀ es, readAll file = .ok es → ∀ k, Write.delete k ∈ replayedWrites es →
    Write.lastTo k (replayedWrites es) = some (.delete k)

/-- Every key that the replayed part of the log puts ends put. -/
def PutsLast (file : Option Bytes) : Prop :=
  ∀ es, readAll file = .ok es → ∀ k v, Write.put k v ∈ replayedWrites es →
    ∃ v', Write.lastTo k (replayedWrites es) = some (.put k v')

theorem recovers_iff {order : ReplayOrder} {file : Option Bytes} :
    Recovers order file ↔ ∀ es, readAll file = .ok es →
      Write.execAll (fun _ => none) (match order with
        | .putsFirst => (replayedWrites es).filter Write.isPut ++
            (replayedWrites es).filter fun w => !Write.isPut w
        | .deletesFirst => ((replayedWrites es).filter fun w => !Write.isPut w) ++
            (replayedWrites es).filter Write.isPut) =
        Write.execAll (fun _ => none) (replayedWrites es) := by
  have hstate : ∀ es r, readAll file = .ok es → replay file = .ok r →
      order.writes r = match order with
        | .putsFirst => (replayedWrites es).filter Write.isPut ++
            (replayedWrites es).filter fun w => !Write.isPut w
        | .deletesFirst => ((replayedWrites es).filter fun w => !Write.isPut w) ++
            (replayedWrites es).filter Write.isPut := by
    intro es r hread hr
    obtain ⟨r', hr', hputs, hdeletes⟩ := replay_eq hread
    rw [hr] at hr'
    obtain rfl := Except.ok.inj hr'
    cases order with
    | putsFirst => simp only [ReplayOrder.writes, hputs, hdeletes]
    | deletesFirst => simp only [ReplayOrder.writes, hputs, hdeletes]
  constructor
  · intro h es hread
    obtain ⟨r, hr, -, -⟩ := replay_eq hread
    rw [← hstate es r hread hr]
    exact h es r hread hr
  · intro h es r hread hr
    rw [ReplayOrder.state, hstate es r hread hr]
    exact h es hread

theorem recovers_putsFirst_iff {file : Option Bytes} :
    Recovers .putsFirst file ↔ DeletesLast file := by
  rw [recovers_iff, DeletesLast]
  exact forall₂_congr fun es _ => Write.execAll_puts_deletes_iff _ (replayedWrites es)

theorem recovers_deletesFirst_iff {file : Option Bytes} :
    Recovers .deletesFirst file ↔ PutsLast file := by
  rw [recovers_iff, PutsLast]
  exact forall₂_congr fun es _ => Write.execAll_deletes_puts_iff _ (replayedWrites es)

/-- **Replay order.** `replay` succeeds on every log that reads. One fixed order
of its two lists recovers all logs of a set exactly when in all of them every
deleted key ends deleted (puts first), or in all of them every put key ends put
(deletes first). -/
theorem replay_order_iff (logs : Set (Option Bytes)) :
    (∀ file ∈ logs, ∀ es, readAll file = .ok es → ∃ r, replay file = .ok r) ∧
    ((∃ order, ∀ file ∈ logs, Recovers order file) ↔
      (∀ file ∈ logs, DeletesLast file) ∨ ∀ file ∈ logs, PutsLast file) := by
  refine ⟨fun file _ es hread => ?_, ?_, ?_⟩
  · obtain ⟨r, hr, -, -⟩ := replay_eq hread
    exact ⟨r, hr⟩
  · rintro ⟨order, h⟩
    cases order with
    | putsFirst => exact Or.inl fun file hfile => recovers_putsFirst_iff.1 (h file hfile)
    | deletesFirst => exact Or.inr fun file hfile => recovers_deletesFirst_iff.1 (h file hfile)
  · rintro (h | h)
    · exact ⟨.putsFirst, fun file hfile => recovers_putsFirst_iff.2 (h file hfile)⟩
    · exact ⟨.deletesFirst, fun file hfile => recovers_deletesFirst_iff.2 (h file hfile)⟩

end Replay

/-- A log that deletes a key after its put, and puts another after its delete. -/
def crossedLog : List Append :=
  [(.put [97] [49], 1700000000000), (.delete [97], 1700000000000),
    (.delete [98], 1700000000000), (.put [98] [49], 1700000000000)]

theorem crossedLog_file :
    sessions none [crossedLog] =
      .ok (some (framesOf (numbered 0 [crossedLog].flatten)).flatten) := by
  decide +kernel

/-- Neither order recovers the crossed log. -/
theorem not_replay_order :
    ¬ ∃ order : ReplayOrder, ∀ file : Option Bytes, Recovers order file := by
  rintro ⟨order, h⟩
  have hread : readAll (some (framesOf (numbered 0 [crossedLog].flatten)).flatten) =
      .ok (numbered 0 [crossedLog].flatten) := by
    decide +kernel
  have hreplay : replay (some (framesOf (numbered 0 [crossedLog].flatten)).flatten) =
      .ok ([([97], [49]), ([98], [49])], [[97], [98]]) := by
    decide +kernel
  have hstate := h _ _ _ hread hreplay
  cases order with
  | putsFirst =>
      -- the earlier delete of `b` is executed after its put
      have hkey : ReplayOrder.putsFirst.state ([([97], [49]), ([98], [49])], [[97], [98]]) [98] =
          loggedState (numbered 0 [crossedLog].flatten) [98] := by
        rw [hstate]
      revert hkey
      decide
  | deletesFirst =>
      -- the later delete of `a` is executed before its put
      have hkey : ReplayOrder.deletesFirst.state ([([97], [49]), ([98], [49])], [[97], [98]]) [97] =
          loggedState (numbered 0 [crossedLog].flatten) [97] := by
        rw [hstate]
      revert hkey
      decide

/-! ## What follows the last checkpoint -/

/-- The log holds the operation, and a checkpoint after it or none at all. -/
def Replayed (es : List WalEntry) (op : WalOperation) : Prop :=
  ∃ pre e post, es = pre ++ e :: post ∧ e.operation = op ∧
    ((∃ c ∈ post, isCheckpoint c = true) ∨ ∀ c ∈ es, isCheckpoint c = false)

theorem mem_replayedWrites_iff {es : List WalEntry} {w : Write Bytes Bytes} {op : WalOperation}
    (hop : ∀ e : WalEntry, e.write? = some w ↔ e.operation = op) :
    w ∈ replayedWrites es ↔ Replayed es op := by
  rw [replayedWrites, List.mem_filterMap]
  constructor
  · rintro ⟨e, he, hw⟩
    obtain ⟨pre, post, hsplit, hlater⟩ :=
      (mem_upToLastCheckpoint_iff (WalEntry.isCheckpoint_of_write? hw)).1 he
    exact ⟨pre, e, post, hsplit, (hop e).1 hw, hlater⟩
  · rintro ⟨pre, e, post, hsplit, he, hlater⟩
    have hw := (hop e).2 he
    exact ⟨e, (mem_upToLastCheckpoint_iff (WalEntry.isCheckpoint_of_write? hw)).2
      ⟨pre, post, hsplit, hlater⟩, hw⟩

section Synced

variable [Crc32Fast] [RmpSerde WalEntry]

/-- The puts and the deletes of `replay`, as writes of the replayed part. -/
theorem mem_replay {file : Option Bytes} {es : List WalEntry}
    {r : List (Bytes × Bytes) × List Bytes} (hread : readAll file = .ok es)
    (hr : replay file = .ok r) :
    (∀ k v, (k, v) ∈ r.1 ↔ Write.put k v ∈ replayedWrites es) ∧
      ∀ k, k ∈ r.2 ↔ Write.delete k ∈ replayedWrites es := by
  obtain ⟨r', hr', hputs, hdeletes⟩ := replay_eq hread
  rw [hr] at hr'
  obtain rfl := Except.ok.inj hr'
  constructor
  · intro k v
    have h : Write.put k v ∈ (r.1.map fun kv => Write.put kv.1 kv.2) ↔
        Write.put k v ∈ (replayedWrites es).filter Write.isPut := by
      rw [hputs]
    simpa using h
  · intro k
    have h : Write.delete k ∈ r.2.map (Write.delete (ν := Bytes)) ↔
        Write.delete k ∈ (replayedWrites es).filter fun w => !Write.isPut w := by
      rw [hdeletes]
    simpa using h

/-- **Replay of synced logs.** `replay` returns the puts and the deletes that a
checkpoint follows, superseded or not, and all of them when the log holds no
checkpoint. -/
theorem mem_replay_iff {appends : List Append} {more : List (List Append)} {file : Option Bytes}
    (hfits : ∀ e ∈ numbered 0 (appends :: more).flatten, Fits e)
    (hfile : sessions none (appends :: more) = .ok file) :
    ∃ r, replay file = .ok r ∧
      (∀ k v, (k, v) ∈ r.1 ↔ Replayed (numbered 0 (appends :: more).flatten) (.put k v)) ∧
      ∀ k, k ∈ r.2 ↔ Replayed (numbered 0 (appends :: more).flatten) (.delete k) := by
  obtain ⟨bytes, rfl, hlog, -⟩ := sessions_isLog hfits hfile
  obtain ⟨r, hr, -, -⟩ := replay_eq hlog.readAll_eq
  obtain ⟨hputs, hdeletes⟩ := mem_replay hlog.readAll_eq hr
  refine ⟨r, hr, fun k v => ?_, fun k => ?_⟩
  · rw [hputs, mem_replayedWrites_iff fun e => WalEntry.write?_eq_put]
  · rw [hdeletes, mem_replayedWrites_iff fun e => WalEntry.write?_eq_delete]

end Synced

/-- The replay of the crossed log, which holds no checkpoint. -/
theorem mem_replay_crossedLog :
    ∃ r, replay (some (framesOf (numbered 0 [crossedLog].flatten)).flatten) = .ok r ∧
      (∀ k v, (k, v) ∈ r.1 ↔ Replayed (numbered 0 [crossedLog].flatten) (.put k v)) ∧
      ∀ k, k ∈ r.2 ↔ Replayed (numbered 0 [crossedLog].flatten) (.delete k) :=
  mem_replay_iff (by decide) crossedLog_file

/-- A checkpoint and a put after it. -/
def putAfterCheckpoint : List Append :=
  [(.checkpoint, 1700000000000), (.put [97] [49], 1700000000000)]

/-- The put after the checkpoint is synced, is the last entry, so that nothing supersedes
it, and is not replayed. -/
theorem put_after_checkpoint_lost :
    numbered 0 [putAfterCheckpoint].flatten =
        [⟨0, .checkpoint, 1700000000000⟩, ⟨1, .put [97] [49], 1700000000000⟩] ∧
      (∀ e ∈ numbered 0 [putAfterCheckpoint].flatten, Fits e) ∧
      ∃ file, sessions none [putAfterCheckpoint] = .ok (some file) ∧ replay (some file) = .ok ([], []) := by
  refine ⟨by decide, by decide, (framesOf (numbered 0 [putAfterCheckpoint].flatten)).flatten, ?_, ?_⟩
  · decide +kernel
  · decide +kernel

end MSearchDB.Storage.Wal
