import Mathlib.Tactic

/-!
# Logs of writes to a map

A write puts or deletes one key. Executing a log of writes leaves at each key
the outcome of the last write of the log to that key, and the old value where
the log has none (`execAll_apply`). Hence a log may be executed twice
(`execAll_execAll`), and it may be split into its puts and its deletes when the
kind executed first never has the last word on a key of the other kind
(`execAll_puts_deletes_iff`, `execAll_deletes_puts_iff`).

A slot is a map that can be created and dropped as a whole. `SlotOp.runAll_runAll`
extends the replay result to logs of slot operations in which every write comes
after a creation: creations keep an existing map, drops discard it, and writes
to a missing map do nothing. A pass may also start from what interrupted passes over
the same log have left (`SlotOp.runAll_eq_of_absorbs`).
-/

set_option autoImplicit false

namespace MSearchDB.Lib

universe u v

variable {κ : Type u} {ν : Type v}

/-- One write to a map from `κ` to `ν`. -/
inductive Write (κ : Type u) (ν : Type v) where
  | put (k : κ) (v : ν)
  | delete (k : κ)
  deriving DecidableEq, Repr

namespace Write

/-- The key a write is about. -/
def key : Write κ ν → κ
  | put k _ => k
  | delete k => k

/-- What a write leaves at its key. -/
def outcome : Write κ ν → Option ν
  | put _ v => some v
  | delete _ => none

/-- The write is a put. -/
def isPut : Write κ ν → Bool
  | put _ _ => true
  | delete _ => false

@[simp] theorem isPut_put (k : κ) (v : ν) : (put k v).isPut = true := rfl

@[simp] theorem isPut_delete (k : κ) : (delete k : Write κ ν).isPut = false := rfl

/-- A put and a delete leave different outcomes. -/
theorem outcome_ne (w w' : Write κ ν) (hw : w.isPut = true) (hw' : w'.isPut = false) :
    w.outcome ≠ w'.outcome := by
  cases w with
  | delete k => simp at hw
  | put k v =>
      cases w' with
      | put k' v' => simp at hw'
      | delete k' => exact nofun

section Exec

variable [DecidableEq κ]

/-- Execute one write. -/
def exec (m : κ → Option ν) (w : Write κ ν) : κ → Option ν :=
  Function.update m w.key w.outcome

/-- Execute a log, oldest write first. -/
def execAll (m : κ → Option ν) (ws : List (Write κ ν)) : κ → Option ν :=
  ws.foldl exec m

/-- The last write of a log to the key `k`. -/
def lastTo (k : κ) (ws : List (Write κ ν)) : Option (Write κ ν) :=
  (ws.filter fun w => w.key = k).getLast?

@[simp] theorem execAll_nil (m : κ → Option ν) : execAll m [] = m := rfl

@[simp] theorem execAll_cons (m : κ → Option ν) (w : Write κ ν) (ws : List (Write κ ν)) :
    execAll m (w :: ws) = execAll (exec m w) ws := rfl

theorem execAll_append (m : κ → Option ν) (xs ys : List (Write κ ν)) :
    execAll m (xs ++ ys) = execAll (execAll m xs) ys :=
  List.foldl_append

theorem lastTo_append (k : κ) (xs ys : List (Write κ ν)) :
    lastTo k (xs ++ ys) = (lastTo k ys).or (lastTo k xs) := by
  simp [lastTo, List.getLast?_append]

theorem lastTo_singleton_self (w : Write κ ν) : lastTo w.key [w] = some w := by
  simp [lastTo]

theorem lastTo_singleton_of_ne {k : κ} {w : Write κ ν} (h : w.key ≠ k) :
    lastTo k [w] = none := by
  simp [lastTo, h]

theorem lastTo_eq_none_iff {k : κ} {ws : List (Write κ ν)} :
    lastTo k ws = none ↔ ∀ w ∈ ws, w.key ≠ k := by
  simp [lastTo]

theorem mem_of_lastTo {k : κ} {ws : List (Write κ ν)} {w : Write κ ν}
    (h : lastTo k ws = some w) : w ∈ ws ∧ w.key = k := by
  simpa using List.mem_filter.1 (List.mem_of_getLast? h)

theorem lastTo_of_mem {k : κ} {ws : List (Write κ ν)} {w : Write κ ν} (h : w ∈ ws)
    (hk : w.key = k) : ∃ w', lastTo k ws = some w' := by
  cases hlast : lastTo k ws with
  | none => exact absurd hk (lastTo_eq_none_iff.1 hlast w h)
  | some w' => exact ⟨w', rfl⟩

/-- **Last writer.** Executing a log leaves at `k` the outcome of its last write
to `k`. -/
theorem execAll_apply (m : κ → Option ν) (ws : List (Write κ ν)) (k : κ) :
    execAll m ws k = match lastTo k ws with
      | some w => w.outcome
      | none => m k := by
  -- induction from the end of the log: the last write decides its own key alone
  induction ws using List.reverseRecOn with
  | nil => simp [lastTo]
  | append_singleton ws w ih =>
      rw [execAll_append, lastTo_append]
      show Function.update (execAll m ws) w.key w.outcome k = _
      by_cases hk : w.key = k
      · subst hk
        rw [Function.update_self, lastTo_singleton_self, Option.some_or]
      · rw [Function.update_of_ne (Ne.symm hk), lastTo_singleton_of_ne hk, Option.none_or, ih]

/-- A property of the last write to `k` lets it survive a filter. -/
theorem lastTo_filter {k : κ} {ws : List (Write κ ν)} {w : Write κ ν} {p : Write κ ν → Bool}
    (h : lastTo k ws = some w) (hp : p w = true) : lastTo k (ws.filter p) = some w := by
  obtain ⟨l, hl⟩ := List.getLast?_eq_some_iff.1 h
  rw [lastTo, List.filter_comm, hl, List.filter_append, List.filter_singleton, hp]
  simp

/-- A log split by a property of its writes: the second part decides the keys it
writes to, and the other keys are as in the whole log. -/
theorem execAll_filter_append (p : Write κ ν → Bool) (m : κ → Option ν) (ws : List (Write κ ν))
    (k : κ) :
    execAll m (ws.filter p ++ ws.filter fun w => !p w) k =
      match lastTo k (ws.filter fun w => !p w) with
      | some w => w.outcome
      | none => execAll m ws k := by
  rw [execAll_apply, lastTo_append]
  cases hsecond : lastTo k (ws.filter fun w => !p w) with
  | some w => rfl
  | none =>
      rw [Option.none_or, execAll_apply]
      cases hlast : lastTo k ws with
      | none =>
          have hfirst : lastTo k (ws.filter p) = none := by
            rw [lastTo_eq_none_iff] at hlast ⊢
            exact fun w hw => hlast w (List.mem_of_mem_filter hw)
          rw [hfirst]
      | some w =>
          -- the last write to `k` has the property, or it would be in the second part
          have hp : p w = true := by
            by_contra hp
            obtain ⟨hw, hkey⟩ := mem_of_lastTo hlast
            have hmem : w ∈ ws.filter fun w => !p w := List.mem_filter.2 ⟨hw, by simpa using hp⟩
            exact lastTo_eq_none_iff.1 hsecond w hmem hkey
          rw [lastTo_filter hlast hp]

/-- A log may be split by a property that tells outcomes apart exactly when every
key of the second part has its last write there. -/
theorem execAll_filter_append_iff {p : Write κ ν → Bool}
    (hp : ∀ w w', p w = true → p w' = false → w.outcome ≠ w'.outcome) (m : κ → Option ν)
    (ws : List (Write κ ν)) :
    execAll m (ws.filter p ++ ws.filter fun w => !p w) = execAll m ws ↔
      ∀ w ∈ ws, p w = false → ∃ w', lastTo w.key ws = some w' ∧ p w' = false := by
  constructor
  · intro h w hw hpw
    have hmem : w ∈ ws.filter fun w => !p w := List.mem_filter.2 ⟨hw, by simp [hpw]⟩
    obtain ⟨u, hu⟩ := lastTo_of_mem hmem rfl
    obtain ⟨w', hw'⟩ := lastTo_of_mem hw rfl
    refine ⟨w', hw', ?_⟩
    by_contra hlast
    -- the split log leaves the outcome of `u` at the key, the whole log that of `w'`
    have hval := congrFun h w.key
    rw [execAll_filter_append, hu, execAll_apply, hw'] at hval
    obtain ⟨humem, -⟩ := mem_of_lastTo hu
    obtain ⟨-, hpu⟩ := List.mem_filter.1 humem
    exact hp w' u (by simpa using hlast) (by simpa using hpu) hval.symm
  · intro h
    funext k
    rw [execAll_filter_append]
    cases hsecond : lastTo k (ws.filter fun w => !p w) with
    | none => rfl
    | some u =>
        obtain ⟨humem, rfl⟩ := mem_of_lastTo hsecond
        obtain ⟨hu, hpu⟩ := List.mem_filter.1 humem
        obtain ⟨w', hw', hpw'⟩ := h u hu (by simpa using hpu)
        -- the last write of the whole log is the last one of the second part
        have hsame := lastTo_filter (p := fun w => !p w) hw' (by simp [hpw'])
        rw [hsecond] at hsame
        rw [execAll_apply, hw', Option.some.inj hsame]

/-- **Puts first.** A log may be split into its puts, executed first, and its
deletes exactly when every deleted key ends deleted. -/
theorem execAll_puts_deletes_iff (m : κ → Option ν) (ws : List (Write κ ν)) :
    execAll m (ws.filter isPut ++ ws.filter fun w => !isPut w) = execAll m ws ↔
      ∀ k, delete k ∈ ws → lastTo k ws = some (delete k) := by
  rw [execAll_filter_append_iff outcome_ne]
  constructor
  · intro h k hk
    obtain ⟨w', hw', hput⟩ := h (delete k) hk rfl
    cases w' with
    | put k' v => simp at hput
    | delete k' =>
        obtain ⟨-, rfl⟩ := mem_of_lastTo hw'
        exact hw'
  · intro h w hw hput
    cases w with
    | put k v => simp at hput
    | delete k => exact ⟨delete k, h k hw, rfl⟩

/-- **Deletes first.** A log may be split into its deletes, executed first, and
its puts exactly when every key that is put ends put. -/
theorem execAll_deletes_puts_iff (m : κ → Option ν) (ws : List (Write κ ν)) :
    execAll m ((ws.filter fun w => !isPut w) ++ ws.filter isPut) = execAll m ws ↔
      ∀ k v, put k v ∈ ws → ∃ v', lastTo k ws = some (put k v') := by
  have hsplit := execAll_filter_append_iff (p := fun w : Write κ ν => !isPut w)
    (fun w w' hw hw' => (outcome_ne w' w (by simpa using hw') (by simpa using hw)).symm) m ws
  simp only [Bool.not_not, Bool.not_eq_false'] at hsplit
  rw [hsplit]
  constructor
  · intro h k v hk
    obtain ⟨w', hw', hput⟩ := h (put k v) hk rfl
    cases w' with
    | delete k' => simp at hput
    | put k' v' =>
        obtain ⟨-, rfl⟩ := mem_of_lastTo hw'
        exact ⟨v', hw'⟩
  · intro h w hw hput
    cases w with
    | delete k => simp at hput
    | put k v =>
        obtain ⟨v', hv'⟩ := h k v hw
        exact ⟨put k v', hv', rfl⟩

/-- A log may be executed a second time. -/
theorem execAll_execAll (m : κ → Option ν) (ws : List (Write κ ν)) :
    execAll (execAll m ws) ws = execAll m ws := by
  funext k
  rw [execAll_apply (execAll m ws), execAll_apply m]
  cases lastTo k ws with
  | none => rfl
  | some w => rfl

end Exec

end Write

/-- One operation on a map that can be created and dropped. -/
inductive SlotOp (κ : Type u) (ν : Type v) where
  | create
  | drop
  | write (w : Write κ ν)
  deriving DecidableEq, Repr

namespace SlotOp

/-- The write an operation makes, if it is one. -/
def write? : SlotOp κ ν → Option (Write κ ν)
  | create => none
  | drop => none
  | write w => some w

/-- Every write of the log comes after a creation. -/
def Covered (ops : List (SlotOp κ ν)) : Prop :=
  ∀ pre w post, ops = pre ++ write w :: post → create ∈ pre

theorem covered_nil : Covered ([] : List (SlotOp κ ν)) := by
  intro pre w post h
  simp at h

theorem Covered.append {xs ys : List (SlotOp κ ν)} (h : Covered xs)
    (hys : ∀ w, write w ∈ ys → create ∈ xs) : Covered (xs ++ ys) := by
  intro pre w post hsplit
  rcases List.append_eq_append_iff.1 hsplit with ⟨zs, rfl, hzs⟩ | ⟨zs, hxs, hzs⟩
  · -- the write stands in `ys`
    exact List.mem_append_left _ (hys w (by rw [hzs]; simp))
  · cases zs with
    | nil =>
        -- the write is the first of `ys`
        rw [List.append_nil] at hxs
        rw [← hxs]
        exact hys w (by rw [← List.nil_append ys, ← hzs]; simp)
    | cons z zs =>
        rw [List.cons_append, List.cons.injEq] at hzs
        exact h pre w zs (by rw [hxs, hzs.1])

variable [DecidableEq κ]

/-- Run one operation; `none` is a missing map. -/
def run : Option (κ → Option ν) → SlotOp κ ν → Option (κ → Option ν)
  | none, create => some fun _ => none
  | some m, create => some m
  | _, drop => none
  | m, write w => m.map fun m => Write.exec m w

/-- Run a log of operations, oldest first. -/
def runAll (m : Option (κ → Option ν)) (ops : List (SlotOp κ ν)) : Option (κ → Option ν) :=
  ops.foldl run m

@[simp] theorem runAll_nil (m : Option (κ → Option ν)) : runAll m [] = m := rfl

@[simp] theorem runAll_cons (m : Option (κ → Option ν)) (op : SlotOp κ ν)
    (ops : List (SlotOp κ ν)) : runAll m (op :: ops) = runAll (run m op) ops := rfl

theorem runAll_append (m : Option (κ → Option ν)) (xs ys : List (SlotOp κ ν)) :
    runAll m (xs ++ ys) = runAll (runAll m xs) ys :=
  List.foldl_append

@[simp] theorem isSome_run_write (m : Option (κ → Option ν)) (w : Write κ ν) :
    (run m (write w)).isSome = m.isSome := by
  cases m <;> rfl

/-- After a drop the past is forgotten. -/
theorem runAll_of_drop_mem {ops : List (SlotOp κ ν)} (h : drop ∈ ops)
    (m m' : Option (κ → Option ν)) : runAll m ops = runAll m' ops := by
  obtain ⟨xs, ys, rfl⟩ := List.append_of_mem h
  -- the two runs agree from the drop on
  rw [runAll_append, runAll_append, runAll_cons, runAll_cons]
  cases runAll m xs <;> cases runAll m' xs <;> rfl

/-- Without a drop an existing map only sees the writes. -/
theorem runAll_some_of_drop_not_mem :
    ∀ (ops : List (SlotOp κ ν)) (m : κ → Option ν), drop ∉ ops →
      runAll (some m) ops = some (Write.execAll m (ops.filterMap write?)) := by
  intro ops
  induction ops with
  | nil => intro m _; rfl
  | cons op ops ih =>
      intro m h
      have hops : drop ∉ ops := fun hm => h (List.mem_cons_of_mem _ hm)
      cases op with
      | create =>
          rw [runAll_cons, List.filterMap_cons_none rfl]
          exact ih m hops
      | drop => simp at h
      | write w =>
          have hw : write? (write w) = some w := rfl
          rw [runAll_cons, List.filterMap_cons_some hw]
          exact ih (Write.exec m w) hops

/-- A missing map stays missing when nothing creates it. -/
theorem runAll_none_of_create_not_mem :
    ∀ ops : List (SlotOp κ ν), create ∉ ops → runAll (none : Option (κ → Option ν)) ops = none := by
  intro ops
  induction ops with
  | nil => intro _; rfl
  | cons op ops ih =>
      intro h
      have hops : create ∉ ops := fun hm => h (List.mem_cons_of_mem _ hm)
      cases op with
      | create => simp at h
      | drop => exact ih hops
      | write w => exact ih hops

/-- **Replay.** A log whose writes all come after a creation, run a second time
over its own result, changes nothing. -/
theorem runAll_runAll {ops : List (SlotOp κ ν)} (hcov : Covered ops) :
    runAll (runAll none ops) ops = runAll none ops := by
  by_cases hdrop : drop ∈ ops
  · exact runAll_of_drop_mem hdrop _ _
  · cases ops with
    | nil => rfl
    | cons op rest =>
        cases op with
        | drop => simp at hdrop
        | write w =>
            -- nothing stands in front of this write
            have h := hcov [] w rest rfl
            simp at h
        | create =>
            -- both passes see an existing map and execute the same writes
            have hrest : drop ∉ rest := fun hm => hdrop (List.mem_cons_of_mem _ hm)
            have hrun : ∀ m : κ → Option ν, runAll (some m) (create :: rest) =
                some (Write.execAll m (rest.filterMap write?)) := by
              intro m
              rw [runAll_cons]
              exact runAll_some_of_drop_not_mem rest m hrest
            have hfirst : runAll none (create :: rest) =
                some (Write.execAll (fun _ => none) (rest.filterMap write?)) :=
              runAll_some_of_drop_not_mem rest _ hrest
            rw [hfirst, hrun, Write.execAll_execAll]

/-! ## Interrupted runs -/

/-- A full pass over the log settles everything the slot holds: the log drops the slot,
or creates it and writes every key that has a value. -/
def Absorbs (ops : List (SlotOp κ ν)) (m : Option (κ → Option ν)) : Prop :=
  drop ∉ ops → ∀ f, m = some f → create ∈ ops ∧ ∀ k, f k ≠ none → ∃ w, write w ∈ ops ∧ w.key = k

omit [DecidableEq κ] in
theorem absorbs_none (ops : List (SlotOp κ ν)) : Absorbs ops none :=
  fun _ _ h => nomatch h

omit [DecidableEq κ] in
/-- A longer log settles more. -/
theorem Absorbs.mono {ops ops' : List (SlotOp κ ν)} {m : Option (κ → Option ν)} (h : Absorbs ops m)
    (hsub : ops ⊆ ops') : Absorbs ops' m := by
  intro hdrop f hf
  obtain ⟨hcreate, hkeys⟩ := h (fun hmem => hdrop (hsub hmem)) f hf
  refine ⟨hsub hcreate, fun k hk => ?_⟩
  obtain ⟨w, hw, hkey⟩ := hkeys k hk
  exact ⟨w, hsub hw, hkey⟩

/-- An operation of the log leaves nothing that the log does not settle. -/
theorem Absorbs.run {ops : List (SlotOp κ ν)} {m : Option (κ → Option ν)} (h : Absorbs ops m)
    {op : SlotOp κ ν} (hop : op ∈ ops) : Absorbs ops (run m op) := by
  intro hdrop f hf
  cases op with
  | drop => exact absurd hop hdrop
  | create =>
      cases m with
      | none =>
          -- a new map has no keys
          cases hf
          exact ⟨hop, fun k hk => absurd rfl hk⟩
      | some g => exact h hdrop f hf
  | write w =>
      cases m with
      | none => cases hf
      | some g =>
          cases hf
          obtain ⟨hcreate, hkeys⟩ := h hdrop g rfl
          refine ⟨hcreate, fun k hk => ?_⟩
          by_cases hkey : w.key = k
          · exact ⟨w, hop, hkey⟩
          · have hval : Write.exec g w k = g k := Function.update_of_ne (Ne.symm hkey) _ _
            apply hkeys k
            rwa [← hval]

/-- However many operations of the log an interrupted pass has executed. -/
theorem Absorbs.runAll {ops : List (SlotOp κ ν)} (xs : List (SlotOp κ ν)) :
    ∀ {m : Option (κ → Option ν)}, Absorbs ops m → xs ⊆ ops → Absorbs ops (runAll m xs) := by
  induction xs with
  | nil => exact fun h _ => h
  | cons op xs ih =>
      intro m h hsub
      obtain ⟨hop, hxs⟩ := List.cons_subset.1 hsub
      exact ih (h.run hop) hxs

omit [DecidableEq κ] in
/-- Where nothing is dropped, a log that creates before it writes starts with a creation. -/
theorem Covered.exists_create_cons {ops : List (SlotOp κ ν)} (hcov : Covered ops) (hdrop : drop ∉ ops)
    (hcreate : create ∈ ops) : ∃ rest, ops = create :: rest := by
  cases ops with
  | nil => cases hcreate
  | cons op rest =>
      cases op with
      | create => exact ⟨rest, rfl⟩
      | drop => exact absurd List.mem_cons_self hdrop
      | write w => exact absurd (hcov [] w rest rfl) List.not_mem_nil

/-- **Replay after interruptions.** A full pass over a slot that the log settles leaves
what one pass over a missing slot leaves. -/
theorem runAll_eq_of_absorbs {ops : List (SlotOp κ ν)} {m : Option (κ → Option ν)}
    (h : Absorbs ops m) (hcov : create ∈ ops → Covered ops) : SlotOp.runAll m ops = SlotOp.runAll none ops := by
  by_cases hdrop : drop ∈ ops
  · exact runAll_of_drop_mem hdrop _ _
  · cases m with
    | none => rfl
    | some f =>
        obtain ⟨hcreate, hkeys⟩ := h hdrop f rfl
        obtain ⟨rest, rfl⟩ := (hcov hcreate).exists_create_cons hdrop hcreate
        have hrest : drop ∉ rest := fun hmem => hdrop (List.mem_cons_of_mem _ hmem)
        have hfresh : SlotOp.runAll none (create :: rest) =
            some (Write.execAll (fun _ => none) (rest.filterMap write?)) :=
          runAll_some_of_drop_not_mem rest _ hrest
        have hold : SlotOp.runAll (some f) (create :: rest) =
            some (Write.execAll f (rest.filterMap write?)) :=
          runAll_some_of_drop_not_mem rest _ hrest
        rw [hfresh, hold, Option.some_inj]
        -- a key without a write in the log has no value in `f` either
        funext k
        rw [Write.execAll_apply, Write.execAll_apply]
        cases hlast : Write.lastTo k (rest.filterMap write?) with
        | some w => rfl
        | none =>
            by_contra hk
            obtain ⟨w, hw, hkey⟩ := hkeys k hk
            have hmem : w ∈ rest.filterMap write? := by
              apply List.mem_filterMap.2
              rcases List.mem_cons.1 hw with heq | hw
              · cases heq
              · exact ⟨write w, hw, rfl⟩
            exact Write.lastTo_eq_none_iff.1 hlast w hmem hkey

end SlotOp

end MSearchDB.Lib
