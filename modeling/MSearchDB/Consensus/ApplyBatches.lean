import MSearchDB.Consensus.IndexMirror

/-!
# Batches of applied entries

`apply` commits the index of a collection once, after the last entry of a batch, and openraft
cuts a log into batches as it likes, differently on each replica. `apply_append` says that the
cut cannot be seen: a batch applied in two parts leaves the same state machine and gives the
same responses, over any storage, with the index of `IndexMirror`.

The proof runs the second part twice, before and after the commits of the first. `Lags` relates
the two indexes: what has been added is the same in both. What a search reads may differ in the
collections that wait for a commit; in those that only the first part has changed, the index
after the commits already shows what it has.
-/

set_option autoImplicit false

namespace MSearchDB.Consensus

open MSearchDB.Lib
open MSearchDB.Core

/-! ## Indexes before and after commits -/

/-- The entries of one collection without and with the commits of the collections `first`, where
those of `later` will be committed in both. -/
def LagsIn (first later : List String) (c : String) (e e' : IndexEntries) : Prop :=
  e'.current = e.current ∧
    (c ∉ later → (c ∈ first → e'.visible = e'.current) ∧ (c ∉ first → e'.visible = e.visible))

/-- The same for all collections. -/
def Lags (first later : List String) (i i' : MultisetIndex) : Prop :=
  ∀ c, Option.Rel (LagsIn first later c) (i.collections c) (i'.collections c)

namespace Lags

variable {first later : List String} {i i' : MultisetIndex}

theorem mono (h : Lags first later i i') {later' : List String} (hsub : later ⊆ later') :
    Lags first later' i i' := by
  intro c
  have hrel := h c
  generalize i.collections c = entry at hrel ⊢
  generalize i'.collections c = entry' at hrel ⊢
  cases hrel with
  | none => exact .none
  | some he => exact .some ⟨he.1, fun hc => he.2 fun hlater => hc (hsub hlater)⟩

/-- A change of what has been added to a collection that will be committed. -/
theorem modify (h : Lags first later i i') {c : String} (hc : c ∈ later) {f : IndexEntries → IndexEntries}
    (hf : ∀ e e' : IndexEntries, e'.current = e.current → (f e').current = (f e).current) :
    Lags first later (i.modify c f).2 (i'.modify c f).2 := by
  intro d
  rw [MultisetIndex.collections_modify, MultisetIndex.collections_modify]
  by_cases hd : d = c
  · rw [if_pos hd, if_pos hd]
    have hrel := h d
    generalize i.collections d = entry at hrel ⊢
    generalize i'.collections d = entry' at hrel ⊢
    cases hrel with
    | none => exact .none
    | some he => exact .some ⟨hf _ _ he.1, fun hnot => absurd (hd ▸ hc) hnot⟩
  · rw [if_neg hd, if_neg hd]
    exact h d

theorem index (h : Lags first later i i') {c : String} (hc : c ∈ later) (doc : Document)
    (mapping : FieldMapping) :
    Lags first later (IndexBackend.indexDocumentInCollection i c doc mapping).2
      (IndexBackend.indexDocumentInCollection i' c doc mapping).2 :=
  h.modify hc fun e e' he => by rw [IndexEntries.add, IndexEntries.add, he]

theorem delete (h : Lags first later i i') {c : String} (hc : c ∈ later) (id : DocumentId) :
    Lags first later (IndexBackend.deleteDocumentFromCollection i c id).2
      (IndexBackend.deleteDocumentFromCollection i' c id).2 :=
  h.modify hc fun e e' he => by rw [IndexEntries.remove, IndexEntries.remove, he]

/-- One collection gets the same entries in both, all of them committed. -/
theorem update (h : Lags first later i i') (c : String) {entry : Option IndexEntries}
    (hentry : ∀ e, entry = some e → e.visible = e.current) :
    Lags first later ⟨Function.update i.collections c entry⟩ ⟨Function.update i'.collections c entry⟩ := by
  intro d
  show Option.Rel _ (Function.update i.collections c entry d) (Function.update i'.collections c entry d)
  by_cases hd : d = c
  · rw [hd, Function.update_self, Function.update_self]
    cases entry with
    | none => exact .none
    | some e => exact .some ⟨rfl, fun _ => ⟨fun _ => hentry e rfl, fun _ => rfl⟩⟩
  · rw [Function.update_of_ne hd, Function.update_of_ne hd]
    exact h d

theorem create (h : Lags first later i i') (c : String) :
    Lags first later (IndexBackend.createCollectionIndex i c).2 (IndexBackend.createCollectionIndex i' c).2 := by
  have hrel := h c
  simp only [IndexBackend.createCollectionIndex]
  cases hc : i.collections c with
  | none =>
      rw [hc] at hrel
      generalize hc' : i'.collections c = entry' at hrel
      cases hrel
      refine h.update c fun e he => ?_
      rw [← Option.some.inj he]
      rfl
  | some e =>
      rw [hc] at hrel
      generalize hc' : i'.collections c = entry' at hrel
      cases hrel
      exact h

theorem drop (h : Lags first later i i') (c : String) :
    Lags first later (IndexBackend.dropCollectionIndex i c).2 (IndexBackend.dropCollectionIndex i' c).2 :=
  h.update c nofun

/-- The commits of the first part. -/
theorem start (i i' : MultisetIndex) (first : List String)
    (hcommits : ∀ c, i'.collections c =
      if c ∈ first then (i.collections c).map IndexEntries.commit else i.collections c) :
    Lags first [] i i' := by
  intro c
  rw [hcommits c]
  generalize i.collections c = entry
  cases entry with
  | none =>
      rw [Option.map_none, ite_self]
      exact .none
  | some e =>
      by_cases hc : c ∈ first
      · rw [if_pos hc]
        exact .some ⟨rfl, fun _ => ⟨fun _ => rfl, fun hnot => absurd hc hnot⟩⟩
      · rw [if_neg hc]
        exact .some ⟨rfl, fun _ => ⟨fun hin => absurd hin hc, fun _ => rfl⟩⟩

/-- The commits at the end make the indexes the same. -/
theorem eq_of_commits (h : Lags first later i i') {both : List String}
    (hboth : ∀ c, c ∈ both ↔ c ∈ first ∨ c ∈ later) (c : String) :
    (if c ∈ both then (i.collections c).map IndexEntries.commit else i.collections c) =
      if c ∈ later then (i'.collections c).map IndexEntries.commit else i'.collections c := by
  have hrel := h c
  generalize i.collections c = entry at hrel ⊢
  generalize i'.collections c = entry' at hrel ⊢
  cases hrel with
  | none => simp
  | @some e e' he =>
      obtain ⟨current, visible⟩ := e
      obtain ⟨current', visible'⟩ := e'
      obtain ⟨rfl, hvisible⟩ : current' = current ∧ _ := he
      by_cases hlater : c ∈ later
      · rw [if_pos hlater, if_pos ((hboth c).2 (.inr hlater))]
        rfl
      · rw [if_neg hlater]
        by_cases hfirst : c ∈ first
        · -- committed before, and not changed since
          obtain rfl : visible' = current' := (hvisible hlater).1 hfirst
          rw [if_pos ((hboth c).2 (.inl hfirst))]
          rfl
        · obtain rfl : visible' = visible := (hvisible hlater).2 hfirst
          rw [if_neg fun hin => ((hboth c).1 hin).elim hfirst hlater]

end Lags

/-! ## The second part -/

namespace DbStateMachine

variable {σ : Type} [StorageBackend σ]

/-- The second part of a batch on its way, alone after the commits of the first part (`acc'`) and
within the whole batch (`acc`). -/
structure Lagging (first : List String) (responses : List RaftResponse)
    (acc acc' : ApplyState σ MultisetIndex) : Prop where
  sm : acc'.sm = { acc.sm with index := acc'.sm.index }
  index : Lags first acc'.collectionsToCommit acc.sm.index acc'.sm.index
  responses : acc.responses = responses ++ acc'.responses
  commits : ∀ c, c ∈ acc.collectionsToCommit ↔ c ∈ first ∨ c ∈ acc'.collectionsToCommit

variable {first later : List String} {sm : DbStateMachine σ MultisetIndex} {i' : MultisetIndex}

/-- The same result, and an index that lags still. -/
def Agree {α : Type} (first later : List String) (r r' : α × DbStateMachine σ MultisetIndex) : Prop :=
  ∃ j', Lags first later r.2.index j' ∧ r' = (r.1, { r.2 with index := j' })

theorem agree_putAndIndex (h : Lags first later sm.index i') {c : String} (hc : c ∈ later) (doc : Document) :
    Agree first later (sm.putAndIndex c doc) ({ sm with index := i' }.putAndIndex c doc) := by
  simp only [putAndIndex]
  cases StorageBackend.putInCollection sm.storage c doc with
  | mk result storage =>
      cases result with
      | error e => exact ⟨i', h, rfl⟩
      | ok _ => exact ⟨_, h.index hc doc FieldMapping.new, rfl⟩

theorem agree_batchStep {c : String} (hc : c ∈ later) (documents : List Document) :
    ∀ (sm : DbStateMachine σ MultisetIndex) (i' : MultisetIndex) (n : Nat), Lags first later sm.index i' →
      ∃ j', Lags first later (documents.foldl (batchStep c) (sm, n)).1.index j' ∧
        documents.foldl (batchStep c) ({ sm with index := i' }, n) =
          ({ (documents.foldl (batchStep c) (sm, n)).1 with index := j' },
            (documents.foldl (batchStep c) (sm, n)).2) := by
  induction documents with
  | nil => exact fun sm i' n h => ⟨i', h, rfl⟩
  | cons doc documents ih =>
      intro sm i' n h
      obtain ⟨j', hj, hput⟩ := agree_putAndIndex h hc doc
      rw [List.foldl_cons, List.foldl_cons, batchStep, batchStep, hput]
      generalize sm.putAndIndex c doc = stored at hj ⊢
      obtain ⟨result, sm'⟩ := stored
      cases result with
      | error e => exact ih sm' j' n hj
      | ok _ => exact ih sm' j' (n + 1) hj

/-- **One command on both indexes.** -/
theorem agree_applyCommand (sm : DbStateMachine σ MultisetIndex) (h : Lags first later sm.index i')
    (cmd : RaftCommand) (hcmd : ∀ c, commitTarget cmd = some c → c ∈ later) :
    Agree first later (sm.applyCommand cmd) ({ sm with index := i' }.applyCommand cmd) := by
  cases cmd with
  | insertDocument c doc =>
      obtain ⟨j', hj, hput⟩ := agree_putAndIndex h (hcmd c rfl) doc
      simp only [applyCommand]
      rw [hput]
      generalize sm.putAndIndex c doc = stored at hj ⊢
      obtain ⟨result, sm'⟩ := stored
      cases result with
      | error e => exact ⟨j', hj, rfl⟩
      | ok _ => exact ⟨j', hj, rfl⟩
  | deleteDocument c id =>
      simp only [applyCommand]
      cases StorageBackend.deleteFromCollection sm.storage c id with
      | mk result storage =>
          cases result with
          | error e => exact ⟨i', h, rfl⟩
          | ok _ => exact ⟨_, h.delete (hcmd c rfl) id, rfl⟩
  | updateDocument c doc =>
      -- the old version is deleted from the index before the new one is added
      simp only [applyCommand]
      cases StorageBackend.putInCollection sm.storage c doc with
      | mk result storage =>
          cases result with
          | error e => exact ⟨i', h, rfl⟩
          | ok _ =>
              exact ⟨_, (h.delete (hcmd c rfl) doc.id).index (hcmd c rfl) doc FieldMapping.new, rfl⟩
  | createCollection c schema =>
      simp only [applyCommand]
      cases StorageBackend.createCollection sm.storage c with
      | mk result storage =>
          cases result with
          | error e => exact ⟨i', h, rfl⟩
          | ok _ => exact ⟨_, h.create c, rfl⟩
  | deleteCollection c => exact ⟨_, h.drop c, rfl⟩
  | batchInsert c documents =>
      obtain ⟨j', hj, hloop⟩ := agree_batchStep (hcmd c rfl) documents sm i' 0 h
      simp only [applyCommand]
      rw [hloop]
      generalize documents.foldl (batchStep c) (sm, 0) = stored at hj ⊢
      obtain ⟨sm', n⟩ := stored
      dsimp only
      split
      · exact ⟨j', hj, rfl⟩
      · split
        · exact ⟨j', hj, rfl⟩
        · exact ⟨j', hj, rfl⟩
  | createAlias _ _ => exact ⟨i', h, rfl⟩
  | deleteAlias _ => exact ⟨i', h, rfl⟩

/-- The collections that the second part leaves to commit, alone and in the whole batch. -/
theorem mem_commits_iff {both : List String} (h : ∀ c, c ∈ both ↔ c ∈ first ∨ c ∈ later) (target : String)
    (c : String) :
    (c ∈ if target ∈ both then both else both ++ [target]) ↔
      c ∈ first ∨ c ∈ if target ∈ later then later else later ++ [target] := by
  have hadd : ∀ cs : List String, (c ∈ if target ∈ cs then cs else cs ++ [target]) ↔ c ∈ cs ∨ c = target := by
    intro cs
    split
    · rename_i hin
      refine ⟨.inl, ?_⟩
      rintro (hc | rfl)
      · exact hc
      · exact hin
    · rw [List.mem_append, List.mem_singleton]
  rw [hadd, hadd, h, or_assoc]

/-- **One entry of the second part.** -/
theorem Lagging.applyEntry {responses : List RaftResponse} {acc acc' : ApplyState σ MultisetIndex}
    (h : Lagging first responses acc acc') (entry : Entry) :
    Lagging first responses (applyEntry acc entry) (applyEntry acc' entry) := by
  obtain ⟨sm, rs, cs⟩ := acc
  obtain ⟨sm', rs', cs'⟩ := acc'
  obtain ⟨hsm, hindex, hresponses, hcommits⟩ := h
  dsimp only at hsm hindex hresponses hcommits
  generalize sm'.index = i' at hsm hindex
  subst hsm
  simp only [DbStateMachine.applyEntry]
  cases entry.payload with
  | blank => exact ⟨rfl, hindex, by rw [hresponses, List.append_assoc], hcommits⟩
  | membership mem => exact ⟨rfl, hindex, by rw [hresponses, List.append_assoc], hcommits⟩
  | normal cmd =>
      dsimp only
      cases htarget : commitTarget cmd with
      | none =>
          obtain ⟨j', hj, hcmd⟩ := agree_applyCommand { sm with lastAppliedLog := some entry.logId }
            hindex cmd (by rw [htarget]; rintro d ⟨⟩)
          dsimp only at hcmd
          simp only [hcmd]
          exact ⟨rfl, hj, by rw [hresponses, List.append_assoc], hcommits⟩
      | some c =>
          have hin : c ∈ if c ∈ cs' then cs' else cs' ++ [c] := by
            split
            · assumption
            · exact List.mem_append_right _ (List.mem_singleton_self c)
          have hsub : cs' ⊆ if c ∈ cs' then cs' else cs' ++ [c] := by
            split
            · exact List.Subset.refl _
            · exact List.subset_append_left _ _
          obtain ⟨j', hj, hcmd⟩ := agree_applyCommand { sm with lastAppliedLog := some entry.logId }
            (hindex.mono hsub) cmd (by rw [htarget]; rintro d ⟨⟩; exact hin)
          dsimp only at hcmd
          simp only [hcmd]
          exact ⟨rfl, hj, by rw [hresponses, List.append_assoc], mem_commits_iff hcommits c⟩

theorem Lagging.foldl {responses : List RaftResponse} (entries : List Entry) :
    ∀ {acc acc' : ApplyState σ MultisetIndex}, Lagging first responses acc acc' →
      Lagging first responses (entries.foldl DbStateMachine.applyEntry acc)
        (entries.foldl DbStateMachine.applyEntry acc') := by
  induction entries with
  | nil => exact fun h => h
  | cons entry entries ih => exact fun h => ih (h.applyEntry entry)

omit [StorageBackend σ] in
/-- The commits touch the index alone. -/
theorem foldl_commitIndexOf_eq (collections : List String) (sm : DbStateMachine σ MultisetIndex) :
    collections.foldl commitIndexOf sm =
      { sm with index := ⟨fun c => if c ∈ collections then (sm.index.collections c).map IndexEntries.commit
          else sm.index.collections c⟩ } := by
  have hindex : (collections.foldl commitIndexOf sm).index =
      ⟨fun c => if c ∈ collections then (sm.index.collections c).map IndexEntries.commit
        else sm.index.collections c⟩ := by
    have hcollections := funext fun c => collections_foldl_commitIndexOf c collections sm
    generalize collections.foldl commitIndexOf sm = sm' at hcollections ⊢
    rw [← hcollections]
  have hrest : ∀ (cs : List String) (sm : DbStateMachine σ MultisetIndex),
      cs.foldl commitIndexOf sm = { sm with index := (cs.foldl commitIndexOf sm).index } := by
    intro cs
    induction cs with
    | nil => exact fun sm => rfl
    | cons c cs ih => exact fun sm => ih (commitIndexOf sm c)
  rw [hrest, hindex]

theorem length_responses (entries : List Entry) :
    ∀ acc : ApplyState σ MultisetIndex, (entries.foldl DbStateMachine.applyEntry acc).responses.length =
      acc.responses.length + entries.length := by
  induction entries with
  | nil => exact fun acc => rfl
  | cons entry entries ih =>
      intro acc
      have hone : (DbStateMachine.applyEntry acc entry).responses.length = acc.responses.length + 1 := by
        simp only [DbStateMachine.applyEntry]
        cases entry.payload with
        | blank => simp
        | membership mem => simp
        | normal cmd => simp
      rw [List.foldl_cons, ih, hone, List.length_cons]
      omega

/-- A batch in two parts. -/
theorem apply_parts (sm : DbStateMachine σ MultisetIndex) (xs ys : List Entry) :
    sm.apply (xs ++ ys) =
      ((sm.apply xs).1 ++ ((sm.apply xs).2.apply ys).1, ((sm.apply xs).2.apply ys).2) := by
  simp only [apply, List.foldl_append]
  generalize xs.foldl DbStateMachine.applyEntry ⟨sm, [], []⟩ = acc
  have hstart : Lagging acc.collectionsToCommit acc.responses acc
      ⟨acc.collectionsToCommit.foldl commitIndexOf acc.sm, [], []⟩ := by
    rw [foldl_commitIndexOf_eq]
    exact ⟨rfl, Lags.start _ _ _ fun c => rfl, by simp, by simp⟩
  have hend := hstart.foldl ys
  generalize ys.foldl DbStateMachine.applyEntry acc = whole at hend ⊢
  generalize ys.foldl DbStateMachine.applyEntry
    ⟨acc.collectionsToCommit.foldl commitIndexOf acc.sm, [], []⟩ = second at hend ⊢
  rw [hend.responses, foldl_commitIndexOf_eq, foldl_commitIndexOf_eq, hend.sm]
  have hindex := funext (hend.index.eq_of_commits hend.commits)
  simp only [hindex]

/-- **Batches cannot be seen.** Entries applied in two batches leave the state machine as one
batch does, and give its responses, one for each entry. -/
theorem apply_append (sm : DbStateMachine σ MultisetIndex) (xs ys : List Entry) :
    let whole := sm.apply (xs ++ ys)
    let first := sm.apply xs
    let second := first.2.apply ys
    whole.1 = first.1 ++ second.1 ∧ whole.1.length = (xs ++ ys).length ∧
      first.1.length = xs.length ∧ second.1.length = ys.length ∧
      whole.2.storage = second.2.storage ∧
      (∀ c, whole.2.index.visible c = second.2.index.visible c) ∧
      whole.2.lastAppliedLog = second.2.lastAppliedLog ∧
      whole.2.lastMembership = second.2.lastMembership ∧ whole.2 = second.2 := by
  intro whole first second
  have hlength : ∀ (sm : DbStateMachine σ MultisetIndex) (entries : List Entry),
      (sm.apply entries).1.length = entries.length := by
    intro sm entries
    rw [apply, length_responses, List.length_nil, Nat.zero_add]
  have hparts : whole = (first.1 ++ second.1, second.2) := apply_parts sm xs ys
  have hsm : whole.2 = second.2 := by rw [hparts]
  refine ⟨by rw [hparts], hlength _ _, hlength _ _, hlength _ _, ?_⟩
  rw [hsm]
  exact ⟨rfl, fun _ => rfl, rfl, rfl, rfl⟩

/-- **Any batches.** However a log is cut, the state machine is that of the log in one batch. -/
theorem applyBatches_eq (batches : List (List Entry)) (sm : DbStateMachine σ MultisetIndex) :
    sm.applyBatches batches = (sm.apply batches.flatten).2 := by
  induction batches generalizing sm with
  | nil => rfl
  | cons entries batches ih =>
      rw [List.flatten_cons, apply_parts, ← ih]
      rfl

end DbStateMachine

end MSearchDB.Consensus
