import MSearchDB.Lib.WriteLog
import Mathlib.Data.Multiset.Filter

/-!
# A multiset that mirrors a map

An index beside a map holds the values again, as a multiset of entries with a key
each. It mirrors the map when it has one entry for every key of the map, the value
the map has there, and no others. Removing a key and adding a value under a key
that is not there keep the mirror (`Mirrors.remove`, `Mirrors.add`), and adding
values one after the other keeps it exactly when no key is there twice
(`mirrors_addAll_iff`).
-/

set_option autoImplicit false

namespace MSearchDB.Lib

universe u v

variable {κ : Type u} {ν : Type v} [DecidableEq κ] {key : ν → κ} {m : κ → Option ν} {e : Multiset ν}

/-- The entries for a key. -/
def entriesFor (key : ν → κ) (e : Multiset ν) (k : κ) : Multiset ν := e.filter fun v => key v = k

/-- One entry for every value of the map and no others. -/
def Mirrors (key : ν → κ) (m : κ → Option ν) (e : Multiset ν) : Prop :=
  ∀ k, entriesFor key e k = (m k).elim 0 fun v => {v}

theorem entriesFor_cons_self (v : ν) (e : Multiset ν) :
    entriesFor key (v ::ₘ e) (key v) = v ::ₘ entriesFor key e (key v) :=
  Multiset.filter_cons_of_pos (p := fun w => key w = key v) e rfl

theorem entriesFor_cons_of_ne {v : ν} {k : κ} (h : k ≠ key v) (e : Multiset ν) :
    entriesFor key (v ::ₘ e) k = entriesFor key e k :=
  Multiset.filter_cons_of_neg (p := fun w => key w = k) e fun hv => h hv.symm

theorem entriesFor_filter_self (e : Multiset ν) (k : κ) :
    entriesFor key (e.filter fun v => key v ≠ k) k = 0 := by
  rw [entriesFor, Multiset.filter_filter]
  simp

theorem entriesFor_filter_of_ne {k k' : κ} (h : k' ≠ k) (e : Multiset ν) :
    entriesFor key (e.filter fun v => key v ≠ k) k' = entriesFor key e k' := by
  rw [entriesFor, entriesFor, Multiset.filter_filter]
  refine Multiset.filter_congr fun v _ => ⟨fun hv => hv.1, fun hv => ⟨hv, ?_⟩⟩
  rw [hv]
  exact h

theorem mirrors_empty : Mirrors key (fun _ => none) 0 := fun _ => rfl

/-- All entries for a key are removed. -/
theorem Mirrors.remove (h : Mirrors key m e) (k : κ) :
    Mirrors key (Write.exec m (.delete k)) (e.filter fun v => key v ≠ k) := by
  intro k'
  by_cases hk : k' = k
  · subst hk
    rw [entriesFor_filter_self]
    simp [Write.exec, Write.key, Write.outcome]
  · rw [entriesFor_filter_of_ne hk, h k']
    simp [Write.exec, Write.key, hk]

/-- There is nothing to remove for a key that the map does not have. -/
theorem Mirrors.remove_of_none (h : Mirrors key m e) {k : κ} (hk : m k = none) :
    (e.filter fun v => key v ≠ k) = e := by
  refine Multiset.filter_eq_self.2 fun v hv heq => ?_
  have hmem : v ∈ entriesFor key e k := Multiset.mem_filter.2 ⟨hv, heq⟩
  rw [h k, hk] at hmem
  exact Multiset.notMem_zero v hmem

/-- An entry is added under a key that the map does not have. -/
theorem Mirrors.add (h : Mirrors key m e) {v : ν} (hfree : m (key v) = none) :
    Mirrors key (Write.exec m (.put (key v) v)) (v ::ₘ e) := by
  intro k
  by_cases hk : k = key v
  · subst hk
    rw [entriesFor_cons_self, h, hfree]
    simp [Write.exec, Write.key, Write.outcome]
  · rw [entriesFor_cons_of_ne hk, h k]
    simp [Write.exec, Write.key, hk]

/-- The old entry is removed before the new one is added. -/
theorem Mirrors.replace (h : Mirrors key m e) (v : ν) :
    Mirrors key (Write.exec m (.put (key v) v)) (v ::ₘ e.filter fun w => key w ≠ key v) := by
  have hadd := (h.remove (key v)).add (v := v) (by simp [Write.exec, Write.key, Write.outcome])
  simpa [Write.exec, Write.key, Write.outcome] using hadd

/-- Values written under their keys, one after the other. -/
def putAll (key : ν → κ) (m : κ → Option ν) (vs : List ν) : κ → Option ν :=
  Write.execAll m (vs.map fun v => .put (key v) v)

/-- The entries after values have been added one after the other. -/
def addAll (e : Multiset ν) (vs : List ν) : Multiset ν := vs.foldl (fun e v => v ::ₘ e) e

theorem putAll_cons (m : κ → Option ν) (v : ν) (vs : List ν) :
    putAll key m (v :: vs) = putAll key (Write.exec m (.put (key v) v)) vs := rfl

/-- A mirror has at most one entry for a key, and none for a key that is not there. -/
theorem Mirrors.card_eq (h : Mirrors key m e) (k : κ) :
    (entriesFor key e k).card = if (m k).isSome then 1 else 0 := by
  rw [h k]
  cases m k <;> rfl

theorem card_entriesFor_addAll (k : κ) (vs : List ν) :
    ∀ e : Multiset ν, (entriesFor key (addAll e vs) k).card =
      (entriesFor key e k).card + (vs.map key).count k := by
  induction vs with
  | nil => exact fun e => rfl
  | cons v vs ih =>
      intro e
      rw [addAll, List.foldl_cons, ← addAll, ih, List.map_cons, List.count_cons]
      by_cases hk : k = key v
      · subst hk
        simp [entriesFor_cons_self]
        omega
      · simp [entriesFor_cons_of_ne hk, Ne.symm hk]

/-- **Values added one after the other.** The mirror is kept exactly when the map
had none of their keys and no two of them share one. -/
theorem mirrors_addAll_iff (vs : List ν) :
    ∀ {m : κ → Option ν} {e : Multiset ν}, Mirrors key m e →
      (Mirrors key (putAll key m vs) (addAll e vs) ↔
        (∀ v ∈ vs, m (key v) = none) ∧ (vs.map key).Nodup) := by
  intro m e h
  constructor
  · intro hafter
    -- one entry at most is left for a key, so no key was there before or came twice
    have hcount : ∀ k, (if (m k).isSome then 1 else 0) + (vs.map key).count k ≤ 1 := by
      intro k
      rw [← h.card_eq, ← card_entriesFor_addAll, hafter.card_eq]
      split <;> omega
    refine ⟨fun v hv => ?_, List.nodup_iff_count_le_one.2 fun k => ?_⟩
    · have hpos : 0 < (vs.map key).count (key v) :=
        List.count_pos_iff.2 (List.mem_map_of_mem hv)
      have hle := hcount (key v)
      by_contra hused
      rw [if_pos (Option.isSome_iff_ne_none.2 hused)] at hle
      omega
    · have hle := hcount k
      omega
  · rintro ⟨hfree, hnodup⟩
    induction vs generalizing m e with
    | nil => exact h
    | cons v vs ih =>
        rw [List.map_cons, List.nodup_cons] at hnodup
        refine ih (h.add (hfree v List.mem_cons_self)) (fun w hw => ?_) hnodup.2
        have hne : key w ≠ key v := fun heq => hnodup.1 (heq ▸ List.mem_map_of_mem hw)
        simpa [Write.exec, Write.key, hne] using hfree w (List.mem_cons_of_mem _ hw)

end MSearchDB.Lib
