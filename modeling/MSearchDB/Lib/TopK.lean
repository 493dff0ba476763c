import Mathlib.Tactic

/-!
# The best members of a list

Members have a key and a score, and several may have the same key. `IsTop` says that a
list holds the `limit` best keys of another, each with its best member, in order;
`BestPerKey` that it holds a best member for every key. Lists of the same members may
hold different ones, but with the same scores (`BestPerKey.scores_perm`).

When the best of a part of a list are taken, they are the best of the list exactly where
the part holds enough of it (`isTop_iff_covers`): for every member of the list, a member
of the part with the same key is as good, or `limit` keys of the part are.
-/

set_option autoImplicit false

namespace MSearchDB.Lib

universe u v

variable {α : Type u} {κ : Type v} [DecidableEq κ] {key : α → κ} {score : α → Int} {limit : Nat}
  {all part result : List α}

/-- The `limit` best keys of a list, each with its best member, in order. -/
structure IsTop (key : α → κ) (score : α → Int) (limit : Nat) (all result : List α) : Prop where
  mem : ∀ x ∈ result, x ∈ all
  nodup : (result.map key).Nodup
  length : result.length = min limit (all.map key).dedup.length
  best : ∀ x ∈ result, ∀ z ∈ all, key z = key x → score z ≤ score x
  sorted : result.Pairwise fun x y => score y ≤ score x
  outside : ∀ z ∈ all, key z ∉ result.map key → ∀ x ∈ result, score z ≤ score x

/-- The part has `limit` keys with members as good as a score. -/
def Crowded (key : α → κ) (score : α → Int) (limit : Nat) (part : List α) (s : Int) : Prop :=
  ∃ better : List α, (∀ y ∈ better, y ∈ part ∧ s ≤ score y) ∧ (better.map key).Nodup ∧ better.length = limit

/-- The part holds enough of the list to find its best keys. -/
def Covers (key : α → κ) (score : α → Int) (limit : Nat) (part all : List α) : Prop :=
  ∀ z ∈ all, (∃ y ∈ part, key y = key z ∧ score z ≤ score y) ∨ Crowded key score limit part (score z)

theorem length_le_dedup {ks ls : List κ} (h : ks.Nodup) (hsub : ∀ k ∈ ks, k ∈ ls) :
    ks.length ≤ ls.dedup.length :=
  (h.subperm fun k hk => List.mem_dedup.2 (hsub k hk)).length_le

/-- Where `limit` keys are as good as a score, all of the best are. -/
theorem IsTop.le_of_crowded (h : IsTop key score limit part result) {s : Int}
    (hcrowd : Crowded key score limit part s) : result.length = limit ∧ ∀ x ∈ result, s ≤ score x := by
  obtain ⟨better, hbetter, hnodup, hlength⟩ := hcrowd
  have hids : limit ≤ (part.map key).dedup.length := by
    rw [← hlength, ← List.length_map key]
    refine length_le_dedup hnodup fun k hk => ?_
    obtain ⟨y, hy, rfl⟩ := List.mem_map.1 hk
    exact List.mem_map_of_mem (hbetter y hy).1
  have hfull : result.length = limit := by
    rw [h.length, Nat.min_eq_left hids]
  refine ⟨hfull, fun x hx => ?_⟩
  by_contra hlt
  -- the better keys are all in the result, and so is the key of `x`
  have hmem : ∀ y ∈ better, key y ∈ result.map key := by
    intro y hy
    by_contra hout
    have := h.outside y (hbetter y hy).1 hout x hx
    have := (hbetter y hy).2
    omega
  have hne : key x ∉ better.map key := by
    intro hmemx
    obtain ⟨y, hy, hid⟩ := List.mem_map.1 hmemx
    have := h.best x hx y (hbetter y hy).1 hid
    have := (hbetter y hy).2
    omega
  have hcons : (key x :: better.map key).Nodup := List.nodup_cons.2 ⟨hne, hnodup⟩
  have hsub : key x :: better.map key ⊆ result.map key := by
    intro k hk
    rcases List.mem_cons.1 hk with rfl | hk
    · exact List.mem_map_of_mem hx
    · obtain ⟨y, hy, rfl⟩ := List.mem_map.1 hk
      exact hmem y hy
  have hle := (hcons.subperm hsub).length_le
  rw [List.length_cons, List.length_map, List.length_map] at hle
  omega

/-- The best of a part that holds enough are the best. -/
theorem IsTop.of_covers (h : IsTop key score limit part result) (hpart : ∀ y ∈ part, y ∈ all)
    (hcovers : Covers key score limit part all) : IsTop key score limit all result where
  mem x hx := hpart x (h.mem x hx)
  nodup := h.nodup
  length := by
    have hle : (part.map key).dedup.length ≤ (all.map key).dedup.length := by
      refine length_le_dedup (List.nodup_dedup _) fun k hk => ?_
      obtain ⟨y, hy, rfl⟩ := List.mem_map.1 (List.mem_dedup.1 hk)
      exact List.mem_map_of_mem (hpart y hy)
    by_cases hids : ∀ z ∈ all, key z ∈ part.map key
    · have hge : (all.map key).dedup.length ≤ (part.map key).dedup.length := by
        refine length_le_dedup (List.nodup_dedup _) fun k hk => ?_
        obtain ⟨z, hz, rfl⟩ := List.mem_map.1 (List.mem_dedup.1 hk)
        exact hids z hz
      rw [h.length, Nat.le_antisymm hle hge]
    · push Not at hids
      obtain ⟨z, hz, hout⟩ := hids
      rcases hcovers z hz with ⟨y, hy, hid, -⟩ | hcrowd
      · exact absurd (hid ▸ List.mem_map_of_mem hy) hout
      · have hfull := (h.le_of_crowded hcrowd).1
        have hlength := h.length
        omega
  best x hx z hz hid := by
    rcases hcovers z hz with ⟨y, hy, hidy, hle⟩ | hcrowd
    · exact hle.trans (h.best x hx y hy (hidy.trans hid))
    · exact (h.le_of_crowded hcrowd).2 x hx
  sorted := h.sorted
  outside z hz hout x hx := by
    rcases hcovers z hz with ⟨y, hy, hidy, hle⟩ | hcrowd
    · refine hle.trans (h.outside y hy ?_ x hx)
      rwa [hidy]
    · exact (h.le_of_crowded hcrowd).2 x hx

/-- **When the best of a part are the best.** -/
theorem isTop_iff_covers (h : IsTop key score limit part result) (hpart : ∀ y ∈ part, y ∈ all) :
    IsTop key score limit all result ↔ Covers key score limit part all := by
  refine ⟨fun htop z hz => ?_, h.of_covers hpart⟩
  by_cases hsame : ∃ y ∈ part, key y = key z ∧ score z ≤ score y
  · exact .inl hsame
  -- the key is not in the result, so the result is full and as good
  have hout : key z ∉ result.map key := by
    intro hmem
    obtain ⟨x, hx, hid⟩ := List.mem_map.1 hmem
    exact hsame ⟨x, h.mem x hx, hid, htop.best x hx z hz hid.symm⟩
  refine .inr ⟨result, fun y hy => ⟨h.mem y hy, htop.outside z hz hout y hy⟩, h.nodup, ?_⟩
  have hfull : limit ≤ (all.map key).dedup.length := by
    by_contra hless
    have hlength := htop.length
    have hperm : (result.map key).Perm (all.map key).dedup := by
      refine (h.nodup.subperm fun k hk => ?_).perm_of_length_le (by rw [List.length_map]; omega)
      obtain ⟨x, hx, rfl⟩ := List.mem_map.1 hk
      exact List.mem_dedup.2 (List.mem_map_of_mem (htop.mem x hx))
    exact hout (hperm.mem_iff.2 (List.mem_dedup.2 (List.mem_map_of_mem hz)))
  rw [htop.length, Nat.min_eq_left hfull]

/-- A best member for every key. -/
structure BestPerKey (key : α → κ) (score : α → Int) (all kept : List α) : Prop where
  mem : ∀ x ∈ kept, x ∈ all
  nodup : (kept.map key).Nodup
  keys : ∀ z ∈ all, key z ∈ kept.map key
  best : ∀ x ∈ kept, ∀ z ∈ all, key z = key x → score z ≤ score x

section BestPerKey

variable {all' kept kept' : List α}

omit [DecidableEq κ] in
theorem BestPerKey.of_perm (h : BestPerKey key score all kept) (hperm : kept'.Perm kept) :
    BestPerKey key score all kept' where
  mem x hx := h.mem x (hperm.mem_iff.1 hx)
  nodup := (hperm.map key).nodup_iff.2 h.nodup
  keys z hz := (hperm.map key).mem_iff.2 (h.keys z hz)
  best x hx := h.best x (hperm.mem_iff.1 hx)

theorem BestPerKey.length (h : BestPerKey key score all kept) : kept.length = (all.map key).dedup.length := by
  have hperm : (kept.map key).Perm (all.map key).dedup := by
    refine (List.perm_ext_iff_of_nodup h.nodup (List.nodup_dedup _)).2 fun k => ?_
    rw [List.mem_dedup]
    constructor
    · intro hk
      obtain ⟨x, hx, rfl⟩ := List.mem_map.1 hk
      exact List.mem_map_of_mem (h.mem x hx)
    · intro hk
      obtain ⟨z, hz, rfl⟩ := List.mem_map.1 hk
      exact h.keys z hz
  rw [← hperm.length_eq, List.length_map]

omit [DecidableEq κ] in
/-- Two best members for a key have the same score. -/
theorem BestPerKey.score_eq (h : BestPerKey key score all kept) (h' : BestPerKey key score all' kept')
    (hmem : ∀ x, x ∈ all ↔ x ∈ all') {x y : α} (hx : x ∈ kept) (hy : y ∈ kept') (hkey : key x = key y) :
    score x = score y :=
  le_antisymm (h'.best y hy x ((hmem x).1 (h.mem x hx)) hkey)
    (h.best x hx y ((hmem y).2 (h'.mem y hy)) hkey.symm)

/-- **The best scores are determined.** -/
theorem BestPerKey.scores_perm (h : BestPerKey key score all kept) (h' : BestPerKey key score all' kept')
    (hmem : ∀ x, x ∈ all ↔ x ∈ all') : (kept.map score).Perm (kept'.map score) := by
  -- the score as a function of the key, read off the first list
  let scoreOf (k : κ) : Option Int := (kept.find? fun x => key x = k).map score
  have hfirst : ∀ y, y ∈ kept ∨ y ∈ kept' → scoreOf (key y) = some (score y) := by
    intro y hy
    have hkey : key y ∈ kept.map key := by
      rcases hy with hy | hy
      · exact List.mem_map_of_mem hy
      · exact h.keys y ((hmem y).2 (h'.mem y hy))
    obtain ⟨x, hx, hxy⟩ := List.mem_map.1 hkey
    obtain ⟨w, hw⟩ : ∃ w, kept.find? (fun x => key x = key y) = some w :=
      Option.isSome_iff_exists.1 (List.find?_isSome.2 ⟨x, hx, decide_eq_true hxy⟩)
    have hwkey : key w = key y := by simpa using List.find?_some hw
    have hwmem := List.mem_of_find?_eq_some hw
    have hscore : score w = score y := by
      rcases hy with hy | hy
      · exact h.score_eq h (fun _ => .rfl) hwmem hy hwkey
      · exact h.score_eq h' hmem hwmem hy hwkey
    show (kept.find? fun x => key x = key y).map score = some (score y)
    rw [hw, Option.map_some, hscore]
  have hscores : ∀ {l : List α}, (∀ y ∈ l, y ∈ kept ∨ y ∈ kept') →
      l.map score = (l.map key).filterMap scoreOf := by
    intro l hl
    rw [List.filterMap_map, ← List.filterMap_eq_map]
    exact List.filterMap_congr fun y hy => (hfirst y (hl y hy)).symm
  have hkeys : (kept.map key).Perm (kept'.map key) := by
    refine (List.perm_ext_iff_of_nodup h.nodup h'.nodup).2 fun k => ⟨fun hk => ?_, fun hk => ?_⟩
    · obtain ⟨x, hx, rfl⟩ := List.mem_map.1 hk
      exact h'.keys x ((hmem x).1 (h.mem x hx))
    · obtain ⟨x, hx, rfl⟩ := List.mem_map.1 hk
      exact h.keys x ((hmem x).2 (h'.mem x hx))
  rw [hscores fun y hy => .inl hy, hscores fun y hy => .inr hy]
  exact hkeys.filterMap scoreOf

/-- In order of the scores, the scores are determined. -/
theorem BestPerKey.scores_eq (h : BestPerKey key score all kept) (h' : BestPerKey key score all' kept')
    (hmem : ∀ x, x ∈ all ↔ x ∈ all') (hsorted : kept.Pairwise fun x y => score y ≤ score x)
    (hsorted' : kept'.Pairwise fun x y => score y ≤ score x) : kept.map score = kept'.map score :=
  (h.scores_perm h' hmem).eq_of_pairwise (fun _ _ _ _ hab hba => le_antisymm hba hab)
    (List.pairwise_map.2 hsorted) (List.pairwise_map.2 hsorted')

end BestPerKey

/-- **Taking the best.** A list with one member for each key, sorted and cut. -/
theorem isTop_take {ranked : List α} (h : BestPerKey key score all ranked)
    (hsorted : ranked.Pairwise fun x y => score y ≤ score x) (limit : Nat) :
    IsTop key score limit all (ranked.take limit) where
  mem x hx := h.mem x (List.mem_of_mem_take hx)
  nodup := by
    rw [List.map_take]
    exact h.nodup.sublist (List.take_sublist _ _)
  length := by rw [List.length_take, h.length]
  best x hx := h.best x (List.mem_of_mem_take hx)
  sorted := hsorted.sublist (List.take_sublist _ _)
  outside z hz hout x hx := by
    -- the best member with the key of `z` was cut off
    obtain ⟨y, hy, hid⟩ := List.mem_map.1 (h.keys z hz)
    refine (h.best y hy z hz hid.symm).trans ?_
    have hsplit : (ranked.take limit ++ ranked.drop limit).Pairwise fun x y => score y ≤ score x := by
      rwa [List.take_append_drop]
    refine (List.pairwise_append.1 hsplit).2.2 x hx y ?_
    rw [← List.take_append_drop limit ranked] at hy
    refine (List.mem_append.1 hy).resolve_left fun hkept => hout ?_
    rw [← hid]
    exact List.mem_map_of_mem hkept

end MSearchDB.Lib
