import MSearchDB.Core.ClockLattice
import MSearchDB.Core.ReadCoordinator

/-!
# Read resolution

What `ReadCoordinator::resolve` returns, for any answers of different replicas.

`pick_winner` compares the clocks pairwise and turns to `total` where neither dominates.
A clock that dominates has the greater total, so while the totals fit in a counter one
pass ends at the first response of the greatest total (`pickWinner_isFirstMax_total`), and
none dominates that one. The version is the merge of all clocks whatever the order
(`IsMergeOf.unique`); the document is not, where responses of the greatest total differ.

Read repair writes the merge back to the stale replicas. It may dominate what the winner
had, and its total may not even fit, but it is an upper bound of every clock: the first
response at the bound wins (`better_eq_rank`), and it has the winner's document.
-/

set_option autoImplicit false

namespace MSearchDB.Core

namespace ReadCoordinator

open VectorClock Lib

variable {responses : List ReplicaResponse}

/-! ## The winner -/

/-- The better of two responses whose totals fit is the one of the greater total. -/
theorem better_eq_of_fit {i j : Fin responses.length}
    (hi : (responses.get i).version.sumCounters < 2 ^ 64)
    (hj : (responses.get j).version.sumCounters < 2 ^ 64) :
    better responses i j =
      if (responses.get i).version.sumCounters < (responses.get j).version.sumCounters then j else i := by
  rw [better]
  split
  case isTrue h => rw [if_pos (sumCounters_lt h)]
  split
  case isTrue h => rw [if_neg (sumCounters_lt h).le.not_gt]
  simp only [UInt64.lt_iff_toNat_lt, toNat_total, Nat.mod_eq_of_lt hi, Nat.mod_eq_of_lt hj]

/-- The totals of the responses fit in a counter. -/
def TotalsFit (responses : List ReplicaResponse) : Prop :=
  ∀ r ∈ responses, r.version.sumCounters < 2 ^ 64

theorem pickWinner_isFirstMax_total (hfit : TotalsFit responses) (h : 0 < responses.length) :
    IsFirstMax (fun i => (responses.get i).version.sumCounters) (pickWinner responses h) :=
  isFirstMax_foldl (fun i j => better_eq_of_fit (hfit _ (responses.get_mem i)) (hfit _ (responses.get_mem j))) h

/-- No response dominates one of the greatest total. -/
theorem not_dominates_of_isFirstMax {w : Fin responses.length}
    (hw : IsFirstMax (fun i => (responses.get i).version.sumCounters) w) {r : ReplicaResponse}
    (hr : r ∈ responses) : r.version.dominates (responses.get w).version = false := by
  by_contra h
  obtain ⟨i, rfl⟩ := List.get_of_mem hr
  exact absurd (sumCounters_lt (Bool.not_eq_false _ ▸ h)) (not_lt.2 (hw.le i))

/-! ## The merged version -/

/-- The clock is the merge of the versions: no smaller than any of them, at every node
equal to one, and with an entry where one of them has it. -/
structure IsMergeOf (responses : List ReplicaResponse) (v : VectorClock) : Prop where
  le : ∀ r ∈ responses, r.version.counters ≤ v.counters
  attained : ∀ n, ∃ r ∈ responses, v.counters n = r.version.counters n
  mem : ∀ n, n ∈ v.clocks ↔ ∃ r ∈ responses, n ∈ r.version.clocks

/-- The merge does not depend on the order of the responses. -/
theorem IsMergeOf.unique {responses' : List ReplicaResponse} {v v' : VectorClock}
    (hv : IsMergeOf responses v) (hv' : IsMergeOf responses' v')
    (hsame : ∀ r, r ∈ responses ↔ r ∈ responses') : v = v' := by
  apply ext_counters
  · intro n
    rw [hv.mem, hv'.mem]
    exact exists_congr fun r => and_congr_left fun _ => hsame r
  · funext n
    apply le_antisymm
    · obtain ⟨r, hr, hn⟩ := hv.attained n
      exact hn.trans_le (hv'.le r ((hsame r).1 hr) n)
    · obtain ⟨r, hr, hn⟩ := hv'.attained n
      exact hn.trans_le (hv.le r ((hsame r).2 hr) n)

/-- The loop of `resolve` that merges the clocks. -/
def mergedClock (responses : List ReplicaResponse) (clock : VectorClock) : VectorClock :=
  responses.foldl (fun clock resp => clock.mergeInPlace resp.version) clock

theorem mem_mergedClock (responses : List ReplicaResponse) (n : NodeId) :
    ∀ clock, n ∈ (mergedClock responses clock).clocks ↔
      n ∈ clock.clocks ∨ ∃ r ∈ responses, n ∈ r.version.clocks := by
  induction responses with
  | nil => simp [mergedClock]
  | cons r responses ih =>
      intro clock
      have hrest := ih (clock.mergeInPlace r.version)
      rw [mem_mergeInPlace, or_assoc] at hrest
      rw [List.exists_mem_cons_iff]
      exact hrest

theorem isMergeOf_mergedClock {w : ReplicaResponse} (hw : w ∈ responses) :
    IsMergeOf responses (mergedClock responses w.version) := by
  have hmax : ∀ n, _ := fun n => foldl_max (fun clock : VectorClock => clock.counters n)
    (fun clock (resp : ReplicaResponse) => congrFun (counters_mergeInPlace clock resp.version) n)
    responses w.version
  constructor
  · exact fun r hr n => (hmax n).2.1 r hr
  · intro n
    rcases (hmax n).2.2 with h | h
    · exact ⟨w, hw, h⟩
    · exact h
  · intro n
    rw [mem_mergedClock, or_iff_right_iff_imp]
    exact fun hn => ⟨w, hw, hn⟩

/-! ## The resolution -/

/-- The nodes whose clocks the winner's dominates. -/
def staleNodes (responses : List ReplicaResponse) (w : ReplicaResponse) : List NodeId :=
  (responses.filter fun r => w.version.dominates r.version).map ReplicaResponse.nodeId

/-- A node answers once. -/
def DistinctNodes (responses : List ReplicaResponse) : Prop :=
  (responses.map ReplicaResponse.nodeId).Nodup

theorem DistinctNodes.eq (h : DistinctNodes responses) {r s : ReplicaResponse} (hr : r ∈ responses)
    (hs : s ∈ responses) (hnode : r.nodeId = s.nodeId) : r = s :=
  List.inj_on_of_nodup_map h hr hs hnode

theorem mem_staleNodes (h : DistinctNodes responses) {w r : ReplicaResponse} (hr : r ∈ responses) :
    r.nodeId ∈ staleNodes responses w ↔ w.version.dominates r.version = true := by
  rw [staleNodes, List.mem_map]
  constructor
  · rintro ⟨s, hs, hnode⟩
    obtain ⟨hs, hdom⟩ := List.mem_filter.1 hs
    rwa [← h.eq hs hr hnode]
  · exact fun hdom => ⟨r, List.mem_filter.2 ⟨hr, hdom⟩, rfl⟩

/-- An accepted list resolves to the winner's document, the merge of all versions and the
nodes that the winner dominates. -/
theorem resolve_accepted {c : ReadCoordinator} {level : ConsistencyLevel} (hdistinct : DistinctNodes responses)
    (h : 0 < responses.length) (haccepted : c.validateResponseCount level responses.length = .ok ()) :
    ∃ res, c.resolve responses level = .ok res ∧
      res.document = (responses.get (pickWinner responses h)).document ∧
      IsMergeOf responses res.version ∧
      res.staleNodes = staleNodes responses (responses.get (pickWinner responses h)) := by
  have hmem := responses.get_mem (pickWinner responses h)
  rw [resolve, dif_pos h, haccepted]
  refine ⟨_, rfl, rfl, isMergeOf_mergedClock hmem, ?_⟩
  apply congrArg (List.map ReplicaResponse.nodeId)
  apply List.filter_congr
  intro r hr
  by_cases hnode : r.nodeId = (responses.get (pickWinner responses h)).nodeId
  · -- the test of the node is redundant: no clock dominates itself
    rw [hdistinct.eq hr hmem hnode]
    simp [dominates_irrefl]
  · simp only [ne_eq, hnode, not_false_eq_true, true_and, Bool.decide_eq_true]

/-- A list that is resolved was accepted. -/
theorem accepted_of_resolve {c : ReadCoordinator} {level : ConsistencyLevel} {res : ReadResolution}
    (hres : c.resolve responses level = .ok res) :
    0 < responses.length ∧ c.validateResponseCount level responses.length = .ok () := by
  rw [resolve] at hres
  split at hres
  case isTrue h =>
      refine ⟨h, ?_⟩
      cases hcount : c.validateResponseCount level responses.length with
      | ok u => rfl
      | error e =>
          rw [hcount] at hres
          cases hres
  case isFalse => cases hres

/-- **Reads resolve to a maximal version.** -/
theorem resolve_maximal (c : ReadCoordinator) (level : ConsistencyLevel) (responses : List ReplicaResponse)
    (hne : responses ≠ []) (hdistinct : DistinctNodes responses) (hfit : TotalsFit responses)
    (haccepted : c.validateResponseCount level responses.length = .ok ()) :
    ∃ (w : Fin responses.length) (res : ReadResolution), c.resolve responses level = .ok res ∧
      res.document = (responses.get w).document ∧
      (∀ r ∈ responses, r.version.dominates (responses.get w).version = false) ∧
      (∀ r ∈ responses, r.version.total ≤ (responses.get w).version.total) ∧
      (∀ j < w, (responses.get j).version.total < (responses.get w).version.total) ∧
      (∀ n, (∀ r ∈ responses, r.version.get n ≤ res.version.get n) ∧
        ∃ r ∈ responses, res.version.get n = r.version.get n) ∧
      res.staleNodes =
        (responses.filter fun r => (responses.get w).version.dominates r.version).map ReplicaResponse.nodeId := by
  have hpos : 0 < responses.length := List.length_pos_iff.2 hne
  obtain ⟨res, hres, hdocument, hversion, hstale⟩ := resolve_accepted hdistinct hpos haccepted
  have hfirst := pickWinner_isFirstMax_total hfit hpos
  have htotal : ∀ r ∈ responses, r.version.total.toNat = r.version.sumCounters := fun r hr => by
    rw [toNat_total, Nat.mod_eq_of_lt (hfit r hr)]
  have hmem := responses.get_mem (pickWinner responses hpos)
  refine ⟨pickWinner responses hpos, res, hres, hdocument, ?_, ?_, ?_, ?_, hstale⟩
  · exact fun r hr => not_dominates_of_isFirstMax hfirst hr
  · intro r hr
    rw [UInt64.le_iff_toNat_le, htotal r hr, htotal _ hmem]
    obtain ⟨i, rfl⟩ := List.get_of_mem hr
    exact hfirst.le i
  · intro j hj
    rw [UInt64.lt_iff_toNat_lt, htotal _ (responses.get_mem j), htotal _ hmem]
    exact hfirst.lt j hj
  · intro n
    constructor
    · exact fun r hr => UInt64.le_iff_toNat_le.2 (hversion.le r hr n)
    · obtain ⟨r, hr, hn⟩ := hversion.attained n
      exact ⟨r, hr, UInt64.toNat_inj.1 hn⟩

/-- A node's copy of a document with one field. -/
def copyAt (nodeId : NodeId) (clocks : Std.ExtTreeMap UInt64 UInt64) (data : String) : ReplicaResponse :=
  ⟨nodeId, (Document.new ⟨"d"⟩).withField "data" (.text data), ⟨clocks⟩⟩

/-- Of an old copy and two concurrent ones, a maximal one is returned. -/
theorem resolve_maximal_three_copies :
    let responses := [copyAt 1 ((∅ : Std.ExtTreeMap UInt64 UInt64).insert 1 1) "old",
      copyAt 2 ((∅ : Std.ExtTreeMap UInt64 UInt64).insert 1 2) "newer",
      copyAt 3 ((∅ : Std.ExtTreeMap UInt64 UInt64).insert 2 1) "concurrent"]
    ∃ (w : Fin responses.length) (res : ReadResolution), resolve ⟨3⟩ responses .all = .ok res ∧
      res.document = (responses.get w).document ∧
      ∀ r ∈ responses, r.version.dominates (responses.get w).version = false := by
  intro responses
  obtain ⟨w, res, hres, hdocument, hmaximal, -⟩ := resolve_maximal ⟨3⟩ .all responses (by decide)
    (by rw [DistinctNodes]; decide) (by rw [TotalsFit]; decide) (by decide)
  exact ⟨w, res, hres, hdocument, hmaximal⟩

/-! ## Read repair -/

/-- A stale node's response becomes the resolved document and version. -/
def repaired (res : ReadResolution) (r : ReplicaResponse) : ReplicaResponse :=
  if r.nodeId ∈ res.staleNodes then ⟨r.nodeId, res.document, res.version⟩ else r

/-- Read repair. -/
def repair (res : ReadResolution) (responses : List ReplicaResponse) : List ReplicaResponse :=
  responses.map (repaired res)

/-- The rank of a clock below a bound: its total, and above all totals at the bound itself. -/
def rankBelow (v clock : VectorClock) : WithTop ℕ := if v.dominates clock then .some clock.sumCounters else ⊤

theorem rankBelow_of_dominates {v clock : VectorClock} (h : v.dominates clock = true) :
    rankBelow v clock = .some clock.sumCounters := if_pos h

theorem rankBelow_of_not_dominates {v clock : VectorClock} (h : v.dominates clock = false) :
    rankBelow v clock = ⊤ := if_neg (by simp [h])

/-- A clock below a bound that the bound does not dominate has its counters. -/
theorem counters_eq_of_not_dominates {v clock : VectorClock} (hle : clock.counters ≤ v.counters)
    (h : v.dominates clock = false) : clock.counters = v.counters := by
  rcases hle.eq_or_lt with heq | hlt
  · exact heq
  · exact absurd hlt (dominates_eq_false_iff.1 h)

/-- Below a bound the better of two responses is the one of the greater rank, whether or
not the total of the bound fits. -/
theorem better_eq_rank {v : VectorClock} {i j : Fin responses.length}
    (hle : ∀ r ∈ responses, r.version.counters ≤ v.counters)
    (hfit : ∀ r ∈ responses, v.dominates r.version = true → r.version.sumCounters < 2 ^ 64) :
    better responses i j =
      if rankBelow v (responses.get i).version < rankBelow v (responses.get j).version then j else i := by
  have hi := hle _ (responses.get_mem i)
  have hj := hle _ (responses.get_mem j)
  cases hvi : v.dominates (responses.get i).version with
  | true =>
      cases hvj : v.dominates (responses.get j).version with
      | true =>
          rw [better_eq_of_fit (hfit _ (responses.get_mem i) hvi) (hfit _ (responses.get_mem j) hvj)]
          simp only [rankBelow_of_dominates hvi, rankBelow_of_dominates hvj, WithTop.coe_lt_coe]
      | false =>
          -- the second is at the bound, which dominates the first
          have hdom : (responses.get j).version.dominates (responses.get i).version = true := by
            rw [dominates_iff_lt, counters_eq_of_not_dominates hj hvj]
            exact dominates_iff_lt.1 hvi
          rw [better, if_pos hdom, rankBelow_of_dominates hvi, rankBelow_of_not_dominates hvj,
            if_pos (WithTop.coe_lt_top _)]
  | false =>
      have hieq := counters_eq_of_not_dominates hi hvi
      have hnot : (responses.get j).version.dominates (responses.get i).version = false := by
        rw [dominates_eq_false_iff, hieq]
        exact hj.not_gt
      rw [better, if_neg (Bool.eq_false_iff.1 hnot), rankBelow_of_not_dominates hvi, if_neg not_top_lt]
      split
      case isTrue => rfl
      case isFalse hdom =>
          -- neither dominates, so both are at the bound and have one total
          have hjeq : (responses.get j).version.counters = (responses.get i).version.counters := by
            rcases hj.eq_or_lt with heq | hlt
            · rw [heq, hieq]
            · rw [← hieq, ← dominates_iff_lt] at hlt
              exact absurd hlt hdom
          have htotal : (responses.get j).version.total = (responses.get i).version.total := by
            apply UInt64.toNat_inj.1
            rw [toNat_total, toNat_total, sumCounters_congr hjeq]
          rw [htotal, if_neg (UInt64.lt_irrefl _)]

section Repair

variable {c : ReadCoordinator} {level : ConsistencyLevel} {res : ReadResolution}

theorem repaired_of_stale {r : ReplicaResponse} (h : r.nodeId ∈ res.staleNodes) :
    repaired res r = ⟨r.nodeId, res.document, res.version⟩ := if_pos h

theorem repaired_of_not_stale {r : ReplicaResponse} (h : r.nodeId ∉ res.staleNodes) : repaired res r = r :=
  if_neg h

theorem nodeId_repaired (r : ReplicaResponse) : (repaired res r).nodeId = r.nodeId := by
  rw [repaired]
  split
  case isTrue => rfl
  case isFalse => rfl

theorem length_repair : (repair res responses).length = responses.length := List.length_map _

theorem get_repair (i : Fin (repair res responses).length) :
    (repair res responses).get i = repaired res (responses.get (i.cast length_repair)) := List.getElem_map _

theorem nodeId_repair :
    (repair res responses).map ReplicaResponse.nodeId = responses.map ReplicaResponse.nodeId := by
  rw [repair, List.map_map]
  exact List.map_congr_left fun r _ => nodeId_repaired r

/-- The repaired responses merge to the same version. -/
theorem isMergeOf_repair (hversion : IsMergeOf responses res.version) :
    IsMergeOf (repair res responses) res.version := by
  have hcases : ∀ r, repaired res r = r ∨ (repaired res r).version = res.version := by
    intro r
    by_cases h : r.nodeId ∈ res.staleNodes
    · rw [repaired_of_stale h]
      exact .inr rfl
    · exact .inl (repaired_of_not_stale h)
  constructor
  · intro r' hr'
    obtain ⟨r, hr, rfl⟩ := List.mem_map.1 hr'
    rcases hcases r with h | h
    · rw [h]
      exact hversion.le r hr
    · rw [h]
  · intro n
    obtain ⟨r, hr, hn⟩ := hversion.attained n
    refine ⟨_, List.mem_map_of_mem hr, ?_⟩
    rcases hcases r with h | h
    · rw [h, hn]
    · rw [h]
  · intro n
    constructor
    · intro hn
      obtain ⟨r, hr, hmem⟩ := (hversion.mem n).1 hn
      refine ⟨_, List.mem_map_of_mem hr, ?_⟩
      rcases hcases r with h | h
      · rwa [h]
      · rwa [h]
    · rintro ⟨r', hr', hn⟩
      obtain ⟨r, hr, rfl⟩ := List.mem_map.1 hr'
      rcases hcases r with h | h
      · rw [h] at hn
        exact (hversion.mem n).2 ⟨r, hr, hn⟩
      · rwa [h] at hn

/-- The ranks of the responses after the repair. -/
def repairedRank (res : ReadResolution) (responses : List ReplicaResponse) (i : Fin responses.length) : WithTop ℕ :=
  rankBelow res.version (repaired res (responses.get i)).version

theorem repairedRank_of_not_stale {i : Fin responses.length} (h : (responses.get i).nodeId ∉ res.staleNodes) :
    repairedRank res responses i = rankBelow res.version (responses.get i).version := by
  rw [repairedRank, repaired_of_not_stale h]

theorem repairedRank_of_stale {i : Fin responses.length} (h : (responses.get i).nodeId ∈ res.staleNodes) :
    repairedRank res responses i = ⊤ := by
  rw [repairedRank, repaired_of_stale h]
  exact rankBelow_of_not_dominates (dominates_irrefl _)

/-- A winner after the repair that was not repaired is the winner before it. -/
theorem eq_winner_of_not_stale {w k : Fin responses.length} (hversion : IsMergeOf responses res.version)
    (hw : IsFirstMax (fun i => (responses.get i).version.sumCounters) w)
    (hwinner : (responses.get w).nodeId ∉ res.staleNodes)
    (hk : IsFirstMax (repairedRank res responses) k)
    (hfresh : (responses.get k).nodeId ∉ res.staleNodes) : k = w := by
  have hkrank := repairedRank_of_not_stale hfresh
  cases hbound : res.version.dominates (responses.get k).version with
  | false =>
      -- the new winner is at the bound, so the old one is there too, and each comes first
      have hkeq := counters_eq_of_not_dominates (hversion.le _ (responses.get_mem k)) hbound
      have hweq : (responses.get w).version.counters = res.version.counters := by
        rcases (hversion.le _ (responses.get_mem w)).eq_or_lt with h | h
        · exact h
        · rw [← hkeq] at h
          have hnot := not_dominates_of_isFirstMax hw (responses.get_mem k)
          exact absurd h (dominates_eq_false_iff.1 hnot)
      have hwrank : repairedRank res responses w = ⊤ := by
        rw [repairedRank_of_not_stale hwinner]
        apply rankBelow_of_not_dominates
        rw [dominates_eq_false_iff, hweq]
        exact lt_irrefl _
      apply le_antisymm
      · by_contra hlt
        have hlt' := hk.lt w (not_le.1 hlt)
        rw [hwrank] at hlt'
        exact absurd hlt' not_top_lt
      · by_contra hlt
        have hlt' := hw.lt k (not_le.1 hlt)
        exact absurd (sumCounters_congr (hkeq.trans hweq.symm)) hlt'.ne
  | true =>
      -- the new winner is below the bound, so that nothing was repaired
      rw [rankBelow_of_dominates hbound] at hkrank
      have hall : ∀ i, repairedRank res responses i = .some (responses.get i).version.sumCounters := by
        intro i
        have hle := hk.le i
        rw [hkrank] at hle
        have hfreshi : (responses.get i).nodeId ∉ res.staleNodes := by
          intro hstale
          rw [repairedRank_of_stale hstale] at hle
          exact absurd (WithTop.coe_lt_top _) (not_lt.2 hle)
        rw [repairedRank_of_not_stale hfreshi] at hle ⊢
        cases hi : res.version.dominates (responses.get i).version with
        | true => exact rankBelow_of_dominates hi
        | false =>
            rw [rankBelow_of_not_dominates hi] at hle
            exact absurd (WithTop.coe_lt_top _) (not_lt.2 hle)
      refine IsFirstMax.unique ?_ hw
      constructor
      · intro j
        have hle := hk.le j
        rwa [hall, hall, WithTop.coe_le_coe] at hle
      · intro j hj
        have hlt := hk.lt j hj
        rwa [hall, hall, WithTop.coe_lt_coe] at hlt

/-- **Read repair is stable.** -/
theorem repair_is_stable (c : ReadCoordinator) (level : ConsistencyLevel) (responses : List ReplicaResponse)
    (hdistinct : DistinctNodes responses) (hfit : TotalsFit responses) (res : ReadResolution)
    (hres : c.resolve responses level = .ok res) :
    ∃ res', c.resolve (repair res responses) level = .ok res' ∧
      res'.document = res.document ∧ res'.version = res.version ∧
      ∀ n ∈ res.staleNodes, n ∉ res'.staleNodes := by
  obtain ⟨hpos, haccepted⟩ := accepted_of_resolve hres
  obtain ⟨res₀, hres₀, hdocument, hversion, hstale⟩ := resolve_accepted hdistinct hpos haccepted
  obtain rfl : res₀ = res := by rwa [hres₀, Except.ok.injEq] at hres
  have hpos' : 0 < (repair res₀ responses).length := by rwa [length_repair]
  have hdistinct' : DistinctNodes (repair res₀ responses) := by rwa [DistinctNodes, nodeId_repair]
  obtain ⟨res', hres', hdocument', hversion', hstale'⟩ :=
    resolve_accepted hdistinct' hpos' (by rwa [length_repair])
  have hmerge := isMergeOf_repair hversion
  refine ⟨res', hres', ?_, hversion'.unique hmerge fun _ => .rfl, ?_⟩
  · have hk : IsFirstMax (repairedRank res₀ responses) ((pickWinner _ hpos').cast length_repair) := by
      have hfirst := isFirstMax_foldl (fun i j => better_eq_rank (i := i) (j := j) hmerge.le ?_) hpos'
      · have hcast := hfirst.cast length_repair
        simp only [get_repair] at hcast
        exact hcast
      · intro r' hr' hdom
        obtain ⟨r, hr, rfl⟩ := List.mem_map.1 hr'
        by_cases h : r.nodeId ∈ res₀.staleNodes
        · rw [repaired_of_stale h, dominates_irrefl] at hdom
          exact absurd hdom (by decide)
        · rw [repaired_of_not_stale h]
          exact hfit r hr
    rw [hdocument', get_repair]
    by_cases hfresh : (responses.get ((pickWinner _ hpos').cast length_repair)).nodeId ∈ res₀.staleNodes
    · rw [repaired_of_stale hfresh]
    · rw [repaired_of_not_stale hfresh, hdocument]
      have hwinner : (responses.get (pickWinner responses hpos)).nodeId ∉ res₀.staleNodes := by
        rw [hstale, mem_staleNodes hdistinct (responses.get_mem _), dominates_irrefl]
        simp
      rw [eq_winner_of_not_stale hversion (pickWinner_isFirstMax_total hfit hpos) hwinner hk hfresh]
  · intro n hn hn'
    -- a repaired response has the bound as its version, which no response dominates
    rw [hstale', staleNodes, List.mem_map] at hn'
    obtain ⟨r', hr', rfl⟩ := hn'
    obtain ⟨hr', hdom⟩ := List.mem_filter.1 hr'
    obtain ⟨r, hr, rfl⟩ := List.mem_map.1 hr'
    rw [nodeId_repaired] at hn
    rw [repaired_of_stale hn, dominates_iff_lt] at hdom
    exact absurd hdom (hmerge.le _ (List.get_mem _ _)).not_gt

/-- An old copy is repaired, and the second read returns what the first did. -/
theorem repair_is_stable_two_copies :
    let responses := [copyAt 1 ((∅ : Std.ExtTreeMap UInt64 UInt64).insert 1 1) "old",
      copyAt 2 ((∅ : Std.ExtTreeMap UInt64 UInt64).insert 1 2) "newer"]
    ∃ res res', resolve ⟨2⟩ responses .quorum = .ok res ∧
      resolve ⟨2⟩ (repair res responses) .quorum = .ok res' ∧
      res'.document = res.document ∧ res'.version = res.version := by
  intro responses
  have hdistinct : DistinctNodes responses := by rw [DistinctNodes]; decide
  have haccepted : validateResponseCount ⟨2⟩ .quorum responses.length = .ok () := by decide
  obtain ⟨res, hres, -⟩ := resolve_accepted hdistinct (Nat.succ_pos _) haccepted
  obtain ⟨res', hres', hdocument, hversion, -⟩ := repair_is_stable ⟨2⟩ .quorum responses hdistinct
    (by rw [TotalsFit]; decide) res hres
  exact ⟨res, res', hres, hres', hdocument, hversion⟩

end Repair

/-! ## The order of the answers -/

/-- No total is greater than that of the response. -/
def HasGreatestTotal (responses : List ReplicaResponse) (r : ReplicaResponse) : Prop :=
  r ∈ responses ∧ ∀ s ∈ responses, s.version.total ≤ r.version.total

section Order

variable {c : ReadCoordinator} {level : ConsistencyLevel}

theorem HasGreatestTotal.sumCounters_le (hfit : TotalsFit responses) {r s : ReplicaResponse}
    (h : HasGreatestTotal responses r) (hs : s ∈ responses) : s.version.sumCounters ≤ r.version.sumCounters := by
  have hle := UInt64.le_iff_toNat_le.1 (h.2 s hs)
  rwa [toNat_total, toNat_total, Nat.mod_eq_of_lt (hfit s hs), Nat.mod_eq_of_lt (hfit r h.1)] at hle

theorem hasGreatestTotal_pickWinner (hfit : TotalsFit responses) (h : 0 < responses.length) :
    HasGreatestTotal responses (responses.get (pickWinner responses h)) := by
  refine ⟨responses.get_mem _, fun s hs => ?_⟩
  obtain ⟨i, rfl⟩ := List.get_of_mem hs
  rw [UInt64.le_iff_toNat_le, toNat_total, toNat_total, Nat.mod_eq_of_lt (hfit _ hs),
    Nat.mod_eq_of_lt (hfit _ (responses.get_mem _))]
  exact (pickWinner_isFirstMax_total hfit h).le i

/-- A first response of the greatest total wins. -/
theorem pickWinner_cons {r : ReplicaResponse} {rest : List ReplicaResponse} (hfit : TotalsFit (r :: rest))
    (hr : HasGreatestTotal (r :: rest) r) (h : 0 < (r :: rest).length) :
    (r :: rest).get (pickWinner (r :: rest) h) = r := by
  have hzero : IsFirstMax (fun i => ((r :: rest).get i).version.sumCounters) ⟨0, h⟩ := by
    constructor
    · exact fun j => hr.sumCounters_le hfit ((r :: rest).get_mem j)
    · intro j hj
      exact absurd hj (Nat.not_lt_zero _)
  rw [(pickWinner_isFirstMax_total hfit h).unique hzero]
  rfl

theorem TotalsFit.perm {responses' : List ReplicaResponse} (hfit : TotalsFit responses)
    (hperm : responses'.Perm responses) : TotalsFit responses' := fun r hr => hfit r (hperm.mem_iff.1 hr)

theorem DistinctNodes.perm {responses' : List ReplicaResponse} (hdistinct : DistinctNodes responses)
    (hperm : responses'.Perm responses) : DistinctNodes responses' := (hperm.map _).nodup_iff.2 hdistinct

theorem HasGreatestTotal.perm {responses' : List ReplicaResponse} {r : ReplicaResponse}
    (h : HasGreatestTotal responses r) (hperm : responses'.Perm responses) : HasGreatestTotal responses' r :=
  ⟨hperm.mem_iff.2 h.1, fun s hs => h.2 s (hperm.mem_iff.1 hs)⟩

theorem resolve_refused {e : DbError} (h : 0 < responses.length)
    (hrefused : c.validateResponseCount level responses.length = .error e) :
    c.resolve responses level = .error e := by
  rw [resolve, dif_pos h, hrefused]
  rfl

/-- The version, or the refusal, is the same in every order. -/
theorem version_perm {responses' : List ReplicaResponse} (hdistinct : DistinctNodes responses)
    (hperm : responses'.Perm responses) :
    (c.resolve responses' level).map ReadResolution.version =
      (c.resolve responses level).map ReadResolution.version := by
  cases responses with
  | nil => rw [hperm.eq_nil]
  | cons r rest =>
      have hpos : 0 < (r :: rest).length := Nat.succ_pos _
      have hpos' : 0 < responses'.length := hperm.length_eq ▸ hpos
      cases haccepted : c.validateResponseCount level (r :: rest).length with
      | error e => rw [resolve_refused hpos haccepted, resolve_refused hpos' (hperm.length_eq ▸ haccepted)]
      | ok u =>
          obtain ⟨res, hres, -, hversion, -⟩ := resolve_accepted hdistinct hpos haccepted
          obtain ⟨res', hres', -, hversion', -⟩ :=
            resolve_accepted (hdistinct.perm hperm) hpos' (hperm.length_eq ▸ haccepted)
          rw [hres, hres']
          exact congrArg Except.ok (hversion'.unique hversion fun r => hperm.mem_iff)

/-- **Reads and the order of the answers.** The version does not depend on the order. The
document and the stale nodes do not either exactly where the responses of the greatest
total have one document and dominate the same responses. -/
theorem resolve_perm_iff (c : ReadCoordinator) (level : ConsistencyLevel) (responses : List ReplicaResponse)
    (hdistinct : DistinctNodes responses) :
    (∀ responses' : List ReplicaResponse, responses'.Perm responses →
      (c.resolve responses' level).map ReadResolution.version =
        (c.resolve responses level).map ReadResolution.version) ∧
    (TotalsFit responses → c.validateResponseCount level responses.length = .ok () →
      ((∀ responses' : List ReplicaResponse, responses'.Perm responses →
          ∀ res res', c.resolve responses level = .ok res → c.resolve responses' level = .ok res' →
            res'.document = res.document ∧ ∀ n, n ∈ res'.staleNodes ↔ n ∈ res.staleNodes) ↔
        ∀ r r', HasGreatestTotal responses r → HasGreatestTotal responses r' →
          r'.document = r.document ∧
            ∀ s ∈ responses, r'.version.dominates s.version = r.version.dominates s.version)) := by
  refine ⟨fun responses' hperm => version_perm hdistinct hperm, fun hfit haccepted => ⟨?_, ?_⟩⟩
  · intro hsame r r' hr hr'
    obtain ⟨i, hi⟩ := List.get_of_mem hr.1
    have hpos : 0 < responses.length := i.pos
    obtain ⟨res, hres, -⟩ := resolve_accepted hdistinct hpos haccepted
    -- put a response of the greatest total first: it wins
    have hfirst : ∀ q, HasGreatestTotal responses q →
        q.document = res.document ∧ ∀ s ∈ responses,
          (q.version.dominates s.version = true ↔ s.nodeId ∈ res.staleNodes) := by
      intro q hq
      have hperm : (q :: responses.erase q).Perm responses := (List.perm_cons_erase hq.1).symm
      have hposq : 0 < (q :: responses.erase q).length := Nat.succ_pos _
      obtain ⟨resq, hresq, hdocument, -, hstale⟩ :=
        resolve_accepted (hdistinct.perm hperm) hposq (hperm.length_eq ▸ haccepted)
      rw [pickWinner_cons (hfit.perm hperm) (hq.perm hperm)] at hdocument hstale
      obtain ⟨hdocument', hstale'⟩ := hsame _ hperm res resq hres hresq
      refine ⟨hdocument.symm.trans hdocument', fun s hs => ?_⟩
      rw [← hstale', hstale, mem_staleNodes (hdistinct.perm hperm) (hperm.mem_iff.2 hs)]
    refine ⟨(hfirst r' hr').1.trans (hfirst r hr).1.symm, fun s hs => ?_⟩
    exact Bool.eq_iff_iff.2 (((hfirst r' hr').2 s hs).trans ((hfirst r hr).2 s hs).symm)
  · intro hagree responses' hperm res res' hres hres'
    obtain ⟨hpos, -⟩ := accepted_of_resolve hres
    obtain ⟨hpos', haccepted'⟩ := accepted_of_resolve hres'
    obtain ⟨res₀, hres₀, hdocument, -, hstale⟩ := resolve_accepted hdistinct hpos haccepted
    obtain ⟨res₁, hres₁, hdocument', -, hstale'⟩ :=
      resolve_accepted (hdistinct.perm hperm) hpos' haccepted'
    obtain rfl : res₀ = res := by rwa [hres₀, Except.ok.injEq] at hres
    obtain rfl : res₁ = res' := by rwa [hres₁, Except.ok.injEq] at hres'
    obtain ⟨hdoc, hdom⟩ := hagree _ _ (hasGreatestTotal_pickWinner hfit hpos)
      ((hasGreatestTotal_pickWinner (hfit.perm hperm) hpos').perm hperm.symm)
    refine ⟨hdocument'.trans (hdoc.trans hdocument.symm), fun n => ?_⟩
    rw [hstale, hstale', staleNodes, staleNodes]
    simp only [List.mem_map, List.mem_filter]
    apply exists_congr
    intro s
    apply and_congr_left
    intro _
    constructor
    · rintro ⟨hs, hd⟩
      have hs' := hperm.mem_iff.1 hs
      exact ⟨hs', (hdom s hs').symm.trans hd⟩
    · rintro ⟨hs, hd⟩
      exact ⟨hperm.mem_iff.2 hs, (hdom s hs).trans hd⟩

/-- The order matters where two concurrent copies have one total, which the earlier one
wins, and where a total wraps, so that no order of three copies agrees with another. -/
theorem resolve_depends_on_order :
    (let first := copyAt 1 ((∅ : Std.ExtTreeMap UInt64 UInt64).insert 1 1) "x"
      let second := copyAt 2 ((∅ : Std.ExtTreeMap UInt64 UInt64).insert 2 1) "y"
      DistinctNodes [first, second] ∧
        ((ReadCoordinator.mk 2).resolve [second, first] .all).map ReadResolution.document ≠
          ((ReadCoordinator.mk 2).resolve [first, second] .all).map ReadResolution.document) ∧
    (let first := copyAt 1 (((∅ : Std.ExtTreeMap UInt64 UInt64).insert 1 18446744073709551615).insert 2 1) "x"
      let second := copyAt 2 ((∅ : Std.ExtTreeMap UInt64 UInt64).insert 1 5) "y"
      let third := copyAt 3 ((∅ : Std.ExtTreeMap UInt64 UInt64).insert 3 3) "z"
      DistinctNodes [first, second, third] ∧
        (∀ r ∈ [first, second, third], ∀ s ∈ [first, second, third],
          r.version.total = s.version.total → r = s) ∧
        ((ReadCoordinator.mk 3).resolve [second, third, first] .all).map ReadResolution.document ≠
          ((ReadCoordinator.mk 3).resolve [first, second, third] .all).map ReadResolution.document) := by
  constructor
  · intro first second
    have hdistinct : DistinctNodes [first, second] := by
      rw [DistinctNodes]
      decide
    exact ⟨hdistinct, by decide⟩
  · -- the total of the first is zero; it dominates the second, which beats the third, which beats it
    intro first second third
    have hdistinct : DistinctNodes [first, second, third] := by
      rw [DistinctNodes]
      decide
    exact ⟨hdistinct, by decide, by decide⟩

/-- Of two copies, one has the greatest total: both orders return it. -/
theorem resolve_perm_iff_two_copies :
    let x := copyAt 1 ((∅ : Std.ExtTreeMap UInt64 UInt64).insert 1 1) "x"
    let y := copyAt 2 ((∅ : Std.ExtTreeMap UInt64 UInt64).insert 2 2) "y"
    (resolve ⟨2⟩ [y, x] .all).map ReadResolution.version = (resolve ⟨2⟩ [x, y] .all).map ReadResolution.version ∧
      ∀ res res', resolve ⟨2⟩ [x, y] .all = .ok res → resolve ⟨2⟩ [y, x] .all = .ok res' →
        res'.document = res.document := by
  intro x y
  obtain ⟨hversion, hiff⟩ := resolve_perm_iff ⟨2⟩ .all [x, y] (by rw [DistinctNodes]; decide)
  refine ⟨hversion [y, x] (List.Perm.swap _ _ _), ?_⟩
  have hgreatest : ∀ r, HasGreatestTotal [x, y] r → r = y := by
    rintro r ⟨hr, hle⟩
    rcases List.mem_cons.1 hr with rfl | hr
    · exact absurd (hle y (by simp)) (by decide)
    · exact List.mem_singleton.1 hr
  intro res res' hres hres'
  refine ((hiff (by rw [TotalsFit]; decide) (by decide)).2 ?_ [y, x]
    (List.Perm.swap _ _ _) res res' hres hres').1
  intro r r' hr hr'
  rw [hgreatest r hr, hgreatest r' hr']
  exact ⟨rfl, fun s _ => rfl⟩

end Order

end ReadCoordinator

end MSearchDB.Core
