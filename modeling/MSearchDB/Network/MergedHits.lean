import MSearchDB.Network.ScatterGather

/-!
# Merging scattered hits

`deduplicate_results` and `rank_results` of `crates/network/src/scatter_gather.rs` on
documents that arrived in any order. Of documents with the same id and the same score the
first to arrive is kept, and among different ids of one score the order is that of the
map; so the documents of a merged page depend on the order of arrival, and the scores do
not (`mergedHits_spec`).
-/

set_option autoImplicit false

namespace MSearchDB.Network

open MSearchDB.Lib
open MSearchDB.Core
open MSearchDB.Index

/-- `f32`'s `==`, which does not tell the two zeros apart. -/
def SameScore (x y : ScoredDocument) : Prop := x.score.partialCmp y.score = some .eq

section Hits

variable {docs docs' : List ScoredDocument}

theorem sameScore_of_rank {x y : ScoredDocument} (hx : x.score.isNan = false) (hy : y.score.isNan = false)
    (h : scoreRank x = scoreRank y) : SameScore x y := by
  rw [SameScore, F32.partialCmp_of_not_nan hx hy, Option.some.injEq, Std.compare_eq_iff_eq]
  exact h

/-- The scores of the ranked documents are those of the best for every id. -/
theorem ranks_rankResults (order order' : HashOrder ScoredDocument) (hdocs : ∀ doc ∈ docs, doc.score.isNan = false)
    (hperm : docs'.Perm docs) (limit : UInt64) :
    (rankResults (deduplicateResults order docs) limit).map scoreRank =
      (rankResults (deduplicateResults order' docs') limit).map scoreRank := by
  have hdocs' : ∀ doc ∈ docs', doc.score.isNan = false := fun doc hdoc => hdocs doc (hperm.mem_iff.1 hdoc)
  have hkept := (bestPerKey_deduplicateResults order hdocs).of_perm (perm_sortBy compareByScore _)
  have hkept' := (bestPerKey_deduplicateResults order' hdocs').of_perm (perm_sortBy compareByScore _)
  have hscores := hkept.scores_eq hkept' (fun x => hperm.mem_iff.symm)
    (pairwise_sortBy_deduplicateResults order hdocs) (pairwise_sortBy_deduplicateResults order' hdocs')
  rw [rankResults, rankResults, List.map_take, List.map_take, hscores]

theorem mem_of_mem_rankResults (order : HashOrder ScoredDocument) (hdocs : ∀ doc ∈ docs, doc.score.isNan = false)
    {limit : UInt64} {doc : ScoredDocument} (h : doc ∈ rankResults (deduplicateResults order docs) limit) :
    doc ∈ docs := by
  have hsorted := mem_sortBy.1 (List.mem_of_mem_take h)
  exact (bestPerKey_deduplicateResults order hdocs).mem doc hsorted

/-- **Merged hits.** For documents without a NaN as a score, and in whatever order the
maps are iterated: one document is kept for each id, with the greatest score of those
that have it; ranked, their scores do not increase, and there are as many as the limit
allows; and for a permutation of the documents the scores are the same. -/
theorem mergedHits_spec (order order' : HashOrder ScoredDocument) (hdocs : ∀ doc ∈ docs, doc.score.isNan = false)
    (limit : UInt64) :
    let kept := deduplicateResults order docs
    ((kept.map docId).Nodup ∧ (∀ id, id ∈ kept.map docId ↔ id ∈ docs.map docId) ∧
        ∀ x ∈ kept, x ∈ docs ∧ ∀ z ∈ docs, docId z = docId x → scoreRank z ≤ scoreRank x) ∧
      (rankResults kept limit).Pairwise (fun x y => scoreRank y ≤ scoreRank x) ∧
      (rankResults kept limit).length = min limit.toNat (docs.map docId).dedup.length ∧
      ∀ docs' : List ScoredDocument, docs'.Perm docs →
        List.Forall₂ SameScore (rankResults kept limit) (rankResults (deduplicateResults order' docs') limit) := by
  intro kept
  have hbest : BestPerKey docId scoreRank docs kept := bestPerKey_deduplicateResults order hdocs
  have htop := isTop_rankResults order hdocs limit
  refine ⟨⟨hbest.nodup, fun id => ⟨fun hid => ?_, fun hid => ?_⟩, fun x hx => ⟨hbest.mem x hx, hbest.best x hx⟩⟩,
    htop.sorted, htop.length, fun docs' hperm => ?_⟩
  · obtain ⟨x, hx, rfl⟩ := List.mem_map.1 hid
    exact List.mem_map_of_mem (hbest.mem x hx)
  · obtain ⟨z, hz, rfl⟩ := List.mem_map.1 hid
    exact hbest.keys z hz
  · have hranks := ranks_rankResults order order' hdocs hperm limit
    have hdocs' : ∀ doc ∈ docs', doc.score.isNan = false := fun doc hdoc => hdocs doc (hperm.mem_iff.1 hdoc)
    have hforall := List.forall₂_map_left_iff.1 (List.forall₂_map_right_iff.1 (List.forall₂_eq_eq_eq ▸ hranks))
    -- places with the same rank have the same score, since no score is a NaN
    rw [List.forall₂_iff_zip] at hforall ⊢
    refine ⟨hforall.1, fun hzip => ?_⟩
    obtain ⟨hx, hy⟩ := List.of_mem_zip hzip
    apply sameScore_of_rank
    · exact hdocs _ (mem_of_mem_rankResults order hdocs hx)
    · exact hdocs' _ (mem_of_mem_rankResults order' hdocs' hy)
    · exact hforall.2 hzip

end Hits

/-- Two hits for one id, the better of them second, and a hit for another id. -/
def threeHits : List ScoredDocument :=
  [⟨Document.new ⟨"a"⟩, ⟨0x3f800000⟩, []⟩, ⟨Document.new ⟨"b"⟩, ⟨0x3f800000⟩, []⟩,
    ⟨Document.new ⟨"a"⟩, ⟨0x40000000⟩, []⟩]

theorem mergedHits_three :
    (∀ doc ∈ threeHits, doc.score.isNan = false) ∧
      (rankResults (deduplicateResults (keyOrder _) threeHits) 5).length = 2 ∧
      List.Forall₂ SameScore (rankResults (deduplicateResults (keyOrder _) threeHits) 5)
        (rankResults (deduplicateResults (keyOrder _) threeHits.reverse) 5) := by
  have hdocs : ∀ doc ∈ threeHits, doc.score.isNan = false := by
    simp only [threeHits, List.forall_mem_cons]
    exact ⟨rfl, rfl, rfl, fun _ h => absurd h List.not_mem_nil⟩
  obtain ⟨-, -, hlength, hperm⟩ := mergedHits_spec (keyOrder _) (keyOrder _) hdocs 5
  refine ⟨hdocs, ?_, ?_⟩
  · rw [hlength]
    decide
  · exact hperm _ (List.reverse_perm threeHits)

end MSearchDB.Network
