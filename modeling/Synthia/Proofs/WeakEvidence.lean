import Synthia.Proofs.Confidence
import Synthia.Proofs.Fusion

/-!
# Whether weak evidence stays weak through fusion

The first threshold is a floor on how good the best candidate is; a fused score says how
good a candidate is beside the best of its own leg. A leg scaled to its best has a best of
one however poor it was, so the floor on the raw scores plays no part in what is assessed:
the fused evidence is confident exactly if some reference stands out on the legs' own
scales. Only the dense leg can bring that about, since the sparse leg's weight is below
the floor.
-/

namespace Synthia

open Relational

/-! ## The assessment of a ranking -/

/-- Of scores none of which is above the first, the first is the one to lead. -/
theorem isConfident_first_iff {top : ℚ} {others : List ℚ} (h : ∀ other ∈ others, other ≤ top) :
    (assessScores (top :: others)).isConfident = true ↔ Leads top others := by
  constructor
  · intro hconfident
    obtain ⟨leader, rest, hperm, hleads⟩ := isConfident_iff.mp hconfident
    have htop : leader = top := by
      by_contra hne
      have hbehind : top ∈ rest :=
        (List.mem_cons.mp (hperm.mem_iff.mp List.mem_cons_self)).resolve_left (Ne.symm hne)
      have hmem : leader ∈ others :=
        (List.mem_cons.mp (hperm.mem_iff.mpr List.mem_cons_self)).resolve_left hne
      exact absurd (hleads.lt hbehind) (not_lt.mpr (h leader hmem))
    subst htop
    exact hleads.mono hperm.cons_inv.subset
  · intro hleads
    exact isConfident_iff.mpr ⟨top, others, List.Perm.refl _, hleads⟩

/-- Of scores in order, a first few are led when the second is; and then all are. -/
theorem leads_take_iff {top : ℚ} {rest : List ℚ} {count : Nat}
    (hsorted : rest.Pairwise fun a b => b ≤ a) :
    Leads top (rest.take count) ↔
      minimumTopScore ≤ top ∧
        (rest.take count ≠ [] → ∀ score ∈ rest, score + minimumMargin ≤ top) := by
  constructor
  · intro hleads
    refine ⟨hleads.1, fun hne score hscore => ?_⟩
    cases rest with
    | nil => cases hscore
    | cons second behind =>
        cases count with
        | zero => exact absurd rfl hne
        | succ count =>
            have hsecond := hleads.2 second List.mem_cons_self
            rcases List.mem_cons.mp hscore with rfl | hbehind
            · exact hsecond
            · have := (List.pairwise_cons.mp hsorted).1 score hbehind
              linarith
  · rintro ⟨htop, hall⟩
    refine ⟨htop, fun score hscore => ?_⟩
    exact hall (List.ne_nil_of_mem hscore) score (List.mem_of_mem_take hscore)

/-! ## Standing out -/

/-- The weight of a reference on the legs' own scales. -/
def relativeWeight (dense sparse : List RetrievedChunk) (reference : String) : ℚ :=
  denseWeight * lastShare dense reference + sparseWeight * lastShare sparse reference

/-- How many references the limit lets through. -/
def shown (dense sparse : List RetrievedChunk) (limit : Int) : Nat :=
  (upTo limit (distinctReferences dense sparse)).length

/-- Some reference weighs enough, and more than every other by the margin where another is
let through. -/
def StandsOut (dense sparse : List RetrievedChunk) (limit : Int) : Prop :=
  1 ≤ shown dense sparse limit ∧
    ∃ reference ∈ distinctReferences dense sparse,
      minimumTopScore ≤ relativeWeight dense sparse reference ∧
        (2 ≤ shown dense sparse limit → ∀ other ∈ distinctReferences dense sparse,
          other ≠ reference →
            relativeWeight dense sparse other + minimumMargin ≤
              relativeWeight dense sparse reference)

section Standing

variable {dense sparse : List RetrievedChunk} {limit : Int}

theorem upTo_length {α β : Type} {limit : Int} {items : List α} {others : List β}
    (h : items.length = others.length) :
    (upTo limit items).length = (upTo limit others).length := by
  rw [upTo, upTo, List.length_take, List.length_take, h]

theorem shown_eq (dense sparse : List RetrievedChunk) (limit : Int) :
    (fuse dense sparse limit).length = shown dense sparse limit :=
  upTo_length (ranking_length.trans fusedReferences_perm.length_eq)

theorem mem_distinct_iff {reference : String} :
    reference ∈ distinctReferences dense sparse ↔
      fusedAt dense sparse reference ∈ ranking dense sparse := by
  rw [← fusedReferences_perm.mem_iff, mem_ranking]
  constructor
  · exact fun h => ⟨reference, h, rfl⟩
  · rintro ⟨other, hother, hfused⟩
    have hsame : other = reference := congrArg FusedChunk.sourceReference hfused
    exact hsame ▸ hother

theorem ranking_scores (dense sparse : List RetrievedChunk) :
    (ranking dense sparse).Pairwise fun a b => b.score ≤ a.score := by
  refine List.Pairwise.imp ?_ ranking_sorted
  rintro a b (hlt | ⟨heq, -⟩)
  · exact hlt.le
  · exact heq.ge

theorem score_of_mem_ranking {chunk : FusedChunk} (h : chunk ∈ ranking dense sparse) :
    chunk = fusedAt dense sparse chunk.sourceReference ∧
      chunk.score = relativeWeight dense sparse chunk.sourceReference := by
  obtain ⟨reference, -, rfl⟩ := mem_ranking.mp h
  exact ⟨rfl, fusedAt_score dense sparse reference⟩

/-- Of a ranking, the first chunk stands out if any does. -/
theorem standsOut_iff_first {first : FusedChunk} {rest : List FusedChunk}
    (hranking : ranking dense sparse = first :: rest) (hshown : 1 ≤ shown dense sparse limit) :
    StandsOut dense sparse limit ↔
      minimumTopScore ≤ first.score ∧ (2 ≤ shown dense sparse limit →
        ∀ chunk ∈ rest, chunk.score + minimumMargin ≤ first.score) := by
  have hfirst : first ∈ ranking dense sparse := hranking ▸ List.mem_cons_self
  obtain ⟨hfused, hweight⟩ := score_of_mem_ranking hfirst
  have hbest : ∀ chunk ∈ rest, chunk.score ≤ first.score :=
    (List.pairwise_cons.mp (hranking ▸ ranking_scores dense sparse)).1
  constructor
  · rintro ⟨-, reference, hreference, htop, hlead⟩
    have hmem := mem_distinct_iff.mp hreference
    have hle : relativeWeight dense sparse reference ≤ first.score := by
      have hscore := fusedAt_score dense sparse reference
      rw [hranking] at hmem
      rcases List.mem_cons.mp hmem with hsame | hrest
      · rw [relativeWeight, ← hscore, hsame]
      · rw [relativeWeight, ← hscore]
        exact hbest _ hrest
    refine ⟨le_trans htop hle, fun htwo chunk hchunk => ?_⟩
    -- the reference that stands out is the first one's, or the first would be behind it
    have hsame : first.sourceReference = reference := by
      by_contra hne
      have hbehind := hlead htwo _ (mem_distinct_iff.mpr (hfused ▸ hfirst)) hne
      rw [← hweight] at hbehind
      have := minimumMargin_pos
      linarith
    have hchunkMem : chunk ∈ ranking dense sparse := hranking ▸ List.mem_cons_of_mem _ hchunk
    obtain ⟨hchunkFused, hchunkWeight⟩ := score_of_mem_ranking hchunkMem
    have hother : chunk.sourceReference ≠ reference := by
      intro hequal
      have hnodup := ranking_references.nodup_iff.mpr
        (nodup_fusedReferences dense sparse)
      rw [hranking, List.map_cons, List.nodup_cons] at hnodup
      exact hnodup.1 (List.mem_map.mpr ⟨chunk, hchunk, hequal.trans hsame.symm⟩)
    have := hlead htwo _ (mem_distinct_iff.mpr (hchunkFused ▸ hchunkMem)) hother
    rwa [← hchunkWeight, ← hsame, ← hweight] at this
  · rintro ⟨htop, hlead⟩
    refine ⟨hshown, first.sourceReference, mem_distinct_iff.mpr (hfused ▸ hfirst), ?_, ?_⟩
    · rwa [← hweight]
    · intro htwo other hother hne
      have hmem := mem_distinct_iff.mp hother
      rw [hranking] at hmem
      rcases List.mem_cons.mp hmem with hsame | hrest
      · exact absurd (congrArg FusedChunk.sourceReference hsame) hne
      · have := hlead htwo _ hrest
        rwa [fusedAt_score, hweight] at this

/-- **The fused evidence is confident exactly if a reference stands out.** -/
theorem fused_confident_iff :
    (assessScores ((fuse dense sparse limit).map FusedChunk.score)).isConfident = true ↔
      StandsOut dense sparse limit := by
  have hlength := shown_eq dense sparse limit
  cases hfuse : fuse dense sparse limit with
  | nil =>
      rw [hfuse] at hlength
      refine ⟨fun h => Bool.noConfusion h, fun h => ?_⟩
      have := h.1
      rw [← hlength] at this
      cases this
  | cons first shownRest =>
      have hprefix := upTo_isPrefix limit (ranking dense sparse)
      rw [← fuse_eq, hfuse] at hprefix
      obtain ⟨cut, hranking⟩ := hprefix
      have hsorted := ranking_scores dense sparse
      rw [← hranking, List.cons_append] at hsorted
      obtain ⟨hbest, hrest⟩ := List.pairwise_cons.mp hsorted
      rw [hfuse, List.length_cons] at hlength
      rw [standsOut_iff_first hranking.symm (by omega), List.map_cons, isConfident_first_iff]
      · have hscores : ((shownRest ++ cut).map FusedChunk.score).Pairwise fun a b => b ≤ a :=
          List.pairwise_map.mpr hrest
        have htake : (shownRest.map FusedChunk.score) =
            ((shownRest ++ cut).map FusedChunk.score).take shownRest.length := by
          rw [← List.map_take, List.take_left]
        rw [htake, leads_take_iff hscores, ← htake, List.forall_mem_map]
        refine and_congr_right fun _ => imp_congr_left ?_
        rw [← hlength, ne_eq, List.map_eq_nil_iff, ← List.length_eq_zero_iff]
        omega
      · rw [List.forall_mem_map]
        exact fun chunk hchunk => hbest chunk (List.mem_append_left cut hchunk)

/-- The sparse leg alone brings nothing over the floor. -/
theorem not_standsOut_of_dense (h : ∀ chunk ∈ dense, chunk.score ≤ 0) :
    ¬ StandsOut dense sparse limit := by
  rintro ⟨-, reference, -, htop, -⟩
  have hdense : lastShare dense reference = 0 := by
    rw [lastShare]
    cases hlast : lastChunk dense reference with
    | none => rfl
    | some chunk =>
        show share dense chunk = 0
        rw [share]
        cases hbest : bestScore dense with
        | none => rfl
        | some best =>
            obtain ⟨other, hother, hscore⟩ :=
              List.mem_map.mp (List.max?_eq_some_iff.mp hbest).1
            exact if_pos (hscore ▸ h other hother)
  have hsparse := mul_le_mul_of_nonneg_left
    (lastShare_le_one sparse reference) sparseWeight_pos.le
  rw [relativeWeight, hdense] at htop
  norm_num [minimumTopScore, sparseWeight] at htop hsparse
  linarith

end Standing

/-- Every raw score is below the floor. -/
def WeakLegs (dense sparse : List RetrievedChunk) : Prop :=
  ∀ chunk ∈ dense ++ sparse, chunk.score < minimumTopScore

/-- **Weak legs are fused into weak evidence exactly if no reference stands out on the legs'
own scales.** -/
theorem weak_fusion_iff (dense sparse : List RetrievedChunk) (limit : Int) :
    (WeakLegs dense sparse →
        (assessScores ((fuse dense sparse limit).map FusedChunk.score)).isConfident = false) ↔
      (WeakLegs dense sparse → ¬ StandsOut dense sparse limit) := by
  rw [← fused_confident_iff, Bool.not_eq_true]

/-- One article, and that a poor match. -/
theorem poor_match_confident :
    WeakLegs [⟨[], 1 / 10, "kb-1"⟩] [] ∧
      (assessScores ((fuse [⟨[], 1 / 10, "kb-1"⟩] [] 8).map FusedChunk.score)).isConfident =
        true := by
  refine ⟨?_, by decide +kernel⟩
  unfold WeakLegs
  decide +kernel

end Synthia
