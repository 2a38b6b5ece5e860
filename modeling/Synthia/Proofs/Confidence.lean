import Synthia.Governance.Gate
import Mathlib.Data.List.Sort
import Mathlib.Data.Rat.Lemmas
import Mathlib.Tactic.Linarith

/-!
# What makes an assessment confident

`assess_scores` sorts, and compares the best score with the one behind it. Neither the
sort nor the order of the scores is in what it decides: an assessment is confident when
some score clears the minimum and leads every other by the margin. A second score equal
to the best is one of the others, and no score leads its equal.
-/

namespace Synthia

/-- The score is good enough and alone at the top. -/
def Leads (top : ℚ) (others : List ℚ) : Prop :=
  minimumTopScore ≤ top ∧ ∀ other ∈ others, other + minimumMargin ≤ top

theorem clearsThresholds_iff {top margin : ℚ} :
    clearsThresholds top margin = true ↔ minimumTopScore ≤ top ∧ minimumMargin ≤ margin := by
  rw [clearsThresholds, Bool.and_eq_true, decide_eq_true_eq, decide_eq_true_eq]

theorem minimumMargin_pos : 0 < minimumMargin := by norm_num [minimumMargin]

theorem minimumMargin_le_minimumTopScore : minimumMargin ≤ minimumTopScore := by
  norm_num [minimumMargin, minimumTopScore]

theorem Leads.lt {top other : ℚ} {others : List ℚ} (h : Leads top others)
    (hother : other ∈ others) : other < top := by
  have := h.2 other hother
  have := minimumMargin_pos
  linarith

theorem Leads.mono {top : ℚ} {others fewer : List ℚ} (h : Leads top others)
    (hfewer : fewer ⊆ others) : Leads top fewer :=
  ⟨h.1, fun other hother => h.2 other (hfewer hother)⟩

theorem scores_sorted (scores : List ℚ) :
    (scores.insertionSort fun a b : ℚ => b ≤ a).Pairwise fun a b : ℚ => b ≤ a := by
  have : Std.Total fun a b : ℚ => b ≤ a := ⟨fun a b => le_total b a⟩
  have : IsTrans ℚ fun a b => b ≤ a := ⟨fun _ _ _ hab hbc => le_trans hbc hab⟩
  exact List.pairwise_insertionSort _ scores

/-- The sort does not see the order it is given. -/
theorem sort_eq_of_perm {scores others : List ℚ} (h : scores.Perm others) :
    (scores.insertionSort fun a b : ℚ => b ≤ a) = others.insertionSort fun a b : ℚ => b ≤ a := by
  have hperm := (List.perm_insertionSort (fun a b : ℚ => b ≤ a) scores).trans
    (h.trans (List.perm_insertionSort (fun a b : ℚ => b ≤ a) others).symm)
  exact hperm.eq_of_pairwise (fun _ _ _ _ hab hba => le_antisymm hba hab)
    (scores_sorted scores) (scores_sorted others)

theorem assessScores_perm {scores others : List ℚ} (h : scores.Perm others) :
    assessScores scores = assessScores others := by
  rw [assessScores, assessScores, sort_eq_of_perm h]

/-- **The rule, without the sort.** -/
theorem isConfident_iff {scores : List ℚ} :
    (assessScores scores).isConfident = true ↔
      ∃ top others, scores.Perm (top :: others) ∧ Leads top others := by
  constructor
  · intro h
    have hperm := (List.perm_insertionSort (fun a b : ℚ => b ≤ a) scores).symm
    have hsorted := scores_sorted scores
    rw [assessScores] at h
    cases hsort : scores.insertionSort fun a b : ℚ => b ≤ a with
    | nil =>
        rw [hsort] at h
        cases h
    | cons top others =>
        rw [hsort] at h hperm hsorted
        refine ⟨top, others, hperm, ?_⟩
        cases others with
        | nil => exact ⟨(clearsThresholds_iff.mp h).1, fun _ hnone => nomatch hnone⟩
        | cons second rest =>
            obtain ⟨htop, hmargin⟩ := clearsThresholds_iff.mp h
            refine ⟨htop, fun other hother => ?_⟩
            have hle : other ≤ second := by
              rcases List.mem_cons.mp hother with rfl | hrest
              · exact le_refl _
              · exact (List.pairwise_cons.mp (List.pairwise_cons.mp hsorted).2).1 other hrest
            linarith
  · rintro ⟨top, others, hperm, hleads⟩
    have hfirst : ((top :: others).insertionSort fun a b : ℚ => b ≤ a) =
        top :: others.insertionSort fun a b : ℚ => b ≤ a :=
      List.insertionSort_cons_of_forall_rel _ fun other hother => (hleads.lt hother).le
    rw [assessScores_perm hperm, assessScores, hfirst]
    cases hsort : others.insertionSort fun a b : ℚ => b ≤ a with
    | nil =>
        exact clearsThresholds_iff.mpr
          ⟨hleads.1, le_trans minimumMargin_le_minimumTopScore hleads.1⟩
    | cons second rest =>
        have hsecond : second ∈ others := by
          rw [← List.mem_insertionSort (fun a b : ℚ => b ≤ a), hsort]
          exact List.mem_cons_self
        have := hleads.2 second hsecond
        exact clearsThresholds_iff.mpr ⟨hleads.1, by linarith⟩

/-! ## Where the leader is -/

/-- The score that leads `scores` and `others` together is one of `scores`. -/
def LedBy (scores others : List ℚ) : Prop :=
  ∃ top rest, scores.Perm (top :: rest) ∧ Leads top (rest ++ others)

section LedBy

variable {scores others : List ℚ}

theorem LedBy.confident (h : LedBy scores others) :
    (assessScores (scores ++ others)).isConfident = true := by
  obtain ⟨top, rest, hperm, hleads⟩ := h
  exact isConfident_iff.mpr ⟨top, rest ++ others, hperm.append_right others, hleads⟩

/-- The leader of two lists is in the one or in the other. -/
theorem isConfident_append_iff :
    (assessScores (scores ++ others)).isConfident = true ↔
      LedBy scores others ∨ LedBy others scores := by
  constructor
  · intro h
    obtain ⟨top, rest, hperm, hleads⟩ := isConfident_iff.mp h
    have hmem : top ∈ scores ++ others := hperm.mem_iff.mpr List.mem_cons_self
    rcases List.mem_append.mp hmem with hmem | hmem
    · have hsplit := List.perm_cons_erase hmem
      have hrest := ((hsplit.append_right others).symm.trans hperm).cons_inv
      exact Or.inl ⟨top, _, hsplit, hleads.mono hrest.subset⟩
    · have hsplit := List.perm_cons_erase hmem
      have hswap : (scores ++ others).Perm (top :: (others.erase top ++ scores)) :=
        List.perm_append_comm.trans (hsplit.append_right scores)
      have hrest := (hswap.symm.trans hperm).cons_inv
      exact Or.inr ⟨top, _, hsplit, hleads.mono hrest.subset⟩
  · rintro (h | h)
    · exact h.confident
    · rw [assessScores_perm List.perm_append_comm]
      exact h.confident

/-- Two lists do not lead each other. -/
theorem LedBy.not_swap (h : LedBy scores others) : ¬ LedBy others scores := by
  obtain ⟨top, rest, hperm, hleads⟩ := h
  rintro ⟨other, behind, hotherPerm, hotherLeads⟩
  have htop : top ∈ scores := hperm.mem_iff.mpr List.mem_cons_self
  have hother : other ∈ others := hotherPerm.mem_iff.mpr List.mem_cons_self
  have hlt := hleads.lt (List.mem_append_right rest hother)
  exact lt_asymm hlt (hotherLeads.lt (List.mem_append_right behind htop))

/-- Only which scores the others are matters, not how often each is there. -/
theorem LedBy.mono {fewer : List ℚ} (h : LedBy scores others) (hfewer : fewer ⊆ others) :
    LedBy scores fewer := by
  obtain ⟨top, rest, hperm, hleads⟩ := h
  refine ⟨top, rest, hperm, hleads.mono ?_⟩
  exact List.append_subset.mpr
    ⟨List.subset_append_left rest others,
      List.Subset.trans hfewer (List.subset_append_right rest others)⟩

/-- No list leads that is there twice: the second copy of its best is one of the others. -/
theorem not_ledBy_copies {copies : List ℚ} (hcopies : scores ⊆ copies)
    (hback : copies ⊆ scores) : ¬ LedBy (scores ++ copies) others := by
  rintro ⟨top, rest, hperm, hleads⟩
  have hmem : top ∈ scores ++ copies := hperm.mem_iff.mpr List.mem_cons_self
  have hfirst : top ∈ scores := (List.mem_append.mp hmem).elim id fun h => hback h
  have htwice := hperm.count_eq top
  rw [List.count_append, List.count_cons_self] at htwice
  have hone := List.count_pos_iff.mpr hfirst
  have hother := List.count_pos_iff.mpr (hcopies hfirst)
  have hrest : top ∈ rest := List.count_pos_iff.mp (by omega)
  exact lt_irrefl top (hleads.lt (List.mem_append_left others hrest))

end LedBy

/-! ## Padding -/

/-- The best score of an assessment is one of the scores, where there are any. -/
theorem topScore_mem {scores : List ℚ} (h : scores ≠ []) :
    (assessScores scores).topScore ∈ scores := by
  have hperm := List.perm_insertionSort (fun a b : ℚ => b ≤ a) scores
  rw [assessScores]
  cases hsort : scores.insertionSort fun a b : ℚ => b ≤ a with
  | nil =>
      rw [hsort] at hperm
      exact absurd hperm.symm.eq_nil h
  | cons top others =>
      rw [hsort] at hperm
      have htop : top ∈ scores := hperm.mem_iff.mp List.mem_cons_self
      cases others with
      | nil => exact htop
      | cons second rest => exact htop

/-- A candidate no better than the best adds no leader: it is not one itself, and whichever
score leads with it led before. -/
theorem isConfident_of_cons {scores : List ℚ} {score : ℚ}
    (hscore : score ≤ (assessScores scores).topScore)
    (h : (assessScores (score :: scores)).isConfident = true) :
    (assessScores scores).isConfident = true := by
  obtain ⟨top, others, hperm, hleads⟩ := isConfident_iff.mp h
  rcases List.mem_cons.mp (hperm.mem_iff.mpr List.mem_cons_self) with rfl | htop
  · exfalso
    have hothers : scores.Perm others := hperm.cons_inv
    by_cases hempty : scores = []
    · subst hempty
      have hzero : top ≤ 0 := hscore
      have hminimum := hleads.1
      norm_num [minimumTopScore] at hminimum
      linarith
    · have hbest := hothers.mem_iff.mp (topScore_mem hempty)
      exact absurd (hleads.lt hbest) (not_lt.mpr hscore)
  · have hsplit := List.perm_cons_erase htop
    have hboth : (top :: score :: scores.erase top).Perm (top :: others) :=
      (List.Perm.swap score top _).trans ((hsplit.cons score).symm.trans hperm)
    refine isConfident_iff.mpr ⟨top, _, hsplit, hleads.mono ?_⟩
    exact fun other hother => hboth.cons_inv.mem_iff.mp (List.mem_cons_of_mem _ hother)

/-- **Confidence depends on the evidence.** An assessment is the same in every order of
its scores, and candidates no better than the best, wherever they are put, never make an
unconfident one confident. -/
theorem confidence_of_evidence (scores : List ℚ) :
    (∀ others, scores.Perm others → assessScores scores = assessScores others) ∧
      ∀ score padded, score ≤ (assessScores scores).topScore →
        padded.Perm (score :: scores) → (assessScores scores).isConfident = false →
        (assessScores padded).isConfident = false := by
  refine ⟨fun others => assessScores_perm, ?_⟩
  intro score padded hscore hperm hunsure
  rw [assessScores_perm hperm, ← Bool.not_eq_true]
  intro hconfident
  rw [isConfident_of_cons hscore hconfident] at hunsure
  cases hunsure

/-- A tie at the top, in the other order and with a third at the bottom. -/
theorem tie_stays_unsure :
    assessScores [9 / 10, 9 / 10, 1 / 2] = assessScores [1 / 2, 9 / 10, 9 / 10] ∧
      (assessScores [9 / 10, 1 / 10, 9 / 10, 1 / 2]).isConfident = false := by
  obtain ⟨horder, hpadding⟩ := confidence_of_evidence [9 / 10, 9 / 10, 1 / 2]
  refine ⟨horder _ (by decide +kernel), hpadding (1 / 10) _ ?_ (by decide +kernel) ?_⟩
  · decide +kernel
  · decide +kernel

end Synthia
