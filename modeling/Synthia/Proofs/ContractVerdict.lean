import Synthia.Build.OpenapiDiff
import Mathlib.Algebra.Group.End
import Mathlib.Logic.Equiv.Basic

/-!
# The verdict of the contract gate

The exit status of a run is folded over its documents in the order of their paths, and the
two things that can be wrong with a document are folded in two ways. A missing baseline
raises the status to 2. A breaking change nobody approved sets it to 1, whatever it was.

While only one of the two occurs the order does not matter: the status is 1 if there is such
a change, 2 if there is a missing baseline and 0 if there is neither. Where both occur the
document that is visited last decides, and a renaming makes that one of either kind. A run
over no documents at all answers 2 although no baseline is missing.
-/

namespace Synthia

open Text Schemas

namespace OpenapiDiff

/-- The same run with its documents under other paths: generated, committed and approved
alike. -/
def Run.renamed (run : Run) (rename : Equiv.Perm Name) : Run where
  generated := run.generated.map fun entry => (rename entry.1, entry.2)
  baselines := fun path => run.baselines (rename.symm path)
  approvals := run.approvals.map fun entry =>
    { entry with document := entry.document.map rename }
  today := run.today

/-- No approval that has not expired quotes the finding for that document. -/
def Uncovered (run : Run) (path finding : Name) : Prop :=
  ∀ entry ∈ run.approvals, ¬ (entry.document = some path ∧ entry.finding = some finding ∧
    run.today ≤ entry.expiresOn)

/-- The document has a breaking change that nobody approved. -/
def Breaks (repr : List Name → Name) (run : Run) (entry : Name × Document) : Prop :=
  ∃ baseline, run.baselines entry.1 = some baseline ∧
    ∃ finding ∈ (compare repr baseline entry.2).breaking, Uncovered run entry.1 finding

/-- The document was never published. -/
def Missing (run : Run) (entry : Name × Document) : Prop := run.baselines entry.1 = none

/-- The status of the worst thing found. -/
structure Judged (repr : List Name → Name) (run : Run) (status : Nat) : Prop where
  breaking : (∃ entry ∈ run.generated, Breaks repr run entry) → status = breakingStatus
  missing : (¬ ∃ entry ∈ run.generated, Breaks repr run entry) →
    (∃ entry ∈ run.generated, Missing run entry) → status = missingBaseline
  clean : (¬ ∃ entry ∈ run.generated, Breaks repr run entry) →
    (¬ ∃ entry ∈ run.generated, Missing run entry) → status = 0

/-- What a verdict is to be: that of the worst thing found, and the same under every
renaming. -/
structure Settled (repr : List Name → Name) (run : Run) : Prop where
  renamed : ∀ rename, main repr (run.renamed rename) = main repr run
  judged : Judged repr run (main repr run)

/-! ## One document -/

theorem covers_isNone_iff {run : Run} {path finding : Name} :
    (covers run.approvals run.today path finding).isNone ↔ Uncovered run path finding := by
  rw [Option.isNone_iff_eq_none, covers, List.find?_eq_none]
  simp [Uncovered]

variable {repr : List Name → Name} {run : Run} {entry : Name × Document}

theorem unapproved_isEmpty_iff {baseline current : Document} {path : Name} :
    (unapproved repr run path baseline current).isEmpty ↔
      ¬ ∃ finding ∈ (compare repr baseline current).breaking, Uncovered run path finding := by
  rw [List.isEmpty_iff, unapproved, List.filter_eq_nil_iff]
  simp only [covers_isNone_iff, not_exists, not_and]

theorem visit_missing (h : Missing run entry) (status : Nat) :
    visit repr run status entry = max status missingBaseline := by
  rw [visit, h]

theorem visit_breaks (h : Breaks repr run entry) (status : Nat) :
    visit repr run status entry = breakingStatus := by
  obtain ⟨baseline, hbaseline, hfinding⟩ := h
  rw [visit, hbaseline]
  exact if_neg fun hempty => unapproved_isEmpty_iff.mp hempty hfinding

theorem visit_fine (hmissing : ¬ Missing run entry) (hbreaks : ¬ Breaks repr run entry)
    (status : Nat) : visit repr run status entry = status := by
  rw [visit]
  cases hbaseline : run.baselines entry.1 with
  | none => exact absurd hbaseline hmissing
  | some baseline =>
      refine if_pos (unapproved_isEmpty_iff.mpr fun hfinding => ?_)
      exact hbreaks ⟨baseline, hbaseline, hfinding⟩

theorem visit_le {status : Nat} (h : status ≤ missingBaseline) :
    visit repr run status entry ≤ missingBaseline := by
  by_cases hmissing : Missing run entry
  · rw [visit_missing hmissing]
    exact max_le h le_rfl
  · by_cases hbreaks : Breaks repr run entry
    · rw [visit_breaks hbreaks]
      decide
    · rw [visit_fine hmissing hbreaks]
      exact h

/-! ## All documents -/

theorem foldl_visit_le (entries : List (Name × Document)) {status : Nat}
    (h : status ≤ missingBaseline) : entries.foldl (visit repr run) status ≤ missingBaseline := by
  induction entries generalizing status with
  | nil => exact h
  | cons entry entries ih => exact ih (visit_le h)

/-- Nothing missing: the status is 1 from the first change on that nobody approved. -/
theorem foldl_visit_of_published {entries : List (Name × Document)}
    (h : ∀ entry ∈ entries, ¬ Missing run entry) (status : Nat) :
    ((∃ entry ∈ entries, Breaks repr run entry) →
        entries.foldl (visit repr run) status = breakingStatus) ∧
      ((¬ ∃ entry ∈ entries, Breaks repr run entry) →
        entries.foldl (visit repr run) status = status) := by
  induction entries generalizing status with
  | nil => simp
  | cons entry entries ih =>
      obtain ⟨hnow, hlater⟩ := List.forall_mem_cons.mp h
      simp only [List.mem_cons, exists_eq_or_imp, not_or, List.foldl_cons]
      by_cases hbreaks : Breaks repr run entry
      · rw [visit_breaks hbreaks]
        refine ⟨fun _ => ?_, fun hnone => absurd hbreaks hnone.1⟩
        by_cases hothers : ∃ entry ∈ entries, Breaks repr run entry
        · exact (ih hlater _).1 hothers
        · exact (ih hlater _).2 hothers
      · rw [visit_fine hnow hbreaks]
        refine ⟨fun hsome => (ih hlater status).1 (hsome.resolve_left hbreaks), fun hnone => ?_⟩
        exact (ih hlater status).2 hnone.2

/-- Nothing broken: the status is 2 from the first missing baseline on. -/
theorem foldl_visit_of_compatible {entries : List (Name × Document)}
    (h : ∀ entry ∈ entries, ¬ Breaks repr run entry) {status : Nat}
    (hstatus : status ≤ missingBaseline) :
    ((∃ entry ∈ entries, Missing run entry) →
        entries.foldl (visit repr run) status = missingBaseline) ∧
      ((¬ ∃ entry ∈ entries, Missing run entry) →
        entries.foldl (visit repr run) status = status) := by
  induction entries generalizing status with
  | nil => simp
  | cons entry entries ih =>
      obtain ⟨hnow, hlater⟩ := List.forall_mem_cons.mp h
      simp only [List.mem_cons, exists_eq_or_imp, not_or, List.foldl_cons]
      by_cases hmissing : Missing run entry
      · rw [visit_missing hmissing, max_eq_right hstatus]
        refine ⟨fun _ => ?_, fun hnone => absurd hmissing hnone.1⟩
        by_cases hothers : ∃ entry ∈ entries, Missing run entry
        · exact (ih hlater le_rfl).1 hothers
        · exact (ih hlater le_rfl).2 hothers
      · rw [visit_fine hmissing hnow]
        refine ⟨fun hsome => (ih hlater hstatus).1 (hsome.resolve_left hmissing), fun hnone => ?_⟩
        exact (ih hlater hstatus).2 hnone.2

theorem mem_inOrder {generated : List (Name × Document)} :
    entry ∈ inOrder generated ↔ entry ∈ generated :=
  (List.perm_insertionSort _ generated).mem_iff

theorem exists_inOrder {generated : List (Name × Document)} {P : Name × Document → Prop} :
    (∃ entry ∈ inOrder generated, P entry) ↔ ∃ entry ∈ generated, P entry := by
  simp only [mem_inOrder]

theorem main_eq (h : run.generated ≠ []) :
    main repr run = (inOrder run.generated).foldl (visit repr run) 0 := by
  rw [main, if_neg (by rw [List.isEmpty_iff]; exact h)]

/-- One kind of thing is wrong with the documents at most. -/
def OneKind (repr : List Name → Name) (run : Run) : Prop :=
  ¬ ((∃ entry ∈ run.generated, Breaks repr run entry) ∧
    ∃ entry ∈ run.generated, Missing run entry)

theorem main_judged (hsome : run.generated ≠ []) (h : OneKind repr run) :
    Judged repr run (main repr run) := by
  rw [main_eq hsome]
  by_cases hmissing : ∃ entry ∈ run.generated, Missing run entry
  · have hnone : ¬ ∃ entry ∈ run.generated, Breaks repr run entry :=
      fun hbreaks => h ⟨hbreaks, hmissing⟩
    have hcompatible : ∀ entry ∈ inOrder run.generated, ¬ Breaks repr run entry :=
      fun entry hentry hbreaks => hnone ⟨entry, mem_inOrder.mp hentry, hbreaks⟩
    refine ⟨fun hbreaks => absurd hbreaks hnone, fun _ _ => ?_, fun _ h => absurd hmissing h⟩
    exact (foldl_visit_of_compatible hcompatible (Nat.zero_le _)).1
      (exists_inOrder.mpr hmissing)
  · have hpublished : ∀ entry ∈ inOrder run.generated, ¬ Missing run entry :=
      fun entry hentry hgone => hmissing ⟨entry, mem_inOrder.mp hentry, hgone⟩
    refine ⟨fun hbreaks => ?_, fun _ h => absurd h hmissing, fun hnone _ => ?_⟩
    · exact (foldl_visit_of_published hpublished 0).1 (exists_inOrder.mpr hbreaks)
    · exact (foldl_visit_of_published hpublished 0).2 (by rwa [exists_inOrder])

theorem Judged.unique {first second : Nat} (hfirst : Judged repr run first)
    (hsecond : Judged repr run second) : first = second := by
  by_cases hbreaks : ∃ entry ∈ run.generated, Breaks repr run entry
  · rw [hfirst.breaking hbreaks, hsecond.breaking hbreaks]
  · by_cases hmissing : ∃ entry ∈ run.generated, Missing run entry
    · rw [hfirst.missing hbreaks hmissing, hsecond.missing hbreaks hmissing]
    · rw [hfirst.clean hbreaks hmissing, hsecond.clean hbreaks hmissing]

/-! ## Renaming -/

theorem missing_renamed (rename : Equiv.Perm Name) (entry : Name × Document) :
    Missing (run.renamed rename) (rename entry.1, entry.2) ↔ Missing run entry := by
  simp [Missing, Run.renamed]

theorem breaks_renamed (rename : Equiv.Perm Name) (entry : Name × Document) :
    Breaks repr (run.renamed rename) (rename entry.1, entry.2) ↔ Breaks repr run entry := by
  simp [Breaks, Uncovered, Run.renamed, Option.map_eq_some_iff]

theorem exists_renamed {P Q : Name × Document → Prop} {rename : Equiv.Perm Name}
    (h : ∀ entry, P (rename entry.1, entry.2) ↔ Q entry) :
    (∃ entry ∈ (run.renamed rename).generated, P entry) ↔ ∃ entry ∈ run.generated, Q entry := by
  constructor
  · intro ⟨renamed, hrenamed, hp⟩
    obtain ⟨entry, hentry, rfl⟩ := List.mem_map.mp hrenamed
    exact ⟨entry, hentry, (h entry).mp hp⟩
  · intro ⟨entry, hentry, hq⟩
    exact ⟨_, List.mem_map_of_mem hentry, (h entry).mpr hq⟩

theorem exists_breaks_renamed {rename : Equiv.Perm Name} :
    (∃ entry ∈ (run.renamed rename).generated, Breaks repr (run.renamed rename) entry) ↔
      ∃ entry ∈ run.generated, Breaks repr run entry :=
  exists_renamed (breaks_renamed rename)

theorem exists_missing_renamed {rename : Equiv.Perm Name} :
    (∃ entry ∈ (run.renamed rename).generated, Missing (run.renamed rename) entry) ↔
      ∃ entry ∈ run.generated, Missing run entry :=
  exists_renamed (missing_renamed rename)

theorem Judged.of_renamed {rename : Equiv.Perm Name} {status : Nat}
    (h : Judged repr (run.renamed rename) status) : Judged repr run status where
  breaking := by simpa only [exists_breaks_renamed] using h.breaking
  missing := by simpa only [exists_breaks_renamed, exists_missing_renamed] using h.missing
  clean := by simpa only [exists_breaks_renamed, exists_missing_renamed] using h.clean

theorem oneKind_renamed {rename : Equiv.Perm Name} :
    OneKind repr (run.renamed rename) ↔ OneKind repr run := by
  rw [OneKind, exists_breaks_renamed, exists_missing_renamed, OneKind]

theorem settled_of_oneKind (hsome : run.generated ≠ []) (h : OneKind repr run) :
    Settled repr run := by
  have hjudged := main_judged hsome h
  refine ⟨fun rename => Judged.unique ?_ hjudged, hjudged⟩
  have hrenamed : (run.renamed rename).generated ≠ [] := by simpa [Run.renamed] using hsome
  exact (main_judged hrenamed (oneKind_renamed.mpr h)).of_renamed

/-! ## The document visited last -/

theorem inOrder_pairwise (generated : List (Name × Document)) :
    (inOrder generated).Pairwise fun first second =>
      first.1.splitOn 0x2F ≤ second.1.splitOn 0x2F := by
  have : Std.Total fun first second : Name × Document =>
      first.1.splitOn 0x2F ≤ second.1.splitOn 0x2F := ⟨fun _ _ => le_total _ _⟩
  have : IsTrans (Name × Document) fun first second =>
      first.1.splitOn 0x2F ≤ second.1.splitOn 0x2F := ⟨fun _ _ _ => le_trans⟩
  exact List.pairwise_insertionSort _ generated

/-- The document that is visited last, behind which no other path comes. -/
theorem exists_last (h : run.generated ≠ []) : ∃ before last,
    inOrder run.generated = before ++ [last] ∧
      ∀ entry ∈ run.generated, entry.1.splitOn 0x2F ≤ last.1.splitOn 0x2F := by
  have hsome : inOrder run.generated ≠ [] := by
    intro hnil
    obtain ⟨entry, hentry⟩ := List.exists_mem_of_ne_nil _ h
    rw [← mem_inOrder, hnil] at hentry
    cases hentry
  obtain ⟨before, last, hsplit⟩ := (List.eq_nil_or_concat _).resolve_left hsome
  rw [List.concat_eq_append] at hsplit
  refine ⟨before, last, hsplit, fun entry hentry => ?_⟩
  have hsorted := inOrder_pairwise run.generated
  rw [← mem_inOrder] at hentry
  rw [hsplit] at hsorted hentry
  rcases List.mem_append.mp hentry with hbefore | hlast
  · exact (List.pairwise_append.mp hsorted).2.2 entry hbefore last (List.mem_singleton_self last)
  · rw [List.mem_singleton.mp hlast]

/-- With a missing baseline there is a renaming under which one is visited last. -/
theorem exists_renamed_missing (h : ∃ entry ∈ run.generated, Missing run entry) :
    ∃ rename, main repr (run.renamed rename) = missingBaseline := by
  obtain ⟨entry, hentry, hmissing⟩ := h
  obtain ⟨_, top, htop, hbehind⟩ := exists_last (List.ne_nil_of_mem hentry)
  have htop : top ∈ run.generated := mem_inOrder.mp (htop ▸ List.mem_concat_self)
  refine ⟨Equiv.swap entry.1 top.1, ?_⟩
  have hsome : (run.renamed (Equiv.swap entry.1 top.1)).generated ≠ [] := by
    simpa [Run.renamed] using List.ne_nil_of_mem hentry
  obtain ⟨before, last, hsplit, hlast⟩ := exists_last hsome
  -- the paths are the same as before, so the last of them is
  have hsame : last.1 = top.1 := by
    have hmem : last ∈ (run.renamed (Equiv.swap entry.1 top.1)).generated :=
      mem_inOrder.mp (hsplit ▸ List.mem_concat_self)
    have hbefore : last.1.splitOn 0x2F ≤ top.1.splitOn 0x2F := by
      obtain ⟨original, horiginal, rfl⟩ := List.mem_map.mp hmem
      dsimp only
      rw [Equiv.swap_apply_def]
      split
      · exact le_rfl
      · split
        · exact hbehind entry hentry
        · exact hbehind original horiginal
    have hbehind : top.1.splitOn 0x2F ≤ last.1.splitOn 0x2F := by
      have hentry' := hlast _ (List.mem_map_of_mem hentry)
      rwa [Equiv.swap_apply_left] at hentry'
    have hparts := congrArg [0x2F].intercalate (le_antisymm hbefore hbehind)
    rwa [List.intercalate_splitOn, List.intercalate_splitOn] at hparts
  have hgone : Missing (run.renamed (Equiv.swap entry.1 top.1)) last := by
    show run.baselines ((Equiv.swap entry.1 top.1).symm last.1) = none
    rw [hsame, Equiv.symm_swap, Equiv.swap_apply_right]
    exact hmissing
  rw [main_eq hsome, hsplit, List.foldl_append, List.foldl_cons, List.foldl_nil,
    visit_missing hgone]
  exact max_eq_right (foldl_visit_le before (Nat.zero_le _))

/-- A run is settled exactly if it has a document, and no missing baseline beside a breaking
change that nobody approved. -/
theorem run_settled_iff : Settled repr run ↔ run.generated ≠ [] ∧ OneKind repr run := by
  constructor
  · intro h
    constructor
    · intro hnil
      have hclean := h.judged.clean (by simp [hnil]) (by simp [hnil])
      rw [main, hnil] at hclean
      cases hclean
    · intro ⟨hbreaks, hmissing⟩
      obtain ⟨rename, hrename⟩ := exists_renamed_missing hmissing
      rw [h.renamed rename, h.judged.breaking hbreaks] at hrename
      cases hrename
  · intro ⟨hsome, honeKind⟩
    exact settled_of_oneKind hsome honeKind

/-- Two documents: one without an operation its baseline has, and behind it one without a
baseline. -/
def twoKinds : Run where
  generated := [(ofString "a.openapi.json", {}), (ofString "b.openapi.json", {})]
  baselines := fun path =>
    if path = ofString "a.openapi.json" then
      some { paths := [(ofString "/sessions", [(ofString "get", {})])] }
    else none
  approvals := []
  today := ofString "2026-01-01"

theorem not_settled_twoKinds : ¬ Settled (fun _ => []) twoKinds := by
  intro h
  have hbreaks : ∃ entry ∈ twoKinds.generated, Breaks (fun _ => []) twoKinds entry := by
    refine ⟨_, List.mem_cons_self, _, rfl, ofString "operation removed: GET /sessions", ?_, ?_⟩
    · decide +kernel
    · intro approval happroval
      cases happroval
  have hstatus : main (fun _ => []) twoKinds = missingBaseline := by decide +kernel
  rw [h.judged.breaking hbreaks] at hstatus
  cases hstatus

end OpenapiDiff

end Synthia
