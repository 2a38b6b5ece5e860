import Synthia.Proofs.Gate

/-!
# What knowledge can change

The gate reads the knowledge condition in one place and as one bit: whether it
withholds. Two requests that differ in nothing else therefore get the same answer
when that bit agrees, and when it does not the withholding one is either refused
before knowledge is looked at, where both are, or refused for it.

What the other gets then is whatever the treatment's branch answers. That branch
refuses as well as proceeding and suspending, and knowledge comes before it, so a
withheld request can stand against one that was refused for its own decision. It
is never the more permissive of the two.

The policy's half is about strictness. Each of its rules answers `NOT_ALLOWED`,
the strictest treatment, so adding a rule that applies can only tighten.
-/

namespace Synthia

/-- The refusals a treatment's own branch makes, once knowledge has passed. -/
def GateReason.ofDecision : GateReason → Bool
  | .wrongDecisionKind | .notTheRequester | .decisionBoundToAnotherVersion
  | .consentRefused | .approverHoldsNoAcceptedRole | .approvalRejected
  | .authorizationExpired | .authorizationWindowMissing => true
  | .tenantNotAdmitted | .treatmentRefuses | .autoTreatment | .awaitingConsent
  | .awaitingApproval | .consentGranted | .approvalGranted | .knowledgeWithheld => false

/-- An outcome grants no more than another: it is the other, or a refusal under
the same treatment. -/
def GateOutcome.NoMorePermissive (outcome other : GateOutcome) : Prop :=
  outcome = other ∨
    outcome.disposition = .refuse ∧ outcome.treatment = other.treatment ∧
      outcome.treatmentReason = other.treatmentReason

/-- Refused for missing knowledge where the other was let past the check. -/
def GateOutcome.WithheldFrom (outcome other : GateOutcome) : Prop :=
  outcome.disposition = .refuse ∧ outcome.reason = .knowledgeWithheld ∧
    (other.disposition ≠ .refuse ∨ other.reason.ofDecision = true)

/-- A request under another knowledge assessment. -/
def GateRequest.assessed (request : GateRequest) (knowledge : KnowledgeCondition) :
    GateRequest :=
  { request with knowledge }

/-! ## The one place knowledge is read -/

section Knowledge

variable {request : GateRequest} {knowledge other : KnowledgeCondition}

theorem evaluate_congr (h : knowledge.withholds = other.withholds) :
    evaluate (request.assessed knowledge) = evaluate (request.assessed other) := by
  unfold evaluate GateRequest.assessed
  dsimp only
  rw [h]
  rfl

theorem windowRefusal_ofDecision {reason : GateReason}
    (h : windowRefusal request = some reason) : reason.ofDecision = true := by
  unfold windowRefusal at h
  split at h
  · injection h with h
    subst h
    rfl
  · split at h
    · injection h with h
      subst h
      rfl
    · cases h

/-- What a branch refuses, it refuses for the decision it was given. -/
theorem evaluateConsent_refuses (request : GateRequest) (treatment : TreatmentDecision) :
    (evaluateConsent request treatment).disposition ≠ .refuse ∨
      (evaluateConsent request treatment).reason.ofDecision = true := by
  unfold evaluateConsent
  split
  · exact Or.inl (by simp)
  · exact Or.inr rfl
  · split
    · exact Or.inr rfl
    · split
      · exact Or.inr rfl
      · split
        · exact Or.inr rfl
        · split
          · next hwindow => exact Or.inr (windowRefusal_ofDecision hwindow)
          · exact Or.inl (by simp)

theorem evaluateApproval_refuses (request : GateRequest) (treatment : TreatmentDecision)
    (entry : CatalogueEntry) :
    (evaluateApproval request treatment entry).disposition ≠ .refuse ∨
      (evaluateApproval request treatment entry).reason.ofDecision = true := by
  unfold evaluateApproval
  split
  · exact Or.inl (by simp)
  · exact Or.inr rfl
  · split
    · exact Or.inr rfl
    · dsimp only
      split
      · exact Or.inr rfl
      · split
        · exact Or.inr rfl
        · split
          · next hwindow => exact Or.inr (windowRefusal_ofDecision hwindow)
          · exact Or.inl (by simp)

/-- Withholding knowledge either changes nothing or refuses for itself what was
past the earlier checks. -/
theorem evaluate_withholding {outcome otherOutcome : GateOutcome}
    (hwithholds : knowledge.withholds = true) (hother : other.withholds = false)
    (h : evaluate (request.assessed knowledge) = .ok outcome)
    (ho : evaluate (request.assessed other) = .ok otherOutcome) :
    outcome = otherOutcome ∨ outcome.WithheldFrom otherOutcome := by
  obtain ⟨decision, htreatment⟩ := assignTreatment_total request.entry request.isEntitled
  unfold evaluate GateRequest.assessed at h ho
  dsimp only at h ho
  rw [htreatment] at h ho
  simp only [Except.bind, bind, pure, Except.pure, Except.ok.injEq, hwithholds, hother]
    at h ho
  subst h ho
  split
  · exact Or.inl rfl
  · split
    · exact Or.inl rfl
    · next hallowed =>
        simp only [if_true, Bool.false_eq_true, if_false]
        refine Or.inr ⟨rfl, rfl, ?_⟩
        split
        · exact Or.inl (by simp)
        · split
          · next hnone =>
              -- past the policy there is an entry: a missing one is `NOT_ALLOWED`
              obtain ⟨found, hfound, _⟩ := assignTreatment_allowed htreatment hallowed
              rw [hnone] at hfound
              cases hfound
          · split
            · exact evaluateConsent_refuses _ _
            · exact evaluateApproval_refuses _ _ _

theorem GateOutcome.WithheldFrom.noMorePermissive {outcome otherOutcome : GateOutcome}
    (h : evaluate (request.assessed knowledge) = .ok outcome)
    (ho : evaluate (request.assessed other) = .ok otherOutcome)
    (hwithheld : outcome.WithheldFrom otherOutcome) :
    outcome.NoMorePermissive otherOutcome := by
  obtain ⟨decision, htreatment⟩ := assignTreatment_total request.entry request.isEntitled
  obtain ⟨htreated, hreason⟩ :=
    @evaluate_treatment (request.assessed knowledge) _ _ htreatment h
  obtain ⟨hotherTreated, hotherReason⟩ :=
    @evaluate_treatment (request.assessed other) _ _ htreatment ho
  exact Or.inr ⟨hwithheld.1, htreated.trans hotherTreated.symm, hreason.trans hotherReason.symm⟩

/-- Any two assessments of one request: the same outcome, or one withheld from
the other. -/
theorem evaluate_assessed {outcome otherOutcome : GateOutcome}
    (h : evaluate (request.assessed knowledge) = .ok outcome)
    (ho : evaluate (request.assessed other) = .ok otherOutcome) :
    outcome = otherOutcome ∨
      (knowledge.withholds = true ∧ outcome.WithheldFrom otherOutcome) ∨
      (other.withholds = true ∧ otherOutcome.WithheldFrom outcome) := by
  cases hwithholds : knowledge.withholds with
  | true =>
      cases hother : other.withholds with
      | true =>
          rw [evaluate_congr (hwithholds.trans hother.symm), ho] at h
          injection h with h
          exact Or.inl h.symm
      | false =>
          rcases evaluate_withholding hwithholds hother h ho with hsame | hwithheld
          · exact Or.inl hsame
          · exact Or.inr (Or.inl ⟨rfl, hwithheld⟩)
  | false =>
      cases hother : other.withholds with
      | true =>
          rcases evaluate_withholding hother hwithholds ho h with hsame | hwithheld
          · exact Or.inl hsame.symm
          · exact Or.inr (Or.inr ⟨rfl, hwithheld⟩)
      | false =>
          rw [evaluate_congr (hwithholds.trans hother.symm), ho] at h
          injection h with h
          exact Or.inl h.symm

end Knowledge

/-! ## The policy's rules -/

/-- The conditions under which `assign_treatment` refuses an entry it was given. -/
inductive PolicyCondition where
  | notEntitled
  | requiresElevation
  | noRoleAccepted
  deriving DecidableEq, Repr

/-- Whether a condition holds of an entry and its entitlement. -/
def PolicyCondition.holds (entry : CatalogueEntry) (isEntitled : Bool) :
    PolicyCondition → Bool
  | .notEntitled => !isEntitled
  | .requiresElevation => entry.requiresElevation
  | .noRoleAccepted => entry.acceptedRoles.isEmpty

theorem strictness_le_notAllowed (treatment : ExecutionTreatment) :
    treatment.strictness ≤ ExecutionTreatment.notAllowed.strictness := by
  cases treatment <;> simp [ExecutionTreatment.strictness]

/-- The rules by the conditions they test: the default stands, or `NOT_ALLOWED`
does, because a condition of the entry's holds. -/
theorem assignTreatment_rules {entry : CatalogueEntry} {isEntitled : Bool}
    {decision : TreatmentDecision}
    (h : assignTreatment (some entry) isEntitled = .ok decision) :
    (decision.treatment = .notAllowed ∧
        (PolicyCondition.notEntitled.holds entry isEntitled = true ∨
          PolicyCondition.requiresElevation.holds entry isEntitled = true ∨
          (entry.treatment = .staffApproval ∧
            PolicyCondition.noRoleAccepted.holds entry isEntitled = true))) ∨
      (decision.treatment = entry.treatment ∧
        PolicyCondition.notEntitled.holds entry isEntitled = false ∧
        PolicyCondition.requiresElevation.holds entry isEntitled = false ∧
        ¬ (entry.treatment = .staffApproval ∧
          PolicyCondition.noRoleAccepted.holds entry isEntitled = true)) := by
  rw [assignTreatment_some] at h
  injection h with h
  subst h
  split
  · next hentitled => exact Or.inl ⟨rfl, Or.inl (by simp [PolicyCondition.holds, hentitled])⟩
  · next hentitled =>
      split
      · next helevation => exact Or.inl ⟨rfl, Or.inr (Or.inl helevation)⟩
      · next helevation =>
          split
          · next hroles => exact Or.inl ⟨rfl, Or.inr (Or.inr hroles)⟩
          · next hroles =>
              refine Or.inr ⟨rfl, ?_, ?_, hroles⟩
              · simpa [PolicyCondition.holds] using hentitled
              · simpa [PolicyCondition.holds] using helevation

theorem assignTreatment_narrows {entry : CatalogueEntry} {isEntitled : Bool}
    {decision : TreatmentDecision}
    (h : assignTreatment (some entry) isEntitled = .ok decision) :
    entry.treatment.strictness ≤ decision.treatment.strictness := by
  rcases assignTreatment_rules h with ⟨hrefused, _⟩ | ⟨hdefault, _⟩
  · rw [hrefused]
    exact strictness_le_notAllowed _
  · rw [hdefault]

/-- A stricter default under more conditions is assigned a treatment at least as
strict. -/
theorem assignTreatment_mono {entry other : CatalogueEntry} {isEntitled otherEntitled : Bool}
    {decision otherDecision : TreatmentDecision}
    (hdefault : entry.treatment.strictness ≤ other.treatment.strictness)
    (hconditions : ∀ condition : PolicyCondition,
      condition.holds entry isEntitled = true → condition.holds other otherEntitled = true)
    (h : assignTreatment (some entry) isEntitled = .ok decision)
    (ho : assignTreatment (some other) otherEntitled = .ok otherDecision) :
    decision.treatment.strictness ≤ otherDecision.treatment.strictness := by
  rcases assignTreatment_rules ho with ⟨hrefused, _⟩ | ⟨hstands, hentitled, helevation, hroles⟩
  · rw [hrefused]
    exact strictness_le_notAllowed _
  · rcases assignTreatment_rules h with ⟨hrefused, hcause⟩ | ⟨hkept, _⟩
    · rcases hcause with hcause | hcause | ⟨hstaff, hcause⟩
      · rw [hconditions _ hcause] at hentitled
        cases hentitled
      · rw [hconditions _ hcause] at helevation
        cases helevation
      · -- the other default is `STAFF_APPROVAL` too, which the empty set refuses, or
        -- `NOT_ALLOWED` already
        have hotherRoles := hconditions _ hcause
        rw [hstands, hrefused]
        rw [hstaff] at hdefault
        cases htreatment : other.treatment with
        | auto | endUserApproval =>
            rw [htreatment] at hdefault
            exact absurd hdefault (by simp [ExecutionTreatment.strictness])
        | staffApproval => exact absurd ⟨htreatment, hotherRoles⟩ hroles
        | notAllowed => exact le_rfl
    · rw [hkept, hstands]
      exact hdefault

/-- **Knowledge only withholds, and policy only narrows.** Two requests that
differ in the knowledge assessment alone get the same outcome, or the one that
withholds is refused as `KNOWLEDGE_WITHHELD` where the other proceeded, suspended
or was refused for its own decision; and no assessment yields more than the
request would get without one. The treatment is at least as strict as the entry's
default, and as strict as that of any entry with a laxer default and fewer
conditions against it; an unregistered operation gets the strictest. -/
theorem knowledge_only_withholds :
    (∀ (request : GateRequest) (knowledge other : KnowledgeCondition),
      ∃ outcome otherOutcome,
        evaluate (request.assessed knowledge) = .ok outcome ∧
        evaluate (request.assessed other) = .ok otherOutcome ∧
        (outcome = otherOutcome ∨
          (knowledge.withholds = true ∧ outcome.WithheldFrom otherOutcome) ∨
          (other.withholds = true ∧ otherOutcome.WithheldFrom outcome)) ∧
        (other.withholds = false → outcome.NoMorePermissive otherOutcome)) ∧
    (∀ (entry : CatalogueEntry) (isEntitled : Bool), ∃ decision,
      assignTreatment (some entry) isEntitled = .ok decision ∧
      entry.treatment.strictness ≤ decision.treatment.strictness ∧
      ∀ (laxer : CatalogueEntry) (laxerEntitled : Bool) (laxerDecision : TreatmentDecision),
        laxer.treatment.strictness ≤ entry.treatment.strictness →
        (∀ condition : PolicyCondition, condition.holds laxer laxerEntitled = true →
          condition.holds entry isEntitled = true) →
        assignTreatment (some laxer) laxerEntitled = .ok laxerDecision →
        laxerDecision.treatment.strictness ≤ decision.treatment.strictness) ∧
    ∀ isEntitled, ∃ decision, assignTreatment none isEntitled = .ok decision ∧
      ∀ treatment : ExecutionTreatment,
        treatment.strictness ≤ decision.treatment.strictness := by
  refine ⟨?_, ?_, fun isEntitled => ⟨_, assignTreatment_none isEntitled, strictness_le_notAllowed⟩⟩
  · intro request knowledge other
    obtain ⟨outcome, h⟩ := evaluate_total (request.assessed knowledge)
    obtain ⟨otherOutcome, ho⟩ := evaluate_total (request.assessed other)
    have hassessed := evaluate_assessed h ho
    refine ⟨outcome, otherOutcome, h, ho, hassessed, ?_⟩
    intro hother
    rcases hassessed with hsame | ⟨_, hwithheld⟩ | ⟨hwithholds, _⟩
    · exact Or.inl hsame
    · exact GateOutcome.WithheldFrom.noMorePermissive h ho hwithheld
    · rw [hother] at hwithholds
      cases hwithholds
  · intro entry isEntitled
    obtain ⟨decision, h⟩ := assignTreatment_total (some entry) isEntitled
    refine ⟨decision, h, assignTreatment_narrows h, ?_⟩
    intro laxer laxerEntitled laxerDecision hdefault hconditions hlaxer
    exact assignTreatment_mono hdefault hconditions hlaxer h

/-! ## A refusal that knowledge replaces -/

/-- A request for the requester's own consent, which they have refused. -/
def refusedConsentRequest : GateRequest where
  tenant := ⟨⟨1⟩, ⟨1⟩, .active, .endUserIdentity⟩
  proposal := ⟨"reset_own_mfa", 1⟩
  entry := some ⟨⟨"reset_own_mfa", 1⟩, .endUserApproval, ⟨∅⟩, .action, false, false⟩
  isEntitled := true
  requester := ⟨7⟩
  now := 10
  decision := some (.endUser ⟨⟨6⟩, ⟨7⟩, .refused, ⟨"reset_own_mfa", 1⟩, 5, none⟩)

/-- Evidence was sought and none was found. -/
def noEvidence : KnowledgeCondition := ⟨.notMet, 0, 0, true⟩

/-- With evidence missing, a refused consent is reported as missing knowledge, and
the other outcome is a refusal too: neither the same nor a permission withheld. -/
theorem withheld_over_refused_consent :
    ¬ ∀ (request : GateRequest) (knowledge other : KnowledgeCondition)
        (outcome otherOutcome : GateOutcome),
      evaluate (request.assessed knowledge) = .ok outcome →
      evaluate (request.assessed other) = .ok otherOutcome →
      outcome = otherOutcome ∨
        (knowledge.withholds = true ∧ outcome.disposition = .refuse ∧
          outcome.reason = .knowledgeWithheld ∧ otherOutcome.disposition ≠ .refuse) ∨
        (other.withholds = true ∧ otherOutcome.disposition = .refuse ∧
          otherOutcome.reason = .knowledgeWithheld ∧ outcome.disposition ≠ .refuse) := by
  intro hclaim
  have hwithheld : evaluate (refusedConsentRequest.assessed noEvidence) =
      .ok (refuse ⟨.endUserApproval, .catalogueDefault⟩ .knowledgeWithheld) := rfl
  have hrefused : evaluate (refusedConsentRequest.assessed .notRequired) =
      .ok (refuse ⟨.endUserApproval, .catalogueDefault⟩ .consentRefused) := by decide +kernel
  rcases hclaim _ _ _ _ _ hwithheld hrefused with hsame | ⟨_, _, _, hother⟩ | ⟨hnone, _⟩
  · cases hsame
  · exact hother rfl
  · cases hnone

end Synthia
