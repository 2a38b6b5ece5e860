import Synthia.Governance.Gate

/-!
# The gate proceeds exactly when it may

`evaluate` is a sequence of refusals, and the two questions asked of it are
about the product of all of them: when does it proceed, and when does it
suspend. Both are answered through three intermediate facts, one per layer.

`assignTreatment` never raises, because every override it applies is to
`NOT_ALLOWED`, the strictest treatment there is; and it assigns anything else
only to an entitled, unelevated, registered operation. `evaluateConsent` and
`evaluateApproval` each proceed on one shape of decision, and their
specification names it. `evaluate` is then the conjunction: the checks that
come first, and the branch the treatment selects.
-/

namespace Synthia

/-! ## The policy -/

theorem assignTreatment_none (isEntitled : Bool) :
    assignTreatment none isEntitled = .ok ⟨.notAllowed, .notInCatalogue⟩ := rfl

theorem assignTreatment_some (entry : CatalogueEntry) (isEntitled : Bool) :
    assignTreatment (some entry) isEntitled = .ok
      (if isEntitled = false then ⟨.notAllowed, .notEntitled⟩
      else if entry.requiresElevation = true then ⟨.notAllowed, .elevationRefused⟩
      else if entry.treatment = .staffApproval ∧ entry.acceptedRoles.isEmpty = true then
        ⟨.notAllowed, .noRoleCanApprove⟩
      else ⟨entry.treatment, .catalogueDefault⟩) := by
  have hnarrow : narrowed entry.treatment .notAllowed = .ok .notAllowed := by
    simp [narrowed]
  simp only [assignTreatment, hnarrow, Bool.not_eq_true', Bool.and_eq_true, beq_iff_eq]
  split
  · rfl
  · split
    · rfl
    · split <;> rfl

/-- No rule of the policy widens a catalogue default, so the defect it guards
against is never raised. -/
theorem assignTreatment_total (entry : Option CatalogueEntry) (isEntitled : Bool) :
    ∃ decision, assignTreatment entry isEntitled = .ok decision := by
  cases entry with
  | none => exact ⟨_, assignTreatment_none isEntitled⟩
  | some entry => exact ⟨_, assignTreatment_some entry isEntitled⟩

/-- A treatment other than `NOT_ALLOWED` is the catalogue's own, and the entry
behind it is registered, entitled and unelevated. -/
theorem assignTreatment_allowed {entry : Option CatalogueEntry} {isEntitled : Bool}
    {decision : TreatmentDecision}
    (h : assignTreatment entry isEntitled = .ok decision)
    (hallowed : decision.treatment ≠ .notAllowed) :
    ∃ found, entry = some found ∧ isEntitled = true ∧
      found.requiresElevation = false ∧ decision.treatment = found.treatment := by
  cases entry with
  | none =>
      rw [assignTreatment_none] at h
      injection h with h
      subst h
      exact absurd rfl hallowed
  | some found =>
      rw [assignTreatment_some] at h
      injection h with h
      refine ⟨found, rfl, ?_⟩
      split at h
      · subst h; exact absurd rfl hallowed
      · next hentitled =>
          split at h
          · subst h; exact absurd rfl hallowed
          · next helevation =>
              split at h
              · subst h; exact absurd rfl hallowed
              · subst h
                exact ⟨by simpa using hentitled, by simpa using helevation, rfl⟩

/-! ## The two decision branches -/

theorem windowRefusal_eq_none {request : GateRequest} :
    windowRefusal request = none ↔
      ∃ expiresAt, request.authorizationExpiresAt = some expiresAt ∧
        request.now < expiresAt := by
  unfold windowRefusal
  cases request.authorizationExpiresAt with
  | none => simp
  | some expiresAt =>
      by_cases hlate : request.now ≥ expiresAt
      · simp [hlate]
      · simp [hlate, Int.lt_of_not_ge hlate]

/-- `now` is strictly inside the request's authorisation window. -/
def InsideWindow (request : GateRequest) : Prop :=
  ∃ expiresAt, request.authorizationExpiresAt = some expiresAt ∧
    request.now < expiresAt

/-- The decision that satisfies `END_USER_APPROVAL`. -/
def ConsentSatisfies (request : GateRequest) : Prop :=
  ∃ consent, request.decision = some (.endUser consent) ∧
    consent.consentedBy = request.requester ∧
    consent.boundTo = request.proposal ∧ consent.verdict = .granted ∧
    InsideWindow request

/-- The decision that satisfies `STAFF_APPROVAL` for a given entry. -/
def VerdictSatisfies (request : GateRequest) (entry : CatalogueEntry) : Prop :=
  ∃ verdict, request.decision = some (.staff verdict) ∧
    verdict.boundTo = request.proposal ∧ verdict.verdict = .approved ∧
    verdict.rolesHeld.intersects entry.acceptedRoles = true ∧
    InsideWindow request

theorem evaluateConsent_proceeds {request : GateRequest}
    {treatment : TreatmentDecision} :
    (evaluateConsent request treatment).disposition = .proceed ↔
      ConsentSatisfies request := by
  unfold evaluateConsent ConsentSatisfies
  match hdecision : request.decision with
  | none => simp
  | some (.staff _) => simp [refuse]
  | some (.endUser consent) =>
      simp only [Option.some.injEq, RecordedDecision.endUser.injEq, exists_eq_left']
      by_cases hwho : consent.consentedBy = request.requester
      · by_cases hbound : consent.boundTo = request.proposal
        · cases hverdict : consent.verdict with
          | refused => simp [hwho, hbound, refuse]
          | granted =>
              simp only [hwho, hbound, InsideWindow, ← windowRefusal_eq_none]
              cases hwindow : windowRefusal request with
              | none => simp
              | some reason => simp [refuse]
        · simp [hwho, hbound, refuse]
      · simp [hwho, refuse]

theorem evaluateConsent_suspends {request : GateRequest}
    {treatment : TreatmentDecision} :
    (evaluateConsent request treatment).disposition = .suspendForConsent ↔
      request.decision = none := by
  unfold evaluateConsent
  match request.decision with
  | none => simp
  | some (.staff _) => simp [refuse]
  | some (.endUser consent) =>
      simp only [reduceCtorEq, iff_false]
      split
      · simp [refuse]
      · split
        · simp [refuse]
        · split
          · simp [refuse]
          · split <;> simp [refuse]

theorem evaluateConsent_ne_suspendForApproval (request : GateRequest)
    (treatment : TreatmentDecision) :
    (evaluateConsent request treatment).disposition ≠ .suspendForApproval := by
  unfold evaluateConsent
  repeat' split
  all_goals simp [refuse]

theorem evaluateApproval_proceeds {request : GateRequest}
    {treatment : TreatmentDecision} {entry : CatalogueEntry} :
    (evaluateApproval request treatment entry).disposition = .proceed ↔
      VerdictSatisfies request entry := by
  unfold evaluateApproval VerdictSatisfies
  match hdecision : request.decision with
  | none => simp
  | some (.endUser _) => simp [refuse]
  | some (.staff verdict) =>
      simp only [Option.some.injEq, RecordedDecision.staff.injEq, exists_eq_left',
        evaluateRoles_isPermitted]
      by_cases hbound : verdict.boundTo = request.proposal
      · by_cases hroles : verdict.rolesHeld.intersects entry.acceptedRoles = true
        · cases hverdict : verdict.verdict with
          | rejected => simp [hbound, hroles]
          | approved =>
              simp only [hbound, hroles, InsideWindow, ← windowRefusal_eq_none]
              cases hwindow : windowRefusal request with
              | none => simp
              | some reason => simp
        · simp [hbound, hroles]
      · simp [hbound, refuse]

theorem evaluateApproval_suspends {request : GateRequest}
    {treatment : TreatmentDecision} {entry : CatalogueEntry} :
    (evaluateApproval request treatment entry).disposition = .suspendForApproval ↔
      request.decision = none := by
  unfold evaluateApproval
  match request.decision with
  | none => simp
  | some (.endUser _) => simp [refuse]
  | some (.staff verdict) =>
      simp only [reduceCtorEq, iff_false]
      split
      · simp [refuse]
      · split
        · simp
        · split
          · simp
          · split <;> simp

theorem evaluateApproval_ne_suspendForConsent (request : GateRequest)
    (treatment : TreatmentDecision) (entry : CatalogueEntry) :
    (evaluateApproval request treatment entry).disposition ≠ .suspendForConsent := by
  unfold evaluateApproval
  match request.decision with
  | none => simp
  | some (.endUser _) => simp [refuse]
  | some (.staff verdict) =>
      dsimp only
      repeat' split
      all_goals simp [refuse]

/-! ## The whole gate -/

/-- Every check that comes before the treatment's own branch. -/
structure Cleared (request : GateRequest) (treatment : ExecutionTreatment) :
    Prop where
  admitted : request.tenant.isAdmitted = true
  registered : ∃ entry, request.entry = some entry ∧ entry.requiresElevation = false
  entitled : request.isEntitled = true
  allowed : treatment ≠ .notAllowed
  grounded : request.knowledge.withholds = false

/-- What the gate answers once its first checks have passed. -/
theorem evaluate_cleared {request : GateRequest} {decision : TreatmentDecision}
    {entry : CatalogueEntry}
    (htreatment : assignTreatment request.entry request.isEntitled = .ok decision)
    (hentry : request.entry = some entry)
    (hclear : Cleared request decision.treatment) :
    evaluate request = .ok
      (match decision.treatment with
      | .auto => ⟨.proceed, .auto, decision.reason, .autoTreatment, none⟩
      | .endUserApproval => evaluateConsent request decision
      | .staffApproval => evaluateApproval request decision entry
      | .notAllowed => refuse decision .treatmentRefuses) := by
  have hadmitted := hclear.admitted
  have hallowed := hclear.allowed
  have hgrounded := hclear.grounded
  unfold evaluate
  rw [htreatment, hentry]
  simp only [Except.bind, bind, pure, Except.pure, hadmitted, hgrounded]
  cases hkind : decision.treatment with
  | auto => simp
  | endUserApproval => simp
  | staffApproval => simp
  | notAllowed => exact absurd hkind hallowed

/-- The gate always answers: no request makes it raise. -/
theorem evaluate_total (request : GateRequest) :
    ∃ outcome, evaluate request = .ok outcome := by
  obtain ⟨decision, htreatment⟩ :=
    assignTreatment_total request.entry request.isEntitled
  unfold evaluate
  rw [htreatment]
  exact ⟨_, rfl⟩

/-- A request that fails any of the first checks is refused. -/
theorem evaluate_not_cleared {request : GateRequest} {decision : TreatmentDecision}
    {outcome : GateOutcome}
    (htreatment : assignTreatment request.entry request.isEntitled = .ok decision)
    (h : evaluate request = .ok outcome)
    (hblocked : ¬ Cleared request decision.treatment) :
    outcome.disposition = .refuse := by
  unfold evaluate at h
  rw [htreatment] at h
  simp only [Except.bind, bind, pure, Except.pure, Except.ok.injEq] at h
  subst h
  split
  · rfl
  · next hadmitted =>
      split
      · rfl
      · next hallowed =>
          split
          · rfl
          · next hgrounded =>
              obtain ⟨entry, hentry, hentitled, helevation, _⟩ :=
                assignTreatment_allowed htreatment hallowed
              exact absurd
                ⟨by simpa using hadmitted, ⟨entry, hentry, helevation⟩, hentitled,
                  hallowed, by simpa using hgrounded⟩ hblocked

/-- Every outcome carries the treatment and the rule the policy assigned. -/
theorem evaluate_treatment {request : GateRequest} {decision : TreatmentDecision}
    {outcome : GateOutcome}
    (htreatment : assignTreatment request.entry request.isEntitled = .ok decision)
    (h : evaluate request = .ok outcome) :
    outcome.treatment = decision.treatment ∧ outcome.treatmentReason = decision.reason := by
  unfold evaluate evaluateConsent evaluateApproval at h
  rw [htreatment] at h
  simp only [Except.bind, bind, pure, Except.pure, Except.ok.injEq] at h
  subst h
  repeat' split
  all_goals exact ⟨rfl, rfl⟩

/-- The request is cleared and the treatment's own demand is met. -/
def Authorized (request : GateRequest) (treatment : ExecutionTreatment) : Prop :=
  Cleared request treatment ∧
    (treatment = .auto ∨
      (treatment = .endUserApproval ∧ ConsentSatisfies request) ∨
      (treatment = .staffApproval ∧
        ∃ entry, request.entry = some entry ∧ VerdictSatisfies request entry))

section Outcome

variable {request : GateRequest} {decision : TreatmentDecision} {outcome : GateOutcome}

theorem evaluate_proceeds
    (htreatment : assignTreatment request.entry request.isEntitled = .ok decision)
    (h : evaluate request = .ok outcome) :
    outcome.disposition = .proceed ↔ Authorized request decision.treatment := by
  unfold Authorized
  by_cases hclear : Cleared request decision.treatment
  · obtain ⟨entry, hentry, _⟩ := hclear.registered
    rw [evaluate_cleared htreatment hentry hclear] at h
    injection h with h
    subst h
    cases hkind : decision.treatment with
    | auto => simp [hkind ▸ hclear]
    | endUserApproval => simp [evaluateConsent_proceeds, hkind ▸ hclear]
    | staffApproval => simp [evaluateApproval_proceeds, hkind ▸ hclear, hentry]
    | notAllowed => exact absurd hkind hclear.allowed
  · simp [evaluate_not_cleared htreatment h hclear, hclear]

/-- A suspension is for whoever the treatment needs, and only while nobody has
decided. -/
theorem evaluate_suspends
    (htreatment : assignTreatment request.entry request.isEntitled = .ok decision)
    (h : evaluate request = .ok outcome) :
    (outcome.disposition = .suspendForConsent ↔
      Cleared request decision.treatment ∧
        decision.treatment = .endUserApproval ∧ request.decision = none) ∧
    (outcome.disposition = .suspendForApproval ↔
      Cleared request decision.treatment ∧
        decision.treatment = .staffApproval ∧ request.decision = none) := by
  by_cases hclear : Cleared request decision.treatment
  · obtain ⟨entry, hentry, _⟩ := hclear.registered
    rw [evaluate_cleared htreatment hentry hclear] at h
    injection h with h
    subst h
    cases hkind : decision.treatment with
    | auto => simp
    | endUserApproval =>
        simp [evaluateConsent_suspends, evaluateConsent_ne_suspendForApproval,
          hkind ▸ hclear]
    | staffApproval =>
        simp [evaluateApproval_suspends, evaluateApproval_ne_suspendForConsent,
          hkind ▸ hclear]
    | notAllowed => exact absurd hkind hclear.allowed
  · simp [evaluate_not_cleared htreatment h hclear, hclear]

/-- A consent never satisfies a staff treatment, nor a verdict an end user's:
the gate refuses, whatever else holds. -/
theorem evaluate_wrong_kind
    (htreatment : assignTreatment request.entry request.isEntitled = .ok decision)
    (h : evaluate request = .ok outcome)
    (hkind : (decision.treatment = .staffApproval ∧
        ∃ consent, request.decision = some (.endUser consent)) ∨
      (decision.treatment = .endUserApproval ∧
        ∃ verdict, request.decision = some (.staff verdict))) :
    outcome.disposition = .refuse := by
  by_cases hclear : Cleared request decision.treatment
  · obtain ⟨entry, hentry, _⟩ := hclear.registered
    rw [evaluate_cleared htreatment hentry hclear] at h
    injection h with h
    subst h
    rcases hkind with ⟨hstaff, consent, hdecision⟩ | ⟨huser, verdict, hdecision⟩
    · simp [hstaff, evaluateApproval, hdecision, refuse]
    · simp [huser, evaluateConsent, hdecision, refuse]
  · exact evaluate_not_cleared htreatment h hclear

/-- What the gate asks of a request and its catalogue entry, knowledge aside. -/
structure PermittedBy (request : GateRequest) (entry : CatalogueEntry) : Prop where
  admitted : request.tenant.isAdmitted = true
  found : request.entry = some entry
  entitled : request.isEntitled = true
  unelevated : entry.requiresElevation = false
  demand : entry.treatment = .auto ∨
    (entry.treatment = .endUserApproval ∧ ConsentSatisfies request) ∨
    (entry.treatment = .staffApproval ∧ VerdictSatisfies request entry)

/-- The treatment a permitted request is assigned is its entry's own. -/
theorem PermittedBy.assigned {entry : CatalogueEntry} (h : PermittedBy request entry) :
    assignTreatment request.entry request.isEntitled =
      .ok ⟨entry.treatment, .catalogueDefault⟩ := by
  rw [h.found, assignTreatment_some, h.entitled, h.unelevated]
  rcases h.demand with hauto | ⟨huser, _⟩ | ⟨hstaff, verdict, _, _, _, hroles, _⟩
  · simp [hauto]
  · simp [huser]
  · -- a verdict whose roles meet the accepted set shows the set is not empty
    have hnonempty : entry.acceptedRoles.isEmpty = false := by
      rw [← Bool.not_eq_true]
      intro hempty
      have hnone : entry.acceptedRoles.roles = ∅ := by
        simpa [RoleSet.isEmpty] using hempty
      simp [RoleSet.intersects, hnone] at hroles
    simp [hnonempty]

/-- The gate proceeds exactly when knowledge does not withhold and the entry
permits the request. -/
theorem evaluate_proceeds_entry (h : evaluate request = .ok outcome) :
    outcome.disposition = .proceed ↔
      request.knowledge.withholds = false ∧ ∃ entry, PermittedBy request entry := by
  obtain ⟨decision, htreatment⟩ :=
    assignTreatment_total request.entry request.isEntitled
  rw [evaluate_proceeds htreatment h]
  constructor
  · rintro ⟨hclear, hdemand⟩
    obtain ⟨entry, hentry, hentitled, helevation, hassigned⟩ :=
      assignTreatment_allowed htreatment hclear.allowed
    refine ⟨hclear.grounded, entry, hclear.admitted, hentry, hentitled, helevation, ?_⟩
    rw [← hassigned]
    rcases hdemand with hauto | huser | ⟨hstaff, other, hother, hsatisfies⟩
    · exact Or.inl hauto
    · exact Or.inr (Or.inl huser)
    · rw [hentry] at hother
      rw [← Option.some.inj hother] at hsatisfies
      exact Or.inr (Or.inr ⟨hstaff, hsatisfies⟩)
  · rintro ⟨hgrounded, entry, hpermitted⟩
    rw [hpermitted.assigned] at htreatment
    injection htreatment with htreatment
    subst htreatment
    refine ⟨⟨hpermitted.admitted, ⟨entry, hpermitted.found, hpermitted.unelevated⟩,
      hpermitted.entitled, ?_, hgrounded⟩, ?_⟩
    · show entry.treatment ≠ .notAllowed
      rcases hpermitted.demand with hauto | ⟨huser, _⟩ | ⟨hstaff, _⟩
      · simp [hauto]
      · simp [huser]
      · simp [hstaff]
    · rcases hpermitted.demand with hauto | huser | ⟨hstaff, hsatisfies⟩
      · exact Or.inl hauto
      · exact Or.inr (Or.inl huser)
      · exact Or.inr (Or.inr ⟨hstaff, entry, hpermitted.found, hsatisfies⟩)

end Outcome

/-- **The gate's two decisions.** It proceeds exactly when every earlier check
passes and the treatment either needs nobody, or needs the requester and has
their granted consent, or needs staff and has an approved verdict, each bound
to the proposed operation and inside the window; read off the entry that was
looked up, exactly when knowledge does not withhold and that entry permits the
request under its own treatment. It suspends exactly when every earlier check
passes, the treatment needs a person and nobody has decided. A decision of the
wrong kind is refused. -/
theorem evaluate_decides (request : GateRequest) :
    ∃ decision outcome,
      assignTreatment request.entry request.isEntitled = .ok decision ∧
      evaluate request = .ok outcome ∧
      (outcome.disposition = .proceed ↔
        Cleared request decision.treatment ∧
          (decision.treatment = .auto ∨
            (decision.treatment = .endUserApproval ∧ ConsentSatisfies request) ∨
            (decision.treatment = .staffApproval ∧
              ∃ entry, request.entry = some entry ∧ VerdictSatisfies request entry))) ∧
      (outcome.disposition = .proceed ↔
        request.knowledge.withholds = false ∧ ∃ entry, PermittedBy request entry) ∧
      (outcome.disposition = .suspendForConsent ↔
        Cleared request decision.treatment ∧
          decision.treatment = .endUserApproval ∧ request.decision = none) ∧
      (outcome.disposition = .suspendForApproval ↔
        Cleared request decision.treatment ∧
          decision.treatment = .staffApproval ∧ request.decision = none) ∧
      (∀ consent, decision.treatment = .staffApproval →
        request.decision = some (.endUser consent) → outcome.disposition = .refuse) ∧
      (∀ verdict, decision.treatment = .endUserApproval →
        request.decision = some (.staff verdict) → outcome.disposition = .refuse) := by
  obtain ⟨decision, htreatment⟩ :=
    assignTreatment_total request.entry request.isEntitled
  obtain ⟨outcome, houtcome⟩ := evaluate_total request
  obtain ⟨hconsent, happroval⟩ := evaluate_suspends htreatment houtcome
  refine ⟨decision, outcome, htreatment, houtcome,
    evaluate_proceeds htreatment houtcome, evaluate_proceeds_entry houtcome, hconsent,
    happroval, ?_, ?_⟩
  · intro consent hstaff hdecision
    exact evaluate_wrong_kind htreatment houtcome (Or.inl ⟨hstaff, consent, hdecision⟩)
  · intro verdict huser hdecision
    exact evaluate_wrong_kind htreatment houtcome (Or.inr ⟨huser, verdict, hdecision⟩)

end Synthia
