import Mathlib.Data.Rat.Defs
import Mathlib.Algebra.Order.Ring.Rat
import Mathlib.Data.List.Sort
import Synthia.Domain.Vocabulary

/-!
# The control gate and the policy under it

`governance.policy.assign_treatment`, `governance.conditions` and
`governance.gate.evaluate`, branch for branch. The gate is a pure function of
its request in the source, so it is one here; the only effect is the defect
`assign_treatment` may raise, which keeps it in `Except`.

The one thing a reader should know before the proofs: the gate never receives
a treatment. It derives one from the catalogue entry, and every outcome it
produces carries the treatment and the policy rule that assigned it.
-/

namespace Synthia

/-- What the catalogue holds about one operation. -/
structure CatalogueEntry where
  identity : OperationIdentity
  treatment : ExecutionTreatment
  acceptedRoles : RoleSet
  kind : CapabilityKind
  isReferenceFixture : Bool
  requiresElevation : Bool
  deriving DecidableEq

/-! ## Treatment policy -/

inductive TreatmentReason where
  | catalogueDefault
  | notInCatalogue
  | notEntitled
  | elevationRefused
  | noRoleCanApprove
  deriving DecidableEq, Repr

structure TreatmentDecision where
  treatment : ExecutionTreatment
  reason : TreatmentReason
  deriving DecidableEq, Repr

/-- Raised when a rule would widen a catalogue default. -/
structure PolicyWidenedTreatmentError where
  default : ExecutionTreatment
  override : ExecutionTreatment
  deriving DecidableEq, Repr

/-- `_narrowed`. -/
def narrowed (default override : ExecutionTreatment) :
    Except PolicyWidenedTreatmentError ExecutionTreatment :=
  if !isNarrowing default override then
    .error ⟨default, override⟩
  else
    .ok override

def assignTreatment (entry : Option CatalogueEntry) (isEntitled : Bool) :
    Except PolicyWidenedTreatmentError TreatmentDecision :=
  match entry with
  | none => .ok ⟨.notAllowed, .notInCatalogue⟩
  | some entry =>
      let default := entry.treatment
      if !isEntitled then do
        return ⟨← narrowed default .notAllowed, .notEntitled⟩
      else if entry.requiresElevation then do
        return ⟨← narrowed default .notAllowed, .elevationRefused⟩
      else if default == .staffApproval && entry.acceptedRoles.isEmpty then do
        return ⟨← narrowed default .notAllowed, .noRoleCanApprove⟩
      else
        .ok ⟨default, .catalogueDefault⟩

/-! ## The knowledge condition

A score is an exact rational here. The thresholds and the direction of both
comparisons are `retrieval.confidence`'s. -/

def minimumTopScore : ℚ := 45 / 100

def minimumMargin : ℚ := 8 / 100

def clearsThresholds (topScore margin : ℚ) : Bool :=
  decide (topScore ≥ minimumTopScore) && decide (margin ≥ minimumMargin)

structure Confidence where
  topScore : ℚ
  margin : ℚ
  isConfident : Bool
  deriving DecidableEq

/-- `assess_scores`: sorted here rather than trusted to arrive sorted. -/
def assessScores (scores : List ℚ) : Confidence :=
  match scores.insertionSort (fun a b => b ≤ a) with
  | [] => ⟨0, 0, false⟩
  | [top] => ⟨top, top, clearsThresholds top top⟩
  | top :: second :: _ => ⟨top, top - second, clearsThresholds top (top - second)⟩

inductive ConditionOutcome where
  | met
  | notMet
  deriving DecidableEq, Repr

structure KnowledgeCondition where
  outcome : ConditionOutcome
  topScore : ℚ
  margin : ℚ
  required : Bool
  deriving DecidableEq

def KnowledgeCondition.withholds (knowledge : KnowledgeCondition) : Bool :=
  knowledge.required && knowledge.outcome == .notMet

def KnowledgeCondition.notRequired : KnowledgeCondition :=
  ⟨.met, 0, 0, false⟩

/-! ## The gate -/

inductive GateDisposition where
  | proceed
  | suspendForConsent
  | suspendForApproval
  | refuse
  deriving DecidableEq, Repr

inductive GateReason where
  | tenantNotAdmitted
  | treatmentRefuses
  | autoTreatment
  | awaitingConsent
  | awaitingApproval
  | consentGranted
  | approvalGranted
  | consentRefused
  | approvalRejected
  | wrongDecisionKind
  | notTheRequester
  | approverHoldsNoAcceptedRole
  | decisionBoundToAnotherVersion
  | authorizationExpired
  | authorizationWindowMissing
  | knowledgeWithheld
  deriving DecidableEq, Repr

/-- Everything the gate is allowed to consider. Of the proposal it reads the
identity and nothing else. -/
structure GateRequest where
  tenant : TenantContext
  proposal : OperationIdentity
  entry : Option CatalogueEntry
  isEntitled : Bool
  requester : PrincipalId
  now : Instant
  decision : Option RecordedDecision := none
  authorizationExpiresAt : Option Instant := none
  knowledge : KnowledgeCondition := .notRequired
  deriving DecidableEq

structure GateOutcome where
  disposition : GateDisposition
  treatment : ExecutionTreatment
  treatmentReason : TreatmentReason
  reason : GateReason
  authorization : Option AuthorizationDecision := none
  deriving DecidableEq

def GateOutcome.suspendsOn (outcome : GateOutcome) : Option InterruptKind :=
  match outcome.disposition with
  | .suspendForConsent => some .consent
  | .suspendForApproval => some .approval
  | .proceed | .refuse => none

/-- `_refuse`. -/
def refuse (treatment : TreatmentDecision) (reason : GateReason) : GateOutcome :=
  ⟨.refuse, treatment.treatment, treatment.reason, reason, none⟩

/-- `_window_refusal`: why the window forbids execution, if it does. -/
def windowRefusal (request : GateRequest) : Option GateReason :=
  match request.authorizationExpiresAt with
  | none => some .authorizationWindowMissing
  | some expiresAt =>
      if request.now ≥ expiresAt then some .authorizationExpired else none

/-- `_evaluate_consent`. -/
def evaluateConsent (request : GateRequest) (treatment : TreatmentDecision) :
    GateOutcome :=
  match request.decision with
  | none =>
      ⟨.suspendForConsent, treatment.treatment, treatment.reason, .awaitingConsent, none⟩
  | some (.staff _) => refuse treatment .wrongDecisionKind
  | some (.endUser decision) =>
      if decision.consentedBy ≠ request.requester then
        refuse treatment .notTheRequester
      else if decision.boundTo ≠ request.proposal then
        refuse treatment .decisionBoundToAnotherVersion
      else if decision.verdict = .refused then
        refuse treatment .consentRefused
      else
        match windowRefusal request with
        | some reason => refuse treatment reason
        | none =>
            ⟨.proceed, treatment.treatment, treatment.reason, .consentGranted, none⟩

/-- `_evaluate_approval`. -/
def evaluateApproval (request : GateRequest) (treatment : TreatmentDecision)
    (entry : CatalogueEntry) : GateOutcome :=
  match request.decision with
  | none =>
      ⟨.suspendForApproval, treatment.treatment, treatment.reason, .awaitingApproval, none⟩
  | some (.endUser _) => refuse treatment .wrongDecisionKind
  | some (.staff decision) =>
      if decision.boundTo ≠ request.proposal then
        refuse treatment .decisionBoundToAnotherVersion
      else
        let authorization := evaluateRoles decision.rolesHeld entry.acceptedRoles
        if !authorization.isPermitted then
          ⟨.refuse, treatment.treatment, treatment.reason,
            .approverHoldsNoAcceptedRole, some authorization⟩
        else if decision.verdict = .rejected then
          ⟨.refuse, treatment.treatment, treatment.reason,
            .approvalRejected, some authorization⟩
        else
          match windowRefusal request with
          | some reason =>
              ⟨.refuse, treatment.treatment, treatment.reason, reason,
                some authorization⟩
          | none =>
              ⟨.proceed, treatment.treatment, treatment.reason, .approvalGranted,
                some authorization⟩

/-- `_withhold`. -/
def withhold (treatment : TreatmentDecision) : GateOutcome :=
  refuse treatment .knowledgeWithheld

/-- `gate.evaluate`. The order of the checks is the source's: admission, the
deterministic treatment, knowledge, and only then the treatment's own branch. -/
def evaluate (request : GateRequest) :
    Except PolicyWidenedTreatmentError GateOutcome := do
  let treatment ← assignTreatment request.entry request.isEntitled
  pure <|
    if !request.tenant.isAdmitted then
      refuse treatment .tenantNotAdmitted
    else if treatment.treatment = .notAllowed then
      refuse treatment .treatmentRefuses
    else if request.knowledge.withholds then
      withhold treatment
    else if treatment.treatment = .auto then
      ⟨.proceed, treatment.treatment, treatment.reason, .autoTreatment, none⟩
    else
      match request.entry with
      | none => refuse treatment .treatmentRefuses
      | some entry =>
          if treatment.treatment = .endUserApproval then
            evaluateConsent request treatment
          else
            evaluateApproval request treatment entry

end Synthia
