import Synthia.Graph.Nodes
import Synthia.Persistence.Decisions
import Synthia.Proofs.Gate

/-!
# What a recorded consent lets through

The gate proceeds on a consent only inside an authorisation window, and the
window it is given is the decision's own `expires_at`. The consent reader never
sets one: a consent row has no such column and the work item's window is not
joined in. So the window is always missing, and `govern` refuses every
operation that needs the requester's consent, whoever consented to what and when.
-/

namespace Synthia

open Relational

/-- No consent read back carries a window. -/
theorem decisionFor_expiresAt {consents : List ConsentRow} {operations : List OperationRow}
    {tenant : TenantContext} {workItemId : WorkItemId} {consent : EndUserConsent}
    (h : ConsentRepository.decisionFor consents operations tenant workItemId = some consent) :
    consent.expiresAt = none := by
  unfold ConsentRepository.decisionFor at h
  split at h
  · cases h
  · split at h
    · cases h
    · rw [← Option.some.inj h]

/-- Without a window the consent branch cannot proceed. -/
theorem evaluateConsent_no_window {request : GateRequest} {treatment : TreatmentDecision}
    {consent : EndUserConsent} (hdecision : request.decision = some (.endUser consent))
    (hwho : consent.consentedBy = request.requester)
    (hbound : consent.boundTo = request.proposal) (hverdict : consent.verdict = .granted)
    (hwindow : request.authorizationExpiresAt = none) :
    evaluateConsent request treatment = refuse treatment .authorizationWindowMissing := by
  unfold evaluateConsent windowRefusal
  simp [hdecision, hwho, hbound, hverdict, hwindow]

/-- A case in which nothing but the missing window stands between a consent and
its operation: the tenant is active, the entry is registered, entitled, unelevated
and needs the requester's consent; the consent read back is granted, by the
requester, for the operation proposed; and the instant is inside the work item's
window. -/
structure ConsentedCase (consents : List ConsentRow) (operations : List OperationRow)
    (work : WorkItemRow) (deps : GraphDependencies) (context : RunContext)
    (state : AgentState) (proposed : ProposedOperationView) (entry : CatalogueEntry)
    (consent : EndUserConsent) : Prop where
  proposal : state.proposal = some proposed
  admitted : context.tenant.isAdmitted = true
  found : deps.lookup context.tenant proposed.identity = some entry
  entitled : deps.isEntitled context.tenant proposed.catalogueId = true
  unelevated : entry.requiresElevation = false
  treatment : entry.treatment = .endUserApproval
  case_item : context.workItemId = some work.workItemId
  reads : deps.consentFor = ConsentRepository.decisionFor consents operations
  recorded : ConsentRepository.decisionFor consents operations context.tenant
    work.workItemId = some consent
  granted : consent.verdict = .granted
  requester : consent.consentedBy = context.requester
  bound : consent.boundTo = proposed.identity
  window : ∃ expiresAt, work.expiresAt = some expiresAt ∧ deps.clock 0 < expiresAt

section

variable {deps : GraphDependencies} {context : RunContext} {workItemId : WorkItemId}

/-- A staff verdict is read before any consent. -/
theorem recordedDecision_staff {verdict : StaffVerdict}
    (hcase : context.workItemId = some workItemId)
    (hverdict : deps.verdictFor context.tenant workItemId = some verdict) :
    recordedDecision deps context = some (.staff verdict) := by
  simp only [recordedDecision, hcase, hverdict]

theorem recordedDecision_endUser {consent : EndUserConsent}
    (hcase : context.workItemId = some workItemId)
    (hverdict : deps.verdictFor context.tenant workItemId = none)
    (hconsent : deps.consentFor context.tenant workItemId = some consent) :
    recordedDecision deps context = some (.endUser consent) := by
  simp only [recordedDecision, hcase, hverdict, hconsent, Option.map_some]

end

/-- **No consent ever lets its operation proceed.** Every such case is refused,
for want of a window; and where a staff verdict was recorded as well, it is read
first and refused as the wrong kind of decision. -/
theorem consent_never_proceeds {consents : List ConsentRow} {operations : List OperationRow}
    {work : WorkItemRow} {deps : GraphDependencies} {context : RunContext}
    {state : AgentState} {proposed : ProposedOperationView} {entry : CatalogueEntry}
    {consent : EndUserConsent}
    (h : ConsentedCase consents operations work deps context state proposed entry consent) :
    ∃ update result, govern deps context state = .ok update ∧
      update.governance = some result ∧ result.disposition = .refuse ∧
      (deps.verdictFor context.tenant work.workItemId = none →
        result.reason = .authorizationWindowMissing) := by
  have hassigned : assignTreatment (gateRequest deps context proposed).entry
      (gateRequest deps context proposed).isEntitled =
        .ok ⟨.endUserApproval, .catalogueDefault⟩ := by
    show assignTreatment (deps.lookup context.tenant proposed.identity)
      (deps.isEntitled context.tenant proposed.catalogueId) = _
    rw [h.found, h.entitled, assignTreatment_some]
    simp [h.unelevated, h.treatment]
  have hclear : Cleared (gateRequest deps context proposed) .endUserApproval :=
    ⟨h.admitted, ⟨entry, h.found, h.unelevated⟩, h.entitled, by decide, rfl⟩
  have hevaluate := evaluate_cleared hassigned h.found hclear
  have hgovern : govern deps context state = .ok
      { governance := some (governanceResult deps
          (evaluateConsent (gateRequest deps context proposed)
            ⟨.endUserApproval, .catalogueDefault⟩))
        pendingInterrupt := some (evaluateConsent (gateRequest deps context proposed)
            ⟨.endUserApproval, .catalogueDefault⟩).suspendsOn } := by
    unfold govern
    rw [h.proposal]
    dsimp only
    rw [hevaluate]
  refine ⟨_, _, hgovern, rfl, ?_⟩
  cases hverdict : deps.verdictFor context.tenant work.workItemId with
  | some verdict =>
      -- the verdict is looked up first, and is not a consent
      have hdecision : (gateRequest deps context proposed).decision =
          some (.staff verdict) := recordedDecision_staff h.case_item hverdict
      refine ⟨?_, fun hnone => nomatch hnone⟩
      show (evaluateConsent _ _).disposition = .refuse
      unfold evaluateConsent
      rw [hdecision]
      rfl
  | none =>
      have hdecision : (gateRequest deps context proposed).decision =
          some (.endUser consent) := by
        refine recordedDecision_endUser h.case_item hverdict ?_
        rw [h.reads]
        exact h.recorded
      have hwindow : (gateRequest deps context proposed).authorizationExpiresAt = none := by
        show expiry (gateRequest deps context proposed).decision = none
        rw [hdecision]
        exact decisionFor_expiresAt h.recorded
      have hrefused := @evaluateConsent_no_window _ ⟨.endUserApproval, .catalogueDefault⟩ _
        hdecision h.requester h.bound h.granted hwindow
      rw [hrefused]
      exact ⟨rfl, fun _ => rfl⟩

/-! ### One consent -/

def mfaRow : OperationRow := ⟨⟨4⟩, ⟨1⟩, ⟨2⟩, "reset_own_mfa", 1, 5⟩

/-- A work item requested by principal 7, open until 1000. -/
def mfaItem : WorkItemRow :=
  ⟨⟨2⟩, ⟨1⟩, ⟨1⟩, ⟨7⟩, .awaitingDecision, .none, some 1000, none, none, 1, 0,
    WorkItemRow.unclaimed⟩

def mfaContext : RunContext :=
  ⟨⟨⟨1⟩, ⟨1⟩, .active, .endUserIdentity⟩, ⟨7⟩, ⟨[]⟩, ⟨1⟩, some ⟨2⟩⟩

/-- The requester's consent, recorded at 50. -/
def mfaConsents : Option (Bool × ConsentTable) :=
  ConsentRepository.record ⟨[], List.nodup_nil⟩ ⟨[mfaItem], List.nodup_singleton _⟩
    mfaContext.tenant ⟨6⟩ ⟨2⟩ ⟨7⟩ .granted 50

def mfaConsentRows : List ConsentRow :=
  match mfaConsents with
  | some (_, consents) => consents.rows
  | none => []

def mfaProposal : ProposedOperationView := ⟨"reset_own_mfa", 1, "", "model", "lost phone"⟩

def mfaEntry : CatalogueEntry :=
  ⟨mfaProposal.identity, .endUserApproval, ⟨∅⟩, .action, false, false⟩

def mfaConsent : EndUserConsent := ⟨⟨6⟩, ⟨7⟩, .granted, mfaProposal.identity, 50, none⟩

/-- The instant is 100, well inside the item's window. -/
def mfaDependencies : GraphDependencies where
  clock _ := 100
  lookup _ _ := some mfaEntry
  isEntitled _ _ := true
  search _ _ _ := []
  verdictFor _ _ := none
  consentFor := ConsentRepository.decisionFor mfaConsentRows [mfaRow]
  invoke _ := none

def mfaState : AgentState := { proposal := some mfaProposal }

theorem mfa_consentedCase :
    ConsentedCase mfaConsentRows [mfaRow] mfaItem mfaDependencies mfaContext mfaState
      mfaProposal mfaEntry mfaConsent where
  proposal := rfl
  admitted := rfl
  found := rfl
  entitled := rfl
  unelevated := rfl
  treatment := rfl
  case_item := rfl
  reads := rfl
  recorded := rfl
  granted := rfl
  requester := rfl
  bound := rfl
  window := ⟨1000, rfl, by decide⟩

theorem mfa_never_proceeds :
    ∃ update result, govern mfaDependencies mfaContext mfaState = .ok update ∧
      update.governance = some result ∧ result.disposition = .refuse ∧
      (mfaDependencies.verdictFor mfaContext.tenant mfaItem.workItemId = none →
        result.reason = .authorizationWindowMissing) :=
  consent_never_proceeds mfa_consentedCase

/-- The requester consents, the consent is recorded and read back as granted for
the operation proposed, and 50 instants later, with 900 left in the item's window,
`govern` refuses it for want of a window. -/
theorem granted_consent_refused :
    (mfaConsents.map Prod.fst = some true) ∧
      ConsentRepository.decisionFor mfaConsentRows [mfaRow] mfaContext.tenant ⟨2⟩ =
        some mfaConsent ∧
      mfaConsent.verdict = .granted ∧ mfaConsent.consentedBy = mfaItem.requestedByOid ∧
      mfaConsent.boundTo = mfaProposal.identity ∧
      (∃ expiresAt, mfaItem.expiresAt = some expiresAt ∧ mfaDependencies.clock 0 < expiresAt) ∧
      govern mfaDependencies mfaContext mfaState = .ok
        { governance := some ⟨.endUserApproval, .catalogueDefault, .refuse,
            .authorizationWindowMissing, 100⟩
          pendingInterrupt := some none } :=
  ⟨rfl, rfl, rfl, rfl, rfl, ⟨1000, rfl, by decide⟩, rfl⟩

end Synthia
