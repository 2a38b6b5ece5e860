import Synthia.Proofs.Consent
import Synthia.Proofs.FirstDecision
import Synthia.Proofs.Grounding
import Synthia.Proofs.Standing

/-!
# Two decisions on one work item

A work item can carry both a staff verdict and an end user's consent. The gate asks for
one of them, by the treatment it assigns; `_recorded_decision` is not told which, and
answers with the verdict whenever there is one.

Where a verdict is asked for, that is the right one, and the consent behind it is not
read. Where nothing is asked for neither matters. Where the consent is asked for the gate
is shown a verdict and refuses it as the wrong kind, which is never its answer to a
consent: so there the two decisions together are always answered otherwise than the
consent would be alone.
-/

namespace Synthia

open Relational

namespace DecisionWorld

/-- The tables had no verdict been recorded on the work item. -/
def withoutVerdict (item : DecidedItem) (world : DecisionWorld) : DecisionWorld :=
  { world with
    approvals :=
      { world.approvals.delete fun row => item.hasApproval row && row.decidedAt.isSome with
        oneEach := (List.filter_sublist.map ApprovalRow.workItemId).nodup
          world.approvals.oneEach } }

/-- The tables had no consent been. -/
def withoutConsents (item : DecidedItem) (world : DecisionWorld) : DecisionWorld :=
  { world with consents := world.consents.delete item.hasConsent }

end DecisionWorld

/-- Both kinds of decision are recorded on the work item the run is about. -/
structure BothRecorded (item : DecidedItem) (world : DecisionWorld) (context : RunContext) :
    Prop where
  tenant : context.tenant.tenantId = item.tenantId
  workItem : context.workItemId = some item.workItemId
  verdict : ∃ row decision, row ∈ world.approvals.rows ∧ item.hasApproval row = true ∧
    Decided row decision
  consent : ∃ row ∈ world.consents.rows, item.hasConsent row = true

/-- What `govern` writes is what it would write had the decision of a kind its treatment
does not ask for never been recorded. -/
def Unshadowed (item : DecidedItem) (world : DecisionWorld) (deps : GraphDependencies)
    (context : RunContext) (state : AgentState) : Prop :=
  ∀ proposed decision, state.proposal = some proposed →
    assignTreatment (deps.lookup context.tenant proposed.identity)
      (deps.isEntitled context.tenant proposed.catalogueId) = .ok decision →
    (decision.treatment ≠ .staffApproval →
      govern (world.reads deps) context state =
        govern ((world.withoutVerdict item).reads deps) context state) ∧
    (decision.treatment ≠ .endUserApproval →
      govern (world.reads deps) context state =
        govern ((world.withoutConsents item).reads deps) context state)

/-! ## The gate, by what it is shown -/

section Gate

variable {request : GateRequest} {decision : TreatmentDecision}

/-- A treatment that asks for nobody's decision reads none, and neither does a refusal to
an organisation that is not admitted. -/
theorem evaluate_unasked
    (htreatment : assignTreatment request.entry request.isEntitled = .ok decision)
    (hunasked : request.tenant.isAdmitted = true → decision.treatment ≠ .endUserApproval ∧
      decision.treatment ≠ .staffApproval)
    (recorded : Option RecordedDecision) (expiresAt : Option Instant) :
    evaluate { request with decision := recorded, authorizationExpiresAt := expiresAt } =
      evaluate request := by
  unfold evaluate
  dsimp only
  rw [htreatment]
  dsimp only [bind, Except.bind]
  cases hadmitted : request.tenant.isAdmitted with
  | false => rfl
  | true =>
      obtain ⟨huser, hstaff⟩ := hunasked hadmitted
      cases htreated : decision.treatment with
      | notAllowed => simp
      | auto => simp
      | endUserApproval => exact absurd htreated huser
      | staffApproval => exact absurd htreated hstaff

/-- Asked for a consent, the gate never answers that one is of the wrong kind. -/
theorem evaluateConsent_own_kind {consent : EndUserConsent}
    (hdecision : request.decision = some (.endUser consent)) :
    (evaluateConsent request decision).reason ≠ .wrongDecisionKind := by
  unfold evaluateConsent
  rw [hdecision]
  dsimp only
  split
  · exact fun h => nomatch h
  · split
    · exact fun h => nomatch h
    · split
      · exact fun h => nomatch h
      · split
        · next reason hreason =>
            unfold windowRefusal at hreason
            rintro (rfl : reason = .wrongDecisionKind)
            split at hreason
            · cases hreason
            · split at hreason <;> cases hreason
        · exact fun h => nomatch h

end Gate

/-! ## What the node reads -/

section Reads

variable {item : DecidedItem} {world : DecisionWorld} {deps : GraphDependencies}
  {context : RunContext} {state : AgentState}

/-- Two sets of tables on which the gate answers alike make `govern` write the same. -/
theorem govern_reads_congr {other : DecisionWorld}
    (h : ∀ proposed, state.proposal = some proposed →
      evaluate (gateRequest (world.reads deps) context proposed) =
        evaluate (gateRequest (other.reads deps) context proposed)) :
    govern (world.reads deps) context state = govern (other.reads deps) context state := by
  unfold govern
  cases hproposal : state.proposal with
  | none => rfl
  | some proposed =>
      dsimp only
      rw [h proposed hproposal]
      rfl

/-- The tables decide nothing about a request but its decision. -/
theorem gateRequest_reads (proposed : ProposedOperationView) :
    gateRequest (world.reads deps) context proposed =
      { gateRequest deps context proposed with
        decision := recordedDecision (world.reads deps) context
        authorizationExpiresAt := expiry (recordedDecision (world.reads deps) context) } := rfl

theorem consentFor_some {rows : List ConsentRow} {tenant : TenantContext}
    {operations : List OperationRow} {bound : OperationRow}
    (htenant : tenant.tenantId = item.tenantId)
    (hconsent : ∃ row ∈ rows, item.hasConsent row = true)
    (hbound : boundOperation operations tenant item.workItemId = some bound) :
    ∃ consent, ConsentRepository.decisionFor rows operations tenant item.workItemId =
      some consent := by
  obtain ⟨row, hrow, hits⟩ := hconsent
  have hmem : row ∈ orderByDesc ConsentRow.decidedAt (rows.filter item.hasConsent) :=
    mem_orderBy.mpr (List.mem_filter.mpr ⟨hrow, hits⟩)
  unfold ConsentRepository.decisionFor
  rw [hbound, consents_filter htenant]
  cases hsorted : orderByDesc ConsentRow.decidedAt (rows.filter item.hasConsent) with
  | nil =>
      rw [hsorted] at hmem
      exact absurd hmem List.not_mem_nil
  | cons newest rest => exact ⟨_, rfl⟩

/-- Without an operation of the work item neither decision is read back. -/
theorem reads_nothing (htenant : context.tenant.tenantId = item.tenantId)
    (hworkItem : context.workItemId = some item.workItemId)
    (hnone : ¬ ∃ row ∈ world.operations, item.hasOperation row = true) :
    recordedDecision (world.reads deps) context = none := by
  have hbound : boundOperation world.operations context.tenant item.workItemId = none := by
    have hempty : world.operations.filter
        (OperationRow.belongsTo context.tenant item.workItemId) = [] := by
      rw [List.filter_eq_nil_iff]
      intro row hrow hbelongs
      refine hnone ⟨row, hrow, ?_⟩
      unfold OperationRow.belongsTo at hbelongs
      rw [htenant] at hbelongs
      exact hbelongs
    unfold boundOperation
    rw [hempty]
    rfl
  unfold recordedDecision DecisionWorld.reads ApprovalRepository.decisionFor
    ConsentRepository.decisionFor
  rw [hworkItem]
  dsimp only
  rw [hbound]
  rfl

section Recorded

variable (h : BothRecorded item world context)

include h

theorem BothRecorded.reads_verdict
    (hoperation : ∃ row ∈ world.operations, item.hasOperation row = true) :
    ∃ verdict, recordedDecision (world.reads deps) context = some (.staff verdict) ∧
      recordedDecision ((world.withoutConsents item).reads deps) context =
        some (.staff verdict) := by
  obtain ⟨row, recorded, hrow, happroval, hdecided⟩ := h.verdict
  obtain ⟨bound, hbound⟩ := boundOperation_some h.tenant hoperation
  obtain ⟨verdict, hverdict, _⟩ := verdictFor_decided h.tenant hrow happroval hdecided hbound
  refine ⟨verdict, ?_, ?_⟩
  · unfold recordedDecision DecisionWorld.reads
    rw [h.workItem]
    dsimp only
    rw [hverdict]
  · unfold recordedDecision DecisionWorld.reads DecisionWorld.withoutConsents
    rw [h.workItem]
    dsimp only
    rw [hverdict]

theorem BothRecorded.reads_consent
    (hoperation : ∃ row ∈ world.operations, item.hasOperation row = true) :
    ∃ consent, recordedDecision ((world.withoutVerdict item).reads deps) context =
      some (.endUser consent) := by
  obtain ⟨row, hrow, hconsent⟩ := h.consent
  obtain ⟨bound, hbound⟩ := boundOperation_some h.tenant hoperation
  have hnone : ApprovalRepository.decisionFor (world.withoutVerdict item).approvals
      world.operations context.tenant item.workItemId = .ok none := by
    refine verdictFor_none h.tenant ?_
    intro other hother happroval
    obtain ⟨_, hundecided⟩ := Table.mem_delete.mp hother
    rw [happroval, Bool.true_and] at hundecided
    exact Option.isNone_iff_eq_none.mp (Option.isSome_eq_false_iff.mp hundecided)
  obtain ⟨consent, hread⟩ := consentFor_some h.tenant ⟨row, hrow, hconsent⟩ hbound
  refine ⟨consent, ?_⟩
  unfold recordedDecision DecisionWorld.reads
  rw [h.workItem]
  dsimp only
  rw [show (world.withoutVerdict item).operations = world.operations from rfl, hnone]
  dsimp only
  rw [show (world.withoutVerdict item).consents = world.consents from rfl, hread]
  rfl

end Recorded

end Reads

/-! ## Which decision is shown -/

section Shown

variable {item : DecidedItem} {world : DecisionWorld} {deps : GraphDependencies}
  {context : RunContext} {state : AgentState} {proposed : ProposedOperationView}
  {decision : TreatmentDecision}

/-- Tables that show the gate the same decision make `govern` write the same. -/
theorem govern_reads_same {other : DecisionWorld}
    (h : recordedDecision (world.reads deps) context =
      recordedDecision (other.reads deps) context) :
    govern (world.reads deps) context state = govern (other.reads deps) context state := by
  apply govern_reads_congr
  intro proposed _
  rw [gateRequest_reads, gateRequest_reads, h]

/-- Where no decision is asked for, any tables do. -/
theorem govern_reads_unasked (other : DecisionWorld) (hproposal : state.proposal = some proposed)
    (htreatment : assignTreatment (deps.lookup context.tenant proposed.identity)
      (deps.isEntitled context.tenant proposed.catalogueId) = .ok decision)
    (hunasked : context.tenant.isAdmitted = true → decision.treatment ≠ .endUserApproval ∧
      decision.treatment ≠ .staffApproval) :
    govern (world.reads deps) context state = govern (other.reads deps) context state := by
  have hsame : ∀ tables : DecisionWorld,
      evaluate (gateRequest (tables.reads deps) context proposed) =
        evaluate (gateRequest deps context proposed) := by
    intro tables
    rw [gateRequest_reads]
    exact evaluate_unasked htreatment hunasked _ _
  apply govern_reads_congr
  intro own hown
  rw [hproposal] at hown
  rw [← Option.some.inj hown, hsame, hsame]

/-- The consent a verdict stands before: the two together are refused as the wrong kind,
the consent alone is not. -/
theorem BothRecorded.shadows (h : BothRecorded item world context)
    (hoperation : ∃ row ∈ world.operations, item.hasOperation row = true)
    (hproposal : state.proposal = some proposed)
    (htreatment : assignTreatment (deps.lookup context.tenant proposed.identity)
      (deps.isEntitled context.tenant proposed.catalogueId) = .ok decision)
    (huser : decision.treatment = .endUserApproval)
    (hadmitted : context.tenant.isAdmitted = true) :
    govern (world.reads deps) context state ≠
      govern ((world.withoutVerdict item).reads deps) context state := by
  intro hsame
  obtain ⟨verdict, hverdict, _⟩ := h.reads_verdict hoperation
  obtain ⟨consent, hconsent⟩ := h.reads_consent hoperation
  obtain ⟨entry, hentry, hentitled, hunelevated, _⟩ :=
    assignTreatment_allowed htreatment (by rw [huser]; decide)
  have hclear : ∀ recorded expiresAt, Cleared
      { gateRequest deps context proposed with
        decision := recorded, authorizationExpiresAt := expiresAt } decision.treatment :=
    fun _ _ => ⟨hadmitted, ⟨entry, hentry, hunelevated⟩, hentitled, by rw [huser]; decide, rfl⟩
  have houtcome : ∀ other : DecisionWorld,
      evaluate (gateRequest (other.reads deps) context proposed) =
        .ok (evaluateConsent (gateRequest (other.reads deps) context proposed) decision) := by
    intro other
    rw [gateRequest_reads, evaluate_cleared htreatment hentry (hclear _ _), huser]
  unfold govern at hsame
  rw [hproposal] at hsame
  dsimp only at hsame
  rw [houtcome, houtcome] at hsame
  injection hsame with hsame
  have hgovernance := congrArg AgentUpdate.governance hsame
  injection hgovernance with hgovernance
  have hreason := congrArg GovernanceResult.reason hgovernance
  have hwrong : (evaluateConsent (gateRequest (world.reads deps) context proposed)
      decision).reason = .wrongDecisionKind := by
    unfold evaluateConsent
    rw [show (gateRequest (world.reads deps) context proposed).decision = _ from hverdict]
    rfl
  have hright : (evaluateConsent
      (gateRequest ((world.withoutVerdict item).reads deps) context proposed)
      decision).reason ≠ .wrongDecisionKind := evaluateConsent_own_kind hconsent
  exact hright (hreason.symm.trans hwrong)

end Shown

/-- **A verdict shadows a consent exactly where the consent is what is asked for.** On a
work item with both, `govern` writes what it would write without the decision its
treatment does not ask for, unless the entry is one the organisation is entitled to and
that needs its requester's approval and no elevation, the organisation is admitted and the
work item has an operation to read the decisions back against. -/
theorem unshadowed_iff {item : DecidedItem} {world : DecisionWorld} {deps : GraphDependencies}
    {context : RunContext} {state : AgentState} (h : BothRecorded item world context) :
    Unshadowed item world deps context state ↔
      ∀ proposed entry, state.proposal = some proposed →
        deps.lookup context.tenant proposed.identity = some entry →
        deps.isEntitled context.tenant proposed.catalogueId = true →
        entry.requiresElevation = false → entry.treatment = .endUserApproval →
        context.tenant.isAdmitted = true →
        ¬ ∃ row ∈ world.operations, item.hasOperation row = true := by
  constructor
  · intro hunshadowed proposed entry hproposal hentry hentitled hunelevated huser hadmitted
      hoperation
    have htreatment : assignTreatment (deps.lookup context.tenant proposed.identity)
        (deps.isEntitled context.tenant proposed.catalogueId) =
          .ok ⟨.endUserApproval, .catalogueDefault⟩ := by
      rw [hentry, hentitled, assignTreatment_some]
      simp [hunelevated, huser]
    refine h.shadows hoperation hproposal htreatment rfl hadmitted ?_
    exact (hunshadowed proposed _ hproposal htreatment).1 (by decide)
  · intro hnone proposed decision hproposal htreatment
    constructor
    · intro hstaff
      by_cases huser : decision.treatment = .endUserApproval
      · obtain ⟨entry, hentry, hentitled, hunelevated, hassigned⟩ :=
          assignTreatment_allowed htreatment (by rw [huser]; decide)
        cases hadmitted : context.tenant.isAdmitted with
        | false =>
            apply govern_reads_unasked _ hproposal htreatment
            rw [hadmitted]
            intro h
            cases h
        | true =>
            have hempty := hnone proposed entry hproposal hentry hentitled hunelevated
              (hassigned.symm.trans huser) hadmitted
            apply govern_reads_same
            rw [reads_nothing h.tenant h.workItem hempty,
              @reads_nothing item (world.withoutVerdict item) deps context h.tenant h.workItem
                hempty]
      · exact govern_reads_unasked _ hproposal htreatment fun _ => ⟨huser, hstaff⟩
    · intro huser
      by_cases hoperation : ∃ row ∈ world.operations, item.hasOperation row = true
      · obtain ⟨verdict, hread, hwithout⟩ := @BothRecorded.reads_verdict item world deps context h
          hoperation
        apply govern_reads_same
        rw [hread, hwithout]
      · apply govern_reads_same
        rw [reads_nothing h.tenant h.workItem hoperation,
          @reads_nothing item (world.withoutConsents item) deps context h.tenant h.workItem
            hoperation]

/-! ### A consent with a verdict beside it -/

namespace SampleShadow

/-- An approval a technician has given on the same work item. -/
def mfaApproval : ApprovalRow :=
  ⟨⟨9⟩, ⟨1⟩, ⟨2⟩, 10, some 20, some ⟨8⟩, some ["technician"], some .approved, some 1000, 2, 20,
    ⟨rfl, rfl⟩⟩

def decidedWorld : DecisionWorld where
  operations := [mfaRow]
  approvals := ⟨⟨[mfaApproval], List.nodup_singleton _⟩, List.nodup_singleton _⟩
  consents := ⟨[⟨⟨6⟩, ⟨1⟩, ⟨2⟩, ⟨7⟩, 50, .granted⟩], List.nodup_singleton _⟩

theorem decidedWorld_both : BothRecorded mfaCase decidedWorld mfaContext where
  tenant := rfl
  workItem := rfl
  verdict := ⟨mfaApproval, ⟨9, ⟨8⟩, .approval .approved, 20, none⟩, List.mem_singleton.mpr rfl,
    rfl, rfl, ⟨_, rfl, rfl⟩, rfl, rfl, ⟨_, rfl⟩, rfl⟩
  consent := ⟨_, List.mem_singleton.mpr rfl, rfl⟩

/-- The requester's own operation is refused for a verdict nobody asked for. -/
theorem consent_shadowed :
    BothRecorded mfaCase decidedWorld mfaContext ∧
      ¬ Unshadowed mfaCase decidedWorld mfaDependencies mfaContext mfaState := by
  refine ⟨decidedWorld_both, ?_⟩
  intro hunshadowed
  have hsame := (hunshadowed mfaProposal ⟨.endUserApproval, .catalogueDefault⟩ rfl rfl).1
    (by decide)
  have hreason := congrArg (fun written =>
    written.toOption.bind fun update => update.governance.map GovernanceResult.reason) hsame
  have hboth : (govern (decidedWorld.reads mfaDependencies) mfaContext mfaState).toOption.bind
      (fun update => update.governance.map GovernanceResult.reason) =
        some .wrongDecisionKind := by decide
  have halone : (govern ((decidedWorld.withoutVerdict mfaCase).reads mfaDependencies) mfaContext
      mfaState).toOption.bind (fun update => update.governance.map GovernanceResult.reason) =
        some .authorizationWindowMissing := by decide
  rw [hboth, halone] at hreason
  cases hreason

/-- The same operation, were it staff's to approve. -/
def staffDependencies : GraphDependencies :=
  { mfaDependencies with
    lookup := fun _ _ =>
      some { mfaEntry with treatment := .staffApproval, acceptedRoles := ⟨{.technician}⟩ } }

theorem verdict_unshadowed :
    Unshadowed mfaCase decidedWorld staffDependencies mfaContext mfaState :=
  (unshadowed_iff decidedWorld_both).mpr (by
    rintro proposed entry _ ⟨⟩ _ _ huser
    cases huser)

end SampleShadow

end Synthia
