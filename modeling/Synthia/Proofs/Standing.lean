import Synthia.Graph.Deciding
import Synthia.Proofs.Binding

/-!
# What the readers find standing

The approvals and the consents of one work item are in one of three shapes: nothing is
decided; or there are consents, one of them dated after all the others; or there is one
verdict and no consent. In each of them both readers have their answer, whatever order
the rows are in: the consent dated last, the verdict, or nothing.

A statement moves a shape only where it writes a row of the work item's. A consent dated
before the first keeps the first in its place; a verdict is the first decision or there
is no shape for it.
-/

namespace Synthia

open Relational

/-- A decision as the conversation shows it. -/
def RecordedDecision.mirrored : RecordedDecision → HumanDecisionRecord
  | .staff verdict =>
      ⟨verdict.approvalId.value, verdict.decidedBy, .approval verdict.verdict, verdict.decidedAt,
        none⟩
  | .endUser consent =>
      ⟨consent.consentId.value, consent.consentedBy, .consent consent.verdict, consent.decidedAt,
        none⟩

def ConsentRow.mirrored (row : ConsentRow) : HumanDecisionRecord :=
  ⟨row.consentId.value, row.consentedByOid, .consent row.verdict, row.decidedAt, none⟩

def HumanDecisionRecord.isConsent (decision : HumanDecisionRecord) : Bool :=
  match decision.verdict with
  | .consent _ => true
  | .approval _ => false

/-! ## The readers -/

section Readers

variable {item : DecidedItem} {tenant : TenantContext} {operations : List OperationRow}

theorem boundOperation_some (htenant : tenant.tenantId = item.tenantId)
    (h : ∃ row ∈ operations, item.hasOperation row = true) :
    ∃ bound, boundOperation operations tenant item.workItemId = some bound := by
  obtain ⟨row, hrow, hbelongs⟩ := h
  have hmem : row ∈ orderByDesc OperationRow.createdAt
      (operations.filter (OperationRow.belongsTo tenant item.workItemId)) := by
    refine mem_orderBy.mpr (List.mem_filter.mpr ⟨hrow, ?_⟩)
    unfold OperationRow.belongsTo
    rw [htenant]
    exact hbelongs
  unfold boundOperation
  cases hsorted : orderByDesc OperationRow.createdAt
      (operations.filter (OperationRow.belongsTo tenant item.workItemId)) with
  | nil =>
      rw [hsorted] at hmem
      exact absurd hmem List.not_mem_nil
  | cons bound rest => exact ⟨bound, rfl⟩

/-- The consents of the work item, as the reader selects them. -/
theorem consents_filter (htenant : tenant.tenantId = item.tenantId) (rows : List ConsentRow) :
    (rows.filter fun row =>
      row.tenantId == tenant.tenantId && row.workItemId == item.workItemId) =
      rows.filter item.hasConsent := by
  rw [htenant]
  rfl

theorem consentFor_none {rows : List ConsentRow} (htenant : tenant.tenantId = item.tenantId)
    (hnone : ∀ row ∈ rows, item.hasConsent row = false) :
    ConsentRepository.decisionFor rows operations tenant item.workItemId = none := by
  have hempty : rows.filter item.hasConsent = [] := by
    rw [List.filter_eq_nil_iff]
    intro row hrow
    rw [hnone row hrow]
    decide
  unfold ConsentRepository.decisionFor
  rw [consents_filter htenant, hempty]
  cases boundOperation operations tenant item.workItemId <;> rfl

/-- A consent dated after every other is the one read. -/
theorem consentFor_first {rows : List ConsentRow} {row : ConsentRow} {bound : OperationRow}
    (htenant : tenant.tenantId = item.tenantId) (hrow : row ∈ rows)
    (hconsent : item.hasConsent row = true)
    (hlater : ∀ other ∈ rows, item.hasConsent other = true → other ≠ row →
      other.decidedAt < row.decidedAt)
    (hbound : boundOperation operations tenant item.workItemId = some bound) :
    ConsentRepository.decisionFor rows operations tenant item.workItemId =
      some ⟨row.consentId, row.consentedByOid, row.verdict, bound.identity, row.decidedAt,
        none⟩ := by
  have hmem : row ∈ rows.filter item.hasConsent := List.mem_filter.mpr ⟨hrow, hconsent⟩
  unfold ConsentRepository.decisionFor
  rw [hbound, consents_filter htenant]
  cases hhead : (orderByDesc ConsentRow.decidedAt (rows.filter item.hasConsent)).head? with
  | none =>
      have hsorted : row ∈ orderByDesc ConsentRow.decidedAt (rows.filter item.hasConsent) :=
        mem_orderBy.mpr hmem
      rw [List.head?_eq_none_iff] at hhead
      rw [hhead] at hsorted
      exact absurd hsorted List.not_mem_nil
  | some newest =>
      obtain ⟨hnewest, hall⟩ := newest_of_head hhead
      obtain ⟨hin, hits⟩ := List.mem_filter.mp hnewest
      have hsame : newest = row := by
        by_contra hother
        have hnotEarlier := hall row hmem
        exact absurd (hlater newest hin hits hother) (not_lt.mpr hnotEarlier)
      rw [hsame]

/-- The decided approvals of the work item, as the reader selects them. -/
theorem decidedFor_iff_hasApproval {row : ApprovalRow} (htenant : tenant.tenantId = item.tenantId) :
    row.decidedFor tenant item.workItemId = true ↔
      item.hasApproval row = true ∧ row.decidedAt.isSome = true := by
  unfold ApprovalRow.decidedFor DecidedItem.hasApproval
  rw [htenant, Bool.and_eq_true]

theorem verdictFor_none {approvals : ApprovalTable} (htenant : tenant.tenantId = item.tenantId)
    (hnone : ∀ row ∈ approvals.rows, item.hasApproval row = true → row.decidedAt = none) :
    ApprovalRepository.decisionFor approvals operations tenant item.workItemId = .ok none := by
  have hempty : approvals.rows.filter (ApprovalRow.decidedFor tenant item.workItemId) = [] := by
    rw [List.filter_eq_nil_iff]
    intro row hrow hdecided
    obtain ⟨hits, hsome⟩ := (decidedFor_iff_hasApproval htenant).mp hdecided
    rw [hnone row hrow hits] at hsome
    cases hsome
  unfold ApprovalRepository.decisionFor
  rw [hempty]
  cases boundOperation operations tenant item.workItemId <;> rfl

/-- An approval row with a decision on it, as `record_verdict` leaves one. -/
structure Decided (row : ApprovalRow) (decision : HumanDecisionRecord) : Prop where
  decisionId : decision.decisionId = row.approvalId.value
  verdict : ∃ verdict, row.verdict = some verdict ∧ decision.verdict = .approval verdict
  decidedBy : row.decidedByOid = some decision.decidedBy
  decidedAt : row.decidedAt = some decision.decidedAt
  roles : ∃ rolesHeld, RoleSet.ofNames (row.decidedByRoles.getD []) = some rolesHeld
  unbounded : decision.expiresAt = none

theorem verdictFor_decided {approvals : ApprovalTable} {row : ApprovalRow}
    {decision : HumanDecisionRecord} {bound : OperationRow}
    (htenant : tenant.tenantId = item.tenantId) (hrow : row ∈ approvals.rows)
    (happroval : item.hasApproval row = true) (hdecided : Decided row decision)
    (hbound : boundOperation operations tenant item.workItemId = some bound) :
    ∃ verdict,
      ApprovalRepository.decisionFor approvals operations tenant item.workItemId =
        .ok (some verdict) ∧
      (RecordedDecision.staff verdict).mirrored = decision := by
  obtain ⟨hid, ⟨verdict, hverdict, hkind⟩, hdecidedBy, hdecidedAt, ⟨rolesHeld, hroles⟩, hexpires⟩ :=
    hdecided
  have honly : approvals.rows.filter (ApprovalRow.decidedFor tenant item.workItemId) = [row] := by
    apply filter_eq_singleton approvals.oneEach
    · intro other hother
      exact (ApprovalRow.decidedFor_iff.mp hother).2.1
    · exact hrow
    · rw [decidedFor_iff_hasApproval htenant, hdecidedAt]
      exact ⟨happroval, rfl⟩
  refine ⟨⟨row.approvalId, decision.decidedBy, rolesHeld, verdict, bound.identity,
    decision.decidedAt, row.expiresAt⟩, ?_, ?_⟩
  · unfold ApprovalRepository.decisionFor
    rw [hbound, honly]
    exact ApprovalRepository.verdictOf_decided hverdict hdecidedBy hdecidedAt hroles
  · show (⟨row.approvalId.value, decision.decidedBy, .approval verdict, decision.decidedAt,
      none⟩ : HumanDecisionRecord) = decision
    rw [← hid, ← hkind, ← hexpires]

end Readers

/-! ## What stands -/

/-- What the two tables hold of the work item: no decision; or consents, the first
recorded dated after the others; or a verdict. -/
inductive Standing (item : DecidedItem) (approvals : ApprovalTable) (consents : ConsentTable) :
    Option HumanDecisionRecord → Prop where
  | undecided (hconsents : ∀ row ∈ consents.rows, item.hasConsent row = false)
      (happrovals : ∀ row ∈ approvals.rows, item.hasApproval row = true → row.decidedAt = none) :
      Standing item approvals consents none
  | consented (row : ConsentRow) (hrow : row ∈ consents.rows)
      (hconsent : item.hasConsent row = true)
      (hlater : ∀ other ∈ consents.rows, item.hasConsent other = true → other ≠ row →
        other.decidedAt < row.decidedAt)
      (happrovals : ∀ row ∈ approvals.rows, item.hasApproval row = true → row.decidedAt = none) :
      Standing item approvals consents (some row.mirrored)
  | approved (row : ApprovalRow) (decision : HumanDecisionRecord) (hrow : row ∈ approvals.rows)
      (happroval : item.hasApproval row = true) (hdecided : Decided row decision)
      (hconsents : ∀ row ∈ consents.rows, item.hasConsent row = false) :
      Standing item approvals consents (some decision)

theorem Decided.isConsent {row : ApprovalRow} {decision : HumanDecisionRecord}
    (h : Decided row decision) : decision.isConsent = false := by
  obtain ⟨verdict, _, hkind⟩ := h.verdict
  unfold HumanDecisionRecord.isConsent
  rw [hkind]

namespace Standing

variable {item : DecidedItem} {approvals : ApprovalTable} {consents : ConsentTable}
  {first : Option HumanDecisionRecord}

/-- What stands is not moved by consents of other work items. -/
theorem of_consents {after : ConsentTable} (h : Standing item approvals consents first)
    (hsame : ∀ row, item.hasConsent row = true → (row ∈ after.rows ↔ row ∈ consents.rows)) :
    Standing item approvals after first := by
  have hnone : (∀ row ∈ consents.rows, item.hasConsent row = false) →
      ∀ row ∈ after.rows, item.hasConsent row = false := by
    intro hconsents row hrow
    by_contra hits
    rw [Bool.not_eq_false] at hits
    rw [hconsents row ((hsame row hits).mp hrow)] at hits
    cases hits
  cases h with
  | undecided hconsents happrovals => exact undecided (hnone hconsents) happrovals
  | consented row hrow hconsent hlater happrovals =>
      refine consented row ((hsame row hconsent).mpr hrow) hconsent ?_ happrovals
      intro other hother hits
      exact hlater other ((hsame other hits).mp hother) hits
  | approved row decision hrow happroval hdecided hconsents =>
      exact approved row _ hrow happroval hdecided (hnone hconsents)

/-- Nor by approvals without a decision, or of other work items. -/
theorem of_approvals {after : ApprovalTable} (h : Standing item approvals consents first)
    (hnew : ∀ row ∈ after.rows, item.hasApproval row = true →
      row ∈ approvals.rows ∨ row.decidedAt = none)
    (hkept : ∀ row ∈ approvals.rows, item.hasApproval row = true →
      row.decidedAt.isSome = true → row ∈ after.rows) :
    Standing item after consents first := by
  have hnone : (∀ row ∈ approvals.rows, item.hasApproval row = true → row.decidedAt = none) →
      ∀ row ∈ after.rows, item.hasApproval row = true → row.decidedAt = none := by
    intro happrovals row hrow hits
    rcases hnew row hrow hits with hold | hundecided
    · exact happrovals row hold hits
    · exact hundecided
  cases h with
  | undecided hconsents happrovals => exact undecided hconsents (hnone happrovals)
  | consented row hrow hconsent hlater happrovals =>
      exact consented row hrow hconsent hlater (hnone happrovals)
  | approved row decision hrow happroval hdecided hconsents =>
      have hsome : row.decidedAt.isSome = true := by rw [hdecided.decidedAt]; rfl
      exact approved row _ (hkept row hrow happroval hsome) happroval hdecided hconsents

/-- A consent is the first decision, or leaves the first where it was. -/
theorem recordsConsent (row : ConsentRow) (h : Standing item approvals consents first)
    (hfresh : row.consentId ∉ consents.rows.map ConsentRow.consentId)
    (hconsent : item.hasConsent row = true)
    (hearlier : ∀ decision, first = some decision →
      decision.isConsent = true ∧ row.decidedAt < decision.decidedAt) :
    Standing item approvals (consents.insert row hfresh) (first.or (some row.mirrored)) := by
  have hmem : ∀ other, other ∈ (consents.insert row hfresh).rows ↔
      other ∈ consents.rows ∨ other = row := by
    intro other
    show other ∈ consents.rows ++ [row] ↔ _
    rw [List.mem_append, List.mem_singleton]
  cases h with
  | undecided hconsents happrovals =>
      refine consented row ((hmem row).mpr (Or.inr rfl)) hconsent ?_ happrovals
      intro other hother hits hne
      rcases (hmem other).mp hother with hold | hself
      · rw [hconsents other hold] at hits
        cases hits
      · exact absurd hself hne
  | consented newest hrow hnewest hlater happrovals =>
      refine consented newest ((hmem newest).mpr (Or.inl hrow)) hnewest ?_ happrovals
      intro other hother hits hne
      rcases (hmem other).mp hother with hold | hself
      · exact hlater other hold hits hne
      · rw [hself]
        exact (hearlier _ rfl).2
  | approved approval decision hrow happroval hdecided hconsents =>
      have hkind := (hearlier decision rfl).1
      rw [hdecided.isConsent] at hkind
      cases hkind

section Verdict

variable {tenant : TenantContext} {approvalId : ApprovalId} {decidedBy : PrincipalId}
  {rolesHeld : RoleSet} {verdict : ApprovalVerdict} {expiresAt databaseNow : Instant}

/-- A verdict is the first decision of a work item without one. -/
theorem recordsVerdict {hit : ApprovalRow} (h : Standing item approvals consents none)
    (hrow : hit ∈ approvals.rows) (hundecided : hit.undecided tenant approvalId = true)
    (happroval : item.hasApproval hit = true) :
    Standing item
      (ApprovalRepository.recordVerdict approvals tenant approvalId decidedBy rolesHeld verdict
        expiresAt databaseNow).2
      consents
      (some ⟨approvalId.value, decidedBy, .approval verdict, databaseNow, none⟩) := by
  obtain ⟨_, hid, _⟩ := ApprovalRow.undecided_iff.mp hundecided
  cases h with
  | undecided hconsents _ =>
      refine approved
        (((ApprovalRow.decided decidedBy rolesHeld verdict expiresAt databaseNow).managed
          databaseNow).apply hit) _ ?_ happroval ?_ hconsents
      · rw [ApprovalRepository.mem_recordVerdict]
        exact ⟨hit, hrow, by rw [if_pos hundecided]⟩
      · exact
          { decisionId := by rw [← hid]; rfl
            verdict := ⟨verdict, rfl, rfl⟩
            decidedBy := rfl
            decidedAt := rfl
            roles := ⟨rolesHeld, RoleSet.ofNames_sortedValues rolesHeld⟩
            unbounded := rfl }

/-- A verdict on another work item, or refused, leaves what stands. -/
theorem skipsVerdict (h : Standing item approvals consents first)
    (hother : ¬ ∃ row ∈ approvals.rows, row.undecided tenant approvalId = true ∧
      item.hasApproval row = true) :
    Standing item
      (ApprovalRepository.recordVerdict approvals tenant approvalId decidedBy rolesHeld verdict
        expiresAt databaseNow).2
      consents first := by
  refine h.of_approvals ?_ ?_
  · intro row hrow hits
    obtain ⟨old, hold, hwritten⟩ := ApprovalRepository.mem_recordVerdict.mp hrow
    split at hwritten
    · next hundecided =>
        -- the row a verdict was written to is not the work item's
        rw [hwritten] at hits
        exact absurd ⟨old, hold, hundecided, hits⟩ hother
    · rw [hwritten]
      exact Or.inl hold
  · intro row hrow _ hdecided
    rw [ApprovalRepository.mem_recordVerdict]
    refine ⟨row, hrow, ?_⟩
    rw [if_neg]
    intro hundecided
    rw [(ApprovalRow.undecided_iff.mp hundecided).2.2] at hdecided
    cases hdecided

end Verdict

end Standing

end Synthia
