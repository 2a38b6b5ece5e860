import Synthia.Lib.Restriction
import Synthia.Persistence.Store

/-!
# One organisation's rows

Every statement made under a tenant carries that tenant's predicate on each table it
names. So it selects among the tenant's rows, and run against those rows alone it
finds, counts and writes exactly what it does against the whole store: cutting the
store down to one organisation commutes with every call. What is cut away, the call
leaves alone.

An insert is the case with a condition. A unique identifier is unique in the whole
store, and the insert does the same to the part and to the whole only where no other
organisation's row has it.
-/

namespace Synthia

open Relational Text

/-- A predicate that selects rows of the tenant only. -/
def Scoped {ρ : Type} (owner : ρ → TenantId) (tenant : TenantContext) (pred : ρ → Bool) : Prop :=
  ∀ row, pred row = true → owner row = tenant.tenantId

section Scoped

variable {ρ : Type} {owner : ρ → TenantId} {tenant : TenantContext} {pred rest : ρ → Bool}

theorem scoped_self : Scoped owner tenant fun row => owner row == tenant.tenantId :=
  fun _ h => beq_iff_eq.mp h

theorem Scoped.and (h : Scoped owner tenant pred) :
    Scoped owner tenant fun row => pred row && rest row := by
  intro row hrow
  rw [Bool.and_eq_true] at hrow
  exact h row hrow.1

theorem Scoped.within_own (h : Scoped owner tenant pred) :
    Within pred fun row => owner row == tenant.tenantId :=
  fun row hrow => beq_iff_eq.mpr (h row hrow)

theorem Scoped.outside_others (h : Scoped owner tenant pred) :
    ∀ row, pred row = true → (!(owner row == tenant.tenantId)) = false := by
  intro row hrow
  rw [h row hrow, beq_self_eq_true]
  rfl

end Scoped

/-! ## The two helpers, on a part of a table -/

section Helpers

variable {ρ κ : Type} {key : ρ → κ} [Versioned ρ key] {table : Table ρ key} {keep : ρ → Bool}
  {changes : Changes ρ key} {now : Instant}

theorem guardedUpdate_restrict {target : VersionedRow ρ} (h : Within target.identity keep)
    (hkeep : ∀ row, keep ((changes.managed now).apply row) = keep row) :
    guardedUpdate (table.restrict keep) target changes now =
      ((guardedUpdate table target changes now).1,
        (guardedUpdate table target changes now).2.restrict keep) := by
  have hwithin : Within (fun row => target.identity row &&
      Versioned.version key row == target.expectedVersion) keep := by
    intro row hrow
    rw [Bool.and_eq_true] at hrow
    exact h row hrow.1
  unfold guardedUpdate
  dsimp only
  rw [Table.restrict_update hkeep]
  congr 2
  exact rowsAffected_within hwithin

theorem guardedUpdate_restrict_outside {target : VersionedRow ρ}
    (h : ∀ row, target.identity row = true → keep row = false)
    (hkeep : ∀ row, keep ((changes.managed now).apply row) = keep row) :
    (guardedUpdate table target changes now).2.restrict keep = table.restrict keep := by
  unfold guardedUpdate
  dsimp only
  apply Table.restrict_update_outside hkeep
  intro row _ hrow
  rw [Bool.and_eq_true] at hrow
  exact h row hrow.1

theorem claimOnce_restrict {identity : ρ → Bool} (h : Within identity keep)
    (hkeep : ∀ row, keep ((changes.managed now).apply row) = keep row) :
    claimOnce (table.restrict keep) identity changes now =
      ((claimOnce table identity changes now).1,
        (claimOnce table identity changes now).2.restrict keep) := by
  unfold claimOnce
  dsimp only
  rw [Table.restrict_update hkeep]
  congr 2
  exact rowsAffected_within h

theorem claimOnce_restrict_outside {identity : ρ → Bool}
    (h : ∀ row, identity row = true → keep row = false)
    (hkeep : ∀ row, keep ((changes.managed now).apply row) = keep row) :
    (claimOnce table identity changes now).2.restrict keep = table.restrict keep := by
  unfold claimOnce
  dsimp only
  exact Table.restrict_update_outside hkeep fun row _ => h row

end Helpers

/-! ## A store cut down to some organisations -/

namespace Store

def approvalsOnly (keep : TenantId → Bool) (approvals : ApprovalTable) : ApprovalTable where
  toTable := approvals.toTable.restrict fun row => keep row.tenantId
  oneEach := (List.filter_sublist.map ApprovalRow.workItemId).nodup approvals.oneEach

def feedbackOnly (keep : TenantId → Bool) (feedback : FeedbackTable) : FeedbackTable where
  toTable := feedback.toTable.restrict fun row => keep row.tenantId
  oneEach := (List.filter_sublist.map SignalRow.giver).nodup feedback.oneEach

/-- The rows of the organisations kept, and the catalogue, which is nobody's. -/
def only (keep : TenantId → Bool) (store : Store) : Store where
  registry := store.registry.restrict fun row => keep row.tenantId
  catalogue := store.catalogue
  entitlements := store.entitlements.restrict fun row => keep row.tenantId
  sessions := store.sessions.restrict fun row => keep row.tenantId
  messages := store.messages.restrict fun row => keep row.tenantId
  feedback := feedbackOnly keep store.feedback
  workItems := store.workItems.restrict fun row => keep row.tenantId
  operations := store.operations.restrict fun row => keep row.tenantId
  approvals := approvalsOnly keep store.approvals
  consents := store.consents.restrict fun row => keep row.tenantId
  idempotency := store.idempotency.restrict fun row => keep row.tenantId
  outbox := store.outbox.restrict fun row => keep row.tenantId
  auditEvents := store.auditEvents.restrict fun row => keep row.tenantId

/-- The tenant's rows. -/
def own (tenant : TenantContext) (store : Store) : Store :=
  store.only fun tenantId => tenantId == tenant.tenantId

/-- Every other organisation's rows. -/
def others (tenant : TenantContext) (store : Store) : Store :=
  store.only fun tenantId => !(tenantId == tenant.tenantId)

/-! ### Reads -/

section Reads

variable {tenant : TenantContext} {store : Store}

theorem boundOperation_own {workItemId : WorkItemId} :
    boundOperation ((store.own tenant).operations.rows.map OperationRecord.toOperationRow) tenant
        workItemId =
      boundOperation (store.operations.rows.map OperationRecord.toOperationRow) tenant
        workItemId := by
  have hscoped : Scoped OperationRow.tenantId tenant (OperationRow.belongsTo tenant workItemId) :=
    scoped_self.and
  have hrows : (store.own tenant).operations.rows.map OperationRecord.toOperationRow =
      (store.operations.rows.map OperationRecord.toOperationRow).filter
        fun row => row.tenantId == tenant.tenantId := by
    rw [List.filter_map]
    rfl
  unfold boundOperation
  rw [hrows, filter_filter_within (hscoped.within_own)]

theorem verdictFor_own {workItemId : WorkItemId} :
    ApprovalRepository.decisionFor (store.own tenant).approvals
        ((store.own tenant).operations.rows.map OperationRecord.toOperationRow) tenant workItemId =
      ApprovalRepository.decisionFor store.approvals
        (store.operations.rows.map OperationRecord.toOperationRow) tenant workItemId := by
  have hscoped : Scoped ApprovalRow.tenantId tenant (ApprovalRow.decidedFor tenant workItemId) :=
    scoped_self.and.and
  have hrows : (store.own tenant).approvals.rows.filter (ApprovalRow.decidedFor tenant workItemId) =
      store.approvals.rows.filter (ApprovalRow.decidedFor tenant workItemId) :=
    filter_filter_within (hscoped.within_own)
  unfold ApprovalRepository.decisionFor
  rw [boundOperation_own, hrows]

theorem consentFor_own {workItemId : WorkItemId} :
    ConsentRepository.decisionFor (store.own tenant).consents.rows
        ((store.own tenant).operations.rows.map OperationRecord.toOperationRow) tenant workItemId =
      ConsentRepository.decisionFor store.consents.rows
        (store.operations.rows.map OperationRecord.toOperationRow) tenant workItemId := by
  have hscoped : Scoped ConsentRow.tenantId tenant fun row =>
      row.tenantId == tenant.tenantId && row.workItemId == workItemId := scoped_self.and
  have hrows : (store.own tenant).consents.rows.filter (fun row =>
        row.tenantId == tenant.tenantId && row.workItemId == workItemId) =
      store.consents.rows.filter fun row =>
        row.tenantId == tenant.tenantId && row.workItemId == workItemId :=
    filter_filter_within (hscoped.within_own)
  unfold ConsentRepository.decisionFor
  rw [boundOperation_own, hrows]

theorem entitlement_own {catalogueId : String} :
    (store.own tenant).entitlements.rows.find? (OperationCatalogue.entitles tenant catalogueId) =
      store.entitlements.rows.find? (OperationCatalogue.entitles tenant catalogueId) := by
  have hscoped : Scoped EntitlementRow.tenantId tenant
      (OperationCatalogue.entitles tenant catalogueId) := scoped_self.and.and
  exact find?_filter_within (hscoped.within_own)

theorem lookup_own {identity : OperationIdentity} :
    OperationCatalogue.lookup (store.own tenant).catalogue (store.own tenant).entitlements tenant
        identity =
      OperationCatalogue.lookup store.catalogue store.entitlements tenant identity := by
  unfold OperationCatalogue.lookup
  rw [entitlement_own]
  rfl

/-- A read finds among the tenant's rows what it finds in the whole store. -/
theorem Query.answer_own (query : Query) :
    query.answer (store.own tenant) tenant = query.answer store tenant := by
  cases query with
  | getSession sessionId =>
      have hscoped : Scoped ChatSessionRow.tenantId tenant
          (ChatSessionRow.scopedTo tenant sessionId) := scoped_self.and
      exact congrArg (fun row => Except.ok (Answer.session row))
        (find?_filter_within (hscoped.within_own))
  | listForRequester requester limit =>
      have hscoped : Scoped ChatSessionRow.tenantId tenant fun row =>
          row.tenantId == tenant.tenantId && row.requesterOid == requester := scoped_self.and
      exact congrArg (fun rows => Except.ok (Answer.sessions
          ((orderByDesc ChatSessionRow.createdAt rows).take limit)))
        (filter_filter_within (hscoped.within_own))
  | getWorkItem workItemId =>
      have hscoped : Scoped WorkItemRow.tenantId tenant
          (WorkItemRow.scopedTo tenant workItemId) := scoped_self.and
      exact congrArg (fun row => Except.ok (Answer.workItem row))
        (find?_filter_within (hscoped.within_own))
  | listExpired now limit =>
      have hscoped : Scoped WorkItemRow.tenantId tenant fun row =>
          row.tenantId == tenant.tenantId && row.lapsed now := scoped_self.and
      exact congrArg (fun rows => Except.ok (Answer.expired
          (((orderBy (fun row : WorkItemRow => row.expiresAt.getD 0) rows).take limit).map
            fun row => (row.workItemId, row.version))))
        (filter_filter_within (hscoped.within_own))
  | verdictFor workItemId =>
      unfold Query.answer
      dsimp only
      rw [verdictFor_own]
  | consentFor workItemId =>
      unfold Query.answer
      dsimp only
      rw [consentFor_own]
  | lookup identity =>
      unfold Query.answer
      dsimp only
      rw [lookup_own]
  | isEntitled catalogueId =>
      exact congrArg (fun row => Except.ok (Answer.flag (Option.isSome row)))
        (entitlement_own)
  | replay key =>
      have hscoped : Scoped IdempotencyRecord.tenantId tenant fun row =>
          row.tenantId == tenant.tenantId && row.idempotencyKey == key := scoped_self.and
      exact congrArg (fun row => Except.ok (Answer.outcome
          (Option.bind row IdempotencyRecord.outcome)))
        (find?_filter_within (hscoped.within_own))
  | search since limit workItemId databaseNow =>
      have hscoped : Scoped AuditEventRow.tenantId tenant
          (AuditSink.matching tenant since workItemId databaseNow) := scoped_self.and.and.and
      exact congrArg (fun rows => Except.ok (Answer.events
          ((orderByDesc AuditEventRow.occurredAt rows).take limit)))
        (filter_filter_within (hscoped.within_own))
  | retentionOverrides =>
      have hscoped : Scoped RegistryRow.tenantId tenant fun row =>
          row.tenantId == tenant.tenantId := scoped_self
      exact congrArg (fun row => Except.ok (Answer.overrides
          (Option.bind row RegistryRow.retentionOverrides)))
        (find?_filter_within (hscoped.within_own))

end Reads

/-! ### Writes -/

/-- No identifier a write inserts is one another organisation's row has. -/
def Write.Free (tenant : TenantContext) (store : Store) : Write → Prop
  | .recordConsent consentId _ _ _ _ =>
      consentId ∉ (store.others tenant).consents.rows.map ConsentRow.consentId
  | .enqueue _ outboxId _ | .enqueueIntegrationCommand _ outboxId _ =>
      outboxId ∉ (store.others tenant).outbox.rows.map OutboxRow.outboxId
  | .recordAudit eventId _ _ _ _ _ _ _ =>
      eventId ∉ (store.others tenant).auditEvents.rows.map AuditEventRow.auditId
  | .recordFeedback messageId givenBy _ feedbackId =>
      (feedbackId ∉ (store.others tenant).feedback.rows.map fun row => row.feedbackId) ∧
        (messageId, givenBy) ∉ (store.others tenant).feedback.rows.map SignalRow.giver
  | _ => True

instance decidableFree (tenant : TenantContext) (store : Store) :
    (write : Write) → Decidable (write.Free tenant store)
  | .recordConsent _ _ _ _ _ | .enqueue _ _ _ | .enqueueIntegrationCommand _ _ _
  | .recordAudit _ _ _ _ _ _ _ _ => inferInstanceAs (Decidable (_ ∉ _))
  | .recordFeedback _ _ _ _ => inferInstanceAs (Decidable (_ ∉ _ ∧ _ ∉ _))
  | .transitionSession _ _ _ _ _ | .claim _ _ _ _ | .transitionWorkItem _ _ _ _
  | .recordVerdict _ _ _ _ _ _ | .recordOutcome _ _ _ _ | .remember _ _ _
  | .withdrawFeedback _ _ => isTrue trivial

section Writes

variable {tenant : TenantContext} {store : Store}

theorem transitionSession_own {sessionId : SessionId} {state : SessionState}
    {expectedVersion : Int} {contentExpiresAt : Option Instant} {now : Instant} :
    SessionRepository.transition (store.own tenant).sessions tenant sessionId state
        expectedVersion contentExpiresAt now =
      ((SessionRepository.transition store.sessions tenant sessionId state expectedVersion
          contentExpiresAt now).1,
        (SessionRepository.transition store.sessions tenant sessionId state expectedVersion
          contentExpiresAt now).2.restrict fun row => row.tenantId == tenant.tenantId) := by
  have hscoped : Scoped ChatSessionRow.tenantId tenant
      (ChatSessionRow.scopedTo tenant sessionId) := scoped_self.and
  exact guardedUpdate_restrict hscoped.within_own fun _ => rfl

theorem claim_own {workItemId : WorkItemId} {claimedBy : String} {now databaseNow : Instant} :
    WorkItemRepository.claim (store.own tenant).workItems tenant workItemId claimedBy now
        databaseNow =
      ((WorkItemRepository.claim store.workItems tenant workItemId claimedBy now databaseNow).1,
        (WorkItemRepository.claim store.workItems tenant workItemId claimedBy now
          databaseNow).2.restrict fun row => row.tenantId == tenant.tenantId) := by
  have hscoped : Scoped WorkItemRow.tenantId tenant fun row =>
      row.scopedTo tenant workItemId && row.claimable now := scoped_self.and.and
  exact claimOnce_restrict hscoped.within_own fun _ => rfl

theorem transitionWorkItem_own {workItemId : WorkItemId} {state : WorkItemState}
    {expectedVersion : Int} {now : Instant} :
    WorkItemRepository.transition (store.own tenant).workItems tenant workItemId state
        expectedVersion now =
      ((WorkItemRepository.transition store.workItems tenant workItemId state expectedVersion
          now).1,
        (WorkItemRepository.transition store.workItems tenant workItemId state expectedVersion
          now).2.restrict fun row => row.tenantId == tenant.tenantId) := by
  have hscoped : Scoped WorkItemRow.tenantId tenant
      (WorkItemRow.scopedTo tenant workItemId) := scoped_self.and
  exact guardedUpdate_restrict hscoped.within_own fun _ => rfl

theorem approvals_eq {left right : ApprovalTable} (h : left.rows = right.rows) : left = right := by
  cases left
  cases right
  cases Table.eq_of_rows h
  rfl

theorem feedback_eq {left right : FeedbackTable} (h : left.rows = right.rows) : left = right := by
  cases left
  cases right
  cases Table.eq_of_rows h
  rfl

theorem recordVerdict_own {approvalId : ApprovalId} {decidedBy : PrincipalId}
    {rolesHeld : RoleSet} {verdict : ApprovalVerdict} {expiresAt now : Instant} :
    ApprovalRepository.recordVerdict (store.own tenant).approvals tenant approvalId decidedBy
        rolesHeld verdict expiresAt now =
      ((ApprovalRepository.recordVerdict store.approvals tenant approvalId decidedBy rolesHeld
          verdict expiresAt now).1,
        approvalsOnly (fun tenantId => tenantId == tenant.tenantId)
          (ApprovalRepository.recordVerdict store.approvals tenant approvalId decidedBy rolesHeld
            verdict expiresAt now).2) := by
  have hscoped : Scoped ApprovalRow.tenantId tenant (ApprovalRow.undecided tenant approvalId) :=
    scoped_self.and.and
  have hclaim : claimOnce (store.own tenant).approvals.toTable
        (ApprovalRow.undecided tenant approvalId)
        (ApprovalRow.decided decidedBy rolesHeld verdict expiresAt now) now =
      ((claimOnce store.approvals.toTable (ApprovalRow.undecided tenant approvalId)
          (ApprovalRow.decided decidedBy rolesHeld verdict expiresAt now) now).1,
        (claimOnce store.approvals.toTable (ApprovalRow.undecided tenant approvalId)
          (ApprovalRow.decided decidedBy rolesHeld verdict expiresAt now) now).2.restrict
            fun row => row.tenantId == tenant.tenantId) :=
    claimOnce_restrict hscoped.within_own fun _ => rfl
  have hwon := congrArg Prod.fst hclaim
  have hrows := congrArg (fun written => written.2.rows) hclaim
  exact Prod.ext hwon (approvals_eq hrows)

theorem recordConsent_own {consentId : ConsentId} {workItemId : WorkItemId}
    {consentedBy : PrincipalId} {verdict : ConsentVerdict} {now : Instant}
    (hfree : consentId ∉ (store.others tenant).consents.rows.map ConsentRow.consentId) :
    ConsentRepository.record (store.own tenant).consents (store.own tenant).workItems tenant
        consentId workItemId consentedBy verdict now =
      (ConsentRepository.record store.consents store.workItems tenant consentId workItemId
        consentedBy verdict now).map fun written =>
          (written.1, written.2.restrict fun row => row.tenantId == tenant.tenantId) := by
  have hscoped : Scoped WorkItemRow.tenantId tenant fun work =>
      work.scopedTo tenant workItemId && work.requestedByOid == consentedBy := scoped_self.and.and
  have hfind : (store.own tenant).workItems.rows.find? (fun work =>
        work.scopedTo tenant workItemId && work.requestedByOid == consentedBy) =
      store.workItems.rows.find? fun work =>
        work.scopedTo tenant workItemId && work.requestedByOid == consentedBy :=
    find?_filter_within hscoped.within_own
  unfold ConsentRepository.record
  rw [hfind]
  cases hwork : store.workItems.rows.find? fun work =>
      work.scopedTo tenant workItemId && work.requestedByOid == consentedBy with
  | none => rfl
  | some work =>
      dsimp only
      have hselected := List.find?_some hwork
      have howner : work.tenantId = tenant.tenantId := hscoped work hselected
      refine (Table.insert_unless_taken store.consents
        (fun row => row.tenantId == tenant.tenantId)
        ⟨consentId, work.tenantId, work.workItemId, consentedBy, now, verdict⟩
        (beq_iff_eq.mpr howner) hfree none fun table => some (true, table)).trans ?_
      split <;> rfl

theorem recordOutcome_own {operationId : OperationId} {verification : VerificationOutcome}
    {detail : String} {now : Instant} :
    OperationRepository.recordOutcome (store.own tenant).operations tenant operationId
        verification detail now =
      (OperationRepository.recordOutcome store.operations tenant operationId verification detail
        now).map fun written => written.restrict fun row => row.tenantId == tenant.tenantId := by
  unfold OperationRepository.recordOutcome
  rw [Option.map_map]
  congr 1
  funext status
  exact (Table.restrict_update fun _ => rfl).symm

theorem insertMessage_own {row : OutboxRow} (howner : row.tenantId = tenant.tenantId)
    (hfree : row.outboxId ∉ (store.others tenant).outbox.rows.map OutboxRow.outboxId) :
    Outbox.insertMessage (store.own tenant).outbox row =
      (Outbox.insertMessage store.outbox row).map fun written =>
        written.restrict fun row => row.tenantId == tenant.tenantId := by
  unfold Outbox.insertMessage
  by_cases htaken : row.outboxId ∈ store.outbox.rows.map OutboxRow.outboxId
  · have hown : row.outboxId ∈ (store.own tenant).outbox.rows.map OutboxRow.outboxId :=
      (mem_map_filter hfree).mpr htaken
    rw [dif_neg (not_not_intro htaken), dif_neg (not_not_intro hown)]
    rfl
  · have hown : row.outboxId ∉ (store.own tenant).outbox.rows.map OutboxRow.outboxId :=
      mt (mem_map_filter hfree).mp htaken
    have hinserted := Table.restrict_insert
      (fun row : OutboxRow => row.tenantId == tenant.tenantId)
      (beq_iff_eq.mpr howner) htaken hown
    rw [dif_pos htaken, dif_pos hown]
    exact congrArg Except.ok hinserted.symm

theorem enqueue_own {envelope : TriggerEnvelope} {outboxId : Uuid} {sequence : Nat}
    {now : Instant}
    (hfree : outboxId ∉ (store.others tenant).outbox.rows.map OutboxRow.outboxId) :
    Outbox.enqueue (store.own tenant).outbox tenant envelope outboxId sequence now =
      (Outbox.enqueue store.outbox tenant envelope outboxId sequence now).map fun written =>
        written.restrict fun row => row.tenantId == tenant.tenantId := by
  unfold Outbox.enqueue
  cases correlationText envelope.correlationId with
  | none => rfl
  | some correlationId => exact insertMessage_own rfl hfree

theorem enqueueIntegrationCommand_own {envelope : IntegrationCommandEnvelope} {outboxId : Uuid}
    {sequence : Nat} {now : Instant}
    (hfree : outboxId ∉ (store.others tenant).outbox.rows.map OutboxRow.outboxId) :
    Outbox.enqueueIntegrationCommand (store.own tenant).outbox tenant envelope outboxId sequence
        now =
      (Outbox.enqueueIntegrationCommand store.outbox tenant envelope outboxId sequence now).map
        fun written => written.restrict fun row => row.tenantId == tenant.tenantId := by
  unfold Outbox.enqueueIntegrationCommand
  cases correlationText envelope.correlationId with
  | none => rfl
  | some correlationId => exact insertMessage_own rfl hfree

theorem recordAudit_own {eventId : AuditEventId} {correlationId : CorrelationId}
    {actorChain : ActorChain} {detail : AuditFacts} {workItemId : Option WorkItemId}
    {retainUntil : Option Instant} {overrides : RetentionOverrides} {now : Instant}
    (hfree : eventId ∉ (store.others tenant).auditEvents.rows.map AuditEventRow.auditId) :
    AuditSink.record (store.own tenant).auditEvents tenant eventId correlationId actorChain detail
        workItemId retainUntil overrides now =
      (AuditSink.record store.auditEvents tenant eventId correlationId actorChain detail workItemId
        retainUntil overrides now).map fun written =>
          written.restrict fun row => row.tenantId == tenant.tenantId := by
  unfold AuditSink.record
  cases AuditSink.horizon retainUntil overrides now with
  | error error => rfl
  | ok horizon =>
      dsimp only
      refine (Table.insert_unless_taken store.auditEvents
        (fun row => row.tenantId == tenant.tenantId)
        ⟨eventId, tenant.tenantId, workItemId, now, detail.kind.value, actorChain.requestedBy,
          actorChain.approvedBy, actorChain.executedBy, actorChain.executionMethod,
          detail.outcome, detail.verification, correlationId, horizon⟩
        (beq_self_eq_true tenant.tenantId) hfree (.error AuditError.duplicateKey)
        Except.ok).trans ?_
      split <;> rfl

theorem ownedMessage_own {messageId : MessageId} {givenBy : PrincipalId} :
    FeedbackRepository.ownedMessage (store.own tenant).messages (store.own tenant).sessions tenant
        messageId givenBy =
      FeedbackRepository.ownedMessage store.messages store.sessions tenant messageId givenBy := by
  have hmessage : Scoped (fun row : AuthoredMessage => row.tenantId) tenant
      (FeedbackRepository.agentAuthored tenant messageId) := scoped_self.and.and
  have hmessages : (store.own tenant).messages.rows.find?
        (FeedbackRepository.agentAuthored tenant messageId) =
      store.messages.rows.find? (FeedbackRepository.agentAuthored tenant messageId) :=
    find?_filter_within hmessage.within_own
  have hsessions : ∀ sessionId, (store.own tenant).sessions.rows.find?
        (FeedbackRepository.requestedBy tenant sessionId givenBy) =
      store.sessions.rows.find? (FeedbackRepository.requestedBy tenant sessionId givenBy) := by
    intro sessionId
    have hsession : Scoped ChatSessionRow.tenantId tenant
        (FeedbackRepository.requestedBy tenant sessionId givenBy) := scoped_self.and.and
    exact find?_filter_within hsession.within_own
  unfold FeedbackRepository.ownedMessage
  rw [hmessages]
  congr 1
  funext message
  rw [hsessions]

theorem upsert_own {row : SignalRow} (howner : row.tenantId = tenant.tenantId)
    (hfresh : row.feedbackId ∉ (store.others tenant).feedback.rows.map fun row => row.feedbackId)
    (hfirst : row.giver ∉ (store.others tenant).feedback.rows.map SignalRow.giver) :
    FeedbackRepository.upsert (store.own tenant).feedback row =
      (FeedbackRepository.upsert store.feedback row).map
        (feedbackOnly fun tenantId => tenantId == tenant.tenantId) := by
  unfold FeedbackRepository.upsert
  by_cases hgiven : row.giver ∈ store.feedback.rows.map SignalRow.giver
  · have hown : row.giver ∈ (store.own tenant).feedback.rows.map SignalRow.giver :=
      (mem_map_filter hfirst).mpr hgiven
    rw [dif_pos hgiven, dif_pos hown]
    have hrevised : (store.feedback.toTable.update
          (FeedbackRepository.givenFor row.messageId row.givenByOid)
          (FeedbackRepository.setSignal row.signal)).restrict
            (fun row => row.tenantId == tenant.tenantId) =
        (store.own tenant).feedback.toTable.update
          (FeedbackRepository.givenFor row.messageId row.givenByOid)
          (FeedbackRepository.setSignal row.signal) :=
      Table.restrict_update fun _ => rfl
    exact congrArg some (feedback_eq (congrArg Table.rows hrevised.symm))
  · have hown : row.giver ∉ (store.own tenant).feedback.rows.map SignalRow.giver :=
      mt (mem_map_filter hfirst).mp hgiven
    rw [dif_neg hgiven, dif_neg hown]
    by_cases htaken : row.feedbackId ∈ store.feedback.rows.map fun row => row.feedbackId
    · have hrestricted : row.feedbackId ∈
          (store.own tenant).feedback.rows.map fun row => row.feedbackId :=
        (mem_map_filter hfresh).mpr htaken
      rw [dif_pos htaken, dif_pos hrestricted]
      rfl
    · have hrestricted : row.feedbackId ∉
          (store.own tenant).feedback.rows.map fun row => row.feedbackId :=
        mt (mem_map_filter hfresh).mp htaken
      have hadded := Table.restrict_insert
        (fun row : SignalRow => row.tenantId == tenant.tenantId) (beq_iff_eq.mpr howner) htaken
        hrestricted
      rw [dif_neg htaken, dif_neg hrestricted]
      exact congrArg some (feedback_eq (congrArg Table.rows hadded.symm))

theorem recordFeedback_own {messageId : MessageId} {givenBy : PrincipalId}
    {signal : FeedbackSignal} {feedbackId : Uuid}
    (hfresh : feedbackId ∉ (store.others tenant).feedback.rows.map fun row => row.feedbackId)
    (hfirst : (messageId, givenBy) ∉ (store.others tenant).feedback.rows.map SignalRow.giver) :
    FeedbackRepository.record (store.own tenant).messages (store.own tenant).sessions
        (store.own tenant).feedback tenant messageId givenBy signal feedbackId =
      (FeedbackRepository.record store.messages store.sessions store.feedback tenant messageId
        givenBy signal feedbackId).map fun written =>
          (written.1, feedbackOnly (fun tenantId => tenantId == tenant.tenantId) written.2) := by
  unfold FeedbackRepository.record
  rw [ownedMessage_own]
  cases FeedbackRepository.ownedMessage store.messages store.sessions tenant messageId givenBy with
  | none => rfl
  | some owned =>
      dsimp only
      rw [upsert_own rfl hfresh hfirst, Option.map_map, Option.map_map]
      rfl

theorem withdrawFeedback_own {messageId : MessageId} {givenBy : PrincipalId} :
    FeedbackRepository.withdraw (store.own tenant).messages (store.own tenant).sessions
        (store.own tenant).feedback tenant messageId givenBy =
      ((FeedbackRepository.withdraw store.messages store.sessions store.feedback tenant messageId
          givenBy).1,
        feedbackOnly (fun tenantId => tenantId == tenant.tenantId)
          (FeedbackRepository.withdraw store.messages store.sessions store.feedback tenant
            messageId givenBy).2) := by
  unfold FeedbackRepository.withdraw
  rw [ownedMessage_own]
  cases FeedbackRepository.ownedMessage store.messages store.sessions tenant messageId givenBy with
  | none => rfl
  | some owned =>
      refine Prod.ext rfl (feedback_eq ?_)
      exact congrArg Table.rows Table.restrict_delete.symm

/-- A write does to the tenant's rows what it does to them in the whole store. -/
theorem Write.perform_own {sequence : Nat} {write : Write} (hfree : write.Free tenant store) :
    write.perform (store.own tenant) tenant sequence =
      (write.perform store tenant sequence).map fun written =>
        (written.1, written.2.own tenant) := by
  cases write with
  | transitionSession sessionId state expectedVersion contentExpiresAt databaseNow =>
      unfold Write.perform
      dsimp only
      rw [transitionSession_own]
      rfl
  | claim workItemId claimedBy now databaseNow =>
      unfold Write.perform
      dsimp only
      rw [claim_own]
      rfl
  | transitionWorkItem workItemId state expectedVersion databaseNow =>
      unfold Write.perform
      dsimp only
      rw [transitionWorkItem_own]
      rfl
  | recordVerdict approvalId decidedBy rolesHeld verdict expiresAt databaseNow =>
      unfold Write.perform
      dsimp only
      rw [recordVerdict_own]
      rfl
  | recordConsent consentId workItemId consentedBy verdict databaseNow =>
      unfold Write.perform
      dsimp only
      rw [recordConsent_own hfree]
      cases ConsentRepository.record store.consents store.workItems tenant consentId workItemId
        consentedBy verdict databaseNow <;> rfl
  | recordOutcome operationId verification detail databaseNow =>
      unfold Write.perform
      dsimp only
      rw [recordOutcome_own]
      cases OperationRepository.recordOutcome store.operations tenant operationId verification
        detail databaseNow <;> rfl
  | remember key operationId outcome =>
      have hupdated : (store.idempotency.update
            (IdempotencyStore.reserved tenant key operationId)
            (IdempotencyStore.writeOutcome outcome)).restrict
              (fun row => row.tenantId == tenant.tenantId) =
          (store.own tenant).idempotency.update
            (IdempotencyStore.reserved tenant key operationId)
            (IdempotencyStore.writeOutcome outcome) := Table.restrict_update fun _ => rfl
      unfold Write.perform IdempotencyStore.remember
      dsimp only
      rw [← hupdated]
      rfl
  | enqueue envelope outboxId databaseNow =>
      unfold Write.perform
      dsimp only
      rw [enqueue_own hfree]
      cases Outbox.enqueue store.outbox tenant envelope outboxId sequence databaseNow <;> rfl
  | enqueueIntegrationCommand envelope outboxId databaseNow =>
      unfold Write.perform
      dsimp only
      rw [enqueueIntegrationCommand_own hfree]
      cases Outbox.enqueueIntegrationCommand store.outbox tenant envelope outboxId sequence
        databaseNow <;> rfl
  | recordAudit eventId correlationId actorChain detail workItemId retainUntil overrides
      databaseNow =>
      unfold Write.perform
      dsimp only
      rw [recordAudit_own hfree]
      cases AuditSink.record store.auditEvents tenant eventId correlationId actorChain detail
        workItemId retainUntil overrides databaseNow <;> rfl
  | recordFeedback messageId givenBy signal feedbackId =>
      unfold Write.perform
      dsimp only
      rw [recordFeedback_own hfree.1 hfree.2]
      cases FeedbackRepository.record store.messages store.sessions store.feedback tenant messageId
        givenBy signal feedbackId <;> rfl
  | withdrawFeedback messageId givenBy =>
      unfold Write.perform
      dsimp only
      rw [withdrawFeedback_own]
      rfl

/-! ### What a write leaves alone -/

theorem transitionSession_others {sessionId : SessionId} {state : SessionState}
    {expectedVersion : Int} {contentExpiresAt : Option Instant} {now : Instant} :
    (SessionRepository.transition store.sessions tenant sessionId state expectedVersion
        contentExpiresAt now).2.restrict (fun row => !(row.tenantId == tenant.tenantId)) =
      (store.others tenant).sessions := by
  have hscoped : Scoped ChatSessionRow.tenantId tenant
      (ChatSessionRow.scopedTo tenant sessionId) := scoped_self.and
  exact guardedUpdate_restrict_outside hscoped.outside_others fun _ => rfl

theorem claim_others {workItemId : WorkItemId} {claimedBy : String} {now databaseNow : Instant} :
    (WorkItemRepository.claim store.workItems tenant workItemId claimedBy now
        databaseNow).2.restrict (fun row => !(row.tenantId == tenant.tenantId)) =
      (store.others tenant).workItems := by
  have hscoped : Scoped WorkItemRow.tenantId tenant fun row =>
      row.scopedTo tenant workItemId && row.claimable now := scoped_self.and.and
  exact claimOnce_restrict_outside hscoped.outside_others fun _ => rfl

theorem transitionWorkItem_others {workItemId : WorkItemId} {state : WorkItemState}
    {expectedVersion : Int} {now : Instant} :
    (WorkItemRepository.transition store.workItems tenant workItemId state expectedVersion
        now).2.restrict (fun row => !(row.tenantId == tenant.tenantId)) =
      (store.others tenant).workItems := by
  have hscoped : Scoped WorkItemRow.tenantId tenant
      (WorkItemRow.scopedTo tenant workItemId) := scoped_self.and
  exact guardedUpdate_restrict_outside hscoped.outside_others fun _ => rfl

theorem recordVerdict_others {approvalId : ApprovalId} {decidedBy : PrincipalId}
    {rolesHeld : RoleSet} {verdict : ApprovalVerdict} {expiresAt now : Instant} :
    approvalsOnly (fun tenantId => !(tenantId == tenant.tenantId))
        (ApprovalRepository.recordVerdict store.approvals tenant approvalId decidedBy rolesHeld
          verdict expiresAt now).2 =
      (store.others tenant).approvals := by
  have hscoped : Scoped ApprovalRow.tenantId tenant (ApprovalRow.undecided tenant approvalId) :=
    scoped_self.and.and
  have hclaim : (claimOnce store.approvals.toTable (ApprovalRow.undecided tenant approvalId)
        (ApprovalRow.decided decidedBy rolesHeld verdict expiresAt now) now).2.restrict
          (fun row => !(row.tenantId == tenant.tenantId)) =
      (store.others tenant).approvals.toTable :=
    claimOnce_restrict_outside hscoped.outside_others fun _ => rfl
  exact approvals_eq (congrArg Table.rows hclaim)

theorem recordConsent_others {consentId : ConsentId} {workItemId : WorkItemId}
    {consentedBy : PrincipalId} {verdict : ConsentVerdict} {now : Instant}
    {written : Bool × ConsentTable}
    (h : ConsentRepository.record store.consents store.workItems tenant consentId workItemId
      consentedBy verdict now = some written) :
    written.2.restrict (fun row => !(row.tenantId == tenant.tenantId)) =
      (store.others tenant).consents := by
  rcases ConsentRepository.record_cases store.consents store.workItems tenant consentId workItemId
    consentedBy verdict now with ⟨_, hfresh, hrecord⟩ | ⟨_, hrecord | hrecord⟩
  · rw [hrecord] at h
    injection h with h
    rw [← h]
    refine Table.restrict_insert_outside
      (fun row : ConsentRow => !(row.tenantId == tenant.tenantId)) ?_ hfresh
    rw [beq_self_eq_true]
    rfl
  · rw [hrecord] at h
    cases h
  · rw [hrecord] at h
    injection h with h
    rw [← h]
    rfl

theorem insertMessage_others {row : OutboxRow} {written : OutboxTable}
    (h : Outbox.insertMessage store.outbox row = .ok written)
    (howner : row.tenantId = tenant.tenantId) :
    written.restrict (fun row => !(row.tenantId == tenant.tenantId)) =
        (store.others tenant).outbox ∧
      written.rows = store.outbox.rows ++ [row] := by
  unfold Outbox.insertMessage at h
  split at h
  · injection h with h
    rw [← h]
    refine ⟨Table.restrict_insert_outside
      (fun row : OutboxRow => !(row.tenantId == tenant.tenantId)) ?_ _, rfl⟩
    rw [howner, beq_self_eq_true]
    rfl
  · cases h

theorem recordAudit_others {eventId : AuditEventId} {correlationId : CorrelationId}
    {actorChain : ActorChain} {detail : AuditFacts} {workItemId : Option WorkItemId}
    {retainUntil : Option Instant} {overrides : RetentionOverrides} {now : Instant}
    {written : AuditTable}
    (h : AuditSink.record store.auditEvents tenant eventId correlationId actorChain detail
      workItemId retainUntil overrides now = .ok written) :
    written.restrict (fun row => !(row.tenantId == tenant.tenantId)) =
      (store.others tenant).auditEvents := by
  unfold AuditSink.record at h
  split at h
  · cases h
  · split at h
    · cases h
    · injection h with h
      rw [← h]
      refine Table.restrict_insert_outside
        (fun row : AuditEventRow => !(row.tenantId == tenant.tenantId)) ?_ _
      rw [beq_self_eq_true]
      rfl

theorem recordFeedback_others {messageId : MessageId} {givenBy : PrincipalId}
    {signal : FeedbackSignal} {feedbackId : Uuid} {written : Bool × FeedbackTable}
    (hfirst : (messageId, givenBy) ∉ (store.others tenant).feedback.rows.map SignalRow.giver)
    (h : FeedbackRepository.record store.messages store.sessions store.feedback tenant messageId
      givenBy signal feedbackId = some written) :
    feedbackOnly (fun tenantId => !(tenantId == tenant.tenantId)) written.2 =
      (store.others tenant).feedback := by
  unfold FeedbackRepository.record at h
  split at h
  · injection h with h
    rw [← h]
    rfl
  · next owned howned =>
      obtain ⟨table, htable, hwritten⟩ := Option.map_eq_some_iff.mp h
      rw [← hwritten]
      unfold FeedbackRepository.upsert at htable
      split at htable
      · -- the signal revised is on a row no other organisation has
        injection htable with htable
        rw [← htable]
        have hrevised : (store.feedback.toTable.update
              (FeedbackRepository.givenFor messageId givenBy)
              (FeedbackRepository.setSignal signal)).restrict
                (fun row => !(row.tenantId == tenant.tenantId)) =
            (store.others tenant).feedback.toTable := by
          refine Table.restrict_update_outside (fun _ => rfl) ?_
          intro row hrow hgiven
          unfold FeedbackRepository.givenFor at hgiven
          rw [Bool.and_eq_true, beq_iff_eq, beq_iff_eq] at hgiven
          rw [← Bool.not_eq_true]
          intro hother
          refine hfirst (List.mem_map.mpr ⟨row, List.mem_filter.mpr ⟨hrow, hother⟩, ?_⟩)
          rw [SignalRow.giver, hgiven.1, hgiven.2]
        exact feedback_eq (congrArg Table.rows hrevised)
      · split at htable
        · cases htable
        · next hfresh =>
            injection htable with htable
            rw [← htable]
            have hadded := Table.restrict_insert_outside
              (fun row : SignalRow => !(row.tenantId == tenant.tenantId))
              (by rw [beq_self_eq_true]; rfl) hfresh
            exact feedback_eq (congrArg Table.rows hadded)

theorem withdrawFeedback_others {messageId : MessageId} {givenBy : PrincipalId} :
    feedbackOnly (fun tenantId => !(tenantId == tenant.tenantId))
        (FeedbackRepository.withdraw store.messages store.sessions store.feedback tenant messageId
          givenBy).2 =
      (store.others tenant).feedback := by
  have hscoped : Scoped (fun row : SignalRow => row.tenantId) tenant
      (FeedbackRepository.withdrawn tenant messageId givenBy) := scoped_self.and
  unfold FeedbackRepository.withdraw
  split
  · rfl
  · have hdeleted : (store.feedback.toTable.delete
        (FeedbackRepository.withdrawn tenant messageId givenBy)).restrict
          (fun row => !(row.tenantId == tenant.tenantId)) =
        (store.others tenant).feedback.toTable :=
      Table.restrict_delete_outside fun row _ => hscoped.outside_others row
    exact feedback_eq (congrArg Table.rows hdeleted)

/-- What a tenant's calls may not touch: the other organisations' rows, and the outbox
rows already there. -/
structure Spares (tenant : TenantContext) (before after : Store) : Prop where
  others : after.others tenant = before.others tenant
  outbox : ∃ added, after.outbox.rows = before.outbox.rows ++ added

theorem Spares.refl (tenant : TenantContext) (store : Store) : Spares tenant store store :=
  ⟨rfl, [], (List.append_nil _).symm⟩

theorem Spares.trans {first second third : Store} (h : Spares tenant first second)
    (h' : Spares tenant second third) : Spares tenant first third := by
  obtain ⟨added, hadded⟩ := h.outbox
  obtain ⟨added', hadded'⟩ := h'.outbox
  refine ⟨h'.others.trans h.others, added ++ added', ?_⟩
  rw [hadded', hadded, List.append_assoc]

/-- A write to a table other than the outbox. -/
theorem Spares.of_others {before after : Store} (h : after.others tenant = before.others tenant)
    (houtbox : after.outbox = before.outbox) : Spares tenant before after :=
  ⟨h, [], by rw [houtbox, List.append_nil]⟩

theorem Write.Free.mono {before after : Store} {write : Write}
    (h : after.others tenant = before.others tenant) (hfree : write.Free tenant before) :
    write.Free tenant after := by
  cases write <;> first
    | exact trivial
    | (unfold Write.Free at hfree ⊢; rw [h]; exact hfree)

theorem Write.perform_spares {sequence : Nat} {write : Write} {answer : Answer} {written : Store}
    (hfree : write.Free tenant store)
    (h : write.perform store tenant sequence = .ok (answer, written)) :
    Spares tenant store written := by
  cases write with
  | transitionSession sessionId state expectedVersion contentExpiresAt databaseNow =>
      cases h
      exact .of_others (congrArg (fun sessions => { store.others tenant with sessions })
        transitionSession_others) rfl
  | claim workItemId claimedBy now databaseNow =>
      cases h
      exact .of_others (congrArg (fun workItems => { store.others tenant with workItems })
        claim_others) rfl
  | transitionWorkItem workItemId state expectedVersion databaseNow =>
      cases h
      exact .of_others (congrArg (fun workItems => { store.others tenant with workItems })
        transitionWorkItem_others) rfl
  | recordVerdict approvalId decidedBy rolesHeld verdict expiresAt databaseNow =>
      cases h
      exact .of_others (congrArg (fun approvals => { store.others tenant with approvals })
        recordVerdict_others) rfl
  | recordConsent consentId workItemId consentedBy verdict databaseNow =>
      unfold Write.perform at h
      dsimp only at h
      split at h
      · cases h
      · next done hdone =>
          cases h
          exact .of_others (congrArg (fun consents => { store.others tenant with consents })
            (recordConsent_others hdone)) rfl
  | recordOutcome operationId verification detail databaseNow =>
      unfold Write.perform at h
      dsimp only at h
      split at h
      · cases h
      · next operations hoperations =>
          cases h
          obtain ⟨status, _, hupdated⟩ := Option.map_eq_some_iff.mp hoperations
          have hscoped : Scoped (fun row : OperationRecord => row.tenantId) tenant
              (OperationRepository.scopedTo tenant operationId) := scoped_self.and
          rw [← hupdated]
          exact .of_others (congrArg (fun operations => { store.others tenant with operations })
            (Table.restrict_update_outside (fun _ => rfl)
              fun row _ => hscoped.outside_others row)) rfl
  | remember key operationId outcome =>
      cases h
      have hscoped : Scoped IdempotencyRecord.tenantId tenant
          (IdempotencyStore.reserved tenant key operationId) := scoped_self.and.and
      exact .of_others (congrArg (fun idempotency => { store.others tenant with idempotency })
        (Table.restrict_update_outside (fun _ => rfl)
          fun row _ => hscoped.outside_others row)) rfl
  | enqueue envelope outboxId databaseNow =>
      unfold Write.perform Outbox.enqueue at h
      dsimp only at h
      split at h
      · cases h
      · next outbox houtbox =>
          cases h
          split at houtbox
          · cases houtbox
          · obtain ⟨hothers, hrows⟩ := insertMessage_others houtbox (rfl : _ = tenant.tenantId)
            exact ⟨congrArg (fun outbox => { store.others tenant with outbox }) hothers, _, hrows⟩
  | enqueueIntegrationCommand envelope outboxId databaseNow =>
      unfold Write.perform Outbox.enqueueIntegrationCommand at h
      dsimp only at h
      split at h
      · cases h
      · next outbox houtbox =>
          cases h
          split at houtbox
          · cases houtbox
          · obtain ⟨hothers, hrows⟩ := insertMessage_others houtbox (rfl : _ = tenant.tenantId)
            exact ⟨congrArg (fun outbox => { store.others tenant with outbox }) hothers, _, hrows⟩
  | recordAudit eventId correlationId actorChain detail workItemId retainUntil overrides
      databaseNow =>
      unfold Write.perform at h
      dsimp only at h
      split at h
      · cases h
      · next auditEvents haudit =>
          cases h
          exact .of_others (congrArg (fun auditEvents => { store.others tenant with auditEvents })
            (recordAudit_others haudit)) rfl
  | recordFeedback messageId givenBy signal feedbackId =>
      unfold Write.perform at h
      dsimp only at h
      split at h
      · cases h
      · next done hdone =>
          cases h
          exact .of_others (congrArg (fun feedback => { store.others tenant with feedback })
            (recordFeedback_others hfree.2 hdone)) rfl
  | withdrawFeedback messageId givenBy =>
      cases h
      exact .of_others (congrArg (fun feedback => { store.others tenant with feedback })
        withdrawFeedback_others) rfl

end Writes

end Store

end Synthia
