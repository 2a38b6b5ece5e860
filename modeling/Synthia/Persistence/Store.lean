import Synthia.Execution.Idempotency
import Synthia.Persistence.Audit
import Synthia.Persistence.Feedback
import Synthia.Persistence.Governance
import Synthia.Persistence.Outbox

/-!
# The store, one call at a time

The tables the repositories run against, every call made under a tenant, and the
transactions the calls run in. A read opens a session of its own and sees what is
committed. A write joins the open unit of work and sees what that unit has written;
with none open it is refused. An exception ends the unit and takes its writes with
it.

An outbox row draws its number from one counter for every organisation, and the
number is drawn whether or not the transaction stands.
-/

namespace Synthia

open Relational Text

structure Store where
  registry : RegistryTable := ⟨[], List.nodup_nil⟩
  catalogue : GovernanceTable := ⟨[], List.nodup_nil⟩
  entitlements : EntitlementTable := ⟨[], List.nodup_nil⟩
  sessions : SessionTable := ⟨[], List.nodup_nil⟩
  messages : MessageTable := ⟨[], List.nodup_nil⟩
  feedback : FeedbackTable := ⟨⟨[], List.nodup_nil⟩, FeedbackTable.oneEach_nil⟩
  workItems : WorkItemTable := ⟨[], List.nodup_nil⟩
  operations : OperationTable := ⟨[], List.nodup_nil⟩
  approvals : ApprovalTable := ⟨⟨[], List.nodup_nil⟩, List.nodup_nil⟩
  consents : ConsentTable := ⟨[], List.nodup_nil⟩
  idempotency : IdempotencyTable := ⟨[], List.nodup_nil⟩
  outbox : OutboxTable := ⟨[], List.nodup_nil⟩
  auditEvents : AuditTable := ⟨[], List.nodup_nil⟩

namespace Store

/-- What a call raises. -/
inductive StoreError where
  | read (error : ReadError)
  | catalogueRecord (error : CatalogueRecordError)
  | enqueue (error : Outbox.EnqueueError)
  | audit (error : AuditError)
  | integrityError
  | lookupError
  | noUnitOfWork
  deriving DecidableEq

/-- What a call returns. -/
inductive Answer where
  | session (row : Option ChatSessionRow)
  | sessions (rows : List ChatSessionRow)
  | workItem (row : Option WorkItemRow)
  | expired (items : List (WorkItemId × Int))
  | verdict (verdict : Option StaffVerdict)
  | consent (consent : Option EndUserConsent)
  | entry (record : Option CatalogueRecord)
  | outcome (outcome : Option String)
  | events (rows : List AuditEventRow)
  | overrides (overrides : RetentionOverrides)
  | flag (value : Bool)
  | nothing
  deriving DecidableEq

abbrev Outcome := Except StoreError Answer

/-! ## The reads -/

inductive Query where
  | getSession (sessionId : SessionId)
  | listForRequester (requester : PrincipalId) (limit : Nat)
  | getWorkItem (workItemId : WorkItemId)
  | listExpired (now : Instant) (limit : Nat)
  | verdictFor (workItemId : WorkItemId)
  | consentFor (workItemId : WorkItemId)
  | lookup (identity : OperationIdentity)
  | isEntitled (catalogueId : String)
  | replay (key : List CodePoint)
  | search (since : Instant) (limit : Nat) (workItemId : Option WorkItemId)
      (databaseNow : Instant)
  | retentionOverrides
  deriving DecidableEq

def Query.answer (store : Store) (tenant : TenantContext) : Query → Outcome
  | .getSession sessionId => .ok (.session (SessionRepository.get store.sessions tenant sessionId))
  | .listForRequester requester limit =>
      .ok (.sessions (SessionRepository.listForRequester store.sessions tenant requester limit))
  | .getWorkItem workItemId =>
      .ok (.workItem (WorkItemRepository.get store.workItems tenant workItemId))
  | .listExpired now limit =>
      .ok (.expired (WorkItemRepository.listExpired store.workItems tenant now limit))
  | .verdictFor workItemId =>
      match ApprovalRepository.decisionFor store.approvals
          (store.operations.rows.map OperationRecord.toOperationRow) tenant workItemId with
      | .error error => .error (.read error)
      | .ok verdict => .ok (.verdict verdict)
  | .consentFor workItemId =>
      .ok (.consent (ConsentRepository.decisionFor store.consents.rows
        (store.operations.rows.map OperationRecord.toOperationRow) tenant workItemId))
  | .lookup identity =>
      match OperationCatalogue.lookup store.catalogue store.entitlements tenant identity with
      | .error error => .error (.catalogueRecord error)
      | .ok record => .ok (.entry record)
  | .isEntitled catalogueId =>
      .ok (.flag (OperationCatalogue.isEntitled store.entitlements tenant catalogueId))
  | .replay key => .ok (.outcome (IdempotencyStore.replay store.idempotency tenant key))
  | .search since limit workItemId databaseNow =>
      .ok (.events (AuditSink.search store.auditEvents tenant since limit workItemId databaseNow))
  | .retentionOverrides =>
      .ok (.overrides (TenantRegistry.retentionOverrides store.registry tenant))

/-! ## The writes -/

inductive Write where
  | transitionSession (sessionId : SessionId) (state : SessionState) (expectedVersion : Int)
      (contentExpiresAt : Option Instant) (databaseNow : Instant)
  | claim (workItemId : WorkItemId) (claimedBy : String) (now databaseNow : Instant)
  | transitionWorkItem (workItemId : WorkItemId) (state : WorkItemState) (expectedVersion : Int)
      (databaseNow : Instant)
  | recordVerdict (approvalId : ApprovalId) (decidedBy : PrincipalId) (rolesHeld : RoleSet)
      (verdict : ApprovalVerdict) (expiresAt databaseNow : Instant)
  | recordConsent (consentId : ConsentId) (workItemId : WorkItemId) (consentedBy : PrincipalId)
      (verdict : ConsentVerdict) (databaseNow : Instant)
  | recordOutcome (operationId : OperationId) (verification : VerificationOutcome)
      (detail : String) (databaseNow : Instant)
  | remember (key : List CodePoint) (operationId : OperationId) (outcome : String)
  | enqueue (envelope : TriggerEnvelope) (outboxId : Uuid) (databaseNow : Instant)
  | enqueueIntegrationCommand (envelope : IntegrationCommandEnvelope) (outboxId : Uuid)
      (databaseNow : Instant)
  | recordAudit (eventId : AuditEventId) (correlationId : CorrelationId)
      (actorChain : ActorChain) (detail : AuditFacts) (workItemId : Option WorkItemId)
      (retainUntil : Option Instant) (overrides : RetentionOverrides) (databaseNow : Instant)
  | recordFeedback (messageId : MessageId) (givenBy : PrincipalId) (signal : FeedbackSignal)
      (feedbackId : Uuid)
  | withdrawFeedback (messageId : MessageId) (givenBy : PrincipalId)

/-- A write on the open unit of work, with the number the outbox counter stands at. -/
def Write.perform (store : Store) (tenant : TenantContext) (sequence : Nat) :
    Write → Except StoreError (Answer × Store)
  | .transitionSession sessionId state expectedVersion contentExpiresAt databaseNow =>
      let written := SessionRepository.transition store.sessions tenant sessionId state
        expectedVersion contentExpiresAt databaseNow
      .ok (.flag written.1, { store with sessions := written.2 })
  | .claim workItemId claimedBy now databaseNow =>
      let written := WorkItemRepository.claim store.workItems tenant workItemId claimedBy now
        databaseNow
      .ok (.flag written.1, { store with workItems := written.2 })
  | .transitionWorkItem workItemId state expectedVersion databaseNow =>
      let written := WorkItemRepository.transition store.workItems tenant workItemId state
        expectedVersion databaseNow
      .ok (.flag written.1, { store with workItems := written.2 })
  | .recordVerdict approvalId decidedBy rolesHeld verdict expiresAt databaseNow =>
      let written := ApprovalRepository.recordVerdict store.approvals tenant approvalId decidedBy
        rolesHeld verdict expiresAt databaseNow
      .ok (.flag written.1, { store with approvals := written.2 })
  | .recordConsent consentId workItemId consentedBy verdict databaseNow =>
      match ConsentRepository.record store.consents store.workItems tenant consentId workItemId
          consentedBy verdict databaseNow with
      | none => .error .integrityError
      | some written => .ok (.flag written.1, { store with consents := written.2 })
  | .recordOutcome operationId verification detail databaseNow =>
      match OperationRepository.recordOutcome store.operations tenant operationId verification
          detail databaseNow with
      | none => .error .lookupError
      | some operations => .ok (.nothing, { store with operations })
  | .remember key operationId outcome =>
      .ok (.nothing,
        { store with
          idempotency :=
            IdempotencyStore.remember store.idempotency tenant key operationId outcome })
  | .enqueue envelope outboxId databaseNow =>
      match Outbox.enqueue store.outbox tenant envelope outboxId sequence databaseNow with
      | .error error => .error (.enqueue error)
      | .ok outbox => .ok (.nothing, { store with outbox })
  | .enqueueIntegrationCommand envelope outboxId databaseNow =>
      match Outbox.enqueueIntegrationCommand store.outbox tenant envelope outboxId sequence
          databaseNow with
      | .error error => .error (.enqueue error)
      | .ok outbox => .ok (.nothing, { store with outbox })
  | .recordAudit eventId correlationId actorChain detail workItemId retainUntil overrides
      databaseNow =>
      match AuditSink.record store.auditEvents tenant eventId correlationId actorChain detail
          workItemId retainUntil overrides databaseNow with
      | .error error => .error (.audit error)
      | .ok auditEvents => .ok (.nothing, { store with auditEvents })
  | .recordFeedback messageId givenBy signal feedbackId =>
      match FeedbackRepository.record store.messages store.sessions store.feedback tenant
          messageId givenBy signal feedbackId with
      | none => .error .integrityError
      | some written => .ok (.flag written.1, { store with feedback := written.2 })
  | .withdrawFeedback messageId givenBy =>
      let written := FeedbackRepository.withdraw store.messages store.sessions store.feedback
        tenant messageId givenBy
      .ok (.flag written.1, { store with feedback := written.2 })

/-- The counter after a write. An insert draws its number before any constraint is
looked at; a correlation identifier that has no text stops the statement before. -/
def Write.sequenceAfter (sequence : Nat) : Write → Nat
  | .enqueue envelope _ _ =>
      if (correlationText envelope.correlationId).isSome then sequence + 1 else sequence
  | .enqueueIntegrationCommand envelope _ _ =>
      if (correlationText envelope.correlationId).isSome then sequence + 1 else sequence
  | _ => sequence

/-- What a write raises with no unit of work open: `current_session` refuses it, unless
its arguments have been refused before that. -/
def Write.unopened : Write → StoreError
  | .recordAudit _ _ _ _ _ retainUntil overrides databaseNow =>
      match AuditSink.horizon retainUntil overrides databaseNow with
      | .error (.valueError message) => .audit (.valueError message)
      | .error .overflow => .audit .overflow
      | .error .timestampOutOfRange | .error .duplicateKey | .ok _ => .noUnitOfWork
  | _ => .noUnitOfWork

/-! ## Units of work -/

inductive Call where
  | query (query : Query)
  | write (write : Write)

/-- What a caller does: a call on its own, or a unit of work with the calls made in it,
which it may leave by an exception of its own. -/
inductive Action where
  | call (call : Call)
  | unitOfWork (body : List Call) (completes : Bool)

structure PlatformState where
  committed : Store
  sequence : Nat

/-- What is left of a unit of work: the outcomes of the calls that ran, what the unit
had written unless a call raised, and the counter. -/
structure UnitResult where
  outcomes : List Outcome
  pending : Option Store
  sequence : Nat

/-! ## Running them -/

def runBody (committed : Store) (tenant : TenantContext) :
    List Call → Store → Nat → UnitResult
  | [], pending, sequence => ⟨[], some pending, sequence⟩
  | .query query :: calls, pending, sequence =>
      match query.answer committed tenant with
      | .error error => ⟨[.error error], none, sequence⟩
      | .ok answer =>
          let rest := runBody committed tenant calls pending sequence
          { rest with outcomes := .ok answer :: rest.outcomes }
  | .write write :: calls, pending, sequence =>
      match write.perform pending tenant sequence with
      | .error error => ⟨[.error error], none, write.sequenceAfter sequence⟩
      | .ok (answer, written) =>
          let rest := runBody committed tenant calls written (write.sequenceAfter sequence)
          { rest with outcomes := .ok answer :: rest.outcomes }

def act (tenant : TenantContext) (state : PlatformState) :
    Action → List Outcome × PlatformState
  | .call (.query query) => ([query.answer state.committed tenant], state)
  | .call (.write write) => ([.error write.unopened], state)
  | .unitOfWork body completes =>
      let result := runBody state.committed tenant body state.committed state.sequence
      (result.outcomes,
        { committed :=
            if completes then result.pending.getD state.committed else state.committed
          sequence := result.sequence })

end Store

end Synthia
