import Synthia.Graph.State
import Synthia.Lib.Table
import Synthia.Persistence.Retention

/-!
# Audit records

An `audit_event` row and the two statements of `AuditSink`, one that appends and
one that reads. The retention horizon is stamped at the write: the one given, or
the database's clock plus the organisation's window. Giving both is refused before
anything is written.
-/

namespace Synthia

open Relational

structure AuditEventId where
  value : Uuid
  deriving DecidableEq, Repr

/-- How an effect was performed; `none` where nothing was. -/
inductive ExecutionMethod where
  | workload
  | desktopScript
  | none
  deriving DecidableEq, Repr

inductive AuditEventKind where
  | tenantAdmitted
  | tenantRefused
  | operationProposed
  | treatmentAssigned
  | gateRefused
  | consentRecorded
  | approvalRequested
  | approvalDecided
  | authorizationExpired
  | workClaimed
  | executionAttempted
  | executionRecorded
  | sessionTakenOver
  | workCancelled
  | workEscalated
  deriving DecidableEq, Repr

def AuditEventKind.value : AuditEventKind → String
  | .tenantAdmitted => "tenant.admitted"
  | .tenantRefused => "tenant.refused"
  | .operationProposed => "operation.proposed"
  | .treatmentAssigned => "treatment.assigned"
  | .gateRefused => "gate.refused"
  | .consentRecorded => "consent.recorded"
  | .approvalRequested => "approval.requested"
  | .approvalDecided => "approval.decided"
  | .authorizationExpired => "authorization.expired"
  | .workClaimed => "work.claimed"
  | .executionAttempted => "execution.attempted"
  | .executionRecorded => "execution.recorded"
  | .sessionTakenOver => "session.taken_over"
  | .workCancelled => "work.cancelled"
  | .workEscalated => "work.escalated"

/-- Who asked, who approved, and who did it by what means. -/
structure ActorChain where
  executedBy : String
  executionMethod : ExecutionMethod
  requestedBy : Option PrincipalId := none
  approvedBy : Option PrincipalId := none
  deriving DecidableEq, Repr

structure AuditFacts where
  kind : AuditEventKind
  outcome : String
  treatment : Option ExecutionTreatment := none
  verification : Option VerificationOutcome := none
  deriving DecidableEq, Repr

/-- An `audit_event` row. -/
structure AuditEventRow where
  auditId : AuditEventId
  tenantId : TenantId
  workItemId : Option WorkItemId
  occurredAt : Instant
  action : String
  requestedByOid : Option PrincipalId
  approvedByOid : Option PrincipalId
  executedBy : String
  executionMethod : ExecutionMethod
  outcome : String
  verification : Option VerificationOutcome
  correlationId : CorrelationId
  retainUntil : Instant
  deriving DecidableEq

abbrev AuditTable := Table AuditEventRow AuditEventRow.auditId

/-- Where a call on the audit table stops without writing. -/
inductive AuditError where
  | valueError (message : String)
  | overflow
  | timestampOutOfRange
  | duplicateKey
  deriving DecidableEq, Repr

/-- The last `timestamptz`. -/
def maxTimestamp : Instant := 9224318015999999999

namespace AuditSink

/-- The row's `retain_until`. -/
def horizon (retainUntil : Option Instant) (overrides : RetentionOverrides)
    (databaseNow : Instant) : Except AuditError Instant :=
  if retainUntil.isSome && overrides.isSome then
    .error (.valueError <|
      "supply `retain_until` or `retention_overrides`, not both: the retention horizon " ++
      "has one source.")
  else
    match windowFor .audit overrides, retainUntil with
    | .error _, _ => .error .overflow
    | .ok _, some instant => .ok instant
    | .ok window, none =>
        if databaseNow + window.duration > maxTimestamp then .error .timestampOutOfRange
        else .ok (databaseNow + window.duration)

def record (events : AuditTable) (tenant : TenantContext) (eventId : AuditEventId)
    (correlationId : CorrelationId) (actorChain : ActorChain) (detail : AuditFacts)
    (workItemId : Option WorkItemId) (retainUntil : Option Instant)
    (overrides : RetentionOverrides) (databaseNow : Instant) : Except AuditError AuditTable :=
  match horizon retainUntil overrides databaseNow with
  | .error error => .error error
  | .ok retainUntil =>
      if hfresh : eventId ∈ events.rows.map AuditEventRow.auditId then
        .error .duplicateKey
      else
        .ok (events.insert
          ⟨eventId, tenant.tenantId, workItemId, databaseNow, detail.kind.value,
            actorChain.requestedBy, actorChain.approvedBy, actorChain.executedBy,
            actorChain.executionMethod, detail.outcome, detail.verification, correlationId,
            retainUntil⟩ hfresh)

/-- The predicates of `search`. -/
def matching (tenant : TenantContext) (since : Instant) (workItemId : Option WorkItemId)
    (databaseNow : Instant) (row : AuditEventRow) : Bool :=
  row.tenantId == tenant.tenantId && decide (row.occurredAt ≥ since) &&
    decide (row.retainUntil > databaseNow) &&
    workItemId.all fun wanted => row.workItemId == some wanted

def search (events : AuditTable) (tenant : TenantContext) (since : Instant) (limit : Nat)
    (workItemId : Option WorkItemId) (databaseNow : Instant) : List AuditEventRow :=
  (orderByDesc AuditEventRow.occurredAt
    (events.rows.filter (matching tenant since workItemId databaseNow))).take limit

end AuditSink

end Synthia
