import Synthia.Integrations.Catalogue
import Synthia.Integrations.Execution
import Synthia.Integrations.Jobs

/-!
# The execution leg and the consumer around it

`execution.executor.ExecutionLeg` and `messaging.consumer.CommandConsumer.handle`,
cut where they wait: each function here is what the leg does between one answer
from outside and the next, and returns the stage the delivery is then at. An
exception that leaves the leg is the consumer's `ABANDON` wherever it is raised,
and a report the leg returns is a verdict at once, so both end in a settled stage.

`from_json` is given by its answer, and so is the invoker, which is a port.
-/

namespace Synthia.Integrations

open Text

/-! ## Verdicts -/

inductive Disposition where
  | complete
  | deadLetter
  | abandon
  deriving DecidableEq, Repr

structure HandledMessage where
  disposition : Disposition
  reason : String := ""
  deriving DecidableEq, Repr

structure ExecutionReport where
  executed : Bool
  outcome : Option ExecutionOutcome
  deadLetter : Bool := false
  deriving DecidableEq, Repr

/-- What `handle` makes of a report. -/
def HandledMessage.ofReport (report : ExecutionReport) : HandledMessage :=
  if report.deadLetter then ⟨.deadLetter, "unknown-job"⟩ else ⟨.complete, ""⟩

/-- What `handle` makes of an exception out of the leg. -/
def HandledMessage.transient : HandledMessage := ⟨.abandon, "transient"⟩

/-! ## The instruction -/

/-- One message on the integration seam. -/
structure MessageEnvelope where
  jobId : IntegrationJobId
  correlationId : List CodePoint
  kind : IntegrationMessageKind
  deriving DecidableEq

/-- One operation on one work item: what a key is derived from. -/
structure Operation where
  tenantId : TenantId
  workItemId : WorkItemId
  operationId : OperationId
  deriving DecidableEq, Repr

def Operation.key (sha256 : List CodePoint → List CodePoint) (operation : Operation) :
    List CodePoint :=
  deriveKey sha256 operation.tenantId.value operation.workItemId.value
    operation.operationId.value

def operationOf (job : IntegrationJobRow) : Operation :=
  ⟨job.tenantId, job.workItemId, job.operationId⟩

/-- The instruction with its arguments, and a capability that passed
`CapabilityIdentity`'s own checks. -/
structure Instruction extends JobInstruction where
  parameters : String
  named : strip (ofString identity.catalogueId) ≠ []
  versioned : 1 ≤ identity.version

def Instruction.operation (instruction : Instruction) : Operation :=
  ⟨instruction.tenantId, instruction.workItemId, instruction.operationId⟩

/-- `JobRepository.load`, arguments included. -/
def Instruction.load (jobs : JobTable) (workItems : WorkItemTable)
    (tenants : List TenantMappingRow) (jobId : IntegrationJobId) :
    Except CapabilityIdentityError (Option Instruction) :=
  match JobRepository.load (jobs.rows.map IntegrationJob.toIntegrationJobRow) workItems
      tenants jobId, jobs.find jobId with
  | some instruction, some job =>
      if hnamed : strip (ofString instruction.identity.catalogueId) = [] then
        .error .catalogueIdRequired
      else if hversioned : instruction.identity.version < 1 then
        .error .versionBelowOne
      else
        .ok (some { instruction with
          parameters := job.parameters, named := hnamed, versioned := Int.not_lt.mp hversioned })
  | _, _ => .ok none

/-- The derived key, or none where the binding carries none. -/
def keyFor (sha256 : List CodePoint → List CodePoint) (instruction : Instruction)
    (binding : ConnectorBinding) : Option (List CodePoint) :=
  if binding.idempotencyPolicy = .derivedKey then some (instruction.operation.key sha256)
  else none

/-! ## What `_record` writes -/

/-- The arguments of `_record`. -/
structure Attempt where
  instruction : Instruction
  connectorId : String
  outcome : ExecutionOutcome
  verification : VerificationOutcome := .clientAttested
  correlationId : List CodePoint
  attemptedAt : Instant
  externalReference : Option String := none
  normalizedResult : Option (Json.Value CodePoint) := none
  key : Option (List CodePoint) := none
  honest : outcome.isRefusal = true → verification ≠ .serverConfirmed := by exact fun _ => nofun

/-- An `integration.outbox_message` row, as it is queued. -/
structure OutboxMessage where
  messageId : Uuid
  jobId : IntegrationJobId
  kind : IntegrationMessageKind
  correlationId : List CodePoint
  deriving DecidableEq

/-- A `platform.audit_event` row, as this service writes it. -/
structure AuditEvent where
  auditId : Uuid
  tenantId : TenantId
  workItemId : WorkItemId
  occurredAt : Instant
  action : String := "integration.executed"
  executedBy : String := "synthia_integrations"
  executionMethod : String := "workload"
  outcome : String
  verification : String
  correlationId : List CodePoint
  deriving DecidableEq

/-- Everything one call of `_record` has in hand before its first statement. -/
structure Transaction where
  record : ExecutionRecord
  workItemId : WorkItemId
  completed : Instant
  messageId : Uuid
  auditId : Uuid

namespace Transaction

def kind (transaction : Transaction) : IntegrationMessageKind :=
  if transaction.record.outcome = .succeeded then .completed else .failed

def outboxMessage (transaction : Transaction) : OutboxMessage :=
  ⟨transaction.messageId, transaction.record.jobId, transaction.kind,
    transaction.record.correlationId⟩

def auditEvent (transaction : Transaction) : AuditEvent where
  auditId := transaction.auditId
  tenantId := transaction.record.tenantId
  workItemId := transaction.workItemId
  occurredAt := transaction.record.attemptedAt
  outcome := transaction.record.outcome.value
  verification := transaction.record.verification.value
  correlationId := transaction.record.correlationId

def result (transaction : Transaction) : ResultColumns :=
  .of transaction.record.outcome transaction.record.verification
    transaction.record.executionId transaction.completed

end Transaction

/-- `_record` up to its first statement; the identifiers are `uuid4`'s. -/
def Attempt.transaction (sha256 : List CodePoint → List CodePoint) (attempt : Attempt)
    (completed : Instant) (executionId messageId auditId : Uuid) : Transaction where
  record :=
    { jobId := attempt.instruction.jobId
      tenantId := attempt.instruction.tenantId
      connectorId := if attempt.connectorId = "" then "none" else attempt.connectorId
      catalogueId := attempt.instruction.identity.catalogueId
      catalogueVersion := attempt.instruction.identity.version
      idempotencyKey := (attempt.key.filter fun key => !key.isEmpty).getD
        (attempt.instruction.operation.key sha256)
      outcome := attempt.outcome
      verification := attempt.verification
      correlationId := attempt.correlationId
      attemptedAt := attempt.attemptedAt
      externalReference := attempt.externalReference
      normalizedResult := attempt.normalizedResult
      completedAt := some completed
      executionId := executionId
      honest := attempt.honest }
  workItemId := attempt.instruction.workItemId
  completed := completed
  messageId := messageId
  auditId := auditId

/-- The statements of `_record`'s transaction. -/
inductive Write where
  | execution
  | announcement
  | audit
  | result
  deriving DecidableEq, Repr

/-- Their order. -/
def writes : List Write := [.execution, .announcement, .audit, .result]

/-! ## Stages -/

/-- Where a delivery stands. -/
inductive Stage where
  /-- Past the envelope, before the instruction is read. -/
  | commanded
  /-- The authority was good at the instant read. -/
  | loaded (instruction : Instruction) (now : Instant)
  /-- Access was granted. -/
  | admitted (instruction : Instruction) (binding : ConnectorBinding)
  /-- No earlier execution was found, or none was looked for. -/
  | cleared (instruction : Instruction) (binding : ConnectorBinding) (started : Instant)
  /-- A request has left. -/
  | awaiting (instruction : Instruction) (binding : ConnectorBinding) (started : Instant)
  /-- `_record` is called. -/
  | concluded (attempt : Attempt)
  /-- In the transaction: what has been written, and what is left to write. -/
  | recording (transaction : Transaction) (written left : List Write)
  /-- The insert was refused, and the transaction is to be rolled back. -/
  | duplicate (transaction : Transaction)
  | settled (message : HandledMessage)
  /-- The process is gone. -/
  | lost

def Stage.reported (report : ExecutionReport) : Stage := .settled (.ofReport report)

def Stage.raised : Stage := .settled .transient

/-- Whether the delivery is still under way. -/
def Stage.running : Stage → Bool
  | .settled _ | .lost => false
  | _ => true

/-- What `handle` does before it calls the leg; `none` where `from_json` raised. -/
def CommandConsumer.handle : Option MessageEnvelope → Stage
  | none => .settled ⟨.deadLetter, "envelope-contract"⟩
  | some envelope =>
      if envelope.kind ≠ .execute then .settled ⟨.deadLetter, "unexpected-kind"⟩
      else .commanded

namespace ExecutionLeg

/-- `_REFUSAL_OUTCOME`. -/
def refusalOutcome : AccessRefusal → ExecutionOutcome
  | .notEntitled => .refusedUnentitled
  | .notRegistered => .refusedUnregistered
  | .versionMismatch => .refusedVersion
  | .noBinding => .refusedUnregistered

/-- The instruction is read, and its authority. -/
def load (jobs : JobTable) (workItems : WorkItemTable) (tenants : List TenantMappingRow)
    (now : Instant) (command : MessageEnvelope) : Stage :=
  match Instruction.load jobs workItems tenants command.jobId with
  | .error _ => .raised
  | .ok none => .reported { executed := false, outcome := none, deadLetter := true }
  | .ok (some instruction) =>
      if !instruction.isExecutableAt now then
        .concluded {
          instruction
          connectorId := ""
          outcome := .refusedWindow
          correlationId := command.correlationId
          attemptedAt := now }
      else
        .loaded instruction now

/-- The access facts are read. -/
def evaluate (catalogue : CatalogueRepository) (registry : ConnectorRegistry)
    (command : MessageEnvelope) (instruction : Instruction) (now : Instant) : Stage :=
  let decision :=
    AccessPolicy.evaluate catalogue registry instruction.tenantId instruction.identity
  if !decision.permitted then
    .concluded {
      instruction
      connectorId := ""
      outcome := match decision.refusal with
        | some refusal => refusalOutcome refusal
        | none => .failed
      correlationId := command.correlationId
      attemptedAt := now }
  else
    match decision.binding with
    | some binding => .admitted instruction binding
    | none => .raised

/-- An earlier execution is looked for, where there is a key to look for. -/
def lookUp (sha256 : List CodePoint → List CodePoint) (executions : List ExecutionRecord)
    (instruction : Instruction) (binding : ConnectorBinding) (started : Instant) : Stage :=
  match keyFor sha256 instruction binding with
  | some key =>
      if executions.any fun row => row.idempotencyKey == key then
        .reported { executed := false, outcome := none }
      else
        .cleared instruction binding started
  | none => .cleared instruction binding started

/-- What the invoker answered, where it answered or raised one of the two errors
the leg knows. -/
inductive Answer where
  | returned (succeeded : Bool) (externalReference : Option String)
      (payload : Json.Value CodePoint)
  | egressError
  | boundaryValidationError

/-- The call to `_record` that follows an answer. -/
def conclude (sha256 : List CodePoint → List CodePoint) (command : MessageEnvelope)
    (instruction : Instruction) (binding : ConnectorBinding) (started : Instant) :
    Answer → Attempt
  | .returned succeeded externalReference payload =>
      { instruction
        connectorId := binding.connectorId
        outcome := if succeeded then .succeeded else .failed
        correlationId := command.correlationId
        attemptedAt := started
        externalReference
        normalizedResult := some payload
        key := keyFor sha256 instruction binding }
  | .egressError | .boundaryValidationError =>
      { instruction
        connectorId := binding.connectorId
        outcome := .unreachable
        correlationId := command.correlationId
        attemptedAt := started }

end ExecutionLeg

end Synthia.Integrations
