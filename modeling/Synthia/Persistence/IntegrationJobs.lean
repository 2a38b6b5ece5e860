import Synthia.Integrations.Executor
import Synthia.Persistence.Decisions

/-!
# Dispatching a capability

`persistence.integration_jobs`, the writing half: one job row and one announcement
of it, from arguments that are taken one by one. The table checks that the work item
is there, that the version is at least one and that the name fits its column, and
nothing relates one column to another.

Below it is what the Integrations Service does with the row at one delivery, up to
the request it sends, over the rows of every table concerned as they are then.
-/

namespace Synthia

open Integrations Relational Text

/-! ## Writing the instruction -/

/-- The keyword arguments of `dispatch`. The parameters are the document's text. -/
structure DispatchArguments where
  tenant : TenantContext
  workItemId : WorkItemId
  operationId : OperationId
  tenantId : TenantId
  catalogueId : String
  catalogueVersion : Int
  parameters : String
  expiresAt : Instant
  correlationId : List CodePoint
  deriving DecidableEq

structure DispatchedJob where
  jobId : IntegrationJobId
  workItemId : WorkItemId
  deriving DecidableEq, Repr

/-- What one `dispatch` wrote. The outbox row is scoped by the context, the job row
by the argument. -/
structure Dispatched where
  jobs : JobTable
  outboxTenantId : TenantId
  announcement : MessageEnvelope
  job : DispatchedJob

namespace DispatchArguments

def row (arguments : DispatchArguments) (jobId : IntegrationJobId) : IntegrationJobRow where
  jobId := jobId
  workItemId := arguments.workItemId
  operationId := arguments.operationId
  tenantId := arguments.tenantId
  catalogueId := arguments.catalogueId
  catalogueVersion := arguments.catalogueVersion
  expiresAt := arguments.expiresAt

def identity (arguments : DispatchArguments) : OperationIdentity :=
  ⟨arguments.catalogueId, arguments.catalogueVersion⟩

/-- The foreign key, the check and the column's width. -/
def writable (workItems : WorkItemTable) (arguments : DispatchArguments) : Bool :=
  (workItems.find arguments.workItemId).isSome && decide (1 ≤ arguments.catalogueVersion) &&
    decide (arguments.catalogueId.length ≤ 128)

end DispatchArguments

/-- `IntegrationDispatcher.dispatch`; `none` where the insert is refused. The job's
identifier is `uuid4`'s. -/
def IntegrationDispatcher.dispatch (jobs : JobTable) (workItems : WorkItemTable)
    (jobId : IntegrationJobId) (arguments : DispatchArguments) : Option Dispatched :=
  if hfresh : jobId ∉ jobs.rows.map fun job => job.jobId then
    if arguments.writable workItems then
      some {
        jobs := jobs.insert
          { toIntegrationJobRow := arguments.row jobId, parameters := arguments.parameters } hfresh
        outboxTenantId := arguments.tenant.tenantId
        announcement := ⟨jobId, arguments.correlationId, .execute⟩
        job := ⟨jobId, arguments.workItemId⟩ }
    else
      none
  else
    none

/-! ## One delivery -/

/-- An `operation` row with its arguments. -/
structure OperationWithParameters extends OperationRow where
  parameters : String
  deriving DecidableEq

/-- Every table a delivery or its authority rests on, as they are when it reads. -/
structure DeliveryState where
  jobs : JobTable
  workItems : WorkItemTable
  tenants : List TenantMappingRow
  operations : Table OperationWithParameters (fun operation => operation.operationId)
  approvals : ApprovalTable
  catalogue : CatalogueRepository
  registry : ConnectorRegistry
  executions : List Integrations.ExecutionRecord

/-- A request as it leaves: what it invokes and under which instruction. -/
structure CapabilityRequest where
  instruction : Instruction
  binding : ConnectorBinding
  key : Option (List CodePoint)

/-- `ExecutionLeg.run` up to the invocation; `none` where the leg ends before it. -/
def ExecutionLeg.request (sha256 : List CodePoint → List CodePoint) (state : DeliveryState)
    (now started : Instant) (command : MessageEnvelope) : Option CapabilityRequest :=
  match ExecutionLeg.load state.jobs state.workItems state.tenants now command with
  | .loaded instruction now =>
      match ExecutionLeg.evaluate state.catalogue state.registry command instruction now with
      | .admitted instruction binding =>
          match ExecutionLeg.lookUp sha256 state.executions instruction binding started with
          | .cleared instruction binding _ =>
              some ⟨instruction, binding, keyFor sha256 instruction binding⟩
          | _ => none
      | _ => none
  | _ => none

/-- The operation a work item's newest row was when a decision was made. -/
def decidedOperation (operations : List OperationWithParameters) (approval : ApprovalRow) :
    Option OperationWithParameters :=
  (orderByDesc (fun operation => operation.createdAt)
    (operations.filter fun operation =>
      operation.tenantId == approval.tenantId && operation.workItemId == approval.workItemId &&
        approval.decidedAt.any fun decidedAt => decide (operation.createdAt ≤ decidedAt))).head?

end Synthia
