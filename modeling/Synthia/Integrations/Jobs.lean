import Synthia.Integrations.Execution
import Synthia.Persistence.WorkItems

/-!
# The integration job, as the other service reads and answers it

`integrations.persistence.jobs`: the Integrations Service joins the job row to
two of RagCore's published views and re-verifies authority on what it reads.
The views publish every state as text, so the instruction holds strings and
`is_executable_at` compares strings — none of RagCore's enumerations cross.

The answer goes back into four columns of the same row, as labels of two
database enumerations. The row's own check keeps a status and its instant
together; the structure carries it.
-/

namespace Synthia

/-- A `platform.integration_job` row, as far as the load reads it. -/
structure IntegrationJobRow where
  jobId : IntegrationJobId
  workItemId : WorkItemId
  operationId : OperationId
  tenantId : TenantId
  catalogueId : String
  catalogueVersion : Int
  expiresAt : Instant
  deriving DecidableEq

/-- A `platform.vw_tenant_v1` row. -/
structure TenantMappingRow where
  tenantId : TenantId
  status : TenantStatus
  deriving DecidableEq

/-- What to do, for whom, and whether it may still be done. -/
structure JobInstruction where
  jobId : IntegrationJobId
  workItemId : WorkItemId
  operationId : OperationId
  tenantId : TenantId
  identity : OperationIdentity
  expiresAt : Instant
  workState : String
  approvalState : String
  tenantStatus : String
  deriving DecidableEq, Repr

namespace JobInstruction

/-- The instruction one joined row gives. The window is the work item's where
it has one, and the job row's own otherwise. -/
def ofRows (job : IntegrationJobRow) (work : WorkItemRow) (tenant : TenantMappingRow) :
    JobInstruction where
  jobId := job.jobId
  workItemId := job.workItemId
  operationId := job.operationId
  tenantId := job.tenantId
  identity := ⟨job.catalogueId, job.catalogueVersion⟩
  expiresAt := work.expiresAt.getD job.expiresAt
  workState := work.state.value
  approvalState := work.approvalState.value
  tenantStatus := tenant.status.value

def isExecutableAt (instruction : JobInstruction) (now : Instant) : Bool :=
  instruction.tenantStatus == "active" &&
    !(["cancelled", "expired", "closed", "failed"].contains instruction.workState) &&
    ["approved", "auto_authorized", "consented"].contains instruction.approvalState &&
    decide (now < instruction.expiresAt)

end JobInstruction

/-- `JobRepository.load`: the join, and the first row it returns. -/
def JobRepository.load (jobs : List IntegrationJobRow) (workItems : WorkItemTable)
    (tenants : List TenantMappingRow) (jobId : IntegrationJobId) : Option JobInstruction :=
  (do
    let job ← jobs.filter fun job => job.jobId == jobId
    let work ← workItems.rows.filter fun work => work.workItemId == job.workItemId
    let tenant ← tenants.filter fun tenant => tenant.tenantId == job.tenantId
    pure (JobInstruction.ofRows job work tenant) : List JobInstruction).head?

/-! ## The result columns -/

/-- The four `result_*` columns, recorded whole or not at all. -/
structure ResultColumns where
  status : Option String := none
  verification : Option String := none
  executionId : Option Uuid := none
  recordedAt : Option Instant := none
  whole : status.isSome = recordedAt.isSome := by rfl
  deriving DecidableEq

/-- Nothing recorded is recorded whole. -/
theorem ResultColumns.whole_none :
    (none : Option String).isSome = (none : Option Instant).isSome := rfl

/-- A `platform.integration_job` row with what was answered to it. -/
structure IntegrationJob extends IntegrationJobRow where
  parameters : String
  result : ResultColumns := { whole := ResultColumns.whole_none }
  deriving DecidableEq

abbrev JobTable := Relational.Table IntegrationJob fun job => job.jobId

/-- The labels of `platform.integration_result_status`. -/
def integrationResultStatus : List String := ["executed", "failed"]

/-- The labels of `platform.verification_outcome`. -/
def verificationOutcome : List String := ["server_confirmed", "client_attested", "contradicted"]

/-- `CAST(text AS enumeration)`; `none` where the text is no label of it. -/
def castLabel (labels : List String) (text : String) : Option String :=
  labels.find? fun label => label == text

/-- `SET result_status = …, result_recorded_at = …`. -/
def writeResult (columns : ResultColumns) :
    Relational.Change fun job : IntegrationJob => job.jobId where
  apply job := { job with result := columns }
  keeps_key _ := rfl

/-- `JobRepository.record_result`. -/
def JobRepository.recordResult (jobs : JobTable) (jobId : IntegrationJobId)
    (resultStatus : ExecutionOutcome) (verification : VerificationOutcome)
    (executionId : Uuid) (recordedAt : Instant) : Option JobTable := do
  let status ← castLabel integrationResultStatus
    (if resultStatus.value == "succeeded" then "executed" else "failed")
  let verification ← castLabel verificationOutcome verification.value
  return jobs.update (fun job => job.jobId == jobId)
    (writeResult { status := some status, verification := some verification,
                   executionId := some executionId, recordedAt := some recordedAt })

/-- What `record_result` writes for an outcome. -/
def ResultColumns.of (resultStatus : ExecutionOutcome) (verification : VerificationOutcome)
    (executionId : Uuid) (recordedAt : Instant) : ResultColumns where
  status := some (if resultStatus = .succeeded then "executed" else "failed")
  verification := some verification.value
  executionId := some executionId
  recordedAt := some recordedAt

/-- Every outcome is spelt in labels the columns have. -/
theorem JobRepository.recordResult_eq (jobs : JobTable) (jobId : IntegrationJobId)
    (resultStatus : ExecutionOutcome) (verification : VerificationOutcome)
    (executionId : Uuid) (recordedAt : Instant) :
    JobRepository.recordResult jobs jobId resultStatus verification executionId recordedAt =
      some (jobs.update (fun job => job.jobId == jobId)
        (writeResult (.of resultStatus verification executionId recordedAt))) := by
  unfold JobRepository.recordResult
  cases resultStatus <;> cases verification <;> rfl

end Synthia
