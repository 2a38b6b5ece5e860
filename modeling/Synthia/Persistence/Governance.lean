import Synthia.Governance.Gate
import Synthia.Persistence.Decisions
import Synthia.Persistence.Retention

/-!
# The catalogue, entitlement and the outcome of an operation

`OperationCatalogue`, `OperationRepository` and the one tenant-scoped read of
`TenantRegistry`. A `governance_record` row belongs to nobody: the catalogue is the
platform's, and entitlement is the half an organisation has. A row becomes a record
in one place, which checks what the database already checks.
-/

namespace Synthia

open Relational

inductive RiskTier where
  | informational
  | lowImpact
  deriving DecidableEq, Repr

/-- A `governance_record` row. The command set is opaque here. -/
structure GovernanceRow where
  catalogueId : String
  version : Int
  kind : CapabilityKind
  defaultTreatment : ExecutionTreatment
  acceptedRoles : List String
  isReferenceFixture : Bool
  requiresElevation : Bool
  riskTier : RiskTier
  commands : Option String
  contentHash : Option String
  verificationTool : Option String
  deriving DecidableEq

abbrev GovernanceTable :=
  Table GovernanceRow fun row => OperationIdentity.mk row.catalogueId row.version

/-- A `tenant_entitlement` row. -/
structure EntitlementRow where
  tenantId : TenantId
  catalogueId : String
  enabled : Bool
  deriving DecidableEq, Repr

abbrev EntitlementTable := Table EntitlementRow fun row => (row.tenantId, row.catalogueId)

structure CatalogueRecord extends CatalogueEntry where
  riskTier : RiskTier
  commands : Option String
  contentHash : Option String
  verificationTool : Option String
  deriving DecidableEq

/-- A row that cannot be a catalogue entry. -/
inductive CatalogueRecordError where
  | elevationNotPermitted (identity : OperationIdentity)
  | emptyCatalogueId
  | versionBelowFirst (identity : OperationIdentity)
  | undefinedRole (value : String)
  deriving DecidableEq, Repr

/-- `FIRST_VERSION`. -/
def firstVersion : Int := 1

namespace CatalogueRecord

/-- `__post_init__`. -/
def checked (record : CatalogueRecord) : Except CatalogueRecordError CatalogueRecord :=
  if record.requiresElevation then
    .error (.elevationNotPermitted record.identity)
  else if record.identity.catalogueId = "" then
    .error .emptyCatalogueId
  else if record.identity.version < firstVersion then
    .error (.versionBelowFirst record.identity)
  else
    .ok record

/-- `_roles_from`, of the array the column holds. -/
def rolesFrom (raw : List String) : Except CatalogueRecordError RoleSet := do
  let roles ← raw.mapM fun value =>
    match StaffRole.ofValue value with
    | none => .error (CatalogueRecordError.undefinedRole value)
    | some role => .ok role
  return ⟨roles.toFinset⟩

def recordFromRow (row : GovernanceRow) : Except CatalogueRecordError CatalogueRecord := do
  let acceptedRoles ← rolesFrom row.acceptedRoles
  checked
    { identity := ⟨row.catalogueId, row.version⟩
      treatment := row.defaultTreatment
      acceptedRoles
      kind := row.kind
      isReferenceFixture := row.isReferenceFixture
      requiresElevation := row.requiresElevation
      riskTier := row.riskTier
      commands := row.commands
      contentHash := row.contentHash
      verificationTool := row.verificationTool }

end CatalogueRecord

namespace OperationCatalogue

/-- The entitlement half of both statements. -/
def entitles (tenant : TenantContext) (catalogueId : String) (row : EntitlementRow) : Bool :=
  row.tenantId == tenant.tenantId && row.enabled && row.catalogueId == catalogueId

/-- The join is on the whole of both primary keys, so it has at most one row. -/
def lookup (catalogue : GovernanceTable) (entitlements : EntitlementTable)
    (tenant : TenantContext) (identity : OperationIdentity) :
    Except CatalogueRecordError (Option CatalogueRecord) :=
  match catalogue.find identity, entitlements.rows.find? (entitles tenant identity.catalogueId) with
  | some row, some _ => (CatalogueRecord.recordFromRow row).map some
  | none, _ | some _, none => .ok none

def isEntitled (entitlements : EntitlementTable) (tenant : TenantContext)
    (catalogueId : String) : Bool :=
  (entitlements.rows.find? (entitles tenant catalogueId)).isSome

end OperationCatalogue

/-! ## Operations -/

inductive OperationStatus where
  | proposed
  | gated
  | authorized
  | executed
  | failed
  | refused
  deriving DecidableEq, Repr

def OperationStatus.value : OperationStatus → String
  | .proposed => "proposed"
  | .gated => "gated"
  | .authorized => "authorized"
  | .executed => "executed"
  | .failed => "failed"
  | .refused => "refused"

/-- The member a bound text denotes; a text that is no member's value is refused
before the statement is sent. -/
def OperationStatus.ofValue (text : String) : Option OperationStatus :=
  [OperationStatus.proposed, .gated, .authorized, .executed, .failed, .refused].find?
    fun status => status.value == text

/-- An `operation` row, with the columns its outcome is written to. -/
structure OperationRecord extends OperationRow where
  status : OperationStatus
  verification : Option VerificationOutcome
  executedAt : Option Instant
  version : Int
  updatedAt : Instant
  deriving DecidableEq

abbrev OperationTable := Table OperationRecord fun row => row.operationId

namespace OperationRepository

def scopedTo (tenant : TenantContext) (operationId : OperationId) (row : OperationRecord) : Bool :=
  row.tenantId == tenant.tenantId && row.operationId == operationId

def outcome (verification : VerificationOutcome) (status : OperationStatus) (now : Instant) :
    Change fun row : OperationRecord => row.operationId where
  apply row :=
    { row with
      verification := some verification
      status
      executedAt := some now
      updatedAt := now
      version := row.version + 1 }
  keeps_key _ := rfl

/-- `record_outcome`, and nothing where `detail` is no status. -/
def recordOutcome (operations : OperationTable) (tenant : TenantContext)
    (operationId : OperationId) (verification : VerificationOutcome) (detail : String)
    (databaseNow : Instant) : Option OperationTable :=
  (OperationStatus.ofValue detail).map fun status =>
    operations.update (scopedTo tenant operationId) (outcome verification status databaseNow)

end OperationRepository

/-! ## The registry -/

/-- A `tenant_mapping` row. -/
structure RegistryRow where
  tenantId : TenantId
  entraTid : EntraTenantId
  status : TenantStatus
  retentionOverrides : RetentionOverrides
  deriving DecidableEq

abbrev RegistryTable := Table RegistryRow RegistryRow.tenantId

def TenantRegistry.retentionOverrides (registry : RegistryTable) (tenant : TenantContext) :
    RetentionOverrides :=
  (registry.rows.find? fun row => row.tenantId == tenant.tenantId).bind
    RegistryRow.retentionOverrides

end Synthia
