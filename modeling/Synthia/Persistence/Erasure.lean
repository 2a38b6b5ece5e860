import Synthia.Domain.Vocabulary
import Synthia.Lib.ForeignKeys

/-!
# Per-organisation erasure

`persistence.erasure`, over the keys `persistence.models` declares. A row is its
columns, with those a key speaks of under their own names and any other under its
name; only `tenant_id` and the keys decide what an erasure does. The platform
declares no `RESTRICT`: a key cascades or is checked when the statement ends.

`integration_job` carries `tenant_id` and is in neither of the module's lists; it
goes with its work item.
-/

namespace Synthia

open ForeignKeys (Edge Database Row)

inductive TableName where
  | tenantMapping
  | chatSession
  | message
  | sessionStep
  | feedback
  | workItem
  | governanceRecord
  | tenantEntitlement
  | operation
  | approval
  | consent
  | auditEvent
  | outboxMessage
  | idempotencyRecord
  | integrationJob
  | ingestionRun
  deriving DecidableEq, Repr

inductive Column where
  | tenantId
  | sessionId
  | messageId
  | workItemId
  | catalogueId
  | catalogueVersion
  | version
  | operationId
  | other (name : String)
  deriving DecidableEq, Repr

inductive Cell where
  | uuid (value : Uuid)
  | integer (value : Int)
  | text (value : String)
  deriving DecidableEq, Repr

abbrev PlatformDatabase := Database TableName Column Cell

namespace Erasure

/-! ## The declared keys -/

/-- `ForeignKey("parent.column")` on a column. -/
def foreignKey (child : TableName) (column : Column) (parent : TableName)
    (referenced : Column) : Edge TableName Column :=
  ⟨child, parent, [(column, referenced)], false⟩

/-- The same with `ondelete="CASCADE"`. -/
def cascadingKey (child : TableName) (column : Column) (parent : TableName)
    (referenced : Column) : Edge TableName Column :=
  ⟨child, parent, [(column, referenced)], true⟩

def foreignKeys : List (Edge TableName Column) :=
  [foreignKey .chatSession .tenantId .tenantMapping .tenantId,
    cascadingKey .message .sessionId .chatSession .sessionId,
    cascadingKey .sessionStep .sessionId .chatSession .sessionId,
    cascadingKey .feedback .messageId .message .messageId,
    cascadingKey .feedback .sessionId .chatSession .sessionId,
    foreignKey .workItem .tenantId .tenantMapping .tenantId,
    cascadingKey .tenantEntitlement .tenantId .tenantMapping .tenantId,
    foreignKey .operation .workItemId .workItem .workItemId,
    ⟨.operation, .governanceRecord,
      [(.catalogueId, .catalogueId), (.catalogueVersion, .version)], false⟩,
    foreignKey .approval .workItemId .workItem .workItemId,
    foreignKey .consent .workItemId .workItem .workItemId,
    foreignKey .idempotencyRecord .operationId .operation .operationId,
    cascadingKey .integrationJob .workItemId .workItem .workItemId,
    cascadingKey .ingestionRun .tenantId .tenantMapping .tenantId]

/-- A chain of cascades meets no table twice, so the sixteen tables bound it. -/
def cascadeDepth : Nat := 16

/-- `TENANT_SCOPED_TABLES`. -/
def tenantScopedTables : List TableName :=
  [.tenantMapping, .chatSession, .message, .sessionStep, .feedback, .workItem,
    .tenantEntitlement, .operation, .approval, .consent, .auditEvent, .outboxMessage,
    .idempotencyRecord, .ingestionRun]

/-- The columns declared `nullable=False`, of those a tenant or a key is read from. -/
def required : TableName → List Column
  | .tenantMapping => [.tenantId]
  | .chatSession => [.tenantId, .sessionId]
  | .message => [.tenantId, .messageId, .sessionId]
  | .sessionStep => [.tenantId, .sessionId]
  | .feedback => [.tenantId, .messageId, .sessionId]
  | .workItem => [.tenantId, .workItemId]
  | .governanceRecord => [.catalogueId, .version]
  | .tenantEntitlement => [.tenantId]
  | .operation => [.tenantId, .operationId, .workItemId, .catalogueId, .catalogueVersion]
  | .approval => [.tenantId, .workItemId]
  | .consent => [.tenantId, .workItemId]
  | .auditEvent => [.tenantId]
  | .outboxMessage => [.tenantId]
  | .idempotencyRecord => [.tenantId, .operationId]
  | .integrationJob => [.tenantId, .workItemId]
  | .ingestionRun => [.tenantId]

/-- A database the declarations admit. -/
structure Conforms (db : PlatformDatabase) : Prop where
  notNull : ∀ table, ∀ column ∈ required table, ∀ row ∈ db table, row column ≠ none
  referential : ForeignKeys.Referential foreignKeys db

/-- Every child row carries its parent's tenant. -/
def CarriesTenant (db : PlatformDatabase) : Prop :=
  ForeignKeys.Inherits foreignKeys .tenantId db

/-! ## The erasure -/

/-- `ERASURE_ORDER`. -/
def erasureOrder : List TableName :=
  [.feedback, .sessionStep, .message, .idempotencyRecord, .operation, .approval, .consent,
    .workItem, .chatSession, .outboxMessage, .ingestionRun, .tenantEntitlement, .tenantMapping]

/-- `UNERASED_BY_DESIGN`. -/
def unerasedByDesign : List TableName := [.auditEvent]

def belongsTo (tenant : TenantContext) (row : Row Column Cell) : Bool :=
  ForeignKeys.owned .tenantId (.uuid tenant.tenantId.value) row

abbrev Erased := Except (ForeignKeys.Violation TableName Column)
  (List (TableName × Nat) × PlatformDatabase)

/-- The loop of `erase_tenant`, over the tables it has still to do. -/
def eraseTables (tables : List TableName) (db : PlatformDatabase) (tenant : TenantContext) :
    Erased :=
  ForeignKeys.deleteEach foreignKeys cascadeDepth (belongsTo tenant) tables db

/-- `erase_tenant`: the rows removed per table, and the database. -/
def eraseTenant (db : PlatformDatabase) (tenant : TenantContext) : Erased :=
  eraseTables erasureOrder db tenant

end Erasure

end Synthia
