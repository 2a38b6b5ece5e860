import Mathlib.Data.Prod.Lex
import Synthia.Domain.Vocabulary
import Synthia.Lib.Aggregates
import Synthia.Lib.Text

/-!
# The catalogue, the registry and the access decision

`integrations.domain.catalogue`, the reads of `catalogue.repository` and
`catalogue.registry`, and `policy.checks`. What execution re-verifies is read
from three places: an entitlement row, the governance catalogue, and the registry
that says how a capability runs. Each is read in its own statement, so the three
need not have been current at one instant.

A governance row's kind, a read or an action, is in the view and is not among
what is re-verified.
-/

namespace Synthia.Integrations

/-! ## Domain types -/

inductive IdempotencyPolicy where
  | derivedKey
  | none
  deriving DecidableEq, Repr

/-- Why a capability may not be used. -/
inductive AccessRefusal where
  | notEntitled
  | notRegistered
  | versionMismatch
  | noBinding
  deriving DecidableEq, Repr

/-- What `CapabilityIdentity` raises. -/
inductive CapabilityIdentityError where
  | catalogueIdRequired
  | versionBelowOne
  deriving DecidableEq, Repr

/-- How one capability executes. -/
structure ConnectorBinding where
  identity : OperationIdentity
  connectorId : String
  baseEndpoint : String
  operationPath : String
  signingProfile : Option String
  idempotencyPolicy : IdempotencyPolicy
  isReferenceFixture : Bool
  deriving DecidableEq, Repr

/-- The outcome of the re-check. -/
structure AccessDecision where
  binding : Option ConnectorBinding
  refusal : Option AccessRefusal
  deriving DecidableEq, Repr

namespace AccessDecision

def permitted (decision : AccessDecision) : Bool :=
  decision.binding.isSome && decision.refusal.isNone

def allow (binding : ConnectorBinding) : AccessDecision := ⟨some binding, none⟩

def refuse (refusal : AccessRefusal) : AccessDecision := ⟨none, some refusal⟩

end AccessDecision

/-! ## The published views -/

/-- A `platform.vw_tenant_entitlement_v1` row. -/
structure TenantEntitlementRow where
  tenantId : TenantId
  catalogueId : String
  enabled : Bool
  deriving DecidableEq, Repr

/-- A `platform.vw_governance_catalogue_v1` row. -/
structure GovernanceCatalogueRow where
  catalogueId : String
  version : Int
  kind : CapabilityKind
  deriving DecidableEq, Repr

structure CatalogueRepository where
  entitlements : List TenantEntitlementRow
  governance : List GovernanceCatalogueRow
  deriving DecidableEq, Repr

namespace CatalogueRepository

def isEntitled (catalogue : CatalogueRepository) (tenantId : TenantId)
    (catalogueId : String) : Bool :=
  match catalogue.entitlements.find? fun row =>
      row.tenantId == tenantId && row.catalogueId == catalogueId with
  | some row => row.enabled
  | none => false

/-- `MAX(version)`; `none` when there is no row to take it over. -/
def registeredVersion (catalogue : CatalogueRepository) (catalogueId : String) : Option Int :=
  ((catalogue.governance.filter fun row => row.catalogueId == catalogueId).map
    GovernanceCatalogueRow.version).max?

end CatalogueRepository

/-! ## The registry -/

/-- An `integration.connector` row. -/
structure ConnectorRow where
  connectorId : String
  baseEndpoint : String
  isReferenceFixture : Bool
  deriving DecidableEq, Repr

/-- An `integration.connector_binding` row. -/
structure ConnectorBindingRow where
  catalogueId : String
  catalogueVersion : Int
  connectorId : String
  operationPath : String
  signingProfile : Option String
  idempotencyPolicy : IdempotencyPolicy
  deriving DecidableEq, Repr

structure ConnectorRegistry where
  bindings : List ConnectorBindingRow
  connectors : List ConnectorRow
  deriving DecidableEq, Repr

/-- `binding_for`: the join, and the first row it returns. -/
def ConnectorRegistry.bindingFor (registry : ConnectorRegistry)
    (identity : OperationIdentity) : Option ConnectorBinding :=
  (do
    let row ← registry.bindings.filter fun row =>
      row.catalogueId == identity.catalogueId && row.catalogueVersion == identity.version
    let connector ← registry.connectors.filter fun connector =>
      connector.connectorId == row.connectorId
    pure ⟨identity, row.connectorId, connector.baseEndpoint, row.operationPath,
      row.signingProfile, row.idempotencyPolicy, connector.isReferenceFixture⟩ :
      List ConnectorBinding).head?

/-! ## The re-check -/

/-- `AccessPolicy.evaluate`: entitlement, then registration, then version, then
binding. -/
def AccessPolicy.evaluate (catalogue : CatalogueRepository) (registry : ConnectorRegistry)
    (tenantId : TenantId) (identity : OperationIdentity) : AccessDecision :=
  if !catalogue.isEntitled tenantId identity.catalogueId then
    .refuse .notEntitled
  else
    match catalogue.registeredVersion identity.catalogueId with
    | none => .refuse .notRegistered
    | some registered =>
        if registered ≠ identity.version then
          .refuse .versionMismatch
        else
          match registry.bindingFor identity with
          | none => .refuse .noBinding
          | some binding => .allow binding

end Synthia.Integrations

/-!
## The capability set

`CatalogueRepository.capabilities_for`: what an organisation is shown. The catalogue is
joined with the organisation's entitlements, and each row of it, at whichever version, is one
capability. An entitlement names a capability and no version.
-/

namespace Synthia.Integrations

open Relational Text

/-- `CapabilityIdentity(catalogue_id=…, version=…)`. -/
def capabilityIdentity (catalogueId : String) (version : Int) :
    Except CapabilityIdentityError OperationIdentity :=
  if strip (ofString catalogueId) = [] then .error .catalogueIdRequired
  else if version < 1 then .error .versionBelowOne
  else .ok ⟨catalogueId, version⟩

/-- A `platform.vw_governance_catalogue_v1` row, with its label. -/
structure CapabilityRow extends GovernanceCatalogueRow where
  isReferenceFixture : Bool
  deriving DecidableEq, Repr

def CapabilityRow.identity (row : CapabilityRow) : OperationIdentity :=
  ⟨row.catalogueId, row.version⟩

/-- The two views, over tables with their keys and the check on versions. -/
structure PublishedViews where
  entitlements : Table TenantEntitlementRow fun row => (row.tenantId, row.catalogueId)
  governance : Table CapabilityRow CapabilityRow.identity
  versionsStartAtOne : ∀ row ∈ governance.rows, 1 ≤ row.version

/-- The views as the re-check reads them. -/
def PublishedViews.catalogue (views : PublishedViews) : CatalogueRepository where
  entitlements := views.entitlements.rows
  governance := views.governance.rows.map CapabilityRow.toGovernanceCatalogueRow

/-- One capability as a caller may see it. -/
structure Capability where
  identity : OperationIdentity
  kind : CapabilityKind
  entitled : Bool
  available : Bool
  isReferenceFixture : Bool
  deriving DecidableEq, Repr

namespace PublishedViews

/-- `e.catalogue_id = g.catalogue_id AND e.tenant_id = :tenant_id`. -/
def entitlementOn (tenantId : TenantId) (row : CapabilityRow)
    (entitlement : TenantEntitlementRow) : Bool :=
  entitlement.catalogueId == row.catalogueId && entitlement.tenantId == tenantId

/-- `Capability(…)`, of one row of the join. -/
def capabilityOf (row : CapabilityRow) (entitlement : Option TenantEntitlementRow) :
    Except CapabilityIdentityError Capability :=
  (capabilityIdentity row.catalogueId row.version).map fun identity =>
    { identity, kind := row.kind
      entitled := (entitlement.map TenantEntitlementRow.enabled).getD false
      -- what can be reached is no matter of the database
      available := true
      isReferenceFixture := row.isReferenceFixture }

/-- `ORDER BY g.catalogue_id, g.version`. -/
def listingKey {κ : Type*} (collation : String → κ)
    (pair : CapabilityRow × Option TenantEntitlementRow) : Lex (κ × Int) :=
  toLex (collation pair.1.catalogueId, pair.1.version)

/-- `capabilities_for`, where text is ordered as the collation orders it. -/
def capabilitiesFor {κ : Type*} [LinearOrder κ] (collation : String → κ)
    (views : PublishedViews) (tenantId : TenantId) :
    Except CapabilityIdentityError (List Capability) :=
  (orderBy (listingKey collation)
    (leftJoin (entitlementOn tenantId) views.governance.rows views.entitlements.rows)).mapM
      fun pair => capabilityOf pair.1 pair.2

end PublishedViews

end Synthia.Integrations
