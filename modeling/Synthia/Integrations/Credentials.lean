import Synthia.Integrations.Deliveries

/-!
# Credentials

`credentials.resolver`, the two views of an entitlement row, and what the client does with
the resolver before it sends anything. An entitlement row says that an organisation may use
a capability and, separately, may name a credential for it: the access check reads the one,
the resolver the other. The vault is given by what it answers to a name.

A delivery is undisturbed while nothing fails of it but what the client's credential makes
fail, and while the rows its job names are there.
-/

namespace Synthia.Integrations

open Text

/-! ## The views -/

/-- A `platform.tenant_entitlement` row. -/
structure TenantEntitlement where
  tenantId : TenantId
  catalogueId : String
  enabled : Bool
  credentialReference : Option String
  deriving DecidableEq, Repr

/-- A `platform.vw_connector_credential_ref_v1` row. -/
structure CredentialReferenceRow where
  tenantId : TenantId
  catalogueId : String
  credentialReference : String
  deriving DecidableEq, Repr

/-- `vw_tenant_entitlement_v1`. -/
def tenantEntitlementView (rows : List TenantEntitlement) : List TenantEntitlementRow :=
  rows.map fun row => ⟨row.tenantId, row.catalogueId, row.enabled⟩

/-- `vw_connector_credential_ref_v1`. -/
def credentialReferenceView (rows : List TenantEntitlement) : List CredentialReferenceRow :=
  (rows.filter TenantEntitlement.enabled).filterMap fun row =>
    row.credentialReference.map fun reference => ⟨row.tenantId, row.catalogueId, reference⟩

/-! ## The resolver -/

abbrev SecretValue := String

/-- Where a secret is resolved by its name; `none` where that raises. -/
abbrev SecretResolver := String → Option SecretValue

structure CredentialNotEntitledError where
  tenantId : TenantId
  catalogueId : String
  deriving DecidableEq, Repr

def CredentialNotEntitledError.message (error : CredentialNotEntitledError) : List CodePoint :=
  ofString "organisation " ++ error.tenantId.value.toText ++
    ofString (s!" holds no credential for {error.catalogueId}. Capabilities " ++
      "resolve per organisation on a least-privilege basis; there is no global credential to " ++
      "fall back to and none is used.")

/-- What `resolve` raises: its own error, or the vault's. -/
inductive CredentialError where
  | notEntitled (error : CredentialNotEntitledError)
  | unresolved
  deriving DecidableEq, Repr

/-- `TenantCredentialResolver.resolve`. -/
def TenantCredentialResolver.resolve (view : List CredentialReferenceRow)
    (secrets : SecretResolver) (tenantId : TenantId) (catalogueId : String) :
    Except CredentialError SecretValue :=
  match view.find? fun row => row.tenantId == tenantId && row.catalogueId == catalogueId with
  | none => .error (.notEntitled ⟨tenantId, catalogueId⟩)
  | some row =>
      if row.credentialReference = "" then .error (.notEntitled ⟨tenantId, catalogueId⟩)
      else
        match secrets row.credentialReference with
        | some value => .ok value
        | none => .error .unresolved

/-- The first thing `McpClient.invoke` does. -/
def McpClient.credential (view : List CredentialReferenceRow) (secrets : SecretResolver)
    (instruction : Instruction) (binding : ConnectorBinding) :
    Except CredentialError SecretValue :=
  TenantCredentialResolver.resolve view secrets instruction.tenantId binding.identity.catalogueId

/-! ## Deliveries of a job's command -/

namespace World

/-- Where a delivery stands, if what it carries names the job. -/
def stageOf (world : World) (jobId : IntegrationJobId) (id : DeliveryId) : Option Stage :=
  match world.deliveries id with
  | some ⟨some command, stage⟩ => if command.jobId = jobId then some stage else none
  | _ => none

/-- The client sends and answers where it was given a credential, and raises where it was
not. Nothing else raises, no process goes, every commit is acknowledged, and the job, its
work item and its organisation are there to be read. -/
def undisturbed (view : List CredentialReferenceRow) (secrets : SecretResolver)
    (jobId : IntegrationJobId) (world : World) : Action → Bool
  | .load id workItems tenants _ =>
      match world.stageOf jobId id, Instruction.load world.jobs workItems tenants jobId with
      | none, _ | some _, .ok (some _) => true
      | _, _ => false
  | .send id | .answer id _ =>
      match world.stageOf jobId id with
      | some (.cleared instruction binding _) =>
          (McpClient.credential view secrets instruction binding).isOk
      | _ => true
  | .raise id =>
      match world.stageOf jobId id with
      | none => true
      | some (.cleared instruction binding _) =>
          !(McpClient.credential view secrets instruction binding).isOk
      | some _ => false
  | .crash id => (world.stageOf jobId id).isNone
  | .commit id acknowledged => acknowledged || (world.stageOf jobId id).isNone
  | _ => true

/-- The delivery does not get as far as the client: where it was let through the access
check, an execution under its key is found. -/
def stopsShort (sha256 : List CodePoint → List CodePoint) (jobId : IntegrationJobId)
    (id : DeliveryId) (world : World) : Action → Bool
  | .lookUp other _ =>
      if other = id then
        match world.stageOf jobId id with
        | some (.admitted instruction binding) =>
            (keyFor sha256 instruction binding).any fun key =>
              world.executions.rows.any fun row => row.idempotencyKey == key
        | _ => true
      else true
  | _ => true

end World

end Synthia.Integrations
