import Synthia.Domain.Vocabulary
import Synthia.Lib.Table
import Synthia.Messaging.Envelopes
import Synthia.ReadModels.Views

/-!
# Who is calling the decision service

`ragcore.api.deps`. Header values are trimmed before they are read, a role name
nobody knows is dropped, and every credential class but `app` is the delegated one.
An organisation is admitted if the registry knows it and has it active.
-/

namespace Synthia

open Text Relational

/-- The organisation registry: `tenant_mapping`, which `vw_tenant_v1` publishes whole.
An Entra tenant has at most one row. -/
abbrev Registry := Table PublishedViews.TenantRow fun row => row.entraTid

structure HTTPException where
  status : Nat
  detail : String
  deriving DecidableEq, Repr

namespace Deps

def header (value : Option (List CodePoint)) : List CodePoint := strip (value.getD [])

def audienceFor (path : List CodePoint) : Except HTTPException Audience :=
  if (ofString "/api/customer/").isPrefixOf path then .ok .customer
  else if (ofString "/api/staff/").isPrefixOf path then .ok .staff
  else if (ofString "/api/workload/").isPrefixOf path then .ok .workload
  else .error ⟨404, "Not Found"⟩

def roles (raw : List CodePoint) : RoleSet :=
  let names := ((raw.splitOn 0x2C).map strip).filter fun name => !name.isEmpty
  ⟨(names.filterMap StaffRole.parse).toFinset⟩

def credentialClass (raw : List CodePoint) : CredentialClass :=
  if lower raw = ofString "app" then .app else .delegated

def getPrincipal (headers : IdentityHeaders) (path : List CodePoint) :
    Except HTTPException AuthenticatedPrincipal :=
  let tenantRaw := header headers.tenantId
  let principalRaw := header headers.principalId
  if tenantRaw.isEmpty || principalRaw.isEmpty then
    .error ⟨401, "The Gateway-derived identity contract is incomplete."⟩
  else
    match Uuid.ofText tenantRaw, Uuid.ofText principalRaw with
    | some tid, some oid =>
        (audienceFor path).map fun audience =>
          { identity := ⟨⟨tid⟩, ⟨oid⟩⟩
            roles := roles (header headers.roles)
            credentialClass := credentialClass (header headers.credentialClass)
            audience
            clientSurface := header headers.clientSurface }
    | _, _ => .error ⟨401, "The Gateway-derived identity contract is malformed."⟩

/-- `TenantRegistry.admit_end_user`. -/
def admitEndUser (registry : Registry) (entraTenantId : EntraTenantId) : Option TenantContext :=
  (registry.find entraTenantId.value).map fun row =>
    ⟨⟨row.tenantId⟩, ⟨row.entraTid⟩, row.status, .endUserIdentity⟩

/-- The container may have been built without a registry. -/
def getTenant (registry : Option Registry) (principal : AuthenticatedPrincipal) :
    Except HTTPException TenantContext :=
  match registry with
  | none => .error ⟨503, "The tenant registry is not available."⟩
  | some registry =>
      match (admitEndUser registry principal.identity.tenantId).filter (·.isAdmitted) with
      | some tenant => .ok tenant
      | none => .error ⟨403, "This organisation is not currently admitted."⟩

end Deps

end Synthia
