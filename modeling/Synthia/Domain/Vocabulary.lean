import Mathlib.Data.Finset.Basic
import Synthia.Lib.Text

/-!
# The platform's vocabulary

Identifiers, tenancy, work states, treatments, roles and recorded decisions:
the types every other module speaks in. They follow `ragcore.domain` one for
one. An enumeration of the source is an inductive type here, and its `.value`
— the string a column or a message carries — is a function on it, because two
of the things verified later are about services that read each other's
strings.

An instant is a count of microseconds, which is what a timezone-aware
`datetime` compares as. An identifier keeps its own type, as in the source: a
work item and a session are both UUIDs, and a lemma that confused them would
type-check if both were `Uuid`.
-/

namespace Synthia

/-- A `uuid.UUID`: a 128-bit integer under a text form. -/
abbrev Uuid := BitVec 128

instance : LawfulBEq Uuid := inferInstance

/-- A timezone-aware `datetime`, in microseconds. -/
abbrev Instant := Int

structure EntraTenantId where
  value : Uuid
  deriving DecidableEq, Repr

structure PrincipalId where
  value : Uuid
  deriving DecidableEq, Repr

structure TenantId where
  value : Uuid
  deriving DecidableEq, Repr

structure WorkItemId where
  value : Uuid
  deriving DecidableEq, Repr

structure SessionId where
  value : Uuid
  deriving DecidableEq, Repr

structure OperationId where
  value : Uuid
  deriving DecidableEq, Repr

structure ApprovalId where
  value : Uuid
  deriving DecidableEq, Repr

structure ConsentId where
  value : Uuid
  deriving DecidableEq, Repr

structure IntegrationJobId where
  value : Uuid
  deriving DecidableEq, Repr

/-- A catalogue entry bound to the version in force when it was proposed. -/
structure OperationIdentity where
  catalogueId : String
  version : Int
  deriving DecidableEq, Repr

/-! ## Tenancy -/

inductive TenantStatus where
  | active
  | suspended
  | offboarded
  deriving DecidableEq, Repr

def TenantStatus.value : TenantStatus → String
  | .active => "active"
  | .suspended => "suspended"
  | .offboarded => "offboarded"

inductive TenantSource where
  | endUserIdentity
  | workItem
  | platformObject
  deriving DecidableEq, Repr

/-- The trusted tenant binding for one unit of work. -/
structure TenantContext where
  tenantId : TenantId
  entraTenantId : EntraTenantId
  status : TenantStatus
  source : TenantSource
  deriving DecidableEq, Repr

def TenantContext.isAdmitted (tenant : TenantContext) : Bool :=
  tenant.status == .active

/-! ## Work and session states -/

/-- The lifecycle of the durable authority record. -/
inductive WorkItemState where
  | «open»
  | awaitingDecision
  | authorized
  | claimed
  | executed
  | failed
  | expired
  | cancelled
  | escalated
  deriving DecidableEq, Repr

def WorkItemState.value : WorkItemState → String
  | .open => "open"
  | .awaitingDecision => "awaiting_decision"
  | .authorized => "authorized"
  | .claimed => "claimed"
  | .executed => "executed"
  | .failed => "failed"
  | .expired => "expired"
  | .cancelled => "cancelled"
  | .escalated => "escalated"

/-- What a human decided, on the work item's own row. -/
inductive ApprovalState where
  | none
  | pending
  | approved
  | rejected
  | expired
  deriving DecidableEq, Repr

def ApprovalState.value : ApprovalState → String
  | .none => "none"
  | .pending => "pending"
  | .approved => "approved"
  | .rejected => "rejected"
  | .expired => "expired"

/-- A verdict on an approval request. There is no expired one to pass. -/
inductive ApprovalVerdict where
  | approved
  | rejected
  deriving DecidableEq, Repr

inductive ConsentVerdict where
  | granted
  | refused
  deriving DecidableEq, Repr

inductive SessionState where
  | conversational
  | resolving
  | awaitingUser
  | awaitingConsent
  | awaitingApproval
  | staffControlled
  | resolved
  | escalated
  | closedDeclined
  deriving DecidableEq, Repr

inductive InterruptKind where
  | clarification
  | consent
  | approval
  deriving DecidableEq, Repr

inductive SenderKind where
  | endUser
  | agent
  | staff
  deriving DecidableEq, Repr

/-! ## Treatments -/

/-- How an operation may proceed: exactly one of four. -/
inductive ExecutionTreatment where
  | auto
  | endUserApproval
  | staffApproval
  | notAllowed
  deriving DecidableEq, Repr

/-- How much human decision a treatment demands. -/
def ExecutionTreatment.strictness : ExecutionTreatment → Nat
  | .auto => 0
  | .endUserApproval => 1
  | .staffApproval => 2
  | .notAllowed => 3

def isNarrowing (before after : ExecutionTreatment) : Bool :=
  decide (after.strictness ≥ before.strictness)

/-- `NOT_ALLOWED` is the strictest treatment, so a move to it always narrows. -/
@[simp] theorem isNarrowing_notAllowed (before : ExecutionTreatment) :
    isNarrowing before .notAllowed = true := by
  cases before <;> rfl

inductive CapabilityKind where
  | read
  | action
  deriving DecidableEq, Repr

inductive VerificationOutcome where
  | serverConfirmed
  | clientAttested
  | contradicted
  deriving DecidableEq, Repr

/-- The two services spell the three outcomes alike. -/
def VerificationOutcome.value : VerificationOutcome → String
  | .serverConfirmed => "server_confirmed"
  | .clientAttested => "client_attested"
  | .contradicted => "contradicted"

/-! ## Roles -/

inductive StaffRole where
  | endUser
  | technician
  | seniorTechnician
  | administrator
  | none
  deriving DecidableEq, Repr

def StaffRole.value : StaffRole → String
  | .endUser => "end_user"
  | .technician => "technician"
  | .seniorTechnician => "senior_technician"
  | .administrator => "administrator"
  | .none => "none"

/-- `StaffRole(name)`: the member a stored name denotes, if it is one. -/
def StaffRole.ofValue (name : String) : Option StaffRole :=
  [StaffRole.endUser, .technician, .seniorTechnician, .administrator, .none].find?
    fun role => role.value == name

@[simp] theorem StaffRole.ofValue_value (role : StaffRole) :
    StaffRole.ofValue role.value = some role := by
  cases role <;> decide

/-- The roles a principal holds, or the roles an operation accepts. -/
structure RoleSet where
  roles : Finset StaffRole
  deriving DecidableEq

def RoleSet.isEmpty (set : RoleSet) : Bool := decide (set.roles = ∅)

def RoleSet.intersects (set other : RoleSet) : Bool :=
  !decide (set.roles ∩ other.roles = ∅)

inductive DenialReason where
  | emptyIntersection
  | operationAcceptsNoRoles
  | principalHoldsNoRoles
  deriving DecidableEq, Repr

structure AuthorizationDecision where
  isPermitted : Bool
  rolesHeldAtDecision : RoleSet
  reason : Option DenialReason
  deriving DecidableEq

def AuthorizationDecision.permit (rolesHeld : RoleSet) : AuthorizationDecision :=
  ⟨true, rolesHeld, none⟩

def AuthorizationDecision.deny (rolesHeld : RoleSet) (reason : DenialReason) :
    AuthorizationDecision :=
  ⟨false, rolesHeld, some reason⟩

/-- `domain.roles.evaluate`: set intersection, with the two empty sets named. -/
def evaluateRoles (principalRoles operationAcceptedRoles : RoleSet) :
    AuthorizationDecision :=
  if operationAcceptedRoles.isEmpty then
    .deny principalRoles .operationAcceptsNoRoles
  else if principalRoles.isEmpty then
    .deny principalRoles .principalHoldsNoRoles
  else if principalRoles.intersects operationAcceptedRoles then
    .permit principalRoles
  else
    .deny principalRoles .emptyIntersection

/-- The two empty-set branches refuse what the intersection test would have
refused anyway, so permission is intersection and nothing else. -/
theorem evaluateRoles_isPermitted (held accepted : RoleSet) :
    (evaluateRoles held accepted).isPermitted = held.intersects accepted := by
  unfold evaluateRoles
  split
  · next haccepted =>
      have hempty : accepted.roles = ∅ := by simpa [RoleSet.isEmpty] using haccepted
      simp [AuthorizationDecision.deny, RoleSet.intersects, hempty]
  · split
    · next hheld =>
        have hempty : held.roles = ∅ := by simpa [RoleSet.isEmpty] using hheld
        simp [AuthorizationDecision.deny, RoleSet.intersects, hempty]
    · split
      · next hmeet => simp [AuthorizationDecision.permit, hmeet]
      · next hmeet => simpa [AuthorizationDecision.deny] using hmeet

/-! ## Recorded decisions and proposals -/

/-- A staff decision, as read back from the durable approval record. -/
structure StaffVerdict where
  approvalId : ApprovalId
  decidedBy : PrincipalId
  rolesHeld : RoleSet
  verdict : ApprovalVerdict
  boundTo : OperationIdentity
  decidedAt : Instant
  expiresAt : Option Instant
  deriving DecidableEq

/-- The requester's own consent, as read back from the durable consent
record. -/
structure EndUserConsent where
  consentId : ConsentId
  consentedBy : PrincipalId
  verdict : ConsentVerdict
  boundTo : OperationIdentity
  decidedAt : Instant
  expiresAt : Option Instant
  deriving DecidableEq

/-- `RecordedDecision = StaffVerdict | EndUserConsent`. -/
inductive RecordedDecision where
  | staff (verdict : StaffVerdict)
  | endUser (consent : EndUserConsent)
  deriving DecidableEq

/-- `decision.expires_at`, whichever of the two types the decision is. -/
def RecordedDecision.expiresAt : RecordedDecision → Option Instant
  | .staff verdict => verdict.expiresAt
  | .endUser consent => consent.expiresAt

end Synthia

/-!
## The principal of a request

`ragcore.domain.principal` and its counterpart in `Synthia.SharedKernel.Identity`.
Both services read the same five headers and build the same record from them; how
they read them is their own.
-/

namespace Synthia

open Text

inductive CredentialClass where
  | delegated
  | app
  deriving DecidableEq, Repr

inductive Audience where
  | customer
  | staff
  | workload
  deriving DecidableEq, Repr

/-- The values of the five identity headers, where they are present. -/
structure IdentityHeaders where
  tenantId : Option (List CodePoint)
  principalId : Option (List CodePoint)
  roles : Option (List CodePoint)
  credentialClass : Option (List CodePoint)
  clientSurface : Option (List CodePoint)
  deriving DecidableEq

structure HumanIdentity where
  tenantId : EntraTenantId
  principalId : PrincipalId
  deriving DecidableEq, Repr

structure AuthenticatedPrincipal where
  identity : HumanIdentity
  roles : RoleSet
  credentialClass : CredentialClass
  audience : Audience
  clientSurface : List CodePoint
  deriving DecidableEq

/-- On the customer audience everybody is an end user. -/
def AuthenticatedPrincipal.authorizableRoles (principal : AuthenticatedPrincipal) : RoleSet :=
  if principal.audience = .customer then ⟨{.endUser}⟩ else principal.roles

/-- `StaffRole.parse` and `StaffRole.TryParse`: an exact, case-sensitive match. -/
def StaffRole.parse (name : List CodePoint) : Option StaffRole :=
  [StaffRole.endUser, .technician, .seniorTechnician, .administrator, .none].find?
    fun role => ofString role.value == name

theorem StaffRole.parse_eq_some {name : List CodePoint} {role : StaffRole}
    (h : StaffRole.parse name = some role) : name = ofString role.value := by
  unfold StaffRole.parse at h
  have hname := List.find?_some h
  exact (beq_iff_eq.mp hname).symm

end Synthia
