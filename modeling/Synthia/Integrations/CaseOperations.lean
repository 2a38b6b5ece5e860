import Synthia.Integrations.Catalogue
import Synthia.Integrations.Credentials
import Synthia.Integrations.Normalization
import Synthia.PlatformClients.Integrations
import Synthia.Lib.Utf8

/-!
# A case operation

`api.workload.routes.create_case`, with the middleware before it and the connector behind
it, up to the response it ends with; and the hop that brings a request there and the answer
back. What stands outside the repository is given by what it answers: the vault and the
system of record as functions, the gateway by the response it sends in the service's place,
and whatever may raise an exception of its own by whether it does.

How text is read as an identifier and a value as an integer is the request model's library's.
-/

namespace Synthia.Integrations

open Text

/-! ## The request -/

structure CaseOperationRequest where
  sessionId : Uuid
  catalogueId : List CodePoint
  catalogueVersion : Int
  idempotencyKey : List CodePoint
  parameters : Members

namespace CaseOperationRequest

/-- The names of the fields, as they are aliased and as they are. -/
def fieldNames : List (List CodePoint × List CodePoint) :=
  [(ofString "sessionId", ofString "session_id"),
    (ofString "catalogueId", ofString "catalogue_id"),
    (ofString "catalogueVersion", ofString "catalogue_version"),
    (ofString "idempotencyKey", ofString "idempotency_key"),
    (ofString "parameters", ofString "parameters")]

/-- `extra="forbid"`: the name of a member is that of a field, and its alias is not there
as well. -/
def named (body : Json.Value CodePoint) (name : List CodePoint) : Bool :=
  fieldNames.any fun field =>
    name == field.1 || (name == field.2 && (body.member field.1).isNone)

def field (body : Json.Value CodePoint) (camel snake : String) : Option (Json.Value CodePoint) :=
  (body.member (ofString camel)).or (body.member (ofString snake))

/-- What the request model makes of a body, or nothing where it is not of the contract. -/
def read (uuid : List CodePoint → Option Uuid) (integer : Json.Value CodePoint → Option Int)
    (body : Json.Value CodePoint) : Option CaseOperationRequest :=
  match body with
  | .object members =>
      if members.all fun entry => named body entry.1 then
        match field body "sessionId" "session_id", field body "catalogueId" "catalogue_id",
          field body "catalogueVersion" "catalogue_version",
          field body "idempotencyKey" "idempotency_key",
          (field body "parameters" "parameters").getD (.object []) with
        | some (.string sessionId), some (.string catalogueId), some version,
          some (.string idempotencyKey), .object parameters =>
            if 8 ≤ idempotencyKey.length then
              match uuid sessionId, integer version with
              | some sessionId, some catalogueVersion =>
                  some ⟨sessionId, catalogueId, catalogueVersion, idempotencyKey, parameters⟩
              | _, _ => none
            else none
        | _, _, _, _, _ => none
      else none
  | _ => none

end CaseOperationRequest

/-! ## The connector -/

/-- `ConnectorBinding.destination`. -/
def ConnectorBinding.destination (binding : ConnectorBinding) : List CodePoint :=
  rstripChars (ofString "/") (ofString binding.baseEndpoint) ++ ofString "/" ++
    (ofString binding.operationPath).dropWhile (· == 0x2F)

/-- What is sent to the system of record. -/
structure VendorRequest where
  url : List CodePoint
  headers : List (String × List CodePoint)
  body : Members

inductive VendorAnswer where
  /-- `httpx.HTTPError`. -/
  | transportFailed
  | responded (status : Nat) (body : Option (Json.Value CodePoint))

/-- What the service calls that may raise an exception of its own. -/
inductive Call where
  | tenantForSession
  | evaluate
  | resolve
  | send
  | respond
  deriving DecidableEq, Repr

/-- A row of `vw_session_summary_v1`, by the columns that are read. -/
structure SessionTenantRow where
  sessionId : Uuid
  tenantId : TenantId

/-- The service and what it reads, while one request is served. -/
structure ServiceState where
  sessions : List SessionTenantRow
  catalogue : CatalogueRepository
  registry : ConnectorRegistry
  credentials : List CredentialReferenceRow
  secrets : SecretResolver
  /-- Whether `container.servicenow` is there. -/
  servicenow : Bool
  vendor : VendorRequest → VendorAnswer
  /-- How a float that was read is written again. -/
  floatText : List CodePoint → List CodePoint
  raises : Call → Bool

structure CaseOperationResult where
  succeeded : Bool
  externalReference : Option (List CodePoint)
  payload : Members

/-- What `ServiceNowAdapter.create_case` raises. -/
inductive AdapterError where
  | credentialNotEntitled (error : CredentialNotEntitledError)
  | egress
  | boundaryValidation (error : BoundaryValidationError)
  | other

namespace ServiceNowAdapter

/-- `_TENANT_FIELD`. -/
def tenantField : List CodePoint := ofString "u_synthia_tenant"

def request (binding : ConnectorBinding) (tenantId : TenantId) (credential : SecretValue)
    (body : CaseOperationRequest) (correlationId : List CodePoint) : VendorRequest where
  url := binding.destination
  headers :=
    [("Authorization", ofString "Bearer " ++ ofString credential),
      ("X-Idempotency-Key", body.idempotencyKey), ("X-Correlation-Id", correlationId),
      ("Content-Type", ofString "application/json")]
  body := (body.parameters.filter fun entry => entry.1 != tenantField) ++
    [(tenantField, .string tenantId.value.toText)]

/-- `ResilientCaller._decode`. -/
def decode : Option (Json.Value CodePoint) → Members
  | some (.object members) => members
  | _ => []

/-- What `create_case` makes of the answer. -/
def outcome (floatText : List CodePoint → List CodePoint) :
    VendorAnswer → Except AdapterError CaseOperationResult
  | .transportFailed => .error .egress
  | .responded status body =>
      if 200 ≤ status ∧ status < 300 then
        match normalizeCaseResult floatText (decode body) with
        | .error error => .error (.boundaryValidation error)
        | .ok normalized => .ok ⟨true, normalized.externalReference, normalized.payload⟩
      else .ok ⟨false, none, [(ofString "status", .number (ofString (toString status)))]⟩

def createCase (state : ServiceState) (binding : ConnectorBinding) (tenantId : TenantId)
    (body : CaseOperationRequest) (correlationId : List CodePoint) :
    Except AdapterError CaseOperationResult :=
  if state.raises .resolve then .error .other
  else
    match TenantCredentialResolver.resolve state.credentials state.secrets tenantId
        binding.identity.catalogueId with
    | .error (.notEntitled error) => .error (.credentialNotEntitled error)
    | .error .unresolved => .error .other
    | .ok credential =>
        if state.raises .send then .error .other
        else
          outcome state.floatText
            (state.vendor (request binding tenantId credential body correlationId))

end ServiceNowAdapter

/-! ## The route -/

/-- The headers of the closed contract, empty where they are not there. -/
structure IdpHeaders where
  principalId : List CodePoint
  tenantId : List CodePoint
  credentialClass : List CodePoint
  surface : List CodePoint

inductive IdentityRejection where
  | unauthenticated
  | forbidden
  deriving DecidableEq, Repr

/-- `IdentityMiddleware.dispatch`, for a request without a query. -/
def IdentityMiddleware.rejection (headers : IdpHeaders) : Option IdentityRejection :=
  if headers.principalId = [] ∨ headers.tenantId = [] then some .unauthenticated
  else if headers.credentialClass ≠ ofString "app" ∨ headers.surface ≠ ofString "workload" then
    some .forbidden
  else none

/-- How the serving of a request ends. -/
inductive CaseEnding where
  | rejected (rejection : IdentityRejection)
  | malformed
  | unknownSession
  | refused (refusal : Option AccessRefusal)
  | connectorMissing
  | notEntitled (error : CredentialNotEntitledError)
  | systemUnavailable
  | unexpected
  | answered (result : CaseOperationResult)

/-- The text, where it can be encoded. -/
def encodable (text : List CodePoint) : Option String :=
  if text.all isScalar then some (String.ofList (text.map fun c => Char.ofNat c.val))
  else none

/-- `create_case`, once the organisation is known. -/
def operate (state : ServiceState) (tenantId : TenantId) (correlationId : List CodePoint)
    (body : CaseOperationRequest) : CaseEnding :=
  match (encodable body.catalogueId).map
    fun catalogueId => capabilityIdentity catalogueId body.catalogueVersion with
  | none | some (.error _) => .unexpected
  | some (.ok identity) =>
      if state.raises .evaluate then .unexpected
      else
        match AccessPolicy.evaluate state.catalogue state.registry tenantId identity with
        | ⟨none, refusal⟩ => .refused refusal
        | ⟨some _, some refusal⟩ => .refused (some refusal)
        | ⟨some binding, none⟩ =>
            if !state.servicenow then .connectorMissing
            else
              match ServiceNowAdapter.createCase state binding tenantId body correlationId with
              | .error (.credentialNotEntitled error) => .notEntitled error
              | .error .egress | .error (.boundaryValidation _) => .systemUnavailable
              | .error .other => .unexpected
              | .ok result => if state.raises .respond then .unexpected else .answered result

/-- `create_case`, once the body is read. -/
def createCase (state : ServiceState) (correlationId : List CodePoint)
    (body : CaseOperationRequest) : CaseEnding :=
  if state.raises .tenantForSession then .unexpected
  else
    match state.sessions.find? fun row => row.sessionId == body.sessionId with
    | none => .unknownSession
    | some row => operate state row.tenantId correlationId body

section Serving

variable (uuid : List CodePoint → Option Uuid) (integer : Json.Value CodePoint → Option Int)

/-- The request through the middleware and the route. -/
def serve (state : ServiceState) (headers : IdpHeaders) (correlationId : List CodePoint)
    (body : Option (Json.Value CodePoint)) : CaseEnding :=
  match IdentityMiddleware.rejection headers with
  | some rejection => .rejected rejection
  | none =>
      match body.bind (CaseOperationRequest.read uuid integer) with
      | none => .malformed
      | some body => createCase state correlationId body

end Serving

/-! ## The response -/

def problem (status : Nat) (title detail kind : String) (correlationId : List CodePoint) :
    HttpResponse where
  status := status
  body := some (.object
    [(ofString "type", .string (ofString ("https://synthia.synoptek.com/problems/" ++ kind))),
      (ofString "title", .string (ofString title)),
      (ofString "status", .number (ofString (toString status))),
      (ofString "detail", .string (ofString detail)),
      (ofString "instance", .string caseOperationsPath),
      (ofString "correlationId", .string correlationId)])

/-- `_REFUSAL_DETAIL`. -/
def AccessRefusal.detail : AccessRefusal → String
  | .notEntitled => "This organisation is not entitled to the capability."
  | .notRegistered => "The capability is not registered in the catalogue."
  | .versionMismatch => "The capability version does not match the registered one."
  | .noBinding => "The capability has no connector binding configured."

/-- `refusal.value.replace("_", "-")`. -/
def AccessRefusal.kind : AccessRefusal → String
  | .notEntitled => "not-entitled"
  | .notRegistered => "not-registered"
  | .versionMismatch => "version-mismatch"
  | .noBinding => "no-binding"

/-- `CaseOperationResponse`, under its aliases. -/
def CaseOperationResult.toJson (result : CaseOperationResult) : Json.Value CodePoint :=
  .object
    [(ofString "succeeded", .bool result.succeeded),
      (ofString "externalReference", Json.leaf result.externalReference),
      (ofString "payload", .object result.payload)]

def CaseEnding.response (correlationId : List CodePoint) : CaseEnding → HttpResponse
  | .rejected .unauthenticated =>
      problem 401 "Unauthenticated" "The request carried no usable identity."
        "unauthenticated" correlationId
  | .rejected .forbidden =>
      problem 403 "Forbidden" "This audience accepts only an application credential."
        "forbidden" correlationId
  | .malformed =>
      problem 422 "Invalid request" "The request did not match the contract for this endpoint."
        "invalid-request" correlationId
  | .unknownSession => problem 404 "Not Found" "No such session." "not-found" correlationId
  | .refused refusal =>
      problem 403 "Forbidden" ((refusal.map AccessRefusal.detail).getD "Refused.")
        ((refusal.map AccessRefusal.kind).getD "forbidden") correlationId
  | .connectorMissing =>
      problem 503 "Service Unavailable" "The system-of-record connector is not available."
        "capability-unavailable" correlationId
  | .notEntitled _ =>
      problem 403 "Forbidden" "This organisation holds no credential for the capability."
        "not-entitled" correlationId
  | .systemUnavailable =>
      problem 502 "Bad Gateway" "The system of record is temporarily unavailable."
        "capability-unavailable" correlationId
  -- the outermost middleware is outside the one that binds the identifier
  | .unexpected =>
      problem 500 "Internal Server Error" "The request could not be completed."
        "internal-error" []
  | .answered result => ⟨200, some result.toJson⟩

/-! ## The hop -/

/-- What becomes of one request on its way. -/
inductive Hop where
  | timedOut
  | transportFailed
  /-- The gateway answers in the service's place, and never with a success. -/
  | gateway (status : Nat) (body : Option (Json.Value CodePoint)) (failed : 400 ≤ status)
  | service (state : ServiceState) (headers : IdpHeaders) (correlationId : List CodePoint)

/-- What the far side is to the client that sent this body. -/
def Hop.farSide (uuid : List CodePoint → Option Uuid)
    (integer : Json.Value CodePoint → Option Int) (body : Option (Json.Value CodePoint)) :
    Hop → FarSide
  | .timedOut => .timedOut
  | .transportFailed => .transportFailed
  | .gateway status answer _ => .responded ⟨status, answer⟩
  | .service state headers correlationId =>
      .responded ((serve uuid integer state headers correlationId body).response correlationId)

end Synthia.Integrations
