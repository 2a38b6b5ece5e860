import Synthia.ReadModels.Querying

/-!
# The customer views

`CustomerViewEndpoints` behind `IdentityContextMiddleware` and `RoleFilter`. Routing
ignores the case of a path's segments and the prefix test of the identity stage does
not, so a request can be routed to an endpoint without that stage having looked at it.
What it finds there is the scope of the request as it is before anything is bound.
-/

namespace Synthia

open Text Relational

/-- A `GET`. The correlation identifier is the one in force; the minted one is what a
failure is reported under, once the response's headers are cleared. -/
structure HttpRequest where
  path : List CodePoint
  query : QueryString
  headers : IdentityHeaders
  correlationId : List CodePoint
  mintedCorrelationId : List CodePoint

/-- `RequestScope`: what the identity stage binds. -/
structure RequestScope where
  tenant : TenantScope
  principal : Option AuthenticatedPrincipal
  deriving DecidableEq

def RequestScope.unbound : RequestScope := ⟨.none, none⟩

/-! ## Responses -/

structure ProblemDetails where
  type : String
  title : String
  status : Nat
  detail : List CodePoint
  instancePath : List CodePoint
  correlationId : List CodePoint
  deriving DecidableEq

structure CursorEnvelope (Item : Type) where
  items : List Item
  nextCursor : Option (List CodePoint)
  deriving DecidableEq

def CursorEnvelope.ofPage {Item : Type} (codec : CursorCodec) (page : KeysetPage Item) :
    CursorEnvelope Item :=
  ⟨page.items, page.next.map (OpaqueCursor.encode codec)⟩

inductive ViewResponse where
  | sessions (envelope : CursorEnvelope SessionSummary)
  | session (summary : SessionSummary)
  | messages (envelope : CursorEnvelope SessionMessage)
  | steps (trail : List SessionStep)
  | feedback (signals : List MessageFeedback)
  | problem (document : ProblemDetails)
  deriving DecidableEq

namespace Problems

def base : String := "https://synthia.synoptek.com/problems/"

def build (request : HttpRequest) (type title : String) (status : Nat)
    (detail : List CodePoint) : ViewResponse :=
  .problem ⟨base ++ type, title, status, detail, request.path, request.correlationId⟩

def validationFailed (request : HttpRequest) (detail : List CodePoint) : ViewResponse :=
  build request "validation-failed" "Validation failed" 400 detail

def unauthenticated (request : HttpRequest) : ViewResponse :=
  build request "unauthenticated" "Unauthenticated" 401
    (ofString "The request carried no usable identity context.")

def forbidden (request : HttpRequest) (detail : String) : ViewResponse :=
  build request "forbidden" "Forbidden" 403 (ofString detail)

def notFound (request : HttpRequest) : ViewResponse :=
  build request "not-found" "Not found" 404 (ofString "No such resource.")

/-- What the exception handler answers. -/
def unexpected (request : HttpRequest) : ViewResponse :=
  .problem ⟨base ++ "unexpected", "Unexpected error", 500,
    ofString ("The request could not be completed. Quote the correlation identifier when " ++
      "reporting this."), request.path, request.mintedCorrelationId⟩

end Problems

/-! ## The identity stage -/

namespace ForbiddenParameters

def always : List String :=
  ["tenant", "tenantid", "tid", "organisation", "organization", "role", "roles", "audience",
    "oid", "principalid"]

/-- The staff audience may narrow by `tenantId`. -/
def isForbidden (audience : Audience) (name : List CodePoint) : Bool :=
  !(audience == .staff && lower name == ofString "tenantid") &&
    always.any fun forbidden => ofString forbidden == lower name

def tryFind (query : QueryString) (audience : Audience) : Option (List CodePoint) :=
  query.keys.find? (isForbidden audience)

end ForbiddenParameters

/-- `IdentityContextMiddleware`: a response, or the scope the rest of the pipeline runs in. -/
def IdentityContextMiddleware.invokeAsync (database : ReadDatabase) (request : HttpRequest) :
    Reading (Except ViewResponse RequestScope) :=
  match AudienceRouting.tryResolve request.path with
  | none => return .ok .unbound
  | some audience =>
      match ForbiddenParameters.tryFind request.query audience with
      | some offending =>
          return .error (Problems.validationFailed request (ofString "The parameter " ++
            QueryBinding.quoted offending ++ ofString (" is not accepted. Tenant, role and " ++
              "audience are derived from trusted context and can never be supplied by a " ++
              "caller.")))
      | none =>
          match PrincipalFactory.tryCreate request.headers audience with
          | .error _ => return .error (Problems.unauthenticated request)
          | .ok principal => do
              match ← tryBindScopeAsync database principal with
              | none =>
                  return .error (Problems.forbidden request
                    "This organisation is not registered with the platform.")
              | some tenant => return .ok ⟨tenant, some principal⟩

/-! ## Endpoints -/

structure EndpointContext where
  store : Database
  codec : CursorCodec
  request : HttpRequest
  read : SynthiaReadContext

/-- The roles an endpoint accepts, and its handler, which is given the principal the filter
before it has found. -/
structure ViewEndpoint where
  accepted : RoleSet
  handler : EndpointContext → AuthenticatedPrincipal → Reading ViewResponse

/-- `RoleFilter.InvokeAsync`. -/
def RoleFilter.invokeAsync (endpoint : ViewEndpoint) (context : EndpointContext)
    (principal : Option AuthenticatedPrincipal) : Reading ViewResponse :=
  match principal with
  | none => return Problems.unauthenticated context.request
  | some principal =>
      if (evaluateRoles principal.authorizableRoles endpoint.accepted).isPermitted then
        endpoint.handler context principal
      else
        return Problems.forbidden context.request
          "This operation is not available to the roles held."

/-- The pipeline in front of an endpoint a request was routed to. -/
def serve (store : Database) (codec : CursorCodec) (database : ReadDatabase)
    (endpoint : ViewEndpoint) (request : HttpRequest) : Reading ViewResponse := do
  match ← IdentityContextMiddleware.invokeAsync database request with
  | .error response => return response
  | .ok scope =>
      RoleFilter.invokeAsync endpoint ⟨store, codec, request, ⟨database, scope.tenant⟩⟩
        scope.principal

namespace CustomerViewEndpoints

/-- A request whose query does not bind is refused with the reason. -/
def bound {α : Type} (context : EndpointContext) (binding : Except (List CodePoint) α)
    (handler : α → Reading ViewResponse) : Reading ViewResponse :=
  match binding with
  | .error detail => return Problems.validationFailed context.request detail
  | .ok value => handler value

/-- A page, or what an exception is answered with. -/
def paged {Item : Type} (context : EndpointContext) (respond : CursorEnvelope Item → ViewResponse)
    (result : Except QueryFailure (KeysetPage Item)) : ViewResponse :=
  match result with
  | .error _ => Problems.unexpected context.request
  | .ok page => respond (CursorEnvelope.ofPage context.codec page)

def bindSessions (context : EndpointContext) :
    Except (List CodePoint) (KeysetRequest × Option Int) := do
  QueryBinding.tryRejectUnknownFilters context.request.query ResourceQueries.customerSessions
  let page ← QueryBinding.tryBindPage context.codec context.request.query
    ResourceQueries.customerSessions
  let state ← QueryBinding.tryBindEnum ClrType.sessionState.members context.request.query "state"
  return (page, state)

def listSessionsAsync (context : EndpointContext) (principal : AuthenticatedPrincipal) :
    Reading ViewResponse :=
  bound context (bindSessions context) fun (page, state) => do
    let result ← SessionReadModel.listAsync context.store context.read
      principal.identity.principalId state page
    return paged context .sessions result

def getSessionAsync (sessionId : SessionId) (context : EndpointContext)
    (principal : AuthenticatedPrincipal) : Reading ViewResponse := do
  match ← SessionReadModel.findAsync context.read principal.identity.principalId sessionId with
  | none => return Problems.notFound context.request
  | some session => return .session session

def bindMessages (context : EndpointContext) :
    Except (List CodePoint) (KeysetRequest × Option Int) := do
  QueryBinding.tryRejectUnknownFilters context.request.query
    ResourceQueries.customerSessionMessages
  let page ← QueryBinding.tryBindPage context.codec context.request.query
    ResourceQueries.customerSessionMessages
  let senderKind ← QueryBinding.tryBindEnum senderKindMembers context.request.query "senderKind"
  return (page, senderKind)

def listMessagesAsync (sessionId : SessionId) (context : EndpointContext)
    (principal : AuthenticatedPrincipal) : Reading ViewResponse :=
  bound context (bindMessages context) fun (page, senderKind) => do
    let result ← SessionReadModel.listMessagesAsync context.store context.read
      principal.identity.principalId sessionId senderKind page
    return paged context .messages result

def listStepsAsync (sessionId : SessionId) (context : EndpointContext)
    (principal : AuthenticatedPrincipal) : Reading ViewResponse :=
  bound context (QueryBinding.tryRejectUnknownFilters context.request.query
    ResourceQueries.customerSessionSteps) fun _ => do
      let trail ← SessionReadModel.listStepsAsync context.read principal.identity.principalId
        sessionId
      return .steps trail

def listFeedbackAsync (sessionId : SessionId) (context : EndpointContext)
    (principal : AuthenticatedPrincipal) : Reading ViewResponse :=
  bound context (QueryBinding.tryRejectUnknownFilters context.request.query
    ResourceQueries.customerSessionFeedback) fun _ => do
      let signals ← FeedbackReadModel.listForSessionAsync context.read
        principal.identity.principalId sessionId
      return .feedback signals

/-- `AcceptsRolesOfCustomer`. -/
def acceptsRolesOfCustomer
    (handler : EndpointContext → AuthenticatedPrincipal → Reading ViewResponse) : ViewEndpoint :=
  ⟨⟨{.endUser}⟩, handler⟩

/-! ### Routing -/

/-- The segments of a path; one slash at its end adds none. -/
def segments (path : List CodePoint) : List (List CodePoint) :=
  let parts := (path.drop 1).splitOn 0x2F
  if parts.getLast? = some [] then parts.dropLast else parts

def isLiteral (segment : List CodePoint) (literal : String) : Bool :=
  equalsIgnoreCase segment (ofString literal)

/-- The last segment of a route below a session. -/
def ofSession (sessionId : SessionId) (rest : List (List CodePoint)) : Option ViewEndpoint :=
  match rest with
  | [] => some (acceptsRolesOfCustomer (getSessionAsync sessionId))
  | [leaf] =>
      if isLiteral leaf "messages" then
        some (acceptsRolesOfCustomer (listMessagesAsync sessionId))
      else if isLiteral leaf "steps" then
        some (acceptsRolesOfCustomer (listStepsAsync sessionId))
      else if isLiteral leaf "feedback" then
        some (acceptsRolesOfCustomer (listFeedbackAsync sessionId))
      else none
  | _ => none

/-- What is behind the prefix of the group. -/
def ofSessions (rest : List (List CodePoint)) : Option ViewEndpoint :=
  match rest with
  | [] => some (acceptsRolesOfCustomer listSessionsAsync)
  | id :: rest => (Guid.tryParse (some id)).bind fun sessionId => ofSession ⟨sessionId⟩ rest

/-- The customer endpoint a path is routed to. -/
def route (path : List CodePoint) : Option ViewEndpoint :=
  match segments path with
  | api :: customer :: version :: views :: sessions :: rest =>
      if isLiteral api "api" && isLiteral customer "customer" && isLiteral version "v1" &&
          isLiteral views "views" && isLiteral sessions "sessions" then
        ofSessions rest
      else none
  | _ => none

end CustomerViewEndpoints

end Synthia
