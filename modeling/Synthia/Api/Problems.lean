import Synthia.Lib.Urlencoded

/-!
# Problem documents

`ragcore.api.middleware.problems`: the one shape of an error, and the handlers that give it to
an exception. The framework tells an exception by the classes it derives from, one after the
other in the order in which Python resolves them, and takes the first that has a handler. The
handler of the domain's errors tells one by its own class alone.

Of the classes those are named that the handlers or the documentation of the mapping tell
apart; every other class is known by its name and by the order of those it derives from.
-/

namespace Synthia.Problems

open Text Urlencoded

/-! ## Responses -/

/-- RFC 9457, with the correlation identifier. -/
structure ProblemDetails (τ : Type) where
  type : String
  title : String
  status : Nat
  detail : τ
  instancePath : τ
  correlationId : τ

/-- A response, with the values of its headers and the texts of a problem as the deployable
has them. -/
structure Response (τ : Type) where
  status : Nat
  headers : List (List Byte × τ)
  body : ProblemDetails τ ⊕ List Byte

/-- The name of a header, as it is sent. -/
def headerName (name : String) : List Byte := name.toList.map fun c => Fin.ofNat 0x100 c.toNat

/-- `PROBLEM_BASE`. -/
def problemBase : String := "https://synthia.synoptek.com/problems"

/-- `PROBLEM_MEDIA_TYPE`. -/
def problemMediaType : String := "application/problem+json"

/-- What a handler reads of the request. -/
structure Request where
  path : List CodePoint
  /-- `request.state.correlation_id`, where it is set. -/
  correlationId : Option (List CodePoint)

/-- `_correlation_id`. -/
def correlationId (request : Request) : List CodePoint := request.correlationId.getD []

/-- `_response`. The length of the body is left out. -/
def response (request : Request) (status : Nat) (title : String) (detail : List CodePoint)
    (slug : String) : Response (List CodePoint) where
  status := status
  headers :=
    [(headerName "x-correlation-id", correlationId request),
      (headerName "content-type", ofString problemMediaType)]
  body := .inl
    { type := problemBase ++ "/" ++ slug
      title := title
      status := status
      detail := detail
      instancePath := request.path
      correlationId := correlationId request }

/-! ## Exceptions -/

inductive ClassName where
  | exception
  | domainError
  | tenantNotAdmittedError
  | authorizationError
  | treatmentNotInCatalogueError
  | authorizationExpiredError
  | workAlreadyClaimedError
  | integrationError
  | boundaryValidationError
  | modelEgressError
  | secretResolutionError
  | requestValidationError
  | httpException
  | other (name : String)
  deriving DecidableEq, Repr

/-- The method resolution order of a class that is declared with one line of bases. -/
def linearization : ClassName → List ClassName
  | .exception => [.exception]
  | .domainError => [.domainError, .exception]
  | .httpException => [.httpException, .exception]
  | .requestValidationError => [.requestValidationError, .other "ValidationException", .exception]
  | .other _ => []
  | error => [error, .domainError, .exception]

/-- A class that derives from `Exception`, by its method resolution order. A declared class has
its own, and whoever derives from it has that in it, in that order. -/
structure ExceptionClass where
  mro : List ClassName
  isException : .exception ∈ mro
  once : mro.Nodup
  declared : ∀ name ∈ mro.head?, linearization name ≠ [] → mro = linearization name
  monotone : ∀ name ∈ mro, (linearization name).Sublist mro

/-- An exception that was raised. -/
structure Raised where
  type : ExceptionClass
  /-- `str(exc)`. -/
  text : List CodePoint
  /-- What an `HTTPException` is raised with. -/
  statusCode : Nat
  detail : List CodePoint

/-! ## The handlers -/

inductive Handler where
  | domain
  | validation
  | http
  | unhandled
  deriving DecidableEq, Repr

/-- The classes with a handler of their own, but for `Exception`. -/
def handlerOf : ClassName → Option Handler
  | .domainError => some .domain
  | .requestValidationError => some .validation
  | .httpException => some .http
  | _ => none

/-- The handler the framework takes. -/
def lookup (type : ExceptionClass) : Handler := (type.mro.findSome? handlerOf).getD .unhandled

/-- `_DOMAIN_STATUS`. -/
def domainStatus : ClassName → Option (Nat × String × String)
  | .tenantNotAdmittedError => some (403, "Organisation not admitted", "tenant-not-admitted")
  | .authorizationError => some (403, "Not authorized", "not-authorized")
  | .treatmentNotInCatalogueError => some (403, "Operation not permitted", "not-in-catalogue")
  | .authorizationExpiredError => some (410, "Authorization expired", "authorization-expired")
  | .workAlreadyClaimedError => some (409, "Already claimed", "already-claimed")
  | _ => none

/-- `_domain`. -/
def domain (request : Request) (raised : Raised) : Response (List CodePoint) :=
  let mapped := (raised.type.mro.head?.bind domainStatus).getD (403, "Refused", "refused")
  response request mapped.1 mapped.2.1 raised.text mapped.2.2

/-- `_validation`. -/
def validation (request : Request) : Response (List CodePoint) :=
  response request 422 "Invalid request"
    (ofString "The request did not match the contract for this endpoint.") "invalid-request"

/-- `_http`. -/
def http (request : Request) (raised : Raised) : Response (List CodePoint) :=
  response request raised.statusCode "Request failed" raised.detail
    ("http-" ++ toString raised.statusCode)

/-- `_unhandled`. -/
def unhandled (request : Request) : Response (List CodePoint) :=
  response request 500 "Internal error"
    (ofString ("The request could not be completed. Quote the correlation identifier when " ++
      "reporting.")) "internal-error"

/-- What an exception that leaves a route is answered with. -/
def answer (request : Request) (raised : Raised) : Response (List CodePoint) :=
  match lookup raised.type with
  | .domain => domain request raised
  | .validation => validation request
  | .http => http request raised
  | .unhandled => unhandled request

end Synthia.Problems
