import Synthia.Api.Problems
import Synthia.Lib.Digest
import Synthia.Messaging.Envelopes

/-!
# The identifier of a request

`CorrelationIdMiddleware` of RagCore, `CorrelationMiddleware` of the Integrations service and
the middleware of that name in the monolith: each keeps the identifier that a client supplies
if it follows the platform's rule and mints one if not, and puts it on the response. They
differ in where they keep it for what runs inside them, and in what stands around them. RagCore
has it in the state of the request, which outlives the middleware; the Integrations service in
a context variable, which is reset when the middleware is left; the monolith in the header of
the response itself.

What runs inside is a parameter: the answer it comes to with the identifier it can read, or an
exception that leaves it. What has begun to be sent nothing takes back.
-/

namespace Synthia.Correlation

open Text Urlencoded Problems

/-! ## The rule -/

/-- `[A-Za-z0-9._-]` -/
def isAllowed (code : Nat) : Bool :=
  (0x41 ≤ code && code ≤ 0x5A) || (0x61 ≤ code && code ≤ 0x7A) || (0x30 ≤ code && code ≤ 0x39) ||
    code == 0x2E || code == 0x5F || code == 0x2D

/-- `build/policy/correlation-id.json`, of text of whatever alphabet. -/
structure FollowsRule {n : Nat} (text : List (Fin n)) : Prop where
  nonempty : 1 ≤ text.length
  bounded : text.length ≤ 128
  allowed : ∀ c ∈ text, isAllowed c.val = true

/-- A request as it reaches a deployable: names and values of headers are bytes. -/
structure Request where
  path : List CodePoint
  headers : List (List Byte × List Byte)

/-- `X-Correlation-Id`, in any case. -/
def isCorrelationHeader (name : List Byte) : Bool :=
  lower (ofString "X-Correlation-Id") == lower (latin1 name)

/-- The first one of a request. -/
def suppliedHeader (request : Request) : Option (List Byte) :=
  (request.headers.find? fun header => isCorrelationHeader header.1).map Prod.snd

/-- A header of a response is set: the first of its name takes the value and the others go. -/
def setHeader {τ : Type} (value : τ) : List (List Byte × τ) → List (List Byte × τ)
  | [] => [(headerName "x-correlation-id", value)]
  | header :: headers =>
      if isCorrelationHeader header.1 then
        (headerName "x-correlation-id", value) ::
          headers.filter fun other => !isCorrelationHeader other.1
      else header :: setHeader value headers

/-! ## What runs inside -/

/-- What the rest of a pipeline comes to: a response with a body of its own, a problem document
built by the deployable's helper, or an exception. -/
inductive Rest (τ : Type) where
  | answers (status : Nat) (headers : List (List Byte × τ)) (content : List Byte)
  | refuses (headers : List (List Byte × τ)) (problem : ProblemDetails τ)
  | raises

variable {τ : Type}

/-- Under the identifier that the helper reads. -/
def Rest.run (identifier : τ) : Rest τ → Option (Response τ)
  | .answers status headers content => some ⟨status, headers, .inr content⟩
  | .refuses headers problem =>
      some ⟨problem.status, headers, .inl { problem with correlationId := identifier }⟩
  | .raises => none

def Rest.headers : Rest τ → List (List Byte × τ)
  | .answers _ headers _ => headers
  | .refuses headers _ => headers
  | .raises => []

/-! ## RagCore -/

namespace RagCore

/-- `WELL_FORMED.fullmatch`. -/
def wellFormed (raw : List CodePoint) : Bool :=
  decide (1 ≤ raw.length) && decide (raw.length ≤ 128) && raw.all fun c => isAllowed c.val

/-- `_accepted`. -/
def accepted (raw : List CodePoint) : Option (List CodePoint) :=
  if wellFormed raw then some raw else none

/-- `_resolve`. -/
def resolve (request : Request) (minted : Uuid) : List CodePoint :=
  match suppliedHeader request with
  | some value => (accepted (latin1 value)).getD minted.toText
  | none => minted.toText

/-- `request.state.correlation_id` before, and it and the response after. -/
abbrev App := Option (List CodePoint) → Option (List CodePoint) × Option (Response (List CodePoint))

def inner (rest : Rest (List CodePoint)) : App := fun state => (state, rest.run (state.getD []))

/-- `CorrelationIdMiddleware.__call__`, which owns the header. -/
def correlationIdMiddleware (identifier : List CodePoint) (app : App) : App := fun _ =>
  let after := app (some identifier)
  (after.1, after.2.map fun response =>
    { response with
      headers := (response.headers.filter fun header => !isCorrelationHeader header.1) ++
        [(headerName "x-correlation-id", identifier)] })

/-- The framework's outermost layer, with `_unhandled` for what escapes. -/
def serverErrorMiddleware (path : List CodePoint) (app : App) : Response (List CodePoint) :=
  match app none with
  | (_, some response) => response
  | (state, none) => unhandled ⟨path, state⟩

/-- The application: the last middleware that is added runs outermost. -/
def respond (request : Request) (minted : Uuid) (rest : Rest (List CodePoint)) :
    Response (List CodePoint) :=
  serverErrorMiddleware request.path
    (correlationIdMiddleware (resolve request minted) (inner rest))

end RagCore

/-! ## The Integrations service -/

namespace Integrations

/-- `_WELL_FORMED.fullmatch`. -/
def wellFormed (inbound : List CodePoint) : Bool :=
  decide (1 ≤ inbound.length) && decide (inbound.length ≤ 128) &&
    inbound.all fun c => isAllowed c.val

/-- The identifier `dispatch` binds. -/
def resolve (request : Request) (minted : Uuid) : List CodePoint :=
  let inbound := ((suppliedHeader request).map latin1).getD []
  if wellFormed inbound then inbound else minted.toText

/-- What runs under a value of the context variable. -/
abbrev App := List CodePoint → Option (Response (List CodePoint))

/-- `problem`, of the identifier that is bound. -/
def problem (bound path : List CodePoint) (status : Nat) (title : String)
    (detail : List CodePoint) (kind : String) : Response (List CodePoint) where
  status := status
  headers := [(headerName "content-type", ofString problemMediaType)]
  body := .inl
    { type := "https://synthia.synoptek.com/problems/" ++ kind
      title := title
      status := status
      detail := detail
      instancePath := path
      correlationId := bound }

def inner (rest : Rest (List CodePoint)) : App := fun bound => rest.run bound

/-- `CorrelationMiddleware.dispatch`. The variable is reset on the way out, so what is around
it never has the identifier. -/
def correlationMiddleware (identifier : List CodePoint) (callNext : App) : App := fun _ =>
  (callNext identifier).map fun response =>
    { response with headers := setHeader identifier response.headers }

/-- `ProblemMiddleware.dispatch`. -/
def problemMiddleware (path : List CodePoint) (callNext : App) : List CodePoint →
    Response (List CodePoint) := fun bound =>
  match callNext bound with
  | some response => response
  | none =>
      problem bound path 500 "Internal Server Error"
        (ofString "The request could not be completed.") "internal-error"

/-- The application, outside of which the variable has its default. -/
def respond (request : Request) (minted : Uuid) (rest : Rest (List CodePoint)) :
    Response (List CodePoint) :=
  problemMiddleware request.path
    (correlationMiddleware (resolve request minted) (inner rest)) []

end Integrations

/-! ## The monolith -/

namespace Monolith

/-- How the server reads the bytes of a header: ASCII as it is, and whatever has a byte beyond
it as text with a character beyond it. -/
structure HeaderEncoding where
  decode : List Byte → List CodeUnit
  ascii : ∀ value : List Byte, (∀ b ∈ value, b.val < 0x80) →
    decode value = value.map fun b => Fin.ofNat 0x10000 b.val
  beyond : ∀ value : List Byte, ∀ b ∈ value, 0x80 ≤ b.val → ∃ c ∈ decode value, 0x80 ≤ c.val

/-- `Guid.ToString("N")`. -/
def toTextN (guid : Uuid) : List CodeUnit :=
  (hexDigits 32 guid.toNat).map fun c => Fin.ofNat 0x10000 c.val

/-- `CorrelationId.TryAccept`. A blank candidate has no character that is allowed. -/
def tryAccept (candidate : Option (List CodeUnit)) : Option (List CodeUnit) :=
  match candidate with
  | none => none
  | some text =>
      if text.isEmpty || decide (128 < text.length) then none
      else if text.all fun c => isAllowed c.val then some text
      else none

/-- The identifier `InvokeAsync` binds. -/
def resolve (encoding : HeaderEncoding) (request : Request) (minted : Uuid) : List CodeUnit :=
  (tryAccept ((suppliedHeader request).map encoding.decode)).getD (toTextN minted)

abbrev HeaderTable := List (List Byte × List CodeUnit)

/-- The headers of the response before, and they and the rest of it after. -/
abbrev Pipeline :=
  HeaderTable → HeaderTable × Option (Nat × (ProblemDetails (List CodeUnit) ⊕ List Byte))

/-- `Problems.CorrelationOf`: what the response carries, or a new one. -/
def correlationOf (headers : HeaderTable) (minted : Uuid) : List CodeUnit :=
  match headers.find? fun header => isCorrelationHeader header.1 with
  | some (_, value) => if value.isEmpty then toTextN minted else value
  | none => toTextN minted

/-- Nothing inside writes the header of the identifier. -/
structure Inside where
  rest : Rest (List CodeUnit)
  leaves : ∀ header ∈ rest.headers, isCorrelationHeader header.1 = false

def inner (inside : Inside) (minted : Uuid) : Pipeline := fun headers =>
  match inside.rest.run (correlationOf headers minted) with
  | some response => (headers ++ response.headers, some (response.status, response.body))
  | none => (headers, none)

/-- `CorrelationMiddleware.InvokeAsync`. -/
def correlationMiddleware (identifier : List CodeUnit) (next : Pipeline) : Pipeline :=
  fun headers => next (setHeader identifier headers)

/-- The framework's exception handler with `ProblemDetailsExceptionHandler`: the response is
cleared before the problem is written. -/
def exceptionHandler (path : List CodeUnit) (minted : Uuid) (next : Pipeline) :
    Response (List CodeUnit) :=
  match next [] with
  | (headers, some (status, body)) => ⟨status, headers, body⟩
  | (_, none) =>
      ⟨500, [(headerName "content-type", (ofString problemMediaType).map fun c =>
          Fin.ofNat 0x10000 c.val)], .inl
        { type := "https://synthia.synoptek.com/problems/unexpected"
          title := "Unexpected error"
          status := 500
          detail := (ofString ("The request could not be completed. Quote the correlation " ++
            "identifier when reporting this.")).map fun c => Fin.ofNat 0x10000 c.val
          instancePath := path
          correlationId := correlationOf [] minted }⟩

/-- The application. A helper that finds no identifier mints one of its own. -/
def respond (encoding : HeaderEncoding) (request : Request) (path : List CodeUnit)
    (minted again : Uuid) (inside : Inside) : Response (List CodeUnit) :=
  exceptionHandler path again
    (correlationMiddleware (resolve encoding request minted) (inner inside again))

end Monolith

end Synthia.Correlation
