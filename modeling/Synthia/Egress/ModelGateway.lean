import Synthia.Egress.Http

/-!
# The AI Gateway client

`model.gateway`: one model call, sent through the shared caller, its failures mapped to the
two errors of the egress seam, and its answer checked where it arrives.

The credential is a parameter: the token it answers with, or nothing where it raises. A number
of an answer stays as it is written; converting it to a float fails for an integer that
rounds to `2 ^ 1024` or more, and only there.
-/

namespace Synthia

open Text Json

/-- `str(error)`. -/
def IntegrationError.message : IntegrationError → List CodePoint
  | .transient system reason | .permanent system reason =>
      ofString "the call to " ++ ofString system ++ ofString " did not succeed: " ++
        ofString reason

namespace ModelGateway

def system : String := "ai-gateway"

inductive ModelPurpose where
  | completion
  | embedding
  deriving DecidableEq, Repr

def ModelPurpose.value : ModelPurpose → List CodePoint
  | .completion => ofString "completion"
  | .embedding => ofString "embedding"

/-- `ModelRequest`, whose two identifiers are not blank. -/
structure ModelRequest where
  tenantId : List CodePoint
  correlationId : List CodePoint
  purpose : ModelPurpose
  inputText : List CodePoint
  attributable : strip tenantId ≠ [] ∧ strip correlationId ≠ []

structure ModelGatewaySettings where
  baseUrl : List CodePoint
  entraScope : List CodePoint
  requestTimeoutSeconds : ℚ

structure ModelResponse where
  text : List CodePoint := []
  embedding : List (Value CodePoint) := []
  servedFromCache : Bool

/-- The exceptions that leave `send`. `notConfigured`, `budgetExceeded` and `egress` are
`ModelEgressError` and its subclasses. -/
inductive Raised where
  | notConfigured
  | credential
  | value
  | budgetExceeded (message : String)
  | egress (message : String)
  | boundary (system reason : String)
  | notJson
  | overflow
  deriving DecidableEq, Repr

/-! ## Validation at the boundary -/

/-- `MAX_TEXT_CHARACTERS`. -/
def maxTextCharacters : Nat := 32000

/-- `type(value).__name__`. -/
def typeName : Value CodePoint → String
  | .null => "NoneType"
  | .bool _ => "bool"
  | .number literal => if literal.any isFloatPart then "float" else "int"
  | .string _ => "str"
  | .array _ => "list"
  | .object _ => "dict"

def requireObject (payload : Value CodePoint) : Except Raised (Value CodePoint) :=
  match payload with
  | .object members => .ok (.object members)
  | other => .error (.boundary system ("expected a JSON object, got " ++ typeName other))

/-- `require_text`, with the field's name as it is quoted. -/
def requireText (payload : Value CodePoint) (field : String) :
    Except Raised (List CodePoint) :=
  match payload.member (ofString field) with
  | none | some .null =>
      .error (.boundary system ("the required field '" ++ field ++ "' is absent"))
  | some (.string text) =>
      if (strip text).isEmpty then
        .error (.boundary system ("the field '" ++ field ++ "' is empty"))
      else if maxTextCharacters < text.length then
        .error (.boundary system ("the field '" ++ field ++ "' is " ++ toString text.length ++
          " characters, above the " ++ toString maxTextCharacters ++ " limit"))
      else .ok text
  | some other =>
      .error (.boundary system
        ("the field '" ++ field ++ "' should be a string, got " ++ typeName other))

/-! ## Reading an answer -/

/-- The integers that round to `2 ^ 1024` or more. -/
def overflows : Value CodePoint → Bool
  | .number literal =>
      !literal.any isFloatPart && 2 ^ 1024 - 2 ^ 970 ≤ natOf (literal.dropWhile (· == 0x2D))
  | _ => false

/-- `isinstance(value, int | float)`. -/
def isNumeric : Value CodePoint → Bool
  | .number _ | .bool _ => true
  | _ => false

/-- `_read`. -/
def read (purpose : ModelPurpose) (payload : Value CodePoint) : Except Raised ModelResponse := do
  let body ← requireObject payload
  let servedFromCache :=
    match body.member (ofString "servedFromCache") with
    | some (.bool true) => true
    | _ => false
  match purpose with
  | .completion =>
      let text ← requireText body "output"
      .ok { text := text, servedFromCache := servedFromCache }
  | .embedding =>
      match body.member (ofString "embedding") with
      | some (.array (value :: values)) =>
          if !(value :: values).all isNumeric then
            .error (.egress "the AI Gateway returned a non-numeric embedding")
          else if (value :: values).any overflows then
            .error .overflow
          else .ok { embedding := value :: values, servedFromCache := servedFromCache }
      | _ => .error (.egress "the AI Gateway returned no embedding for an embedding call")

/-! ## Sending -/

/-- `_headers`. Without a scope the gateway is called unauthenticated. -/
def headers (settings : ModelGatewaySettings) (token : Option (List CodePoint))
    (request : ModelRequest) : Except Raised (List (String × List CodePoint)) :=
  let headers := [("X-Synthia-Organisation", request.tenantId),
    ("X-Correlation-Id", request.correlationId), ("Content-Type", ofString "application/json")]
  if (strip settings.entraScope).isEmpty then .ok headers
  else
    match token with
    | none => .error .credential
    | some token => .ok (headers ++ [("Authorization", ofString "Bearer " ++ token)])

/-- The request `send` sends. -/
def outbound (settings : ModelGatewaySettings) (token : Option (List CodePoint))
    (request : ModelRequest) : Except Raised OutboundRequest := do
  let baseUrl := rstripChars (ofString "/") (strip settings.baseUrl)
  if baseUrl.isEmpty then throw .notConfigured
  let headers ← headers settings token request
  match OutboundRequest.make "POST" (baseUrl ++ ofString "/" ++ request.purpose.value)
      settings.requestTimeoutSeconds headers
      (some (.object [(ofString "input", .string request.inputText)])) with
  | none => throw .value
  | some outbound => return outbound

/-- What `send` makes of the caller's result. -/
def mapped (purpose : ModelPurpose) : Except IntegrationError HttpResponse →
    Except Raised ModelResponse
  | .error (.permanent system reason) =>
      if (IntegrationError.permanent system reason).message.tails.any
          (ofString "403").isPrefixOf then
        .error (.budgetExceeded "the organisation's model budget refused this call")
      else .error (.egress "the AI Gateway refused this call")
  | .error (.transient _ _) => .error (.egress "the AI Gateway did not respond")
  | .ok response =>
      match response.body with
      | none => .error .notJson
      | some payload => read purpose payload

def send (settings : ModelGatewaySettings) (policy : RetryPolicy)
    (token : Option (List CodePoint)) (request : ModelRequest) (farSide : Nat → FarSide) :
    Except Raised ModelResponse := do
  let outbound ← outbound settings token request
  mapped request.purpose (ResilientHttpCaller.send policy system outbound farSide).2

end ModelGateway

end Synthia
