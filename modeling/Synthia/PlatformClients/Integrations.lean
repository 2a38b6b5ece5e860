import Synthia.Egress.Http
import Synthia.Graph.State
import Synthia.Messaging.Envelopes

/-!
# The Integrations Service client

`platform_clients.integrations`, the write: one case operation, sent through the shared
caller, its permanent failure read as a refusal and its transient one raised. Every method
answers with the requests it issued beside its result. The credential is a parameter: the
token it answers with, or nothing where it raises.
-/

namespace Synthia

open Text

/-- `SYSTEM`. -/
def integrationsSystem : String := "integrations"

def caseOperationsPath : List CodePoint :=
  ofString "/api/workload/v1/integrations/case-operations"

def writeTimeoutSeconds : ℚ := 15

/-- `IntegrationsClientSettings.__post_init__`. -/
def settingsAccepted (gatewayBaseUrl entraScope : List CodePoint) : Bool :=
  (ofString "https://").isPrefixOf gatewayBaseUrl &&
    !gatewayBaseUrl.tails.any (ofString ".internal.").isPrefixOf && !(strip entraScope).isEmpty

structure IntegrationsClientSettings where
  gatewayBaseUrl : List CodePoint
  entraScope : List CodePoint
  accepted : settingsAccepted gatewayBaseUrl entraScope = true

structure CaseOperationOutcome where
  succeeded : Bool
  externalReference : Option (List CodePoint)
  refused : Bool
  deriving DecidableEq

/-- What `create_case` raises. -/
inductive CreateCaseError where
  | credential
  | value
  | integration (error : IntegrationError)
  | notJson
  deriving DecidableEq, Repr

/-- `bool(value)` of a JSON value. Of the numbers only what is read as a zero is false. -/
def truthy : Json.Value CodePoint → Bool
  | .null => false
  | .bool value => value
  | .number literal =>
      [ofString "NaN", ofString "Infinity", ofString "-Infinity"].contains literal ||
        !Json.roundsToZero literal
  | .string text => !text.isEmpty
  | .array items => !items.isEmpty
  | .object members => !members.isEmpty

example : ["-0", "0.0e9", "1e-400", "2.4e-324", "5e-324", "1e-5", "-3", "NaN"].map
    (fun literal => truthy (.number (ofString literal))) =
      [false, false, false, false, true, true, true, true] := by
  decide +kernel

namespace IntegrationsClient

/-- `_headers`, with the token the credential answered. -/
def headers (correlationId : CorrelationId) (token : List CodePoint) :
    List (String × List CodePoint) :=
  [("X-Correlation-Id", correlationId.value), ("Authorization", ofString "Bearer " ++ token)]

/-- `_url`, without a query. -/
def url (settings : IntegrationsClientSettings) (path : List CodePoint) : List CodePoint :=
  rstripChars (ofString "/") settings.gatewayBaseUrl ++ path

/-- The request `create_case` sends. -/
def createCaseRequest (settings : IntegrationsClientSettings) (token : Option (List CodePoint))
    (sessionId : Uuid) (catalogueId : List CodePoint) (catalogueVersion : Int)
    (parameters : List (List CodePoint × Json.Value CodePoint))
    (idempotencyKey : List CodePoint) (correlationId : CorrelationId) :
    Except CreateCaseError OutboundRequest :=
  match token with
  | none => .error .credential
  | some token =>
      match OutboundRequest.make "POST" (url settings caseOperationsPath) writeTimeoutSeconds
          (headers correlationId token)
          (some (.object
            [(ofString "sessionId", .string sessionId.toText),
              (ofString "catalogueId", .string catalogueId),
              (ofString "catalogueVersion", .number (ofString (toString catalogueVersion))),
              (ofString "idempotencyKey", .string idempotencyKey),
              (ofString "parameters", .object parameters)])) with
      | none => .error .value
      | some request => .ok request

/-- What `create_case` reads of a successful response. -/
def caseOutcome (response : HttpResponse) : Except CreateCaseError CaseOperationOutcome :=
  match response.body with
  | none => .error .notJson
  | some body =>
      .ok
        { succeeded := ((body.member (ofString "succeeded")).map truthy).getD false
          externalReference :=
            match body.member (ofString "externalReference") with
            | some (.string reference) => some reference
            | _ => none
          refused := false }

def createCase (settings : IntegrationsClientSettings) (policy : RetryPolicy)
    (token : Option (List CodePoint)) (farSide : Nat → FarSide) (sessionId : Uuid)
    (catalogueId : List CodePoint) (catalogueVersion : Int)
    (parameters : List (List CodePoint × Json.Value CodePoint))
    (idempotencyKey : List CodePoint) (correlationId : CorrelationId) :
    List OutboundRequest × Except CreateCaseError CaseOperationOutcome :=
  match createCaseRequest settings token sessionId catalogueId catalogueVersion parameters
      idempotencyKey correlationId with
  | .error error => ([], .error error)
  | .ok request =>
      let sent := ResilientHttpCaller.send policy integrationsSystem request farSide
      (sent.1,
        match sent.2 with
        | .error (.permanent _ _) => .ok ⟨false, none, true⟩
        | .error error => .error (.integration error)
        | .ok response => caseOutcome response)

end IntegrationsClient

end Synthia
