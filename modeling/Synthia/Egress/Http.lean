import Synthia.Lib.Json
import Synthia.Lib.Retry
import Mathlib.Data.Rat.Lemmas

/-!
# Outbound HTTP

`egress.http`: a request with its timeout stated, the classification of what came back,
and the one caller every adapter sends through. The transport is not in the repository;
what it does with the caller's attempts is a sequence of behaviours. The waits between
attempts are left out.
-/

namespace Synthia

open Text

def maxTimeoutSeconds : ℚ := 120

/-- `IntegrationError` and the two classes under it. -/
inductive IntegrationError where
  | transient (system reason : String)
  | permanent (system reason : String)
  deriving DecidableEq, Repr

/-- `OutboundRequest.__post_init__`. -/
def requestAccepted (url : List CodePoint) (timeoutSeconds : ℚ) : Bool :=
  decide (0 < timeoutSeconds ∧ timeoutSeconds ≤ maxTimeoutSeconds) &&
    (ofString "https://").isPrefixOf url

structure OutboundRequest where
  method : String
  url : List CodePoint
  timeoutSeconds : ℚ
  headers : List (String × List CodePoint)
  jsonBody : Option (Json.Value CodePoint)
  accepted : requestAccepted url timeoutSeconds = true

/-- `OutboundRequest(...)`, or `none` for the `ValueError`. -/
def OutboundRequest.make (method : String) (url : List CodePoint) (timeoutSeconds : ℚ)
    (headers : List (String × List CodePoint)) (jsonBody : Option (Json.Value CodePoint)) :
    Option OutboundRequest :=
  if h : requestAccepted url timeoutSeconds = true then
    some ⟨method, url, timeoutSeconds, headers, jsonBody, h⟩
  else
    none

structure RetryPolicy where
  maxAttempts : Nat := 3
  bounded : 1 ≤ maxAttempts ∧ maxAttempts ≤ 5 := by decide

/-- A response. The body is `none` where it is not JSON. -/
structure HttpResponse where
  status : Nat
  body : Option (Json.Value CodePoint)

/-- What becomes of one attempt. A request that the client refuses to build has none of
these: what it raises then leaves the loop before anything is sent. -/
inductive FarSide where
  | responded (response : HttpResponse)
  | timedOut
  | transportFailed

/-- `classify`. -/
def Egress.classify (system : String) (response : HttpResponse) : Option IntegrationError :=
  let status := response.status
  if status < 400 then
    none
  else if status = 408 ∨ status = 429 ∨ status ≥ 500 then
    some (.transient system ("HTTP " ++ toString status))
  else
    some (.permanent system ("HTTP " ++ toString status))

namespace ResilientHttpCaller

/-- What one attempt comes to. -/
def attempted (system : String) : FarSide → Except IntegrationError HttpResponse
  | .timedOut => .error (.transient system "the call timed out")
  | .transportFailed => .error (.transient system "the transport failed")
  | .responded response =>
      match Egress.classify system response with
      | none => .ok response
      | some failure => .error failure

/-- The loop of `send`, with the requests it issued: `left` attempts from the numbered one
on, and the last failure so far. -/
def sendFrom (system : String) (request : OutboundRequest) (farSide : Nat → FarSide) :
    Nat → Nat → Option IntegrationError →
      List OutboundRequest × Except IntegrationError HttpResponse
  | 0, _, last => ([], .error (last.getD (.transient system "no attempt was made")))
  | left + 1, attempt, _ =>
      match attempted system (farSide attempt) with
      | .ok response => ([request], .ok response)
      | .error (.permanent system reason) => ([request], .error (.permanent system reason))
      | .error (.transient system' reason) =>
          let rest := sendFrom system request farSide left (attempt + 1)
            (some (.transient system' reason))
          (request :: rest.1, rest.2)

def send (policy : RetryPolicy) (system : String) (request : OutboundRequest)
    (farSide : Nat → FarSide) : List OutboundRequest × Except IntegrationError HttpResponse :=
  sendFrom system request farSide policy.maxAttempts 1 none

end ResilientHttpCaller

end Synthia
