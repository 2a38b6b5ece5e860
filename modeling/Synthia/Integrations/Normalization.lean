import Synthia.Lib.Json
import Synthia.Integrations.Executor
import Synthia.Observability.Logging

/-!
# Result normalization

`execution.normalization`. What a far side answers is measured as Python writes what it
read, where a number may be longer or shorter than it came, reduced to the members whose
names the contract keeps, and read for an identifier. The two contracts differ in which
names they keep and in whether an answer must carry an identifier. Names are looked at on
the body's own members: a member that stays, stays with everything in it.

A mapping read from JSON is the list of its members, a number in it the literal it was read
from. How Python writes a float again is a parameter.
-/

namespace Synthia.Integrations

open Text Regex Observability

abbrev Members := List (List CodePoint × Json.Value CodePoint)

/-- `_MAX_PAYLOAD_BYTES`. -/
def maxPayloadBytes : Nat := 64 * 1024

/-- `_CASE_FIELDS`. -/
def caseFields : List (List CodePoint) :=
  [ofString "number", ofString "sys_id", ofString "state", ofString "short_description",
    ofString "opened_at"]

/-- `_EXTERNAL_REFERENCE_KEYS`. -/
def externalReferenceKeys : List (List CodePoint) := [ofString "number", ofString "sys_id"]

/-- What `_FORBIDDEN_KEY` looks for. -/
def forbiddenWord : Expr CodePoint :=
  .either (caseless "password") (.either (caseless "secret") (.either (caseless "token")
    (.either (caseless "credential")
      (.either
        (.seq (caseless "api") (.seq (.optional (Observability.oneOf "_-")) (caseless "key")))
        (.either (caseless "authorization") (.either (caseless "endpoint")
          (.either (caseless "url") (.either (caseless "uri") (caseless "host")))))))))

/-- `_FORBIDDEN_KEY.search(key)`. -/
def forbiddenKey (key : List CodePoint) : Bool := forbiddenWord.search key

inductive BoundaryValidationError where
  | oversized
  | noCaseIdentifier
  deriving DecidableEq, Repr

def BoundaryValidationError.message : BoundaryValidationError → String
  | .oversized => s!"provider response exceeds the {maxPayloadBytes} byte boundary limit"
  | .noCaseIdentifier =>
      "provider response carried no case identifier. The platform would have nothing to " ++
      "reconcile the record against, and an unreconcilable write is worse than a failed one."

structure NormalizedResult where
  externalReference : Option (List CodePoint)
  payload : Members

section Normalizing

variable (floatText : List CodePoint → List CodePoint)

/-- `len(json.dumps(raw, default=str).encode("utf-8"))`. What `dumps` writes is ASCII, a
byte a character; nothing read from JSON needs the default. -/
def encodedBytes (raw : Members) : Nat :=
  (Json.dumps [0x20] ((Json.Value.object raw).rewritten floatText)).length

-- a float written out is measured by what it is written as
example : encodedBytes (fun _ => ofString "1e+21")
    [(ofString "n", .number (ofString "1000000000000000000000.0"))] = 12 := by
  decide +kernel

/-- The first of the identifier keys that holds text, stripped. -/
def externalReference (payload : Members) : Option (List CodePoint) :=
  externalReferenceKeys.findSome? fun key =>
    match (Json.Value.object payload).member key with
    | some (.string candidate) =>
        if (strip candidate).isEmpty then none else some (strip candidate)
    | _ => none

/-- What both contracts do, given the names they keep and whether an answer without an
identifier is refused. -/
def normalize (keeps : List CodePoint → Bool) (identified : Bool) (raw : Members) :
    Except BoundaryValidationError NormalizedResult :=
  if maxPayloadBytes < encodedBytes floatText raw then .error .oversized
  else
    let payload := raw.filter fun entry => keeps entry.1
    let reference := externalReference payload
    if identified && reference.isNone then .error .noCaseIdentifier
    else .ok ⟨reference, payload⟩

/-- `normalize_case_result`. -/
def normalizeCaseResult : Members → Except BoundaryValidationError NormalizedResult :=
  normalize floatText (fun key => caseFields.contains key && !forbiddenKey key) true

/-- `normalize_tool_result`. -/
def normalizeToolResult : Members → Except BoundaryValidationError NormalizedResult :=
  normalize floatText (fun key => !forbiddenKey key) false

end Normalizing

/-- What the client and the adapter answer the leg, once a success was normalized. -/
def ExecutionLeg.Answer.ofNormalized :
    Except BoundaryValidationError NormalizedResult → ExecutionLeg.Answer
  | .ok normalized =>
      .returned true
        (normalized.externalReference.map fun text =>
          String.ofList (text.map fun c => Char.ofNat c.val))
        (.object normalized.payload)
  | .error _ => .boundaryValidationError

end Synthia.Integrations
