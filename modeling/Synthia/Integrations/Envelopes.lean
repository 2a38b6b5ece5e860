import Synthia.Integrations.Executor

/-!
# The envelope of the integration seam

`integrations.messaging.envelope`. A body carries three fields and no other; each
is read through `str`, the identifier must be a UUID, the correlation identifier
must be one the platform admits and the kind one of three. `str` of a text is the
text; how anything else is rendered is the interpreter's.
-/

namespace Synthia.Integrations

open Text

/-- `str(value)`. -/
def str (rendered : Json.Value CodePoint → List CodePoint) : Json.Value CodePoint →
    List CodePoint
  | .string text => text
  | value => rendered value

/-- The characters of `_WELL_FORMED_CORRELATION`. -/
def isCorrelationChar (c : CodePoint) : Bool :=
  (0x41 ≤ c.val && c.val ≤ 0x5A) || (0x61 ≤ c.val && c.val ≤ 0x7A) ||
    (0x30 ≤ c.val && c.val ≤ 0x39) || c == 0x2E || c == 0x5F || c == 0x2D

/-- `_WELL_FORMED_CORRELATION.fullmatch`. -/
def wellFormedCorrelation (text : List CodePoint) : Bool :=
  decide (1 ≤ text.length) && decide (text.length ≤ 128) && text.all isCorrelationChar

inductive EnvelopeError where
  | notJson
  | notObject
  | forbidden (count : Nat)
  | missing (count : Nat)
  | jobId
  | correlationId
  | kind
  deriving DecidableEq, Repr

def EnvelopeError.message : EnvelopeError → String
  | .notJson => "the message body is not valid JSON"
  | .notObject => "the message body is not a JSON object"
  | .forbidden count =>
      s!"the message carries {count} field(s) the envelope contract does not " ++
        "permit. A trigger carries an opaque identifier, correlation context and a routing " ++
        "kind; authority comes from the durable record."
  | .missing count => s!"the message omits {count} required field(s)"
  | .jobId => "the job identifier is not a UUID"
  | .correlationId => "the correlation identifier is malformed"
  | .kind => "the message kind is outside the closed set"

namespace MessageEnvelope

def toJson (envelope : MessageEnvelope) : List CodePoint :=
  Json.dumps [] (Json.flat (Json.sortKeys
    [(ofString "jobId", some envelope.jobId.value.toText),
      (ofString "correlationId", some envelope.correlationId),
      (ofString "kind", some (ofString envelope.kind.value))]))

/-- `_job_id`, on the text of the value. -/
def jobIdOf (text : List CodePoint) : Except EnvelopeError IntegrationJobId :=
  match Uuid.ofText text with
  | some uuid => .ok ⟨uuid⟩
  | none => .error .jobId

/-- `_correlation_id`. -/
def correlationIdOf (text : List CodePoint) : Except EnvelopeError (List CodePoint) :=
  if wellFormedCorrelation text then .ok text else .error .correlationId

/-- `_kind`. -/
def kindOf (text : List CodePoint) : Except EnvelopeError IntegrationMessageKind :=
  match [IntegrationMessageKind.execute, .completed, .failed].find? fun kind =>
      ofString kind.value == text with
  | some kind => .ok kind
  | none => .error .kind

/-- `decoded[name]`, once it is known to be there. -/
def decodedField (decoded : Json.Value CodePoint) (name : String) : Json.Value CodePoint :=
  (decoded.member (ofString name)).getD .null

/-- `_PERMITTED_FIELDS`. -/
def permittedFields : List (List CodePoint) :=
  [ofString "jobId", ofString "correlationId", ofString "kind"]

def fromJson (rendered : Json.Value CodePoint → List CodePoint) (raw : List CodePoint) :
    Except EnvelopeError MessageEnvelope :=
  match Json.jsonLoads raw with
  | none => .error .notJson
  | some (.object members) => do
      let decoded := Json.Value.object members
      let present := (members.map Prod.fst).dedup
      let forbidden := present.filter fun name => !(permittedFields.contains name)
      if !forbidden.isEmpty then
        throw (.forbidden forbidden.length)
      let missing := permittedFields.filter fun name => !(present.contains name)
      if !missing.isEmpty then
        throw (.missing missing.length)
      let jobId ← jobIdOf (str rendered (decodedField decoded "jobId"))
      let correlationId ← correlationIdOf (str rendered (decodedField decoded "correlationId"))
      let kind ← kindOf (str rendered (decodedField decoded "kind"))
      return ⟨jobId, correlationId, kind⟩
  | some _ => .error .notObject

end MessageEnvelope

end Synthia.Integrations
