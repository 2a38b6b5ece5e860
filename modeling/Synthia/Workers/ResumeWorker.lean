import Synthia.Lib.Exceptions
import Synthia.Workers.IntegrationResult

/-!
# The resume worker

`workers.resume_worker.parse_message`. The identifier and the kind are checked; the
correlation identifier is wrapped as it came, and its text is asked for outside the
`try`. Nothing is said about other fields, so a body may carry any.
-/

namespace Synthia

open Text

/-- A parsed trigger. -/
structure ConsumedTrigger where
  envelope : TriggerEnvelope
  trace : TraceContext
  deriving DecidableEq

/-- What `parse_message` raises: its own error for everything it catches, and what
`UUID(…)` of a number and `str` of a wrapped value raise past it. -/
inductive TriggerMessageError where
  | undeserializable (cause : String)
  | attributeError
  | typeError
  deriving DecidableEq, Repr

namespace ResumeWorker

/-- `payload[name]`, of whatever the body held. -/
def field (payload : Json.Value CodePoint) (name : String) :
    Except TriggerMessageError (Json.Value CodePoint) :=
  match payload with
  | .object _ =>
      match payload.member (ofString name) with
      | some value => .ok value
      | none => .error (.undeserializable s!"KeyError: {name}")
  | _ => .error (.undeserializable "TypeError: not subscriptable by a name")

/-- `WorkItemId(UUID(payload["workItemId"]))`. -/
def workItemIdOf (value : Json.Value CodePoint) : Except TriggerMessageError WorkItemId :=
  match value with
  | .string text =>
      match Uuid.ofText text with
      | some uuid => .ok ⟨uuid⟩
      | none => .error (.undeserializable "ValueError: badly formed hexadecimal UUID string")
  | .null => .error (.undeserializable "TypeError: one of the hex, bytes, … must be given")
  | _ => .error .attributeError

/-- `TriggerKind(payload["kind"])`. -/
def kindOf (value : Json.Value CodePoint) : Except TriggerMessageError TriggerKind :=
  let member := match value with
    | .string text =>
        [TriggerKind.approvalGranted, .approvalRejected, .consentGranted, .consentRefused,
          .sampleFlow].find? fun kind => ofString kind.value == text
    | _ => none
  match member with
  | some kind => .ok kind
  | none => .error (.undeserializable "ValueError: not a valid TriggerKind")

/-- What `CorrelationId` wraps. -/
def wrapped : Json.Value CodePoint → JsonMember
  | .string text => .text text
  | .null => .null
  | _ => .other

/-- `parse_message`. `property` reads an application property as text. -/
def parseMessage (body : List CodePoint) (property : String → Option (List CodePoint)) :
    Except TriggerMessageError ConsumedTrigger :=
  match Json.jsonLoads body with
  | none => .error (.undeserializable "ValueError: not JSON")
  | some payload => do
      let workItemId ← workItemIdOf (← field payload "workItemId")
      let correlationId ← field payload "correlationId"
      let kind ← kindOf (← field payload "kind")
      let envelope : TriggerEnvelope := ⟨workItemId, wrapped correlationId, kind⟩
      match correlationText envelope.correlationId with
      | none => .error .typeError
      | some text =>
          return ⟨envelope,
            ⟨text, (property "traceparent").getD [], (property "tracestate").getD []⟩⟩

end ResumeWorker

end Synthia

/-!
## The two consumers' parsers, with everything they may raise

`resume_worker.parse_message` and `integration_result_worker.parse_result_message` on a
body of bytes and a mapping of properties. What `json.loads` answers and how a property is
read as text are the interpreter's and the values' own, and either may raise anything.

The two are alike but for their handlers. The first leaves the correlation identifier's
text and the properties outside its `try`; the second has everything inside. Neither
handler names `AttributeError`.
-/

namespace Synthia

open Text Exceptions

/-- The exceptions an `except (ValueError, KeyError, TypeError)` tells apart, and every
other. -/
inductive PyException where
  | valueError
  | keyError
  | typeError
  | attributeError
  | recursionError
  | other
  deriving DecidableEq, Repr

/-- What the handlers catch, by the name it is reported under. -/
def PyException.caught : PyException → Option String
  | .valueError => some "ValueError"
  | .keyError => some "KeyError"
  | .typeError => some "TypeError"
  | .attributeError | .recursionError | .other => none

def TriggerMessageError.leaves : TriggerMessageError → Leaves PyException String
  | .undeserializable cause => .own cause
  | .attributeError => .escaped .attributeError
  | .typeError => .escaped .typeError

def ResultMessageError.leaves : ResultMessageError → Leaves PyException String
  | .undeserializable cause => .own cause
  | .attributeError => .escaped .attributeError

section Receiving

variable {P : Type} (loads : List UInt8 → Except PyException (Json.Value CodePoint))
  (text : P → Except PyException (List CodePoint)) (body : List UInt8)
  (properties : String → Option P)

/-- `_text((properties or {}).get(name))`. -/
def propertyText (name : String) : Except PyException (List CodePoint) :=
  match properties name with
  | none => .ok []
  | some value => text value

/-- `str(envelope.correlation_id)`. -/
def ResumeWorker.correlationTextOf (correlationId : JsonMember) :
    Except PyException (List CodePoint) :=
  match correlationText correlationId with
  | none => .error .typeError
  | some text => .ok text

/-- `parse_message`. -/
def ResumeWorker.receive : Except (Leaves PyException String) ConsumedTrigger := do
  let payload ← guarded PyException.caught (loads body)
  let named ← (field payload "workItemId").mapError TriggerMessageError.leaves
  let workItemId ← (workItemIdOf named).mapError TriggerMessageError.leaves
  let correlationId ← (field payload "correlationId").mapError TriggerMessageError.leaves
  let hint ← (field payload "kind").mapError TriggerMessageError.leaves
  let kind ← (kindOf hint).mapError TriggerMessageError.leaves
  let correlation ← unguarded (correlationTextOf (wrapped correlationId))
  let traceparent ← unguarded (propertyText text properties "traceparent")
  let tracestate ← unguarded (propertyText text properties "tracestate")
  return ⟨⟨workItemId, wrapped correlationId, kind⟩, ⟨correlation, traceparent, tracestate⟩⟩

/-- The members of a payload that carries no field but the contract's. -/
def contractMembers (payload : Json.Value CodePoint) :
    Except ResultMessageError (List (List CodePoint × Json.Value CodePoint)) :=
  match payload with
  | .object members =>
      let forbidden := ((members.map Prod.fst).dedup.filter fun name =>
        !(permittedFields.contains name)).length
      if forbidden ≠ 0 then
        .error (.undeserializable (s!"ValueError: the message carries {forbidden} field(s) " ++
          "the contract does not permit"))
      else .ok members
  | _ => .error (.undeserializable "TypeError: body is not a JSON object")

/-- `parse_result_message`. -/
def receiveResult (str : Json.Value CodePoint → List CodePoint) :
    Except (Leaves PyException String) ConsumedResult := do
  let payload ← guarded PyException.caught (loads body)
  let members ← (contractMembers payload).mapError ResultMessageError.leaves
  let hint ← (payloadField (.object members) "kind").mapError ResultMessageError.leaves
  let kind ← (resultKind hint).mapError ResultMessageError.leaves
  let named ← (payloadField (.object members) "jobId").mapError ResultMessageError.leaves
  let jobId ← (resultJobId named).mapError ResultMessageError.leaves
  let correlationId ←
    (payloadField (.object members) "correlationId").mapError ResultMessageError.leaves
  let traceparent ← guarded PyException.caught (propertyText text properties "traceparent")
  let tracestate ← guarded PyException.caught (propertyText text properties "tracestate")
  return ⟨jobId, correlationId, kind, ⟨str correlationId, traceparent, tracestate⟩⟩

end Receiving

end Synthia
