import Synthia.Integrations.Jobs
import Synthia.Lib.Json
import Synthia.Messaging.Envelopes

/-!
# The result worker

`workers.integration_result_worker` and the read behind it,
`persistence.integration_jobs.read_result`. A result message names a job; what
is concluded is read from that job's row. The worker's own loop is not written
yet, so the two halves are joined here as the module says they are: the row is
loaded by the identifier the message carried.

`json.loads` is the interpreter's, and so is `str` of what it returned; the
parser is given the one's answer and the other as a function.
-/

namespace Synthia

open Text

/-! ## Reading the result -/

/-- What was reported back, as RagCore reads its own row. -/
structure IntegrationResult where
  executed : Bool
  verification : Option String
  executionId : Option Uuid
  recordedAt : Option Instant
  deriving DecidableEq

namespace IntegrationResult

def isPending (result : IntegrationResult) : Bool := result.recordedAt.isNone

def mayReportResolution (result : IntegrationResult) : Bool :=
  result.executed && result.verification == some "server_confirmed"

end IntegrationResult

/-- `read_result`; `none` when the job does not exist. -/
def readResult (jobs : JobTable) (jobId : IntegrationJobId) : Option IntegrationResult :=
  (jobs.find jobId).map fun row =>
    ⟨row.result.status == some "executed", row.result.verification, row.result.executionId,
      row.result.recordedAt⟩

/-! ## Concluding -/

inductive Conclusion where
  | resolved
  | actedUnverified
  | failed
  | pending
  deriving DecidableEq, Repr

def concludedFrom (result : Option IntegrationResult) : Conclusion :=
  match result with
  | none => .pending
  | some result =>
      if result.isPending then .pending
      else if !result.executed then .failed
      else if result.mayReportResolution then .resolved
      else .actedUnverified

/-! ## The message -/

structure TraceContext where
  correlationId : List CodePoint
  traceparent : List CodePoint
  tracestate : List CodePoint
  deriving DecidableEq

/-- A parsed result notification. The correlation identifier wraps whatever JSON
value stood there. -/
structure ConsumedResult where
  jobId : IntegrationJobId
  correlationId : Json.Value CodePoint
  kind : IntegrationMessageKind
  trace : TraceContext

/-- `HANDLED_KINDS`. -/
def handledKinds : List IntegrationMessageKind := [.completed, .failed]

/-- What `parse_result_message` raises: its own error for everything it catches,
and the `AttributeError` of `UUID(…)` on a number, which it does not. -/
inductive ResultMessageError where
  | undeserializable (cause : String)
  | attributeError
  deriving DecidableEq, Repr

def permittedFields : List (List CodePoint) :=
  [ofString "jobId", ofString "correlationId", ofString "kind"]

/-- `payload[name]`. -/
def payloadField (payload : Json.Value CodePoint) (name : String) :
    Except ResultMessageError (Json.Value CodePoint) :=
  match payload.member (ofString name) with
  | some value => .ok value
  | none => .error (.undeserializable s!"KeyError: {name}")

/-- `IntegrationMessageKind(payload["kind"])`, and the check that it is handled. -/
def resultKind (value : Json.Value CodePoint) :
    Except ResultMessageError IntegrationMessageKind :=
  let member := match value with
    | .string text =>
        [IntegrationMessageKind.execute, .completed, .failed].find? fun kind =>
          ofString kind.value == text
    | _ => none
  match member with
  | none => .error (.undeserializable "ValueError: not a valid IntegrationMessageKind")
  | some kind =>
      if handledKinds.contains kind then .ok kind
      else .error (.undeserializable
        s!"ValueError: {kind.value} is not consumed on the results queue")

/-- `IntegrationJobId(UUID(payload["jobId"]))`. -/
def resultJobId (value : Json.Value CodePoint) : Except ResultMessageError IntegrationJobId :=
  match value with
  | .string text =>
      match Uuid.ofText text with
      | some uuid => .ok ⟨uuid⟩
      | none => .error (.undeserializable "ValueError: badly formed hexadecimal UUID string")
  | .null => .error (.undeserializable "TypeError: one of the hex, bytes, … must be given")
  | _ => .error .attributeError

/-- `parse_result_message`. `loaded` is what `json.loads` answered, `none` where it
raised; `property` reads an application property as text. -/
def parseResultMessage (str : Json.Value CodePoint → List CodePoint)
    (loaded : Option (Json.Value CodePoint)) (property : String → Option (List CodePoint)) :
    Except ResultMessageError ConsumedResult :=
  match loaded with
  | none => .error (.undeserializable "ValueError: not JSON")
  | some (.object members) => do
      let payload := Json.Value.object members
      let forbidden := ((members.map Prod.fst).dedup.filter fun name =>
        !(permittedFields.contains name)).length
      if forbidden ≠ 0 then
        throw (.undeserializable (s!"ValueError: the message carries {forbidden} field(s) " ++
          "the contract does not permit"))
      let kind ← resultKind (← payloadField payload "kind")
      let jobId ← resultJobId (← payloadField payload "jobId")
      let correlationId ← payloadField payload "correlationId"
      return ⟨jobId, correlationId, kind, ⟨str correlationId,
        (property "traceparent").getD [], (property "tracestate").getD []⟩⟩
  | some _ => .error (.undeserializable "TypeError: body is not a JSON object")

/-- What is concluded on a message: the row it names is read, and nothing else of
the message is. -/
def concludedOn (jobs : JobTable) (message : ConsumedResult) : Conclusion :=
  concludedFrom (readResult jobs message.jobId)

end Synthia
