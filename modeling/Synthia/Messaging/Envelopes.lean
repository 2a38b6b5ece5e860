import Synthia.Lib.Json
import Synthia.Domain.Vocabulary
import Mathlib.Algebra.Group.Int.Defs
import Mathlib.Algebra.Group.Nat.Defs

/-!
# Envelopes and their publication

`domain.envelopes`, `messaging.publisher` and `messaging.deadletter`. An
envelope is an identifier, a correlation identifier and a kind, and which of two
closed sets the kind is from decides everything else: which identifier the body
carries and which queue it goes to.

`CorrelationId` does not check what it wraps. An envelope rebuilt from a row
therefore holds whatever JSON value stood there, and only turning it into text,
for the body or for a report, finds out. That step is partial here.
-/

namespace Synthia

open Text

/-! ## JSON values read from a column -/

/-- A member of a JSON object, as far as an identifier's constructor tells
values apart. -/
inductive JsonMember where
  | null
  | text (value : List CodePoint)
  | other
  deriving DecidableEq, Repr

/-- `UUID(text)`: the URN form, braces and hyphens go, and thirty-two
characters must be left. -/
def Uuid.ofText (text : List CodePoint) : Option Uuid :=
  let hex := removeAll (ofString "uuid:") (removeAll (ofString "urn:") text)
  let hex := (stripChars (ofString "{}") hex).filter (· != 0x2D)
  if hex.length = 32 then
    match intBase16 hex with
    | some value =>
        if 0 ≤ value ∧ value < 2 ^ 128 then some (BitVec.ofInt 128 value) else none
    | none => none
  else
    none

/-- `str(uuid)`: thirty-two digits in groups of 8, 4, 4, 4 and 12. -/
def Uuid.toText (uuid : Uuid) : List CodePoint :=
  let digits := (List.range 32).map fun i => hexChar (uuid.toNat / 0x10 ^ (31 - i) % 0x10)
  digits.take 8 ++ [0x2D] ++ (digits.drop 8).take 4 ++ [0x2D] ++ (digits.drop 12).take 4 ++
    [0x2D] ++ (digits.drop 16).take 4 ++ [0x2D] ++ digits.drop 20

/-! ## Kinds -/

inductive TriggerKind where
  | approvalGranted
  | approvalRejected
  | consentGranted
  | consentRefused
  | sampleFlow
  deriving DecidableEq, Repr

def TriggerKind.value : TriggerKind → String
  | .approvalGranted => "approval.granted"
  | .approvalRejected => "approval.rejected"
  | .consentGranted => "consent.granted"
  | .consentRefused => "consent.refused"
  | .sampleFlow => "sample.flow"

def TriggerKind.ofValue (kind : String) : Option TriggerKind :=
  [TriggerKind.approvalGranted, .approvalRejected, .consentGranted, .consentRefused,
    .sampleFlow].find? fun member => member.value == kind

def TriggerKind.resumesToExecution (kind : TriggerKind) : Bool :=
  kind == .approvalGranted || kind == .consentGranted || kind == .sampleFlow

inductive IntegrationMessageKind where
  | execute
  | completed
  | failed
  deriving DecidableEq, Repr

def IntegrationMessageKind.value : IntegrationMessageKind → String
  | .execute => "integration.execute"
  | .completed => "integration.completed"
  | .failed => "integration.failed"

def IntegrationMessageKind.ofValue (kind : String) : Option IntegrationMessageKind :=
  [IntegrationMessageKind.execute, .completed, .failed].find? fun member =>
    member.value == kind

def IntegrationMessageKind.isOutbound (kind : IntegrationMessageKind) : Bool :=
  kind == .execute

@[simp] theorem TriggerKind.ofValue_value (kind : TriggerKind) :
    TriggerKind.ofValue kind.value = some kind := by
  cases kind <;> decide

@[simp] theorem IntegrationMessageKind.ofValue_value (kind : IntegrationMessageKind) :
    IntegrationMessageKind.ofValue kind.value = some kind := by
  cases kind <;> decide

/-- The two kind sets are disjoint, so routing on the kind is unambiguous. -/
@[simp] theorem IntegrationMessageKind.ofValue_trigger (kind : TriggerKind) :
    IntegrationMessageKind.ofValue kind.value = none := by
  cases kind <;> decide

/-! ## Envelopes -/

structure TriggerEnvelope where
  workItemId : WorkItemId
  correlationId : JsonMember
  kind : TriggerKind
  deriving DecidableEq, Repr

structure IntegrationCommandEnvelope where
  jobId : IntegrationJobId
  correlationId : JsonMember
  kind : IntegrationMessageKind
  deriving DecidableEq, Repr

inductive Envelope where
  | trigger (envelope : TriggerEnvelope)
  | command (envelope : IntegrationCommandEnvelope)
  deriving DecidableEq, Repr

def Envelope.correlationId : Envelope → JsonMember
  | .trigger envelope => envelope.correlationId
  | .command envelope => envelope.correlationId

def Envelope.kindValue : Envelope → String
  | .trigger envelope => envelope.kind.value
  | .command envelope => envelope.kind.value

/-- The identifier the envelope carries, whichever row it names. -/
def subjectOf : Envelope → Uuid
  | .trigger envelope => envelope.workItemId.value
  | .command envelope => envelope.jobId.value

/-- `str(correlation_id)`; `none` where it raises `TypeError`. -/
def correlationText : JsonMember → Option (List CodePoint)
  | .text value => some value
  | .null => none
  | .other => none

/-! ## Publication -/

inductive Queue where
  | triggers
  | integrationCommands
  deriving DecidableEq, Repr

/-- The message body: three fields, the first one named by the envelope's type. -/
structure MessageBody where
  identifierField : String
  identifier : Uuid
  correlationId : List CodePoint
  kind : String
  deriving DecidableEq, Repr

/-- `json.dumps(…, sort_keys=True)` of the body. -/
def MessageBody.text (body : MessageBody) : List CodePoint :=
  Json.dumps [0x20] (Json.flat (Json.sortKeys
    [(ofString body.identifierField, some body.identifier.toText),
      (ofString "correlationId", some body.correlationId),
      (ofString "kind", some (ofString body.kind))]))

structure Message where
  queue : Queue
  body : MessageBody
  deriving DecidableEq, Repr

/-- What `publish` may raise. -/
inductive PublishError where
  | typeError
  | valueError
  | transport
  deriving DecidableEq, Repr

def messageBody (envelope : Envelope) : Except PublishError MessageBody :=
  match correlationText envelope.correlationId with
  | none => .error .typeError
  | some correlationId =>
      match envelope with
      | .trigger _ =>
          .ok ⟨"workItemId", subjectOf envelope, correlationId, envelope.kindValue⟩
      | .command _ =>
          .ok ⟨"jobId", subjectOf envelope, correlationId, envelope.kindValue⟩

/-- Which queue the envelope goes to. A result is never published by this
process. -/
def queueFor : Envelope → Except PublishError Queue
  | .trigger _ => .ok .triggers
  | .command envelope =>
      if envelope.kind.isOutbound then .ok .integrationCommands else .error .valueError

/-- The message a publish would hand to the transport. -/
def buildMessage (envelope : Envelope) : Except PublishError Message := do
  let body ← messageBody envelope
  let queue ← queueFor envelope
  return ⟨queue, body⟩

/-- One publish; `accepts` is what the transport answers if it is asked. -/
def publish (envelope : Envelope) (accepts : Bool) : Except PublishError Message := do
  let message ← buildMessage envelope
  if accepts then return message else throw .transport

theorem publish_eq_ok {envelope : Envelope} {accepts : Bool} {message : Message} :
    publish envelope accepts = .ok message ↔
      buildMessage envelope = .ok message ∧ accepts = true := by
  unfold publish
  cases buildMessage envelope with
  | error raised =>
      constructor
      · intro h
        cases h
      · rintro ⟨h, _⟩
        cases h
  | ok built =>
      cases accepts with
      | true => simp [bind, Except.bind, pure, Except.pure]
      | false => simp [bind, Except.bind, throw, throwThe, MonadExceptOf.throw]

/-! ## Dead letters -/

inductive DeadLetterSeverity where
  | governance
  | operational
  deriving DecidableEq, Repr

def severityFor (kind : TriggerKind) : DeadLetterSeverity :=
  if kind.resumesToExecution && kind != .sampleFlow then .governance else .operational

/-- The report on a row given up on. Its reason is the attempt count and what
the last attempt raised. -/
structure DeadLetterReport where
  workItemId : Uuid
  correlationId : List CodePoint
  kind : String
  attempts : Nat
  error : PublishError
  severity : DeadLetterSeverity
  deriving DecidableEq, Repr

/-- A kind that is no trigger's is operational. -/
def reportDeadLetter (workItemId : Uuid) (correlationId : List CodePoint)
    (kind : String) (attempts : Nat) (error : PublishError) : DeadLetterReport :=
  ⟨workItemId, correlationId, kind, attempts, error,
    match TriggerKind.ofValue kind with
    | some known => severityFor known
    | none => .operational⟩

/-! ## Retry -/

/-- The part of the retry policy a dispatcher pass reads. -/
structure BackoffPolicy where
  ceiling : Int := 10
  deriving DecidableEq, Repr

def BackoffPolicy.exhausted (policy : BackoffPolicy) (attempts : Nat) : Bool :=
  decide ((attempts : Int) ≥ policy.ceiling)

theorem BackoffPolicy.exhausted_eq_false {policy : BackoffPolicy} {attempts : Nat} :
    policy.exhausted attempts = false ↔ (attempts : Int) < policy.ceiling := by
  rw [exhausted, decide_eq_false_iff_not, ge_iff_le, not_le]

end Synthia
