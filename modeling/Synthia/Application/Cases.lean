import Mathlib.Data.List.Sort
import Mathlib.Data.Rat.Floor
import Synthia.Domain.SessionState
import Synthia.Graph.Nodes
import Synthia.Lib.Calendar
import Synthia.Lib.FirstWrite
import Synthia.Lib.Machine
import Synthia.Messaging.Envelopes

/-!
# Cases

`application.cases` and the port it writes through. A session is anchored to a
case by a write under a key made of the session alone.

The system of record is not in the repository. It deduplicates by the key, the
first write winning; a write that finds it unreachable is held and replayed later,
in whatever order; and a write may arrive and be reported as failed.
-/

namespace Synthia

open Text

/-! ## The port -/

/-- One call of `record_progress`. -/
structure CaseWrite where
  tenantId : TenantId
  caseReference : List CodePoint
  facts : List (String × List CodePoint)
  idempotencyKey : List CodePoint
  correlationId : CorrelationId
  deriving DecidableEq

structure CaseWriteReceipt where
  committed : Bool
  queued : Bool
  deriving DecidableEq, Repr

/-- What the network does with one call. -/
inductive Reach where
  | accepted
  | unreachable
  | replyLost
  deriving DecidableEq, Repr

/-- Whether the write arrives with the call. -/
def Reach.arrives : Reach → Bool
  | .accepted => true
  | .unreachable => false
  | .replyLost => true

/-- What the caller gets; `none` where the call raises. -/
def Reach.receipt : Reach → Option CaseWriteReceipt
  | .accepted => some ⟨true, false⟩
  | .unreachable => some ⟨false, true⟩
  | .replyLost => none

/-! ## Anchoring -/

/-- `anchor_key`. -/
def anchorKey (sessionId : SessionId) : List CodePoint :=
  ofString "case.anchor:" ++ sessionId.value.toText

inductive CaseAnchorState where
  | committed
  | queued
  | notRequired
  deriving DecidableEq, Repr

structure CaseAnchor where
  state : CaseAnchorState
  caseReference : Option (List CodePoint)
  deriving DecidableEq

def CaseAnchor.mayReportResolution (anchor : CaseAnchor) : Bool := anchor.state == .committed

namespace CaseAnchoring

/-- `_facts`. -/
def facts (sessionId : SessionId) (requester : PrincipalId) (correlationId : CorrelationId)
    (now : Instant) (summary : List CodePoint) : List (String × List CodePoint) :=
  [("sessionId", sessionId.value.toText),
    ("requestedByOid", requester.value.toText),
    ("correlationId", correlationId.value),
    ("openedAt", Calendar.isoformat now),
    ("summary", summary),
    ("origin", ofString "synthia")]

/-- The write `anchor` makes. -/
def write (tenant : TenantContext) (sessionId : SessionId) (requester : PrincipalId)
    (correlationId : CorrelationId) (now : Instant) (summary : List CodePoint) : CaseWrite :=
  ⟨tenant.tenantId, sessionId.value.toText,
    facts sessionId requester correlationId now summary, anchorKey sessionId, correlationId⟩

/-- What `anchor` answers to a receipt. -/
def answer (sessionId : SessionId) (receipt : CaseWriteReceipt) : CaseAnchor :=
  if receipt.committed then ⟨.committed, some sessionId.value.toText⟩
  else ⟨.queued, none⟩

end CaseAnchoring

end Synthia

/-!
## Escalation

`application.escalation`, and the runs in which its writes meet the anchoring's at
the system of record. An escalation's write carries the reason, its explanation,
the transcript and the best candidates, and goes to the session's case under the
anchoring write's key.

A run is made of the calls of both kinds for any sessions, each with what the
network did to it, and of held writes being replayed. A write is held as the call
that made it, which is all it is a function of.
-/

namespace Synthia

open Text

def EscalationReason.value : EscalationReason → String
  | .insufficientKnowledge => "insufficient_knowledge"
  | .notPermitted => "not_permitted"
  | .humanDecisionRequired => "human_decision_required"
  | .outOfScope => "out_of_scope"
  | .unansweredItQuestion => "unanswered_it_question"
  | .externalSystemUnavailable => "external_system_unavailable"

def maxQueuedCandidates : Nat := 5

def SenderKind.value : SenderKind → String
  | .endUser => "end_user"
  | .agent => "agent"
  | .staff => "staff"

/-- `"\n".join(lines)`. -/
def joinLines (lines : List (List CodePoint)) : List CodePoint := [0x0A].intercalate lines

/-- `_render_transcript`. -/
def renderTranscript (conversation : List ConversationTurn) : List CodePoint :=
  joinLines (conversation.map fun turn => ofString (turn.sender.value ++ ": ") ++ turn.content)

/-- The nearest integer, a half going to the even neighbour. -/
def roundHalfEven (q : ℚ) : Int :=
  let rest := q - ⌊q⌋
  if rest < 1 / 2 then ⌊q⌋
  else if 1 / 2 < rest then ⌊q⌋ + 1
  else if ⌊q⌋ % 2 = 0 then ⌊q⌋ else ⌊q⌋ + 1

/-- `f"{score:.3f}"`. -/
def fixedThree (score : ℚ) : List CodePoint :=
  let thousandths := (roundHalfEven (|score| * 1000)).toNat
  (if score < 0 then [0x2D] else []) ++ ofString (toString (thousandths / 1000)) ++
    0x2E :: Calendar.pad 3 (thousandths % 1000)

/-- `_render_candidates`. The sort is stable. -/
def renderCandidates (candidates : List RetrievedChunk) : List CodePoint :=
  let ordered := (candidates.insertionSort fun a b => -a.score ≤ -b.score).take
    maxQueuedCandidates
  joinLines (ordered.map fun chunk => ofString chunk.sourceReference ++ ofString " (score " ++
    fixedThree chunk.score ++ ofString "): " ++ chunk.content)

structure EscalationOutcome where
  reason : EscalationReason
  explanation : String
  sessionState : SessionState
  queued : Bool
  deriving DecidableEq, Repr

namespace EscalationPath

def facts (sessionId : SessionId) (requester : PrincipalId) (correlationId : CorrelationId)
    (now : Instant) (reason : EscalationReason) (conversation : List ConversationTurn)
    (candidates : List RetrievedChunk) : List (String × List CodePoint) :=
  [("sessionId", sessionId.value.toText),
    ("requestedByOid", requester.value.toText),
    ("correlationId", correlationId.value),
    ("escalatedAt", Calendar.isoformat now),
    ("reason", ofString reason.value),
    ("explanation", ofString reason.explanation),
    ("transcript", renderTranscript conversation),
    ("candidates", renderCandidates candidates)]

/-- The write `escalate` makes, under the anchoring write's key. -/
def write (tenant : TenantContext) (sessionId : SessionId) (requester : PrincipalId)
    (correlationId : CorrelationId) (now : Instant) (reason : EscalationReason)
    (conversation : List ConversationTurn) (candidates : List RetrievedChunk) : CaseWrite :=
  ⟨tenant.tenantId, sessionId.value.toText,
    facts sessionId requester correlationId now reason conversation candidates,
    anchorKey sessionId, correlationId⟩

/-- What `escalate` answers to a receipt, once the audit event is written. -/
def answer (reason : EscalationReason) (currentState : SessionState)
    (receipt : CaseWriteReceipt) : Except IllegalSessionTransitionError EscalationOutcome := do
  let sessionState ← transition currentState .escalated
  return ⟨reason, reason.explanation, sessionState, !receipt.committed⟩

end EscalationPath

/-! ### Runs -/

/-- A call that writes to a case. -/
inductive CaseCall where
  | anchor (tenant : TenantContext) (sessionId : SessionId) (requester : PrincipalId)
      (correlationId : CorrelationId) (now : Instant) (summary : List CodePoint)
  | escalate (tenant : TenantContext) (sessionId : SessionId) (requester : PrincipalId)
      (correlationId : CorrelationId) (now : Instant) (reason : EscalationReason)
      (conversation : List ConversationTurn) (candidates : List RetrievedChunk)

namespace CaseCall

def sessionId : CaseCall → SessionId
  | .anchor _ sessionId _ _ _ _ => sessionId
  | .escalate _ sessionId _ _ _ _ _ _ => sessionId

def write : CaseCall → CaseWrite
  | .anchor tenant sessionId requester correlationId now summary =>
      CaseAnchoring.write tenant sessionId requester correlationId now summary
  | .escalate tenant sessionId requester correlationId now reason conversation candidates =>
      EscalationPath.write tenant sessionId requester correlationId now reason conversation
        candidates

end CaseCall

/-- A `work.escalated` event, by what tells it apart. -/
structure EscalationEvent where
  tenantId : TenantId
  correlationId : CorrelationId
  requestedBy : PrincipalId
  outcome : String
  deriving DecidableEq, Repr

structure CaseWorld where
  /-- What the system of record accepted, oldest first. -/
  recorded : List CaseWrite := []
  /-- The calls whose writes are held for replay. -/
  held : List CaseCall := []
  audit : List EscalationEvent := []

inductive CaseEvent where
  | call (reach : Reach) (call : CaseCall)
  | replay (position : Nat)

namespace CaseWorld

def arrive (world : CaseWorld) (call : CaseCall) : CaseWorld :=
  { world with recorded := FirstWrite.accept CaseWrite.idempotencyKey world.recorded call.write }

/-- `record_escalation`, reached only past a receipt. -/
def recordEscalation (world : CaseWorld) (reach : Reach) : CaseCall → CaseWorld
  | .anchor .. => world
  | .escalate tenant _ requester correlationId _ reason _ _ =>
      if reach.receipt.isSome then
        { world with
          audit := world.audit ++ [⟨tenant.tenantId, correlationId, requester, reason.value⟩] }
      else
        world

def step (world : CaseWorld) : CaseEvent → Option CaseWorld
  | .call reach call =>
      some ((if reach.arrives then world.arrive call
        else { world with held := world.held ++ [call] }).recordEscalation reach call)
  | .replay position =>
      world.held[position]?.map fun call =>
        { world.arrive call with held := world.held.eraseIdx position }

end CaseWorld

/-! ### One call, to its end -/

/-- What `escalate` raises. -/
inductive EscalationError where
  | caseSystem
  | auditWriter
  | illegalTransition (error : IllegalSessionTransitionError)
  deriving DecidableEq, Repr

/-- `escalate`: the write, the audit event, and the move last. -/
def EscalationPath.escalate (world : CaseWorld) (reach : Reach) (auditRaises : Bool)
    (tenant : TenantContext) (sessionId : SessionId) (requester : PrincipalId)
    (correlationId : CorrelationId) (now : Instant) (reason : EscalationReason)
    (conversation : List ConversationTurn) (candidates : List RetrievedChunk)
    (currentState : SessionState) : CaseWorld × Except EscalationError EscalationOutcome :=
  let call := CaseCall.escalate tenant sessionId requester correlationId now reason
    conversation candidates
  let written :=
    if reach.arrives then world.arrive call else { world with held := world.held ++ [call] }
  match reach.receipt with
  | none => (written, .error .caseSystem)
  | some receipt =>
      if auditRaises then
        (written, .error .auditWriter)
      else
        (written.recordEscalation reach call,
          (answer reason currentState receipt).mapError .illegalTransition)

end Synthia
