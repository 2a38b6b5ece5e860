import Synthia.Graph.Reading

/-!
# The nodes

`graph.nodes`, one definition per node. A node reads the state and the run
context, asks its collaborators, and returns the channels it wrote; it may also
raise. The collaborators are a record of functions, taken afresh at every step,
so nothing is assumed about what they answer from one step to the next.

`execute` is the only node with an effect outside the graph. Its invocation is
returned beside the update, because it has happened by the time the reducers
run, whether or not they accept the record of it.
-/

namespace Synthia

open Text

/-- The trusted bindings for one graph invocation. -/
structure RunContext where
  tenant : TenantContext
  requester : PrincipalId
  correlationId : CorrelationId
  sessionId : SessionId
  workItemId : Option WorkItemId
  deriving DecidableEq

structure RetrievedChunk where
  content : List CodePoint
  score : ℚ
  sourceReference : String
  deriving DecidableEq

structure ExecutionResult where
  succeeded : Bool
  verification : VerificationOutcome
  deriving DecidableEq, Repr

/-- One call of `ToolExecutionPort.invoke`. -/
structure Invocation where
  tenant : TenantContext
  identity : OperationIdentity
  parameters : String
  idempotencyKey : IdempotencyKey
  correlationId : CorrelationId
  deriving DecidableEq

/-- What one node's collaborators answer. `clock n` is its `n`-th reading, and
a tool that raises answers `none`. -/
structure GraphDependencies where
  clock : Nat → Instant
  lookup : TenantContext → OperationIdentity → Option CatalogueEntry
  isEntitled : TenantContext → String → Bool
  search : TenantContext → List CodePoint → Nat → List RetrievedChunk
  verdictFor : TenantContext → WorkItemId → Option StaffVerdict
  consentFor : TenantContext → WorkItemId → Option EndUserConsent
  invoke : Invocation → Option ExecutionResult

inductive NodeError where
  | valueError (message : String)
  | unauthorizedExecution
  | policyWidenedTreatment (error : PolicyWidenedTreatmentError)
  | toolRaised
  | reducer (error : ReducerError)
  deriving DecidableEq

inductive Node where
  | intake
  | converse
  | clarify
  | retrieve
  | ground
  | guardrail
  | propose
  | classify
  | govern
  | awaitConsent
  | awaitApproval
  | execute
  | verify
  | close
  deriving DecidableEq, Repr

section Nodes

variable (deps : GraphDependencies) (context : RunContext) (state : AgentState)

/-! ## Conversation -/

def intake : AgentUpdate :=
  let turns := state.conversation.map fun turn =>
    ⟨turn.content, turn.sender == .endUser⟩
  { sessionState := some (some
      (if (assessTriage turns).commitsWork then .resolving else .conversational)) }

def converse : AgentUpdate := { sessionState := some (some .resolving) }

/-- What a client resumed a suspension with. Untrusted, and read as text only. -/
structure ResumePayload where
  messageId : Option String
  content : Option (List CodePoint)

/-- `clarify`, past its interrupt. -/
def clarify (payload : ResumePayload) : AgentUpdate :=
  { conversation :=
      [⟨payload.messageId.getD "", .endUser, payload.content.getD [], deps.clock 0⟩]
    pendingInterrupt := some none
    sessionState := some (some .resolving) }

/-! ## Grounding -/

def retrievalLimit : Nat := 8

def retrieve : AgentUpdate :=
  let query := latestUserContent state
  if query.isEmpty then
    {}
  else
    { retrieved := (deps.search context.tenant query retrievalLimit).map fun chunk =>
        ⟨chunk.sourceReference, chunk.content, chunk.score, chunk.sourceReference⟩ }

/-- Grounding was sought, so it was required. -/
def ground : AgentUpdate :=
  let confidence := assessScores (state.retrieved.map RetrievedContext.score)
  { grounding := some (some
      ⟨confidence.topScore, confidence.margin, confidence.isConfident, true⟩) }

/-- Two ways a turn can be answerable, and both count: confident evidence, or an
operation to propose. -/
def guardrail : AgentUpdate :=
  let grounded := (state.grounding.any fun grounding => grounding.isConfident) ||
    state.proposal.isSome
  match (classifyScope (latestUserContent state) grounded).outcome with
  | .decline => { sessionState := some (some .closedDeclined) }
  | .escalate => { sessionState := some (some .escalated) }
  | .continue => {}

/-- The scaffold proposes nothing: a proposal arrives with the turn. -/
def propose : AgentUpdate := {}

/-! ## Governance -/

def classify : Except NodeError AgentUpdate :=
  match state.proposal with
  | none => .ok {}
  | some proposed =>
      let entry := deps.lookup context.tenant proposed.identity
      let isEntitled := deps.isEntitled context.tenant proposed.catalogueId
      match assignTreatment entry isEntitled with
      | .error error => .error (.policyWidenedTreatment error)
      | .ok decision =>
          .ok { classification := some (some
            ⟨proposed.catalogueId, proposed.catalogueVersion, decision.treatment,
              entry.isSome, isEntitled⟩) }

/-- `_recorded_decision`: the verdict if there is one, else the consent. -/
def recordedDecision : Option RecordedDecision :=
  match context.workItemId with
  | none => none
  | some workItemId =>
      match deps.verdictFor context.tenant workItemId with
      | some verdict => some (.staff verdict)
      | none => (deps.consentFor context.tenant workItemId).map .endUser

/-- `_expiry`. -/
def expiry (decision : Option RecordedDecision) : Option Instant :=
  decision.bind RecordedDecision.expiresAt

/-- The request `govern` puts to the gate. It names no knowledge condition, so
the request's default stands. -/
def gateRequest (proposed : ProposedOperationView) : GateRequest where
  tenant := context.tenant
  proposal := proposed.identity
  entry := deps.lookup context.tenant proposed.identity
  isEntitled := deps.isEntitled context.tenant proposed.catalogueId
  requester := context.requester
  now := deps.clock 0
  decision := recordedDecision deps context
  authorizationExpiresAt := expiry (recordedDecision deps context)

/-- The governance channel's value for one gate outcome. -/
def governanceResult (outcome : GateOutcome) : GovernanceResult :=
  ⟨outcome.treatment, outcome.treatmentReason, outcome.disposition, outcome.reason,
    deps.clock 1⟩

def govern : Except NodeError AgentUpdate :=
  match state.proposal with
  | none => .error (.valueError <|
      "the govern node was reached with an empty proposal channel; routing should not " ++
      "reach the gate before a proposal exists")
  | some proposed =>
      match evaluate (gateRequest deps context proposed) with
      | .error error => .error (.policyWidenedTreatment error)
      | .ok outcome =>
          .ok
            { governance := some (governanceResult deps outcome)
              pendingInterrupt := some outcome.suspendsOn }

/-! ## Interrupts

Past the interrupt, the resume payload is discarded and the durable record is
read. -/

/-- `_still_awaiting`. -/
def stillAwaiting (session : SessionState) : AgentUpdate :=
  { sessionState := some (some session) }

/-- `_mirror_consent`. -/
def mirrorConsent (consent : EndUserConsent) : AgentUpdate :=
  { decision := some
      ⟨consent.consentId.value, consent.consentedBy, .consent consent.verdict,
        consent.decidedAt, none⟩
    pendingInterrupt := some none }

/-- `_mirror_verdict`. -/
def mirrorVerdict (verdict : StaffVerdict) : AgentUpdate :=
  { decision := some
      ⟨verdict.approvalId.value, verdict.decidedBy, .approval verdict.verdict,
        verdict.decidedAt, none⟩
    pendingInterrupt := some none }

def awaitConsent : AgentUpdate :=
  match context.workItemId.bind (deps.consentFor context.tenant) with
  | none => stillAwaiting .awaitingConsent
  | some consent => mirrorConsent consent

def awaitApproval : AgentUpdate :=
  match context.workItemId.bind (deps.verdictFor context.tenant) with
  | none => stillAwaiting .awaitingApproval
  | some verdict => mirrorVerdict verdict

/-! ## Execution -/

/-- The invocation `execute` makes, once its own check has passed. -/
def executeInvocation : Except NodeError Invocation :=
  match state.governance with
  | none => .error .unauthorizedExecution
  | some governance =>
      if governance.disposition ≠ .proceed then
        .error .unauthorizedExecution
      else
        match state.proposal with
        | none => .error (.valueError "execute reached with an empty proposal channel")
        | some proposed =>
            match context.workItemId with
            | none => .error (.valueError
                "execute reached with no work item; there is nothing to execute for")
            | some workItemId =>
                .ok ⟨context.tenant, proposed.identity, proposed.parameters,
                  ⟨workItemId, proposed.identity⟩, context.correlationId⟩

/-- The record of an invocation that answered. -/
def executionUpdate (invocation : Invocation) (result : ExecutionResult) : AgentUpdate :=
  { execution := some
      ⟨if result.succeeded then .executed else .failed, invocation.idempotencyKey,
        deps.clock 0⟩
    verification := some ⟨result.verification, none, deps.clock 1⟩ }

def execute : List Invocation × Except NodeError AgentUpdate :=
  match executeInvocation context state with
  | .error error => ([], .error error)
  | .ok invocation =>
      ([invocation],
        match deps.invoke invocation with
        | none => .error .toolRaised
        | some result => .ok (executionUpdate deps invocation result))

/-- The scaffold confirms nothing. -/
def verify : AgentUpdate := {}

def close : AgentUpdate :=
  { sessionState := some (some .closedDeclined)
    pendingInterrupt := some none }

end Nodes

end Synthia
