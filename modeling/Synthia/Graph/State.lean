import Synthia.Governance.Gate
import Synthia.Lib.Text

/-!
# The graph state and its reducers

`graph.state`: one field per channel, an absent channel being `none` or the
empty list, and one reducer per channel that has one. A node returns an update
of the channels it wrote; applying it runs the reducers, and two of them can
refuse — the governance channel when a treatment would widen, the execution and
verification channels when a sealed value would change.

The channels hold text in the source because a checkpoint must be JSON-native.
Every value written to them is an enumeration's, so the enumerations stand here.
The identifier channels are left out: no node reads them, and none may write
`tenant_id` at all.
-/

namespace Synthia

open Text

structure CorrelationId where
  value : List CodePoint
  deriving DecidableEq, Repr

structure ConversationTurn where
  messageId : String
  sender : SenderKind
  content : List CodePoint
  occurredAt : Instant
  deriving DecidableEq

structure RetrievedContext where
  chunkId : String
  content : List CodePoint
  score : ℚ
  sourceReference : String
  deriving DecidableEq

/-- What the `ground` node concluded about the evidence it has. -/
structure GroundingAssessment where
  topScore : ℚ
  margin : ℚ
  isConfident : Bool
  required : Bool
  deriving DecidableEq

structure ClassificationView where
  catalogueId : String
  catalogueVersion : Int
  treatment : ExecutionTreatment
  isRegistered : Bool
  isEntitled : Bool
  deriving DecidableEq, Repr

/-- What the agent suggested doing. Parameters are opaque here: they are passed
to the tool and never read. -/
structure ProposedOperationView where
  catalogueId : String
  catalogueVersion : Int
  parameters : String
  source : String
  rationale : String
  deriving DecidableEq, Repr

def ProposedOperationView.identity (proposed : ProposedOperationView) :
    OperationIdentity :=
  ⟨proposed.catalogueId, proposed.catalogueVersion⟩

structure GovernanceResult where
  treatment : ExecutionTreatment
  treatmentReason : TreatmentReason
  disposition : GateDisposition
  reason : GateReason
  decidedAt : Instant
  deriving DecidableEq

/-- The kind of a mirrored decision, with its verdict. -/
inductive DecisionVerdict where
  | consent (verdict : ConsentVerdict)
  | approval (verdict : ApprovalVerdict)
  deriving DecidableEq, Repr

structure HumanDecisionRecord where
  decisionId : Uuid
  decidedBy : PrincipalId
  verdict : DecisionVerdict
  decidedAt : Instant
  expiresAt : Option Instant
  deriving DecidableEq

inductive ExecutionStatus where
  | executed
  | failed
  deriving DecidableEq, Repr

/-- The value of `IdempotencyKey(f"{work_item_id}:{identity}")`. -/
structure IdempotencyKey where
  workItemId : WorkItemId
  identity : OperationIdentity
  deriving DecidableEq, Repr

structure ExecutionRecord where
  status : ExecutionStatus
  idempotencyKey : IdempotencyKey
  attemptedAt : Instant
  deriving DecidableEq

structure VerificationRecord where
  outcome : VerificationOutcome
  verifiedBy : Option String
  verifiedAt : Instant
  deriving DecidableEq

/-- `AgentState`. -/
structure AgentState where
  sessionState : Option SessionState := none
  pendingInterrupt : Option InterruptKind := none
  conversation : List ConversationTurn := []
  retrieved : List RetrievedContext := []
  grounding : Option GroundingAssessment := none
  classification : Option ClassificationView := none
  proposal : Option ProposedOperationView := none
  governance : Option GovernanceResult := none
  decision : Option HumanDecisionRecord := none
  execution : Option ExecutionRecord := none
  verification : Option VerificationRecord := none
  deriving DecidableEq

/-- The channels one node wrote. A last-value channel may be written with
`None`, so its update is an option of its value; the others start empty. -/
structure AgentUpdate where
  sessionState : Option (Option SessionState) := none
  pendingInterrupt : Option (Option InterruptKind) := none
  conversation : List ConversationTurn := []
  retrieved : List RetrievedContext := []
  grounding : Option (Option GroundingAssessment) := none
  classification : Option (Option ClassificationView) := none
  proposal : Option (Option ProposedOperationView) := none
  governance : Option GovernanceResult := none
  decision : Option HumanDecisionRecord := none
  execution : Option ExecutionRecord := none
  verification : Option VerificationRecord := none

/-! ## Reducers -/

inductive ReducerError where
  | stateChannelSealed (channel : String)
  | treatmentWidened (before after : ExecutionTreatment)
  deriving DecidableEq, Repr

/-- `_append`. -/
def append {α : Type} (existing update : List α) : List α := existing ++ update

/-- `_seal`: write-once, with an identical second write accepted as a replay. -/
def sealChannel {α : Type} [DecidableEq α] (channel : String) (existing update : Option α) :
    Except ReducerError (Option α) :=
  match update, existing with
  | none, existing => .ok existing
  | some update, none => .ok (some update)
  | some update, some existing =>
      if existing = update then .ok (some update) else .error (.stateChannelSealed channel)

/-- The treatment may only become stricter; the rest advances. -/
def sealGovernance (existing update : Option GovernanceResult) :
    Except ReducerError (Option GovernanceResult) :=
  match update, existing with
  | none, existing => .ok existing
  | some update, none => .ok (some update)
  | some update, some existing =>
      if isNarrowing existing.treatment update.treatment then .ok (some update)
      else .error (.treatmentWidened existing.treatment update.treatment)

/-- First valid decision wins; a later one is dropped, not refused. -/
def sealHumanDecision (existing update : Option HumanDecisionRecord) :
    Option HumanDecisionRecord :=
  match existing with
  | some existing => some existing
  | none => update

def sealExecution (existing update : Option ExecutionRecord) :
    Except ReducerError (Option ExecutionRecord) :=
  sealChannel "execution" existing update

def sealVerification (existing update : Option VerificationRecord) :
    Except ReducerError (Option VerificationRecord) :=
  sealChannel "verification" existing update

/-- Apply an update: every channel through its own reducer, all or nothing. -/
def AgentState.apply (state : AgentState) (update : AgentUpdate) :
    Except ReducerError AgentState := do
  let governance ← sealGovernance state.governance update.governance
  let execution ← sealExecution state.execution update.execution
  let verification ← sealVerification state.verification update.verification
  return {
    sessionState := update.sessionState.getD state.sessionState
    pendingInterrupt := update.pendingInterrupt.getD state.pendingInterrupt
    conversation := append state.conversation update.conversation
    retrieved := append state.retrieved update.retrieved
    grounding := update.grounding.getD state.grounding
    classification := update.classification.getD state.classification
    proposal := update.proposal.getD state.proposal
    governance
    decision := sealHumanDecision state.decision update.decision
    execution
    verification }

/-! ## What applying an update can change -/

section Apply

variable {state after : AgentState} {update : AgentUpdate}

/-- What the governance channel holds after a write: what it held, or what was
written, which does not widen what it held. -/
theorem sealGovernance_ok {existing update result : Option GovernanceResult}
    (h : sealGovernance existing update = .ok result) :
    (update = none ∧ result = existing) ∨
      (∃ written, update = some written ∧ result = some written ∧
        ∀ sealed, existing = some sealed →
          isNarrowing sealed.treatment written.treatment = true) := by
  cases update with
  | none =>
      injection h with h
      exact Or.inl ⟨rfl, h.symm⟩
  | some written =>
      refine Or.inr ⟨written, rfl, ?_⟩
      cases existing with
      | none =>
          injection h with h
          exact ⟨h.symm, fun _ hnone => nomatch hnone⟩
      | some sealed =>
          unfold sealGovernance at h
          dsimp only at h
          split at h
          · next hnarrow =>
              injection h with h
              refine ⟨h.symm, ?_⟩
              intro other hother
              rw [← Option.some.inj hother]
              exact hnarrow
          · cases h

/-- Applying an update that succeeds reduces every channel. -/
theorem AgentState.apply_eq_ok (h : state.apply update = .ok after) :
    sealGovernance state.governance update.governance = .ok after.governance ∧
      sealExecution state.execution update.execution = .ok after.execution ∧
      sealVerification state.verification update.verification = .ok after.verification ∧
      after.sessionState = update.sessionState.getD state.sessionState ∧
      after.pendingInterrupt = update.pendingInterrupt.getD state.pendingInterrupt ∧
      after.conversation = state.conversation ++ update.conversation ∧
      after.retrieved = state.retrieved ++ update.retrieved ∧
      after.grounding = update.grounding.getD state.grounding ∧
      after.classification = update.classification.getD state.classification ∧
      after.proposal = update.proposal.getD state.proposal ∧
      after.decision = sealHumanDecision state.decision update.decision := by
  unfold AgentState.apply at h
  cases hgovernance : sealGovernance state.governance update.governance with
  | error e => simp [hgovernance, bind, Except.bind] at h
  | ok governance =>
      cases hexecution : sealExecution state.execution update.execution with
      | error e => simp [hgovernance, hexecution, bind, Except.bind] at h
      | ok execution =>
          cases hverification : sealVerification state.verification update.verification with
          | error e =>
              simp [hgovernance, hexecution, hverification, bind, Except.bind] at h
          | ok verification =>
              simp only [hgovernance, hexecution, hverification, bind, Except.bind, pure,
                Except.pure, Except.ok.injEq] at h
              subst h
              exact ⟨rfl, rfl, rfl, rfl, rfl, rfl, rfl, rfl, rfl, rfl, rfl⟩

end Apply

end Synthia
