import Synthia.Graph.Turns
import Synthia.Lib.Machine
import Synthia.Proofs.Grounding
import Synthia.Proofs.Scope
import Synthia.Proofs.Session

/-!
# What a turn is judged on

A turn runs on channels that outlive it. The proposal an earlier turn left is read by
the guardrail, which takes it for something to act on, and by the edge behind `classify`,
which sends the turn to the gate over it. The evidence accumulates, so the guardrail's
other reason is about the whole thread's. And the governance channel is sealed against
widening by a treatment that was some other operation's.

Each of the three is read at one step. At that step the turn is judged on its own
material exactly if what was left over makes no difference there, and until then nothing
the turn has done tells the thread from one that kept only its own. That last part is an
argument about two runs: the thread, and the thread with the governance channel emptied
at the start of the turn, which take the same steps up to the gate and are equal past it.
-/

namespace Synthia

open Text Machine

/-! ## Nodes on this side of the gate -/

/-- The nodes that neither read nor write a sealed channel. -/
def Node.ungated : Node → Bool
  | .intake | .converse | .retrieve | .ground | .guardrail | .propose | .classify | .close =>
      true
  | .clarify | .govern | .awaitConsent | .awaitApproval | .execute | .verify => false

section Nodes

variable {node : Node} {deps : GraphDependencies} {context : RunContext}
  {payload : ResumePayload} {state : AgentState} {update : AgentUpdate}

/-- No node but `clarify` writes the conversation, and none the proposal. -/
theorem run_keeps_request (hnode : node ≠ .clarify)
    (h : (node.run deps context payload state).2 = .ok update) :
    update.conversation = [] ∧ update.proposal = none := by
  obtain ⟨hproposal, hconversation, -⟩ := Node.run_writes h
  exact ⟨hconversation hnode, hproposal⟩

/-- A node on this side of the gate runs as it would had nothing been governed. -/
theorem run_ungoverned (hnode : node.ungated = true) :
    node.run deps context payload { state with governance := none } =
      node.run deps context payload state := by
  cases node with
  | intake | converse | retrieve | ground | guardrail | propose | classify | close => rfl
  | clarify | govern | awaitConsent | awaitApproval | execute | verify => cases hnode

theorem run_unsealed (hnode : node.ungated = true)
    (h : (node.run deps context payload state).2 = .ok update) :
    update.governance = none ∧ update.execution = none ∧ update.verification = none := by
  cases node with
  | retrieve =>
      injection h with h
      rw [← h, retrieve]
      split <;> exact ⟨rfl, rfl, rfl⟩
  | guardrail =>
      injection h with h
      rw [← h, guardrail]
      split <;> exact ⟨rfl, rfl, rfl⟩
  | classify =>
      change classify deps context state = _ at h
      unfold classify at h
      split at h
      · injection h with h
        rw [← h]
        exact ⟨rfl, rfl, rfl⟩
      · dsimp only at h
        split at h
        · cases h
        · injection h with h
          rw [← h]
          exact ⟨rfl, rfl, rfl⟩
  | intake | converse | ground | propose | close =>
      injection h with h
      rw [← h]
      exact ⟨rfl, rfl, rfl⟩
  | clarify | govern | awaitConsent | awaitApproval | execute | verify => cases hnode

theorem successor_ungoverned (hnode : node.ungated = true) :
    node.successor { state with governance := none } = node.successor state := by
  cases node with
  | intake | converse | retrieve | ground | guardrail | propose | classify | close => rfl
  | clarify | govern | awaitConsent | awaitApproval | execute | verify => cases hnode

/-- Where such a node leads: to another, to the gate, or to the end. -/
theorem successor_ungated (hnode : node.ungated = true) :
    ∃ next, node.successor state = .ok next ∧
      ∀ following, next = some following → following.ungated = true ∨
        (following = .govern ∧ node = .classify ∧ state.proposal.isSome = true) := by
  cases node with
  | guardrail =>
      refine ⟨some (routeAfterGuardrail state), rfl, ?_⟩
      rintro _ ⟨⟩
      left
      unfold routeAfterGuardrail
      split <;> rfl
  | classify =>
      refine ⟨routeAfterPropose state, rfl, ?_⟩
      intro following h
      unfold routeAfterPropose at h
      split at h
      · next hproposal =>
          injection h with h
          exact Or.inr ⟨h.symm, rfl, hproposal⟩
      · cases h
  | intake | converse | retrieve | ground | propose =>
      refine ⟨some _, rfl, ?_⟩
      rintro _ ⟨⟩
      exact Or.inl rfl
  | close =>
      refine ⟨none, rfl, ?_⟩
      rintro _ ⟨⟩
  | clarify | govern | awaitConsent | awaitApproval | execute | verify => cases hnode

/-- Emptying the governance channel commutes with an update that does not write it. -/
theorem apply_ungoverned (hupdate : update.governance = none) {after : AgentState}
    (h : state.apply update = .ok after) :
    ({ state with governance := none } : AgentState).apply update =
      .ok { after with governance := none } := by
  unfold AgentState.apply at h ⊢
  rw [hupdate] at h ⊢
  cases hexecution : sealExecution state.execution update.execution with
  | error e => cases hgovernance : state.governance <;> simp [hexecution, hgovernance,
      sealGovernance, bind, Except.bind] at h
  | ok execution =>
      cases hverification : sealVerification state.verification update.verification with
      | error e => cases hgovernance : state.governance <;> simp [hexecution, hverification,
          hgovernance, sealGovernance, bind, Except.bind] at h
      | ok verification =>
          have hsealed : sealGovernance state.governance none = .ok state.governance := by
            cases state.governance <;> rfl
          simp only [hsealed, hexecution, hverification, bind, Except.bind, pure, Except.pure,
            Except.ok.injEq] at h ⊢
          rw [← h]
          rfl

end Nodes

/-! ## The thread had nothing been governed -/

section Fork

variable {thread : Thread} {node : Node} {deps : GraphDependencies} {context : RunContext}
  {payload : ResumePayload}

/-- On this side of the gate the two threads take the same step. -/
theorem perform_ungoverned (hnode : node.ungated = true) :
    thread.ungoverned.perform node deps context payload =
      (thread.perform node deps context payload).ungoverned := by
  unfold Thread.perform Thread.ungoverned
  dsimp only
  rw [run_ungoverned hnode]
  cases hwritten : (node.run deps context payload thread.state).2 with
  | error error => rfl
  | ok update =>
      obtain ⟨hgovernance, hexecution, hverification⟩ := run_unsealed hnode hwritten
      obtain ⟨after, hafter, _⟩ :=
        thread.state.apply_unsealed hgovernance hexecution hverification
      unfold finish
      dsimp only
      rw [apply_ungoverned hgovernance hafter, hafter]
      dsimp only
      rw [successor_ungoverned hnode]
      cases node.successor after with
      | error error => rfl
      | ok next =>
          cases next with
          | none => rfl
          | some next => rfl

/-- Where a thread may stand before its turn has met the gate. -/
def Position.ungated : Position → Prop
  | .idle => True
  | .running node _ => node.ungated = true
  | .suspended _ => False

/-- A node on this side of the gate leaves the thread there, but for `classify` where
there is a proposal. -/
theorem perform_ungated (hnode : node.ungated = true) :
    (thread.perform node deps context payload).position.ungated ∨
      node = .classify ∧ thread.state.proposal.isSome = true ∧
        (thread.perform node deps context payload).position = .running .govern context := by
  rcases thread.perform_ends node deps context payload with
    ⟨hidle, _⟩ | ⟨update, hwritten, happly, hends⟩
  · rw [hidle]
    exact Or.inl trivial
  · obtain ⟨next, hedge, hfollows⟩ :=
      @successor_ungated node (thread.perform node deps context payload).state hnode
    rw [hedge] at hends
    rcases hends with ⟨_, hidle⟩ | ⟨following, hfollowing, hrunning⟩
    · rw [hidle]
      exact Or.inl trivial
    · rcases hfollows following (Except.ok.inj hfollowing) with
        hungated | ⟨hgovern, hclassify, hproposal⟩
      · rw [hrunning]
        exact Or.inl hungated
      · -- `classify` leaves the proposal as it found it
        have hkept : (thread.perform node deps context payload).state.proposal =
            thread.state.proposal := by
          obtain ⟨_, _, _, _, _, _, _, _, _, hproposal, _⟩ := AgentState.apply_eq_ok happly
          rw [hproposal, (run_keeps_request (by rw [hclassify]; decide) hwritten).2]
          rfl
        rw [hkept] at hproposal
        rw [hgovern] at hrunning
        exact Or.inr ⟨hclassify, hproposal, hrunning⟩

/-- With a proposal in its channel `classify` does lead to the gate. -/
theorem perform_classify (hproposal : thread.state.proposal.isSome = true) :
    (thread.perform .classify deps context payload).position = .running .govern context := by
  obtain ⟨proposed, hproposed⟩ := Option.isSome_iff_exists.mp hproposal
  obtain ⟨decision, hdecision⟩ := assignTreatment_total
    (deps.lookup context.tenant proposed.identity)
    (deps.isEntitled context.tenant proposed.catalogueId)
  have hwritten : ∃ view, (Node.run .classify deps context payload thread.state).2 =
      .ok { classification := some (some view) } := by
    show ∃ view, classify deps context thread.state = _
    unfold classify
    rw [hproposed]
    dsimp only
    rw [hdecision]
    exact ⟨_, rfl⟩
  obtain ⟨view, hwritten⟩ := hwritten
  obtain ⟨after, hafter, _⟩ := @AgentState.apply_unsealed thread.state
    { classification := some (some view) } rfl rfl rfl
  have hkept : after.proposal = thread.state.proposal :=
    (AgentState.apply_eq_ok hafter).2.2.2.2.2.2.2.2.2.1
  have hnext : Node.successor .classify after = .ok (some .govern) := by
    show Except.ok (routeAfterPropose after) = _
    rw [routeAfterPropose, hkept, if_pos hproposal]
  unfold Thread.perform finish
  dsimp only
  rw [hwritten]
  dsimp only
  rw [hafter]
  dsimp only
  rw [hnext]

end Fork

/-! ## The three readings -/

namespace TurnWorld

/-- What the guardrail writes for an outcome. -/
def scopeUpdate : ScopeOutcome → AgentUpdate
  | .decline => { sessionState := some (some .closedDeclined) }
  | .escalate => { sessionState := some (some .escalated) }
  | .continue => {}

/-- An earlier turn began with another operation. -/
def ProposesAnew (world : TurnWorld) (request : TurnRequest) : Prop :=
  ∃ proposed, request.proposal = some proposed ∧
    ∃ identity ∈ world.earlier, identity ≠ proposed.identity

/-- At this step the turn is judged on its own proposal. Without one it does not come to
the gate, nor to execution, and its guardrail is told its own text and its own evidence;
with one that names another operation than an earlier turn's, it leaves the gate as the
thread would had nothing been governed before the turn. -/
structure JudgedByItself (world : TurnWorld) (action : TurnAction) : Prop where
  reaches : ∀ request, world.request = some request → request.proposal = none →
    ∀ next context, (world.thread.step action.action).position = .running next context →
      next ≠ .govern ∧ next ≠ .execute
  guarded : ∀ request, world.request = some request → request.proposal = none →
    ∀ deps context, action = .node deps → world.thread.position = .running .guardrail context →
      guardrail world.thread.state =
        scopeUpdate (classifyScope request.content world.ownConfidence).outcome
  governed : ∀ request, world.request = some request → world.ProposesAnew request →
    ∀ deps context, action = .node deps → world.thread.position = .running .govern context →
      (world.thread.step (.node deps)).position = (world.fresh.step (.node deps)).position ∧
        (world.thread.step (.node deps)).state.governance =
          (world.fresh.step (.node deps)).state.governance

/-- A request is declined whatever the evidence: no word of it is about IT and one is
about something else. -/
def declines (content : List CodePoint) : Bool :=
  !(scopeWords content).any (oneOf itVocabulary) &&
    (scopeWords content).any (oneOf outOfScopeVocabulary)

/-- What is left over from earlier turns makes no difference at this step: at the
guardrail the request is declined anyway, or the whole evidence and any proposal in the
channel answer as the turn's own evidence does; `classify` finds no proposal that is not
the turn's; and the first evaluation of another operation assigns a treatment at least as
strict as the one in the channel. -/
structure Unaffected (world : TurnWorld) (action : TurnAction) : Prop where
  guardrail : ∀ request, world.request = some request → request.proposal = none →
    ∀ deps context, action = .node deps → world.thread.position = .running .guardrail context →
      declines request.content = true ∨
        (world.threadConfidence || world.thread.state.proposal.isSome) = world.ownConfidence
  classify : ∀ request, world.request = some request → request.proposal = none →
    ∀ deps context, action = .node deps → world.thread.position = .running .classify context →
      world.thread.state.proposal = none
  govern : ∀ request, world.request = some request → world.ProposesAnew request →
    ∀ deps context, action = .node deps → world.thread.position = .running .govern context →
      world.fresh.state.governance = none →
      ∀ proposed decision held, world.thread.state.proposal = some proposed →
        assignTreatment (deps.lookup context.tenant proposed.identity)
          (deps.isEntitled context.tenant proposed.catalogueId) = .ok decision →
        world.thread.state.governance = some held →
          isNarrowing held.treatment decision.treatment = true

/-- Up to the gate the other thread is this one with nothing governed; past it they are
one. -/
def InStep (world : TurnWorld) : Prop :=
  world.fresh = world.thread ∨
    world.fresh = world.thread.ungoverned ∧
      (world.thread.position.ungated ∨
        ∃ context, world.thread.position = .running .govern context)

/-- What holds of a turn for as long as nothing left over made a difference. -/
structure Kept (world : TurnWorld) : Prop where
  text : ∀ request, world.request = some request →
    latestUserContent world.thread.state = request.content
  proposal : ∀ request proposed, world.request = some request →
    request.proposal = some proposed → world.thread.state.proposal = some proposed
  assessed : ∀ context, world.thread.position = .running .guardrail context →
    (world.thread.state.grounding.any fun grounding => grounding.isConfident) =
      world.threadConfidence
  unclarified : ∀ node, (∃ context, world.thread.position = .running node context) ∨
    world.thread.position = .suspended node → node ≠ .clarify
  ungated : ∀ request, world.request = some request → request.proposal = none →
    world.thread.position.ungated
  inStep : ∀ request, world.request = some request → world.ProposesAnew request →
    world.InStep

/-! ### The guardrail -/

theorem scopeUpdate_inj {a b : ScopeOutcome} (h : scopeUpdate a = scopeUpdate b) : a = b := by
  have hsession := congrArg AgentUpdate.sessionState h
  cases a <;> cases b <;> first | rfl | cases hsession

theorem guardrail_eq (state : AgentState) :
    guardrail state =
      scopeUpdate (classifyScope (latestUserContent state)
        ((state.grounding.any fun grounding => grounding.isConfident) ||
          state.proposal.isSome)).outcome := by
  unfold guardrail
  dsimp only
  cases (classifyScope _ _).outcome <;> rfl

/-- Evidence and proposal decide between continuing and escalating, and decide nothing
about a request that is declined. -/
theorem classifyScope_outcome_iff (content : List CodePoint) (a b : Bool) :
    (classifyScope content a).outcome = (classifyScope content b).outcome ↔
      declines content = true ∨ a = b := by
  unfold classifyScope declines
  cases (scopeWords content).any (oneOf itVocabulary) with
  | true => cases a <;> cases b <;> simp [inScope]
  | false =>
      cases (scopeWords content).any (oneOf outOfScopeVocabulary) with
      | true => simp
      | false => cases a <;> cases b <;> simp [inScope]

theorem guarded_iff {world : TurnWorld} (h : world.Kept) {request : TurnRequest}
    (hrequest : world.request = some request) {context : RunContext}
    (hposition : world.thread.position = .running .guardrail context) :
    guardrail world.thread.state =
        scopeUpdate (classifyScope request.content world.ownConfidence).outcome ↔
      declines request.content = true ∨
        (world.threadConfidence || world.thread.state.proposal.isSome) =
          world.ownConfidence := by
  rw [guardrail_eq, h.text request hrequest, h.assessed context hposition,
    ← classifyScope_outcome_iff]
  exact ⟨scopeUpdate_inj, congrArg scopeUpdate⟩

/-! ### The gate -/

section Gate

variable {thread : Thread} {deps : GraphDependencies} {context : RunContext}
  {proposed : ProposedOperationView}

/-- The treatment an evaluation now assigns is at least as strict as the one held. -/
def Narrows (thread : Thread) (deps : GraphDependencies) (context : RunContext)
    (proposed : ProposedOperationView) : Prop :=
  ∀ decision held, assignTreatment (deps.lookup context.tenant proposed.identity)
      (deps.isEntitled context.tenant proposed.catalogueId) = .ok decision →
    thread.state.governance = some held → isNarrowing held.treatment decision.treatment = true

/-- What the gate writes is accepted as it would be with nothing governed, or refused. -/
theorem govern_applies (hproposal : thread.state.proposal = some proposed) :
    ∃ update after, (Node.run .govern deps context ⟨none, none⟩ thread.state).2 = .ok update ∧
      thread.ungoverned.state.apply update = .ok after ∧
      (∃ next, Node.successor .govern after = .ok (some next)) ∧
      (Narrows thread deps context proposed → thread.state.apply update = .ok after) ∧
      (¬ Narrows thread deps context proposed →
        ∃ error, thread.state.apply update = .error error) := by
  obtain ⟨outcome, houtcome, hwritten⟩ := @govern_eq_ok deps context thread.state _ hproposal
  obtain ⟨decision, hdecision⟩ := assignTreatment_total
    (deps.lookup context.tenant proposed.identity)
    (deps.isEntitled context.tenant proposed.catalogueId)
  have htreatment : (governanceResult deps outcome).treatment = decision.treatment :=
    (evaluate_treatment hdecision houtcome).1
  have hnarrows : Narrows thread deps context proposed ↔
      ∀ held, thread.state.governance = some held →
        isNarrowing held.treatment (governanceResult deps outcome).treatment = true := by
    rw [htreatment]
    constructor
    · intro h held hheld
      exact h decision held hdecision hheld
    · intro h other held hother hheld
      rw [hdecision] at hother
      rw [← Except.ok.inj hother]
      exact h held hheld
  obtain ⟨after, hafter⟩ := (@apply_governance thread.ungoverned.state
    (governanceResult deps outcome) (some outcome.suspendsOn)).mpr fun _ h => nomatch h
  refine ⟨_, after, hwritten, hafter, ?_, ?_, ?_⟩
  · obtain ⟨hsealed, _⟩ := AgentState.apply_eq_ok hafter
    injection hsealed with hgovernance
    show ∃ next, routeAfterGovern after = _
    unfold routeAfterGovern
    rw [← hgovernance]
    dsimp only
    cases (governanceResult deps outcome).disposition <;> exact ⟨_, rfl⟩
  · intro h
    rw [← hafter]
    have hsealed : sealGovernance thread.state.governance
        (some (governanceResult deps outcome)) = .ok (some (governanceResult deps outcome)) := by
      cases hheld : thread.state.governance with
      | none => rfl
      | some held =>
          show (if _ then _ else _) = _
          rw [if_pos (hnarrows.mp h held hheld)]
    unfold AgentState.apply
    dsimp only
    rw [hsealed]
    rfl
  · intro h
    rw [hnarrows, ← apply_governance (governanceResult deps outcome)
      (some outcome.suspendsOn)] at h
    cases happly : thread.state.apply
        { governance := some (governanceResult deps outcome)
          pendingInterrupt := some outcome.suspendsOn } with
    | error error => exact ⟨error, rfl⟩
    | ok after => exact absurd ⟨after, happly⟩ h

/-- A thread leaves the gate as it would had nothing been governed exactly when the
treatment does not widen, and then it is the same thread. -/
theorem govern_fork (hposition : thread.position = .running .govern context)
    (hproposal : thread.state.proposal = some proposed) :
    (Narrows thread deps context proposed →
      thread.ungoverned.step (.node deps) = thread.step (.node deps)) ∧
    ((thread.step (.node deps)).position = (thread.ungoverned.step (.node deps)).position →
      Narrows thread deps context proposed) := by
  have hfresh : thread.ungoverned.position = .running .govern context := hposition
  rw [Thread.step_performs (Thread.performs_running hposition rfl),
    Thread.step_performs (Thread.performs_running hfresh rfl)]
  obtain ⟨update, after, hwritten, hafter, ⟨next, hnext⟩, hnarrow, hwiden⟩ :=
    @govern_applies thread deps context proposed hproposal
  have hungoverned : (Node.run .govern deps context ⟨none, none⟩
      thread.ungoverned.state).2 = .ok update := hwritten
  unfold Thread.perform finish
  dsimp only
  rw [hungoverned, hwritten]
  dsimp only
  rw [hafter]
  dsimp only
  rw [hnext]
  constructor
  · intro h
    rw [hnarrow h]
    dsimp only
    rw [hnext]
    rfl
  · intro h
    by_contra hnot
    obtain ⟨error, herror⟩ := hwiden hnot
    rw [herror] at h
    cases h

end Gate

theorem governed_iff {world : TurnWorld} (h : world.Kept) {request : TurnRequest}
    (hrequest : world.request = some request) (hanew : world.ProposesAnew request)
    {deps : GraphDependencies} {context : RunContext}
    (hposition : world.thread.position = .running .govern context) :
    ((world.thread.step (.node deps)).position = (world.fresh.step (.node deps)).position ∧
        (world.thread.step (.node deps)).state.governance =
          (world.fresh.step (.node deps)).state.governance) ↔
      (world.fresh.state.governance = none →
        ∀ proposed decision held, world.thread.state.proposal = some proposed →
          assignTreatment (deps.lookup context.tenant proposed.identity)
            (deps.isEntitled context.tenant proposed.catalogueId) = .ok decision →
          world.thread.state.governance = some held →
            isNarrowing held.treatment decision.treatment = true) := by
  have ⟨proposed, hproposed, _⟩ := hanew
  have hproposal := h.proposal request proposed hrequest hproposed
  rcases h.inStep request hrequest hanew with hsame | ⟨hfork, _⟩
  · rw [hsame]
    refine iff_of_true ⟨rfl, rfl⟩ ?_
    intro hnone _ _ held _ _ hheld
    rw [hnone] at hheld
    cases hheld
  · rw [hfork]
    obtain ⟨hnarrow, hwiden⟩ :=
      @govern_fork world.thread deps context proposed hposition hproposal
    constructor
    · intro hleaves _ other decision held hother hdecision hheld
      rw [hproposal] at hother
      injection hother with hother
      subst hother
      exact hwiden hleaves.1 decision held hdecision hheld
    · intro hstrict
      rw [hnarrow fun decision held hdecision hheld =>
        hstrict rfl proposed decision held hproposal hdecision hheld]
      exact ⟨rfl, rfl⟩

/-! ### Classification -/

theorem ne_gate_of_ungated {position : Position} (h : position.ungated) {next : Node}
    {context : RunContext} (hposition : position = .running next context) :
    next ≠ .govern ∧ next ≠ .execute := by
  rw [hposition] at h
  constructor
  · rintro rfl
    cases h
  · rintro rfl
    cases h

/-- A step takes a thread past this side of the gate only from `classify`, with a proposal
in the channel. -/
theorem ungated_step {thread : Thread} (action : Action) (h : thread.position.ungated) :
    (thread.step action).position.ungated ∨
      ∃ deps context, action = .node deps ∧ thread.position = .running .classify context ∧
        thread.state.proposal.isSome = true ∧
        (thread.step action).position = .running .govern context := by
  cases action with
  | turn context input => exact Or.inl rfl
  | fail => exact Or.inl trivial
  | resume context deps payload =>
      rw [Thread.step]
      cases hposition : thread.position with
      | idle | running =>
          dsimp only
          rw [hposition] at h ⊢
          exact Or.inl h
      | suspended node =>
          rw [hposition] at h
          exact absurd h id
  | node deps =>
      rw [Thread.step]
      cases hposition : thread.position with
      | idle =>
          dsimp only
          rw [hposition]
          exact Or.inl trivial
      | suspended node =>
          rw [hposition] at h
          exact absurd h id
      | running node context =>
          rw [hposition] at h
          have hinterrupts : node.interrupts = false := by
            cases node <;> first | rfl | cases h
          dsimp only
          rw [hinterrupts, if_neg Bool.false_ne_true]
          rcases perform_ungated h with hungated | ⟨hclassify, hproposal, hgovern⟩
          · exact Or.inl hungated
          · rw [hclassify] at hgovern ⊢
            exact Or.inr ⟨deps, context, rfl, rfl, hproposal, hgovern⟩

theorem reaches_iff {world : TurnWorld} (h : world.Kept) {request : TurnRequest}
    (hrequest : world.request = some request) (hnone : request.proposal = none)
    (action : Action) :
    (∀ next context, (world.thread.step action).position = .running next context →
        next ≠ .govern ∧ next ≠ .execute) ↔
      ∀ deps context, action = .node deps →
        world.thread.position = .running .classify context →
          world.thread.state.proposal = none := by
  constructor
  · rintro hreaches deps context rfl hposition
    by_contra hproposal
    have hgovern := @perform_classify world.thread deps context ⟨none, none⟩
      (Option.isSome_iff_ne_none.mpr hproposal)
    rw [← Thread.step_performs (Thread.performs_running hposition rfl)] at hgovern
    exact (hreaches .govern context hgovern).1 rfl
  · intro hclassify next context hposition
    rcases ungated_step action (h.ungated request hrequest hnone) with
      hungated | ⟨deps, running, haction, hrunning, hproposal, _⟩
    · exact ne_gate_of_ungated hungated hposition
    · rw [hclassify deps running haction hrunning] at hproposal
      cases hproposal

/-- At a step of a turn that was judged by itself so far, the turn is judged by itself
exactly if nothing left over makes a difference. -/
theorem judged_iff {world : TurnWorld} (h : world.Kept) (action : TurnAction) :
    world.JudgedByItself action ↔ world.Unaffected action := by
  constructor
  · intro hjudged
    constructor
    · intro request hrequest hnone deps context haction hposition
      exact (guarded_iff h hrequest hposition).mp
        (hjudged.guarded request hrequest hnone deps context haction hposition)
    · rintro request hrequest hnone deps context rfl hposition
      exact (reaches_iff h hrequest hnone (.node deps)).mp
        (hjudged.reaches request hrequest hnone) deps context rfl hposition
    · intro request hrequest hanew deps context haction hposition
      exact (governed_iff h hrequest hanew hposition).mp
        (hjudged.governed request hrequest hanew deps context haction hposition)
  · intro hunaffected
    constructor
    · intro request hrequest hnone
      refine (reaches_iff h hrequest hnone action.action).mpr ?_
      intro deps context haction hposition
      cases action with
      | node own => exact hunaffected.classify request hrequest hnone own context rfl hposition
      | turn | resume | fail => cases haction
    · intro request hrequest hnone deps context haction hposition
      exact (guarded_iff h hrequest hposition).mpr
        (hunaffected.guardrail request hrequest hnone deps context haction hposition)
    · intro request hrequest hanew deps context haction hposition
      exact (governed_iff h hrequest hanew hposition).mpr
        (hunaffected.govern request hrequest hanew deps context haction hposition)

/-! ### What a step keeps of the turn -/

section Steps

variable {thread : Thread} {action : Action}

theorem performs_at {node : Node} {deps : GraphDependencies} {context : RunContext}
    {payload : ResumePayload}
    (h : thread.performs action = some (node, deps, context, payload)) :
    (∃ running, thread.position = .running node running) ∨ thread.position = .suspended node := by
  cases action with
  | turn | fail => cases h
  | node own =>
      rw [Thread.performs] at h
      split at h
      · next hposition =>
          split at h
          · cases h
          · injection h with h
            injection h with hnode
            rw [← hnode]
            exact Or.inl ⟨_, hposition⟩
      · cases h
      · cases h
  | resume _ own _ =>
      rw [Thread.performs] at h
      split at h
      · next hposition =>
          injection h with h
          injection h with hnode
          rw [← hnode]
          exact Or.inr hposition
      · cases h
      · cases h

/-- No step but a turn's beginning writes the conversation or the proposal. -/
theorem step_keeps_request (hturn : ∀ context input, action ≠ .turn context input)
    (hunclarified : ∀ node, (∃ context, thread.position = .running node context) ∨
      thread.position = .suspended node → node ≠ .clarify) :
    (thread.step action).state.conversation = thread.state.conversation ∧
      (thread.step action).state.proposal = thread.state.proposal := by
  cases hperforms : thread.performs action with
  | none =>
      rcases Thread.step_still hperforms with ⟨context, input, rfl⟩ | hsame | ⟨_, _, hmoved⟩
      · exact absurd rfl (hturn context input)
      · rw [hsame]
        exact ⟨rfl, rfl⟩
      · rw [hmoved]
        exact ⟨rfl, rfl⟩
  | some performed =>
      obtain ⟨node, deps, context, payload⟩ := performed
      have hclarify := hunclarified node (performs_at hperforms)
      rw [Thread.step_performs hperforms]
      rcases thread.perform_ends node deps context payload with
        ⟨_, hstate⟩ | ⟨update, hwritten, happly, _⟩
      · rw [hstate]
        exact ⟨rfl, rfl⟩
      · obtain ⟨hconversation, hproposal⟩ := run_keeps_request hclarify hwritten
        obtain ⟨_, _, _, _, _, happend, _, _, _, hset, _⟩ := AgentState.apply_eq_ok happly
        rw [happend, hset, hconversation, hproposal]
        exact ⟨List.append_nil _, rfl⟩

theorem successor_guardrail {node : Node} {state : AgentState}
    (h : node.successor state = .ok (some .guardrail)) : node = .ground := by
  have hedge := Node.successor_mem_targets h
  cases node with
  | ground => rfl
  | intake | converse | clarify | retrieve | guardrail | propose | classify | govern
  | awaitConsent | awaitApproval | execute | verify | close => exact absurd hedge (by decide)

/-- The guardrail is reached from `ground`, and so with all the evidence assessed. -/
theorem step_assesses {context : RunContext}
    (hposition : (thread.step action).position = .running .guardrail context) :
    thread.step action = thread ∨
      ((thread.step action).state.grounding.any fun grounding => grounding.isConfident) =
        (assessScores ((thread.step action).state.retrieved.map
          RetrievedContext.score)).isConfident := by
  cases hperforms : thread.performs action with
  | none =>
      rcases Thread.step_still hperforms with ⟨_, _, rfl⟩ | hsame | ⟨_, hrest, hmoved⟩
      · cases hposition
      · exact Or.inl hsame
      · rw [hmoved] at hposition
        rcases hrest with rfl | ⟨_, rfl⟩ <;> cases hposition
  | some performed =>
      obtain ⟨node, deps, running, payload⟩ := performed
      rw [Thread.step_performs hperforms] at hposition ⊢
      rcases thread.perform_ends node deps running payload with
        ⟨hidle, _⟩ | ⟨update, hwritten, happly, ⟨_, hidle⟩ | ⟨next, hedge, hrunning⟩⟩
      · rw [hidle] at hposition
        cases hposition
      · rw [hidle] at hposition
        cases hposition
      · rw [hrunning] at hposition
        injection hposition with hnext
        rw [hnext] at hedge
        obtain rfl := successor_guardrail hedge
        injection hwritten with hwritten
        obtain ⟨_, _, _, _, _, _, hretrieved, hgrounding, _⟩ := AgentState.apply_eq_ok happly
        rw [hgrounding, hretrieved, ← hwritten]
        exact Or.inr (congrArg (fun scores => (assessScores (List.map _ scores)).isConfident)
          (List.append_nil _).symm)

/-- No node leads to `clarify`. -/
theorem perform_unclarified (node : Node) (deps : GraphDependencies) (context : RunContext)
    (payload : ResumePayload) (next : Node)
    (h : (∃ running,
        (thread.perform node deps context payload).position = .running next running) ∨
      (thread.perform node deps context payload).position = .suspended next) :
    next ≠ .clarify := by
  rcases h with ⟨running, hposition⟩ | hposition
  · rintro rfl
    rcases thread.perform_ends node deps context payload with
      ⟨hidle, _⟩ | ⟨_, _, _, ⟨_, hidle⟩ | ⟨following, hedge, hrunning⟩⟩
    · rw [hidle] at hposition
      cases hposition
    · rw [hidle] at hposition
      cases hposition
    · rw [hrunning] at hposition
      injection hposition with hnext
      rw [hnext] at hedge
      exact successor_ne_clarify node _ hedge
  · exact absurd hposition (thread.perform_not_suspended node next deps context payload)

theorem step_unclarified
    (hunclarified : ∀ node, (∃ context, thread.position = .running node context) ∨
      thread.position = .suspended node → node ≠ .clarify)
    (next : Node) (h : (∃ context, (thread.step action).position = .running next context) ∨
      (thread.step action).position = .suspended next) : next ≠ .clarify := by
  cases action with
  | turn context input =>
      rcases h with ⟨_, h⟩ | h
      · injection h with h
        rw [← h]
        decide
      · cases h
  | fail => rcases h with ⟨_, h⟩ | h <;> cases h
  | node deps =>
      rw [Thread.step] at h
      split at h
      · next node context hposition =>
          split at h
          · rcases h with ⟨_, h⟩ | h
            · cases h
            · injection h with h
              rw [← h]
              exact hunclarified node (Or.inl ⟨context, hposition⟩)
          · exact perform_unclarified node deps context ⟨none, none⟩ next h
      · exact hunclarified next h
      · exact hunclarified next h
  | resume context deps payload =>
      rw [Thread.step] at h
      split at h
      · next node hposition => exact perform_unclarified node deps context payload next h
      · exact hunclarified next h
      · exact hunclarified next h

end Steps

/-- Up to the gate the two threads take the same steps, and where the gate assigns nothing
laxer they leave it as one. -/
theorem step_inStep {world : TurnWorld} {action : Action} (h : world.InStep)
    (hturn : ∀ context input, action ≠ .turn context input)
    (hgate : ∀ deps context, action = .node deps →
      world.thread.position = .running .govern context →
      world.fresh.state.governance = none → ∃ proposed,
        world.thread.state.proposal = some proposed ∧
          Narrows world.thread deps context proposed) :
    world.fresh.step action = world.thread.step action ∨
      world.fresh.step action = (world.thread.step action).ungoverned ∧
        ((world.thread.step action).position.ungated ∨
          ∃ context, (world.thread.step action).position = .running .govern context) := by
  rcases h with hsame | ⟨hfork, hposition⟩
  · rw [hsame]
    exact Or.inl rfl
  · rw [hfork] at hgate ⊢
    cases action with
    | turn context input => exact absurd rfl (hturn context input)
    | fail => exact Or.inr ⟨rfl, Or.inl trivial⟩
    | resume context deps payload =>
        have hstill : ∀ fork : Thread, fork.position = world.thread.position →
            fork.step (.resume context deps payload) = fork := by
          intro fork hsame
          rw [Thread.step]
          split
          · next node hsuspended =>
              rw [← hsame, hsuspended] at hposition
              rcases hposition with hungated | ⟨_, hgovern⟩
              · exact absurd hungated id
              · cases hgovern
          · rfl
          · rfl
        rw [hstill world.thread rfl, hstill world.thread.ungoverned rfl]
        exact Or.inr ⟨rfl, hposition⟩
    | node deps =>
        rcases hposition with hungated | ⟨context, hgovern⟩
        · cases hrunning : world.thread.position with
          | idle =>
              have hstill : ∀ fork : Thread, fork.position = .idle →
                  fork.step (.node deps) = fork := by
                intro fork hidle
                rw [Thread.step, hidle]
              rw [hstill _ hrunning, hstill world.thread.ungoverned hrunning]
              exact Or.inr ⟨rfl, Or.inl hungated⟩
          | suspended node =>
              rw [hrunning] at hungated
              exact absurd hungated id
          | running node context =>
              have hnode : node.ungated = true := by
                rw [hrunning] at hungated
                exact hungated
              have hinterrupts : node.interrupts = false := by
                cases node <;> first | rfl | cases hnode
              have hfresh : world.thread.ungoverned.position = .running node context := hrunning
              rw [Thread.step_performs (Thread.performs_running hrunning hinterrupts),
                Thread.step_performs (Thread.performs_running hfresh hinterrupts),
                perform_ungoverned hnode]
              refine Or.inr ⟨rfl, ?_⟩
              rcases @perform_ungated world.thread node deps context ⟨none, none⟩ hnode with
                hungated | ⟨_, _, hgovern⟩
              · exact Or.inl hungated
              · exact Or.inr ⟨context, hgovern⟩
        · obtain ⟨proposed, hproposal, hnarrows⟩ := hgate deps context rfl hgovern rfl
          exact Or.inl ((govern_fork hgovern hproposal).1 hnarrows)

/-! ### Every run -/

/-- A turn begins with its own request, whatever the thread held. -/
theorem kept_turn {world next : TurnWorld} {context : RunContext} {request : TurnRequest}
    (hstep : world.step (.turn context request) = some next) : next.Kept := by
  injection hstep with hstep
  rw [← hstep]
  constructor
  · rintro _ ⟨⟩
    show latestUserContent (request.input.applyTo world.thread.state) = request.content
    unfold latestUserContent TurnInput.applyTo append TurnRequest.input
    dsimp only
    rw [List.reverse_append]
    rfl
  · rintro _ proposed ⟨⟩ hproposed
    show (request.proposal.map some).getD world.thread.state.proposal = some proposed
    rw [hproposed]
    rfl
  · rintro _ ⟨⟩
  · rintro node (⟨_, hposition⟩ | hposition)
    · injection hposition with hnode
      rw [← hnode]
      decide
    · cases hposition
  · rintro _ ⟨⟩ _
    exact (rfl : Node.intake.ungated = true)
  · rintro _ ⟨⟩ _
    exact Or.inr ⟨rfl, Or.inl (rfl : Node.intake.ungated = true)⟩

theorem Kept.step_within {world : TurnWorld} (h : world.Kept) {action : TurnAction}
    (hunaffected : world.Unaffected action)
    (hturn : ∀ context input, action.action ≠ .turn context input) :
    Kept { world with
      thread := world.thread.step action.action
      fresh := world.fresh.step action.action } := by
  obtain ⟨hconversation, hproposal⟩ := step_keeps_request hturn h.unclarified
  have hnode : ∀ deps, action.action = .node deps → action = .node deps := by
    intro deps haction
    cases action with
    | node own =>
        injection haction with hdeps
        rw [hdeps]
    | turn | resume | fail => cases haction
  constructor
  · intro request hrequest
    show latestUserContent _ = _
    rw [← h.text request hrequest, latestUserContent, latestUserContent, hconversation]
  · intro request proposed hrequest hproposed
    exact hproposal.trans (h.proposal request proposed hrequest hproposed)
  · intro context hposition
    rcases step_assesses hposition with hsame | hassessed
    · dsimp only at hposition
      rw [hsame] at hposition
      show ((world.thread.step action.action).state.grounding.any _) =
        (assessScores _).isConfident
      rw [hsame]
      exact h.assessed context hposition
    · exact hassessed
  · exact step_unclarified h.unclarified
  · intro request hrequest hnone
    rcases ungated_step action.action (h.ungated request hrequest hnone) with
      hungated | ⟨deps, context, haction, hposition, hsome, _⟩
    · exact hungated
    · rw [hunaffected.classify request hrequest hnone deps context (hnode deps haction)
        hposition] at hsome
      cases hsome
  · intro request hrequest hanew
    refine step_inStep (h.inStep request hrequest hanew) hturn ?_
    intro deps context haction hposition hfresh
    have ⟨proposed, hproposed, _⟩ := hanew
    have hchannel := h.proposal request proposed hrequest hproposed
    exact ⟨proposed, hchannel, fun decision held hdecision hheld =>
      hunaffected.govern request hrequest hanew deps context (hnode deps haction) hposition
        hfresh proposed decision held hchannel hdecision hheld⟩

theorem kept_start : ({} : TurnWorld).Kept := by
  constructor
  · rintro _ ⟨⟩
  · rintro _ _ ⟨⟩
  · rintro _ ⟨⟩
  · rintro _ (⟨_, hposition⟩ | hposition) <;> cases hposition
  · rintro _ ⟨⟩
  · rintro _ ⟨⟩

theorem Kept.step {world next : TurnWorld} (h : world.Kept) {action : TurnAction}
    (hunaffected : world.Unaffected action) (hstep : world.step action = some next) :
    next.Kept := by
  cases action with
  | turn context request => exact kept_turn hstep
  | node deps =>
      injection hstep with hstep
      rw [← hstep]
      exact h.step_within hunaffected fun _ _ hturn => nomatch hturn
  | resume context deps payload =>
      injection hstep with hstep
      rw [← hstep]
      exact h.step_within hunaffected fun _ _ hturn => nomatch hturn
  | fail =>
      injection hstep with hstep
      rw [← hstep]
      exact h.step_within hunaffected fun _ _ hturn => nomatch hturn

/-- **A turn is judged on its own material exactly while nothing is left over.** Over any
turns on a thread, with and without a proposal: every turn without one is scoped on its own
text and its own evidence and comes neither to the gate nor to execution, and every turn
that proposes something new leaves the gate as on a thread where nothing had been governed
before, if and only if, where the guardrail, `classify` and the gate read a channel that
outlives the turn, what is in it makes no difference there. -/
theorem judged_by_itself_iff (actions : List TurnAction) :
    Along TurnWorld.step JudgedByItself {} actions ↔
      Along TurnWorld.step Unaffected {} actions :=
  along_iff (fun _ action hkept => judged_iff hkept action)
    (fun _ _ _ hkept hunaffected hstep => hkept.step hunaffected hstep) kept_start actions

end TurnWorld

/-! ### Thanks for an unlocked account -/

namespace SampleTurns

open TurnWorld

/-- An operation proposed and carried out, and the next turn up to `classify`. -/
def thankedTurns : List TurnAction :=
  .turn unlockContext ⟨"m-1", Text.ofString "Unlock my account", 0, some unlockProposal⟩ ::
      List.replicate 10 (.node weakDependencies) ++
    .turn unlockContext ⟨"m-2", Text.ofString "Thank you, the account works", 1, none⟩ ::
      List.replicate 6 (.node weakDependencies)

/-- The turn that proposes nothing is sent to the gate over what the turn before it
proposed. -/
theorem thanks_governed :
    ¬ Along TurnWorld.step JudgedByItself {}
        (thankedTurns ++ [.node weakDependencies]) := by
  intro hjudged
  obtain ⟨world, hrun, hrequest, hgovern⟩ :
      ∃ world, run TurnWorld.step {} thankedTurns = some world ∧
        world.request =
          some ⟨"m-2", Text.ofString "Thank you, the account works", 1, none⟩ ∧
        (world.thread.step (.node weakDependencies)).position =
          .running .govern unlockContext := by
    refine ⟨_, rfl, by decide +kernel, by decide +kernel⟩
  exact ((along_at hjudged hrun).reaches _ hrequest rfl .govern unlockContext hgovern).1 rfl

end SampleTurns

end Synthia
