import Synthia.Graph.Run

/-!
# Declining and escalating

The guardrail writes one of two session states for a request it will not serve,
and both are routed to `close`, which writes `closed_declined` whatever it finds.
A declined turn therefore ends as the guardrail said. An escalated one is closed
as declined one node later, on every path, because there is only that one.

The turn up to the guardrail is fixed: `intake`, `converse`, `retrieve` and
`ground` neither raise nor route, whatever the collaborators answer. So the run
is followed node by node to the guardrail and from there to rest, and the turns
on which the two outcomes stay apart are those the guardrail does not escalate.
Escalation is spelled out on the state the guardrail reads: no confident evidence
and no proposal, for a request that is not declined by its words.
-/

namespace Synthia

open Text

/-- The thread after the first `n` node steps of a run. -/
def Thread.afterNodes (thread : Thread) (answers : Nat → GraphDependencies) : Nat → Thread
  | 0 => thread
  | n + 1 => (thread.afterNodes answers n).step (.node (answers n))

/-- The classification the guardrail makes of a state. -/
def scopeOf (state : AgentState) : ScopeDecision :=
  classifyScope (latestUserContent state)
    ((state.grounding.any fun grounding => grounding.isConfident) || state.proposal.isSome)

/-- The run comes to rest in one state, and is in the other at no step of it. -/
structure Thread.EndsAs (thread : Thread) (answers : Nat → GraphDependencies)
    (final other : SessionState) : Prop where
  rests : ∃ n, (thread.afterNodes answers n).position = .idle ∧
    (thread.afterNodes answers n).state.sessionState = some final
  never : ∀ n, 0 < n → (thread.afterNodes answers n).state.sessionState ≠ some other

/-- A new turn on a thread. -/
def Thread.turn (thread : Thread) (context : RunContext) (input : TurnInput) : Thread :=
  thread.step (.turn context input)

/-- The thread as the guardrail finds it: four nodes into the turn. -/
def Thread.atGuardrail (thread : Thread) (context : RunContext) (input : TurnInput)
    (answers : Nat → GraphDependencies) : Thread :=
  (thread.turn context input).afterNodes answers 4

/-- A turn the guardrail escalates ends escalated and one it declines ends closed
as declined, and neither is ever in the other's state. -/
def ScopeHonoured (thread : Thread) (context : RunContext) (input : TurnInput)
    (answers : Nat → GraphDependencies) : Prop :=
  ((scopeOf (thread.atGuardrail context input answers).state).outcome = .escalate →
    (thread.turn context input).EndsAs answers .escalated .closedDeclined) ∧
  ((scopeOf (thread.atGuardrail context input answers).state).outcome = .decline →
    (thread.turn context input).EndsAs answers .closedDeclined .escalated)

/-- What the guardrail can answer or decline: confident evidence, a proposal, or
a request whose words are out of scope and not about IT. -/
def AgentState.Answerable (state : AgentState) : Prop :=
  (∃ grounding, state.grounding = some grounding ∧ grounding.isConfident = true) ∨
    state.proposal.isSome ∨
    ((∃ word ∈ scopeWords (latestUserContent state), oneOf outOfScopeVocabulary word = true) ∧
      ∀ word ∈ scopeWords (latestUserContent state), oneOf itVocabulary word = false)

/-! ## What is escalated -/

theorem inScope_escalates (grounded : Bool) :
    (inScope grounded).outcome = .escalate ↔ grounded = false := by
  cases grounded with
  | false => exact ⟨fun _ => rfl, fun _ => rfl⟩
  | true =>
      constructor
      · intro h
        cases h
      · intro h
        cases h

theorem classifyScope_escalates (text : List CodePoint) (grounded : Bool) :
    (classifyScope text grounded).outcome = .escalate ↔
      grounded = false ∧
        ((scopeWords text).any (oneOf itVocabulary) = true ∨
          (scopeWords text).any (oneOf outOfScopeVocabulary) = false) := by
  unfold classifyScope
  split
  · next hit =>
      rw [inScope_escalates]
      simp [hit]
  · next hit =>
      split
      · next hout => simp [hit, hout]
      · next hout =>
          rw [inScope_escalates]
          simp [hout]

theorem scopeOf_escalates (state : AgentState) :
    (scopeOf state).outcome = .escalate ↔ ¬ state.Answerable := by
  rw [scopeOf, classifyScope_escalates, AgentState.Answerable]
  have hgrounded : ((state.grounding.any fun grounding => grounding.isConfident) ||
      state.proposal.isSome) = false ↔
      ¬ ((∃ grounding, state.grounding = some grounding ∧ grounding.isConfident = true) ∨
        state.proposal.isSome = true) := by
    cases state.grounding <;> simp
  have hwords : ((scopeWords (latestUserContent state)).any (oneOf itVocabulary) = true ∨
      (scopeWords (latestUserContent state)).any (oneOf outOfScopeVocabulary) = false) ↔
      ¬ ((∃ word ∈ scopeWords (latestUserContent state),
          oneOf outOfScopeVocabulary word = true) ∧
        ∀ word ∈ scopeWords (latestUserContent state), oneOf itVocabulary word = false) := by
    rw [← Bool.not_eq_true, List.any_eq_true, List.any_eq_true]
    constructor
    · rintro (⟨word, hword, hit⟩ | hout) ⟨hsome, hnone⟩
      · rw [hnone word hword] at hit
        cases hit
      · exact hout hsome
    · intro h
      by_cases hout : ∃ word ∈ scopeWords (latestUserContent state),
          oneOf outOfScopeVocabulary word = true
      · by_contra hneither
        refine h ⟨hout, fun word hword => ?_⟩
        exact Bool.eq_false_iff.mpr fun hit => hneither (Or.inl ⟨word, hword, hit⟩)
      · exact Or.inr hout
  rw [hgrounded, hwords, ← not_or, or_assoc]

/-! ## The walk to the guardrail -/

section Walk

variable {thread : Thread} {context : RunContext} {deps : GraphDependencies}

/-- An update of no sealed channel is accepted. -/
theorem AgentState.apply_unsealed (state : AgentState) {update : AgentUpdate}
    (hgovernance : update.governance = none) (hexecution : update.execution = none)
    (hverification : update.verification = none) :
    ∃ after, state.apply update = .ok after ∧
      after.sessionState = update.sessionState.getD state.sessionState := by
  have hok : ∃ after, state.apply update = .ok after := by
    unfold AgentState.apply
    rw [hgovernance, hexecution, hverification]
    cases state.governance <;> cases state.execution <;> cases state.verification <;>
      exact ⟨_, rfl⟩
  obtain ⟨after, hafter⟩ := hok
  obtain ⟨_, _, _, hsession, _⟩ := AgentState.apply_eq_ok hafter
  exact ⟨after, hafter, hsession⟩

/-- A node that writes no sealed channel leaves its session state behind and
follows its edge. -/
theorem Thread.step_unsealed {node : Node} {update : AgentUpdate}
    (hposition : thread.position = .running node context)
    (hinterrupts : node.interrupts = false)
    (hrun : (node.run deps context ⟨none, none⟩ thread.state).2 = .ok update)
    (hsealed : update.governance = none ∧ update.execution = none ∧
      update.verification = none)
    {next : AgentState → Option Node}
    (hnext : ∀ state, node.successor state = .ok (next state)) :
    (thread.step (.node deps)).state.sessionState =
        update.sessionState.getD thread.state.sessionState ∧
      (thread.step (.node deps)).position =
        match next (thread.step (.node deps)).state with
        | none => .idle
        | some following => .running following context := by
  obtain ⟨hgovernance, hexecution, hverification⟩ := hsealed
  obtain ⟨after, hafter, hsession⟩ :=
    thread.state.apply_unsealed hgovernance hexecution hverification
  rw [Thread.step_performs (Thread.performs_running hposition hinterrupts)]
  have hfinish : finish node context thread.state
      (node.run deps context ⟨none, none⟩ thread.state).2 =
      .ok (after, match next after with
        | none => .idle
        | some following => .running following context) := by
    unfold finish
    rw [hrun]
    dsimp only
    rw [hafter]
    dsimp only
    rw [hnext after]
    cases next after with
    | none => rfl
    | some following => rfl
  unfold Thread.perform
  dsimp only
  rw [hfinish]
  exact ⟨hsession, rfl⟩

theorem step_intake (hposition : thread.position = .running .intake context) :
    (thread.step (.node deps)).position = .running .converse context ∧
      ((thread.step (.node deps)).state.sessionState = some .resolving ∨
        (thread.step (.node deps)).state.sessionState = some .conversational) := by
  obtain ⟨hsession, hafter⟩ := @Thread.step_unsealed _ _ deps _ _ hposition rfl rfl
    ⟨rfl, rfl, rfl⟩ (fun _ => some .converse) (fun _ => rfl)
  refine ⟨hafter, ?_⟩
  rw [hsession]
  show some (if _ then _ else _) = _ ∨ some (if _ then _ else _) = _
  split
  · exact Or.inl rfl
  · exact Or.inr rfl

theorem step_converse (hposition : thread.position = .running .converse context) :
    (thread.step (.node deps)).position = .running .retrieve context ∧
      (thread.step (.node deps)).state.sessionState = some .resolving := by
  obtain ⟨hsession, hafter⟩ := @Thread.step_unsealed _ _ deps _ _ hposition rfl rfl
    ⟨rfl, rfl, rfl⟩ (fun _ => some .retrieve) (fun _ => rfl)
  exact ⟨hafter, hsession⟩

theorem step_retrieve (hposition : thread.position = .running .retrieve context) :
    (thread.step (.node deps)).position = .running .ground context ∧
      (thread.step (.node deps)).state.sessionState = thread.state.sessionState := by
  have hwritten : (retrieve deps context thread.state).governance = none ∧
      (retrieve deps context thread.state).execution = none ∧
      (retrieve deps context thread.state).verification = none ∧
      (retrieve deps context thread.state).sessionState = none := by
    unfold retrieve
    dsimp only
    split
    · exact ⟨rfl, rfl, rfl, rfl⟩
    · exact ⟨rfl, rfl, rfl, rfl⟩
  obtain ⟨hgovernance, hexecution, hverification, hquiet⟩ := hwritten
  obtain ⟨hsession, hafter⟩ := @Thread.step_unsealed _ _ deps _ _ hposition rfl rfl
    ⟨hgovernance, hexecution, hverification⟩ (fun _ => some .ground) (fun _ => rfl)
  rw [hquiet] at hsession
  exact ⟨hafter, hsession⟩

theorem step_ground (hposition : thread.position = .running .ground context) :
    (thread.step (.node deps)).position = .running .guardrail context ∧
      (thread.step (.node deps)).state.sessionState = thread.state.sessionState := by
  obtain ⟨hsession, hafter⟩ := @Thread.step_unsealed _ _ deps _ _ hposition rfl rfl
    ⟨rfl, rfl, rfl⟩ (fun _ => some .guardrail) (fun _ => rfl)
  exact ⟨hafter, hsession⟩

/-! ## From the guardrail to rest -/

/-- Where the guardrail ends the run: its own state written, and `close` next. -/
theorem step_guardrail (hposition : thread.position = .running .guardrail context)
    {written : SessionState}
    (hscope : (scopeOf thread.state).outcome = .decline ∧ written = .closedDeclined ∨
      (scopeOf thread.state).outcome = .escalate ∧ written = .escalated) :
    (thread.step (.node deps)).position = .running .close context ∧
      (thread.step (.node deps)).state.sessionState = some written := by
  have hwritten : guardrail thread.state = { sessionState := some (some written) } := by
    unfold scopeOf at hscope
    unfold guardrail
    dsimp only
    rcases hscope with ⟨hscope, rfl⟩ | ⟨hscope, rfl⟩
    · rw [hscope]
    · rw [hscope]
  have hrun : (Node.run .guardrail deps context ⟨none, none⟩ thread.state).2 =
      .ok { sessionState := some (some written) } := congrArg Except.ok hwritten
  obtain ⟨hsession, hafter⟩ := Thread.step_unsealed hposition rfl hrun ⟨rfl, rfl, rfl⟩
    (fun state => (rfl : Node.successor .guardrail state = .ok (some (routeAfterGuardrail state))))
  refine ⟨?_, hsession⟩
  rw [hafter]
  unfold routeAfterGuardrail
  rw [hsession]
  rcases hscope with ⟨_, rfl⟩ | ⟨_, rfl⟩
  · rfl
  · rfl

theorem step_close (hposition : thread.position = .running .close context) :
    (thread.step (.node deps)).position = .idle ∧
      (thread.step (.node deps)).state.sessionState = some .closedDeclined := by
  obtain ⟨hsession, hafter⟩ := @Thread.step_unsealed _ _ deps _ _ hposition rfl rfl
    ⟨rfl, rfl, rfl⟩ (fun _ => none) (fun _ => rfl)
  exact ⟨hafter, hsession⟩

theorem step_at_rest (hposition : thread.position = .idle) :
    thread.step (.node deps) = thread := by
  rw [Thread.step]
  simp only [hposition]

end Walk

/-! ## Whole turns -/

section Turn

variable (thread : Thread) (context : RunContext) (input : TurnInput)
  (answers : Nat → GraphDependencies)

/-- Up to the guardrail a turn is neither escalated nor closed, and it stands
there after four nodes. -/
theorem turn_to_guardrail :
    (thread.atGuardrail context input answers).position = .running .guardrail context ∧
      ∀ n, 0 < n → n ≤ 4 →
        ((thread.turn context input).afterNodes answers n).state.sessionState =
            some .resolving ∨
          ((thread.turn context input).afterNodes answers n).state.sessionState =
            some .conversational := by
  obtain ⟨hconverse, hfirst⟩ := @step_intake (thread.turn context input) context (answers 0) rfl
  obtain ⟨hretrieve, hsecond⟩ := @step_converse _ _ (answers 1) hconverse
  obtain ⟨hground, hthird⟩ := @step_retrieve _ _ (answers 2) hretrieve
  obtain ⟨hguardrail, hfourth⟩ := @step_ground _ _ (answers 3) hground
  refine ⟨hguardrail, ?_⟩
  intro n hpos hle
  match n with
  | 1 => exact hfirst
  | 2 => exact Or.inl hsecond
  | 3 => exact Or.inl (hthird.trans hsecond)
  | 4 => exact Or.inl (hfourth.trans (hthird.trans hsecond))

theorem Thread.afterNodes_rests {thread : Thread} {answers : Nat → GraphDependencies}
    {n : Nat} (h : (thread.afterNodes answers n).position = .idle) (k : Nat) :
    thread.afterNodes answers (n + k) = thread.afterNodes answers n := by
  induction k with
  | zero => rfl
  | succ k ih =>
      show (thread.afterNodes answers (n + k)).step _ = _
      rw [ih, step_at_rest h]

variable {thread context input answers}

/-- A turn the guardrail ends is at rest two nodes later, closed as declined
whichever way it was ended. -/
theorem turn_ends {written : SessionState}
    (hscope : (scopeOf (thread.atGuardrail context input answers).state).outcome = .decline ∧
        written = .closedDeclined ∨
      (scopeOf (thread.atGuardrail context input answers).state).outcome = .escalate ∧
        written = .escalated) :
    ((thread.turn context input).afterNodes answers 5).state.sessionState = some written ∧
      ((thread.turn context input).afterNodes answers 6).position = .idle ∧
      ((thread.turn context input).afterNodes answers 6).state.sessionState =
        some .closedDeclined := by
  obtain ⟨hguardrail, _⟩ := turn_to_guardrail thread context input answers
  obtain ⟨hclose, hwritten⟩ := @step_guardrail _ _ (answers 4) hguardrail _ hscope
  obtain ⟨hidle, hclosed⟩ := @step_close _ _ (answers 5) hclose
  exact ⟨hwritten, hidle, hclosed⟩

theorem declined_ends
    (hscope : (scopeOf (thread.atGuardrail context input answers).state).outcome = .decline) :
    (thread.turn context input).EndsAs answers .closedDeclined .escalated := by
  obtain ⟨hwritten, hidle, hclosed⟩ := turn_ends (Or.inl ⟨hscope, rfl⟩)
  refine ⟨⟨6, hidle, hclosed⟩, ?_⟩
  intro n hpos hescalated
  by_cases hbefore : n ≤ 4
  · obtain ⟨_, hwalk⟩ := turn_to_guardrail thread context input answers
    rcases hwalk n hpos hbefore with h | h
    · rw [h] at hescalated
      cases hescalated
    · rw [h] at hescalated
      cases hescalated
  · by_cases hat : n = 5
    · rw [hat, hwritten] at hescalated
      cases hescalated
    · have hlater := Thread.afterNodes_rests hidle (n - 6)
      rw [show 6 + (n - 6) = n by omega] at hlater
      rw [hlater, hclosed] at hescalated
      cases hescalated

theorem escalated_closes
    (hscope : (scopeOf (thread.atGuardrail context input answers).state).outcome = .escalate) :
    ¬ (thread.turn context input).EndsAs answers .escalated .closedDeclined := by
  obtain ⟨_, _, hclosed⟩ := turn_ends (Or.inr ⟨hscope, rfl⟩)
  intro hends
  exact hends.never 6 (by omega) hclosed

end Turn

/-- **Where declining and escalating stay apart.** A turn ends as the guardrail
classified it exactly when the guardrail had something to answer or to decline:
every turn it escalates is closed as declined. -/
theorem scope_honoured_iff (thread : Thread) (context : RunContext) (input : TurnInput)
    (answers : Nat → GraphDependencies) :
    ScopeHonoured thread context input answers ↔
      (thread.atGuardrail context input answers).state.Answerable := by
  constructor
  · intro honoured
    by_contra hunanswerable
    have hscope := (scopeOf_escalates _).mpr hunanswerable
    exact escalated_closes hscope (honoured.1 hscope)
  · intro hanswerable
    refine ⟨?_, declined_ends⟩
    intro hscope
    exact absurd hanswerable ((scopeOf_escalates _).mp hscope)

/-! ## A turn the guardrail escalates -/

/-- Collaborators that find nothing. -/
def silentDependencies : GraphDependencies where
  clock := fun _ => 0
  lookup := fun _ _ => none
  isEntitled := fun _ _ => false
  search := fun _ _ _ => []
  verdictFor := fun _ _ => none
  consentFor := fun _ _ => none
  invoke := fun _ => none

def laptopContext : RunContext :=
  ⟨⟨⟨1⟩, ⟨1⟩, .active, .endUserIdentity⟩, ⟨1⟩, ⟨[]⟩, ⟨1⟩, none⟩

def laptopTurn : TurnInput where
  conversation := [⟨"m1", .endUser, ofString "laptop", 0⟩]

/-- No article is found for a laptop question, so it is escalated, and the turn
that escalated it ends closed as declined. -/
theorem escalated_turn_closed_declined :
    ¬ ScopeHonoured {} laptopContext laptopTurn (fun _ => silentDependencies) := by
  have hscope : (scopeOf (({} : Thread).atGuardrail laptopContext laptopTurn
      fun _ => silentDependencies).state).outcome = .escalate := by
    decide +kernel
  intro honoured
  exact escalated_closes hscope (honoured.1 hscope)

end Synthia
