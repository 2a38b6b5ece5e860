import Synthia.Graph.Nodes

/-!
# Runs of the graph

`graph.builder` and the part of the runtime it relies on. A thread is a
checkpointed state and a position: at rest, about to run a node under some run
context, or suspended at an interrupt. One step runs one node, applies its
update through the reducers and follows the node's edge.

A new turn starts at `intake` whatever the position was, which is what invoking
the compiled graph with an input does to a thread that was suspended or that had
failed. A node that raises leaves the state as it was.
-/

namespace Synthia

open Text

inductive Position where
  | idle
  | running (node : Node) (context : RunContext)
  | suspended (node : Node)
  deriving DecidableEq

/-- What a caller seeds a turn with: the turn itself, and possibly a proposal. -/
structure TurnInput where
  conversation : List ConversationTurn
  proposal : Option (Option ProposedOperationView) := none
  deriving DecidableEq

/-- One checkpoint thread, with the invocations its runs have made. -/
structure Thread where
  state : AgentState := {}
  position : Position := .idle
  invoked : List Invocation := []
  deriving DecidableEq

inductive Action where
  | turn (context : RunContext) (input : TurnInput)
  | node (deps : GraphDependencies)
  | resume (context : RunContext) (deps : GraphDependencies) (payload : ResumePayload)
  | fail

/-! ## Edges -/

/-- `_route_after_guardrail`. -/
def routeAfterGuardrail (state : AgentState) : Node :=
  match state.sessionState with
  | some .closedDeclined | some .escalated => .close
  | _ => .propose

/-- `_route_after_propose`; `none` is `END`. -/
def routeAfterPropose (state : AgentState) : Option Node :=
  if state.proposal.isSome then some .govern else none

def routeAfterGovern (state : AgentState) : Except NodeError (Option Node) :=
  match state.governance with
  | none => .error (.valueError "route_after_govern reached with an empty governance channel")
  | some governance =>
      .ok (match governance.disposition with
        | .proceed => some .execute
        | .suspendForConsent => some .awaitConsent
        | .suspendForApproval => some .awaitApproval
        | .refuse => some .close)

/-- Where the graph goes after a node, from the state the node left. -/
def Node.successor (node : Node) (state : AgentState) : Except NodeError (Option Node) :=
  match node with
  | .intake => .ok (some .converse)
  | .converse => .ok (some .retrieve)
  | .clarify => .ok (some .retrieve)
  | .retrieve => .ok (some .ground)
  | .ground => .ok (some .guardrail)
  | .guardrail => .ok (some (routeAfterGuardrail state))
  | .propose => .ok (some .classify)
  | .classify => .ok (routeAfterPropose state)
  | .govern => routeAfterGovern state
  | .awaitConsent => .ok (some .govern)
  | .awaitApproval => .ok (some .govern)
  | .execute => .ok (some .verify)
  | .verify => .ok none
  | .close => .ok none

/-- The nodes that interrupt before doing anything else. -/
def Node.interrupts : Node → Bool
  | .clarify | .awaitConsent | .awaitApproval => true
  | _ => false

/-- A node's own work: what it invoked, and what it wrote or raised. The three
interrupting nodes are given past their interrupt. -/
def Node.run (node : Node) (deps : GraphDependencies) (context : RunContext)
    (payload : ResumePayload) (state : AgentState) :
    List Invocation × Except NodeError AgentUpdate :=
  match node with
  | .intake => ([], .ok (Synthia.intake state))
  | .converse => ([], .ok Synthia.converse)
  | .clarify => ([], .ok (Synthia.clarify deps payload))
  | .retrieve => ([], .ok (Synthia.retrieve deps context state))
  | .ground => ([], .ok (Synthia.ground state))
  | .guardrail => ([], .ok (Synthia.guardrail state))
  | .propose => ([], .ok Synthia.propose)
  | .classify => ([], Synthia.classify deps context state)
  | .govern => ([], Synthia.govern deps context state)
  | .awaitConsent => ([], .ok (Synthia.awaitConsent deps context))
  | .awaitApproval => ([], .ok (Synthia.awaitApproval deps context))
  | .execute => Synthia.execute deps context state
  | .verify => ([], .ok Synthia.verify)
  | .close => ([], .ok Synthia.close)

/-! ## Steps -/

/-- The checkpoint a node leaves: its update applied and its edge followed. -/
def finish (node : Node) (context : RunContext) (state : AgentState)
    (written : Except NodeError AgentUpdate) :
    Except NodeError (AgentState × Position) :=
  match written with
  | .error error => .error error
  | .ok update =>
      match state.apply update with
      | .error error => .error (.reducer error)
      | .ok after =>
          match node.successor after with
          | .error error => .error error
          | .ok none => .ok (after, .idle)
          | .ok (some next) => .ok (after, .running next context)

/-- Run a node to its end. Whatever it invoked stays invoked. -/
def Thread.perform (thread : Thread) (node : Node) (deps : GraphDependencies)
    (context : RunContext) (payload : ResumePayload) : Thread :=
  let result := node.run deps context payload thread.state
  let invoked := thread.invoked ++ result.1
  match finish node context thread.state result.2 with
  | .error _ => { thread with position := .idle, invoked }
  | .ok (state, position) => ⟨state, position, invoked⟩

/-- The input channels of a new turn, applied to the checkpoint. -/
def TurnInput.applyTo (input : TurnInput) (state : AgentState) : AgentState :=
  { state with
    conversation := append state.conversation input.conversation
    proposal := input.proposal.getD state.proposal }

def Thread.step (thread : Thread) : Action → Thread
  | .turn context input =>
      { thread with
        state := input.applyTo thread.state
        position := .running .intake context }
  | .node deps =>
      match thread.position with
      | .running node context =>
          if node.interrupts then
            { thread with position := .suspended node }
          else
            thread.perform node deps context ⟨none, none⟩
      | .idle | .suspended _ => thread
  | .resume context deps payload =>
      match thread.position with
      | .suspended node => thread.perform node deps context payload
      | .idle | .running _ _ => thread
  | .fail => { thread with position := .idle }

/-- A thread after a run of steps, over any number of turns. -/
def Thread.run (thread : Thread) (actions : List Action) : Thread :=
  actions.foldl Thread.step thread

/-- Each step of a run with the thread it started from. -/
def Thread.trace (thread : Thread) : List Action → List (Thread × Action)
  | [] => []
  | action :: actions => (thread, action) :: (thread.step action).trace actions

@[simp] theorem Thread.run_nil (thread : Thread) : thread.run [] = thread := rfl

/-! ## What a step can do -/

theorem finish_eq_ok {node : Node} {context : RunContext} {state after : AgentState}
    {written : Except NodeError AgentUpdate} {position : Position}
    (h : finish node context state written = .ok (after, position)) :
    ∃ update, written = .ok update ∧ state.apply update = .ok after ∧
      ((node.successor after = .ok none ∧ position = .idle) ∨
        ∃ next, node.successor after = .ok (some next) ∧ position = .running next context) := by
  unfold finish at h
  cases written with
  | error e => cases h
  | ok update =>
      dsimp only at h
      cases happly : state.apply update with
      | error e =>
          rw [happly] at h
          cases h
      | ok applied =>
          rw [happly] at h
          dsimp only at h
          cases hnext : node.successor applied with
          | error e =>
              rw [hnext] at h
              cases h
          | ok next =>
              rw [hnext] at h
              refine ⟨update, rfl, ?_⟩
              cases next with
              | none =>
                  injection h with h
                  injection h with hafter hposition
                  subst hafter
                  exact ⟨happly, Or.inl ⟨hnext, hposition.symm⟩⟩
              | some next =>
                  injection h with h
                  injection h with hafter hposition
                  subst hafter
                  exact ⟨happly, Or.inr ⟨next, hnext, hposition.symm⟩⟩

/-- Running a node ends at rest with the state unchanged, or with the node's
update applied and its edge followed. -/
theorem Thread.perform_cases (thread : Thread) (node : Node) (deps : GraphDependencies)
    (context : RunContext) (payload : ResumePayload) :
    ((thread.perform node deps context payload).position = .idle) ∨
      ∃ update after next,
        (node.run deps context payload thread.state).2 = .ok update ∧
        thread.state.apply update = .ok after ∧
        node.successor after = .ok (some next) ∧
        (thread.perform node deps context payload).state = after ∧
        (thread.perform node deps context payload).position = .running next context := by
  unfold Thread.perform
  cases hfinish : finish node context thread.state
      (node.run deps context payload thread.state).2 with
  | error e => exact Or.inl (by simp [hfinish])
  | ok result =>
      obtain ⟨after, position⟩ := result
      obtain ⟨update, hwritten, happly, ⟨_, hidle⟩ | ⟨next, hnext, hrunning⟩⟩ :=
        finish_eq_ok hfinish
      · exact Or.inl (by simp [hfinish, hidle])
      · exact Or.inr ⟨update, after, next, hwritten, happly, hnext, by simp [hfinish],
          by simp [hfinish, hrunning]⟩

@[simp] theorem Thread.perform_invoked (thread : Thread) (node : Node)
    (deps : GraphDependencies) (context : RunContext) (payload : ResumePayload) :
    (thread.perform node deps context payload).invoked =
      thread.invoked ++ (node.run deps context payload thread.state).1 := by
  unfold Thread.perform
  dsimp only
  split <;> rfl

/-- The edges of the graph, whatever decides between them. -/
def Node.targets : Node → List Node
  | .intake => [.converse]
  | .converse | .clarify => [.retrieve]
  | .retrieve => [.ground]
  | .ground => [.guardrail]
  | .guardrail => [.propose, .close]
  | .propose => [.classify]
  | .classify | .awaitConsent | .awaitApproval => [.govern]
  | .govern => [.execute, .awaitConsent, .awaitApproval, .close]
  | .execute => [.verify]
  | .verify | .close => []

theorem Node.successor_mem_targets {node next : Node} {state : AgentState}
    (h : node.successor state = .ok (some next)) : next ∈ node.targets := by
  cases node with
  | guardrail =>
      change Except.ok (some (routeAfterGuardrail state)) = _ at h
      unfold routeAfterGuardrail at h
      split at h <;> cases h <;> decide
  | classify =>
      change Except.ok (routeAfterPropose state) = _ at h
      unfold routeAfterPropose at h
      split at h <;> cases h
      decide
  | govern =>
      change routeAfterGovern state = _ at h
      unfold routeAfterGovern at h
      split at h
      · cases h
      · injection h with h
        split at h <;> cases h <;> decide
  | intake | converse | clarify | retrieve | ground | propose | awaitConsent
  | awaitApproval | execute =>
      cases h
      exact List.mem_cons_self
  | verify | close => cases h

/-- The only edge into `execute` leaves `govern`, on a `PROCEED`. -/
theorem Node.successor_execute {node : Node} {state : AgentState}
    (h : node.successor state = .ok (some .execute)) :
    node = .govern ∧ ∃ governance, state.governance = some governance ∧
      governance.disposition = .proceed := by
  have hedge := Node.successor_mem_targets h
  cases node with
  | govern =>
      refine ⟨rfl, ?_⟩
      change routeAfterGovern state = _ at h
      unfold routeAfterGovern at h
      cases hgovernance : state.governance with
      | none =>
          rw [hgovernance] at h
          cases h
      | some governance =>
          rw [hgovernance] at h
          refine ⟨governance, rfl, ?_⟩
          cases hdisposition : governance.disposition with
          | proceed => rfl
          | suspendForConsent | suspendForApproval | refuse => simp [hdisposition] at h
  | intake | converse | clarify | retrieve | ground | guardrail | propose | classify
  | awaitConsent | awaitApproval | execute | verify | close => exact absurd hedge (by decide)

/-- Only `execute` invokes anything. -/
theorem Node.run_invokes {node : Node} {deps : GraphDependencies} {context : RunContext}
    {payload : ResumePayload} {state : AgentState}
    (h : (node.run deps context payload state).1 ≠ []) : node = .execute := by
  cases node with
  | execute => rfl
  | intake | converse | clarify | retrieve | ground | guardrail | propose | classify
  | govern | awaitConsent | awaitApproval | verify | close => exact absurd rfl h

/-- No node writes the proposal, only `clarify` the conversation, and only `retrieve` the
evidence. -/
theorem Node.run_writes {node : Node} {deps : GraphDependencies} {context : RunContext}
    {payload : ResumePayload} {state : AgentState} {update : AgentUpdate}
    (h : (node.run deps context payload state).2 = .ok update) :
    update.proposal = none ∧ (node ≠ .clarify → update.conversation = []) ∧
      (node ≠ .retrieve → update.retrieved = []) := by
  cases node with
  | clarify =>
      injection h with h
      rw [← h]
      exact ⟨rfl, fun hnode => absurd rfl hnode, fun _ => rfl⟩
  | retrieve =>
      injection h with h
      rw [← h, Synthia.retrieve]
      split <;> exact ⟨rfl, fun _ => rfl, fun hnode => absurd rfl hnode⟩
  | guardrail =>
      injection h with h
      rw [← h, Synthia.guardrail]
      split <;> exact ⟨rfl, fun _ => rfl, fun _ => rfl⟩
  | classify =>
      change Synthia.classify deps context state = _ at h
      unfold Synthia.classify at h
      split at h
      · injection h with h
        rw [← h]
        exact ⟨rfl, fun _ => rfl, fun _ => rfl⟩
      · dsimp only at h
        split at h
        · cases h
        · injection h with h
          rw [← h]
          exact ⟨rfl, fun _ => rfl, fun _ => rfl⟩
  | govern =>
      change Synthia.govern deps context state = _ at h
      unfold Synthia.govern at h
      split at h
      · cases h
      · split at h
        · cases h
        · injection h with h
          rw [← h]
          exact ⟨rfl, fun _ => rfl, fun _ => rfl⟩
  | execute =>
      change (Synthia.execute deps context state).2 = _ at h
      rw [Synthia.execute] at h
      split at h
      · cases h
      · dsimp only at h
        split at h
        · cases h
        · injection h with h
          rw [← h]
          exact ⟨rfl, fun _ => rfl, fun _ => rfl⟩
  | awaitConsent =>
      injection h with h
      rw [← h, Synthia.awaitConsent]
      split <;> exact ⟨rfl, fun _ => rfl, fun _ => rfl⟩
  | awaitApproval =>
      injection h with h
      rw [← h, Synthia.awaitApproval]
      split <;> exact ⟨rfl, fun _ => rfl, fun _ => rfl⟩
  | intake | converse | ground | propose | verify | close =>
      injection h with h
      rw [← h]
      exact ⟨rfl, fun _ => rfl, fun _ => rfl⟩

/-! ## The node a step runs -/

/-- The node a step runs past its interrupt, with what it is run with. -/
def Thread.performs (thread : Thread) :
    Action → Option (Node × GraphDependencies × RunContext × ResumePayload)
  | .node deps =>
      match thread.position with
      | .running node context =>
          if node.interrupts then none else some (node, deps, context, ⟨none, none⟩)
      | .idle | .suspended _ => none
  | .resume context deps payload =>
      match thread.position with
      | .suspended node => some (node, deps, context, payload)
      | .idle | .running _ _ => none
  | .turn _ _ | .fail => none

theorem Thread.performs_running {thread : Thread} {node : Node} {deps : GraphDependencies}
    {context : RunContext} (hposition : thread.position = .running node context)
    (hinterrupts : node.interrupts = false) :
    thread.performs (.node deps) = some (node, deps, context, ⟨none, none⟩) := by
  simp [Thread.performs, hposition, hinterrupts]

theorem Thread.step_performs {thread : Thread} {action : Action} {node : Node}
    {deps : GraphDependencies} {context : RunContext} {payload : ResumePayload}
    (h : thread.performs action = some (node, deps, context, payload)) :
    thread.step action = thread.perform node deps context payload := by
  cases action with
  | turn | fail => cases h
  | node =>
      rw [Thread.performs] at h
      rw [Thread.step]
      cases hposition : thread.position with
      | idle | suspended => simp only [hposition, reduceCtorEq] at h
      | running running =>
          simp only [hposition] at h ⊢
          cases hinterrupts : running.interrupts with
          | true => simp only [hinterrupts, if_true, reduceCtorEq] at h
          | false =>
              simp only [hinterrupts, Bool.false_eq_true, if_false, Option.some.injEq,
                Prod.mk.injEq] at h ⊢
              obtain ⟨rfl, rfl, rfl, rfl⟩ := h
              rfl
  | resume =>
      rw [Thread.performs] at h
      rw [Thread.step]
      cases hposition : thread.position with
      | idle | running => simp only [hposition, reduceCtorEq] at h
      | suspended =>
          simp only [hposition, Option.some.injEq, Prod.mk.injEq] at h ⊢
          obtain ⟨rfl, rfl, rfl, rfl⟩ := h
          rfl

/-- A step that runs no node takes a turn's input, or moves the thread and nothing else. -/
theorem Thread.step_still {thread : Thread} {action : Action}
    (h : thread.performs action = none) :
    (∃ context input, action = .turn context input) ∨ thread.step action = thread ∨
      ∃ position, (position = .idle ∨ ∃ node, position = .suspended node) ∧
        thread.step action = { thread with position } := by
  cases action with
  | turn context input => exact Or.inl ⟨context, input, rfl⟩
  | fail => exact Or.inr (Or.inr ⟨.idle, Or.inl rfl, rfl⟩)
  | node =>
      rw [Thread.performs] at h
      rw [Thread.step]
      cases hposition : thread.position with
      | idle | suspended => exact Or.inr (Or.inl rfl)
      | running running =>
          simp only [hposition] at h ⊢
          cases hinterrupts : running.interrupts with
          | true => exact Or.inr (Or.inr ⟨.suspended running, Or.inr ⟨running, rfl⟩, rfl⟩)
          | false => simp only [hinterrupts, Bool.false_eq_true, if_false, reduceCtorEq] at h
  | resume =>
      rw [Thread.performs] at h
      rw [Thread.step]
      cases hposition : thread.position with
      | idle | running => exact Or.inr (Or.inl rfl)
      | suspended => simp only [hposition, reduceCtorEq] at h

/-- It writes no channel but the input's own. -/
theorem Thread.step_idle {thread : Thread} {action : Action}
    (h : thread.performs action = none) :
    (thread.step action).invoked = thread.invoked ∧
      (thread.step action).state.sessionState = thread.state.sessionState ∧
      (thread.step action).state.execution = thread.state.execution ∧
      (thread.step action).state.verification = thread.state.verification ∧
      (thread.step action).state.decision = thread.state.decision := by
  rcases Thread.step_still h with ⟨_, _, rfl⟩ | hsame | ⟨_, _, hmoved⟩
  · exact ⟨rfl, rfl, rfl, rfl, rfl⟩
  · rw [hsame]
    exact ⟨rfl, rfl, rfl, rfl, rfl⟩
  · rw [hmoved]
    exact ⟨rfl, rfl, rfl, rfl, rfl⟩

/-- How running a node ends: at rest with the state as it was, or with the update
applied and the thread where the node's edge leads. -/
theorem Thread.perform_ends (thread : Thread) (node : Node) (deps : GraphDependencies)
    (context : RunContext) (payload : ResumePayload) :
    ((thread.perform node deps context payload).position = .idle ∧
        (thread.perform node deps context payload).state = thread.state) ∨
      ∃ update, (node.run deps context payload thread.state).2 = .ok update ∧
        thread.state.apply update =
          .ok (thread.perform node deps context payload).state ∧
        ((node.successor (thread.perform node deps context payload).state = .ok none ∧
            (thread.perform node deps context payload).position = .idle) ∨
          ∃ next,
            node.successor (thread.perform node deps context payload).state =
              .ok (some next) ∧
            (thread.perform node deps context payload).position = .running next context) := by
  unfold Thread.perform
  cases hfinish : finish node context thread.state
      (node.run deps context payload thread.state).2 with
  | error e => exact Or.inl (by simp [hfinish])
  | ok result =>
      obtain ⟨update, hwritten, happly, hends⟩ := finish_eq_ok hfinish
      refine Or.inr ⟨update, hwritten, ?_⟩
      simp only [hfinish]
      exact ⟨happly, hends⟩

/-- The invocations a step makes. -/
def Thread.invokes (thread : Thread) (action : Action) : List Invocation :=
  match thread.performs action with
  | none => []
  | some (node, deps, context, payload) => (node.run deps context payload thread.state).1

theorem Thread.step_invoked (thread : Thread) (action : Action) :
    (thread.step action).invoked = thread.invoked ++ thread.invokes action := by
  rw [Thread.invokes]
  cases hperforms : thread.performs action with
  | none =>
      rw [(Thread.step_idle hperforms).1]
      exact (List.append_nil _).symm
  | some performed =>
      obtain ⟨node, deps, context, payload⟩ := performed
      rw [Thread.step_performs hperforms, Thread.perform_invoked]

/-- Only an interrupting node is ever suspended at. -/
def Thread.SuspendsAtInterrupts (thread : Thread) : Prop :=
  ∀ node, thread.position = .suspended node → node.interrupts = true

theorem Thread.suspendsAtInterrupts_perform (thread : Thread) (node : Node)
    (deps : GraphDependencies) (context : RunContext) (payload : ResumePayload) :
    (thread.perform node deps context payload).SuspendsAtInterrupts := by
  intro other hother
  rcases thread.perform_cases node deps context payload with
    hidle | ⟨_, _, next, _, _, _, _, hposition⟩
  · rw [hidle] at hother
    cases hother
  · rw [hposition] at hother
    cases hother

theorem Thread.SuspendsAtInterrupts.step {thread : Thread}
    (h : thread.SuspendsAtInterrupts) (action : Action) :
    (thread.step action).SuspendsAtInterrupts := by
  cases action with
  | turn context input => exact fun _ hnode => nomatch hnode
  | fail => exact fun _ hnode => nomatch hnode
  | node deps =>
      rw [Thread.step]
      split
      · next node context _ =>
          split
          · next hinterrupts =>
              intro other hother
              injection hother with hother
              rw [← hother]
              exact hinterrupts
          · exact thread.suspendsAtInterrupts_perform _ _ _ _
      · exact h
      · exact h
  | resume context deps payload =>
      rw [Thread.step]
      split
      · exact thread.suspendsAtInterrupts_perform _ _ _ _
      · exact h
      · exact h

/-- A step that invokes is `execute`'s own, and invokes once. -/
theorem Thread.invokes_execute {thread : Thread} {action : Action} {invocation : Invocation}
    (hsuspends : thread.SuspendsAtInterrupts) (h : invocation ∈ thread.invokes action) :
    ∃ deps context, action = .node deps ∧ thread.position = .running .execute context ∧
      thread.performs action = some (.execute, deps, context, ⟨none, none⟩) ∧
      executeInvocation context thread.state = .ok invocation ∧
      thread.invokes action = [invocation] := by
  have hmade := h
  rw [Thread.invokes] at h
  cases hperforms : thread.performs action with
  | none =>
      rw [hperforms] at h
      exact absurd h List.not_mem_nil
  | some performed =>
      obtain ⟨node, deps, context, payload⟩ := performed
      rw [hperforms] at h
      have hnode : node = .execute :=
        Node.run_invokes (List.ne_nil_of_mem h)
      subst hnode
      have hinvocation : executeInvocation context thread.state = .ok invocation ∧
          thread.invokes action = [invocation] := by
        rw [Thread.invokes, hperforms]
        change invocation ∈ (execute deps context thread.state).1 at h
        show _ ∧ (execute deps context thread.state).1 = [invocation]
        rw [execute] at h ⊢
        cases hready : executeInvocation context thread.state with
        | error e => simp [hready] at h
        | ok ready =>
            simp only [hready, List.mem_singleton] at h ⊢
            rw [h]
            exact ⟨rfl, rfl⟩
      cases action with
      | turn | fail => cases hperforms
      | node =>
          rw [Thread.performs] at hperforms
          split at hperforms
          · next hposition =>
              split at hperforms
              · cases hperforms
              · simp only [Option.some.injEq, Prod.mk.injEq] at hperforms
                obtain ⟨rfl, rfl, rfl, rfl⟩ := hperforms
                exact ⟨_, _, rfl, hposition, rfl, hinvocation⟩
          · cases hperforms
          · cases hperforms
      | resume =>
          rw [Thread.performs] at hperforms
          split at hperforms
          · next hposition =>
              simp only [Option.some.injEq, Prod.mk.injEq] at hperforms
              obtain ⟨rfl, rfl, rfl, rfl⟩ := hperforms
              exact nomatch hsuspends _ hposition
          · cases hperforms
          · cases hperforms

/-! ## Runs, one step longer -/

theorem Thread.run_cons (thread : Thread) (action : Action) (actions : List Action) :
    thread.run (action :: actions) = (thread.step action).run actions := rfl

theorem Thread.run_concat (thread : Thread) (actions : List Action) (action : Action) :
    thread.run (actions ++ [action]) = (thread.run actions).step action := by
  unfold Thread.run
  rw [List.foldl_append]
  rfl

theorem Thread.trace_concat (thread : Thread) (actions : List Action) (action : Action) :
    thread.trace (actions ++ [action]) =
      thread.trace actions ++ [(thread.run actions, action)] := by
  induction actions generalizing thread with
  | nil => rfl
  | cons first rest ih =>
      show (thread, first) :: (thread.step first).trace (rest ++ [action]) = _
      rw [ih]
      rfl

/-- Every step of a run starts from the thread some prefix of it reached. -/
theorem Thread.mem_trace {thread : Thread} {actions : List Action} {step : Thread × Action}
    (h : step ∈ thread.trace actions) :
    ∃ before, step.1 = thread.run before ∧
      ∀ earlier ∈ thread.trace before, earlier ∈ thread.trace actions := by
  induction actions generalizing thread with
  | nil => exact absurd h List.not_mem_nil
  | cons action actions ih =>
      rcases List.mem_cons.mp h with hhead | htail
      · refine ⟨[], ?_, fun earlier hearlier => absurd hearlier List.not_mem_nil⟩
        rw [hhead]
        rfl
      · obtain ⟨before, hrun, hkept⟩ := ih htail
        refine ⟨action :: before, hrun, ?_⟩
        intro earlier hearlier
        rcases List.mem_cons.mp hearlier with hfirst | hlater
        · exact hfirst ▸ List.mem_cons_self
        · exact List.mem_cons_of_mem _ (hkept earlier hlater)

/-- A step of a run splits it. -/
theorem Thread.trace_split {thread : Thread} {actions : List Action} {step : Thread × Action}
    (h : step ∈ thread.trace actions) :
    ∃ before after, actions = before ++ step.2 :: after ∧ step.1 = thread.run before := by
  induction actions generalizing thread with
  | nil => exact absurd h List.not_mem_nil
  | cons action actions ih =>
      rcases List.mem_cons.mp h with hhead | htail
      · refine ⟨[], actions, ?_, ?_⟩
        · rw [hhead]
          rfl
        · rw [hhead]
          rfl
      · obtain ⟨before, after, hsplit, hrun⟩ := ih htail
        exact ⟨action :: before, after, by rw [hsplit]; rfl, hrun⟩

theorem Thread.run_append (thread : Thread) (before after : List Action) :
    thread.run (before ++ after) = (thread.run before).run after :=
  List.foldl_append

/-- Two properties of a step that agree wherever `Held` holds, which the second
of them keeps, hold of the same runs. -/
theorem Thread.trace_iff {Held : Thread → Prop} {P Q : Thread → Action → Prop}
    (hiff : ∀ thread action, Held thread → (P thread action ↔ Q thread action))
    (hkept : ∀ thread action, Held thread → Q thread action → Held (thread.step action))
    {thread : Thread} (h : Held thread) (actions : List Action) :
    (∀ step ∈ thread.trace actions, P step.1 step.2) ↔
      ∀ step ∈ thread.trace actions, Q step.1 step.2 := by
  induction actions generalizing thread with
  | nil => simp [Thread.trace]
  | cons action actions ih =>
      rw [Thread.trace, List.forall_mem_cons, List.forall_mem_cons]
      dsimp only
      rw [hiff thread action h]
      constructor
      · rintro ⟨hnow, hlater⟩
        exact ⟨hnow, (ih (hkept thread action h hnow)).mp hlater⟩
      · rintro ⟨hnow, hlater⟩
        exact ⟨hnow, (ih (hkept thread action h hnow)).mpr hlater⟩

/-- What every step keeps, every run keeps. -/
theorem Thread.run_keeps {Kept : Thread → Prop}
    (hstep : ∀ thread action, Kept thread → Kept (thread.step action))
    {thread : Thread} (h : Kept thread) (actions : List Action) : Kept (thread.run actions) := by
  induction actions generalizing thread with
  | nil => exact h
  | cons action actions ih => exact ih (hstep thread action h)

end Synthia
