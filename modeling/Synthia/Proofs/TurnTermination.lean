import Synthia.Graph.Run

/-!
# A turn ends

Every edge of the graph leads to a node with fewer nodes ahead of it, but for the three
that interrupt: what follows them is reached by a resumption only. So the nodes a thread
can still run without being given anything are bounded by the node it is at, and that bound
pays for every node it runs. A turn is given ten nodes and a resumption four, whatever the
collaborators answer, and of either at most one is `execute`.

No edge leads to `clarify`, which is why a resumption is not given the whole way from
`retrieve`.
-/

namespace Synthia

open Text

/-- The most nodes from this one on, itself among them, before the thread rests. -/
def Node.ahead : Node → Nat
  | .intake => 10
  | .converse | .clarify => 9
  | .retrieve => 8
  | .ground => 7
  | .guardrail => 6
  | .propose => 5
  | .classify => 4
  | .govern => 3
  | .execute => 2
  | .awaitConsent | .awaitApproval | .verify | .close => 1

theorem Node.ahead_targets {node next : Node} (h : next ∈ node.targets)
    (hinterrupts : node.interrupts = false) : next.ahead < node.ahead := by
  revert next
  cases node with
  | clarify | awaitConsent | awaitApproval => cases hinterrupts
  | intake | converse | retrieve | ground | guardrail | propose | classify | govern
  | execute | verify | close => decide

theorem Node.ahead_after_interrupt {node next : Node} (h : next ∈ node.targets)
    (hinterrupts : node.interrupts = true) (hnode : node ≠ .clarify) : next = .govern := by
  revert next
  cases node with
  | clarify => exact absurd rfl hnode
  | awaitConsent | awaitApproval => decide
  | intake | converse | retrieve | ground | guardrail | propose | classify | govern
  | execute | verify | close => cases hinterrupts

theorem Node.not_clarify_of_target {node next : Node} (h : next ∈ node.targets) :
    next ≠ .clarify := by
  revert next
  cases node <;> decide

namespace Position

/-- The nodes still ahead, with nothing given. -/
def ahead : Position → Nat
  | .running node _ => node.ahead
  | .idle | .suspended _ => 0

/-- Whether one of the nodes ahead may be `execute`. -/
def mayExecute : Position → Nat
  | .running node _ => if 2 ≤ node.ahead then 1 else 0
  | .idle | .suspended _ => 0

def isRunning : Position → Bool
  | .running _ _ => true
  | .idle | .suspended _ => false

/-- The thread is not at `clarify`, which no edge leads to. -/
def unclarified : Position → Prop
  | .running node _ | .suspended node => node ≠ .clarify
  | .idle => True

end Position

namespace Action

/-- The nodes an action gives the thread. -/
def given : Action → Nat
  | .turn _ _ => 10
  | .resume _ _ _ => 4
  | .node _ | .fail => 0

def isTurn : Action → Bool
  | .turn _ _ => true
  | .node _ | .resume _ _ _ | .fail => false

def isResumption : Action → Bool
  | .resume _ _ _ => true
  | .turn _ _ | .node _ | .fail => false

end Action

namespace Thread

/-- How many nodes a run has run past their interrupts. -/
def performed (thread : Thread) (actions : List Action) : Nat :=
  (thread.trace actions).countP fun step => (step.1.performs step.2).isSome

/-! ## What a step may do -/

section Step

variable (thread : Thread) (node : Node) (deps : GraphDependencies) (context : RunContext)
  (payload : ResumePayload)

/-- Past a node the thread rests, or is at a target of the node. -/
theorem perform_position :
    (thread.perform node deps context payload).position = .idle ∨
      ∃ next ∈ node.targets,
        (thread.perform node deps context payload).position = .running next context := by
  rcases thread.perform_cases node deps context payload with
    hidle | ⟨_, _, next, _, _, hnext, _, hposition⟩
  · exact Or.inl hidle
  · exact Or.inr ⟨next, Node.successor_mem_targets hnext, hposition⟩

theorem perform_ahead (hinterrupts : node.interrupts = false) :
    (thread.perform node deps context payload).position.ahead < node.ahead := by
  rcases thread.perform_position node deps context payload with hidle | ⟨next, hnext, hrunning⟩
  · rw [hidle]
    cases node <;> decide
  · rw [hrunning]
    exact Node.ahead_targets hnext hinterrupts

theorem perform_ahead_interrupt (hinterrupts : node.interrupts = true)
    (hnode : node ≠ .clarify) :
    (thread.perform node deps context payload).position.ahead ≤ 3 := by
  rcases thread.perform_position node deps context payload with hidle | ⟨next, hnext, hrunning⟩
  · rw [hidle]
    exact Nat.zero_le 3
  · rw [hrunning, Node.ahead_after_interrupt hnext hinterrupts hnode]
    exact Nat.le_refl 3

theorem unclarified_perform :
    (thread.perform node deps context payload).position.unclarified := by
  rcases thread.perform_position node deps context payload with hidle | ⟨next, hnext, hrunning⟩
  · rw [hidle]
    trivial
  · rw [hrunning]
    exact Node.not_clarify_of_target hnext

/-- A node that invokes is `execute`, and invokes once. -/
theorem run_invokes_once : (node.run deps context payload thread.state).1.length ≤ 1 := by
  cases node with
  | execute =>
      show (execute deps context thread.state).1.length ≤ 1
      rw [execute]
      split
      · exact Nat.zero_le 1
      · exact Nat.le_refl 1
  | intake | converse | clarify | retrieve | ground | guardrail | propose | classify
  | govern | awaitConsent | awaitApproval | verify | close => exact Nat.zero_le 1

theorem run_invokes_none (hnode : node ≠ .execute) :
    (node.run deps context payload thread.state).1 = [] := by
  by_contra hsome
  exact hnode (Node.run_invokes hsome)

theorem mayExecute_le_one (position : Position) : position.mayExecute ≤ 1 := by
  cases position with
  | running node context =>
      rw [Position.mayExecute]
      split <;> omega
  | idle | suspended => exact Nat.zero_le 1

/-- What may still be invoked past a node, with what the node has invoked. -/
theorem perform_mayExecute (hinterrupts : node.interrupts = false) :
    (thread.perform node deps context payload).position.mayExecute +
        (node.run deps context payload thread.state).1.length ≤
      (Position.running node context).mayExecute := by
  by_cases hnode : node = .execute
  · subst hnode
    have hone := thread.run_invokes_once .execute deps context payload
    rcases thread.perform_position .execute deps context payload with
      hidle | ⟨next, hnext, hrunning⟩
    · rw [hidle]
      simpa [Position.mayExecute, Node.ahead] using hone
    · have hverify : next = .verify := by simpa [Node.targets] using hnext
      rw [hrunning, hverify]
      simpa [Position.mayExecute, Node.ahead] using hone
  · rw [thread.run_invokes_none node deps context payload hnode]
    rcases thread.perform_position node deps context payload with
      hidle | ⟨next, hnext, hrunning⟩
    · rw [hidle]
      exact Nat.zero_le _
    · have hahead := Node.ahead_targets hnext hinterrupts
      rw [hrunning, Position.mayExecute, Position.mayExecute, List.length_nil]
      split <;> split <;> omega

/-- A node run past its interrupt invokes nothing, and may lead to `execute`. -/
theorem perform_mayExecute_interrupt (hinterrupts : node.interrupts = true) :
    (thread.perform node deps context payload).position.mayExecute +
      (node.run deps context payload thread.state).1.length ≤ 1 := by
  have hnode : node ≠ .execute := by
    intro h
    rw [h] at hinterrupts
    cases hinterrupts
  rw [thread.run_invokes_none node deps context payload hnode]
  exact mayExecute_le_one _

end Step

/-- What a thread keeps: it is at no `clarify`, and suspended only where a node interrupts. -/
structure Follows (thread : Thread) : Prop where
  unclarified : thread.position.unclarified
  suspends : thread.SuspendsAtInterrupts

variable {thread : Thread}

theorem Follows.start : ({} : Thread).Follows := ⟨trivial, fun _ h => nomatch h⟩

theorem Follows.step (h : thread.Follows) (action : Action) : (thread.step action).Follows := by
  refine ⟨?_, h.suspends.step action⟩
  cases hperforms : thread.performs action with
  | some performed =>
      obtain ⟨node, deps, context, payload⟩ := performed
      rw [Thread.step_performs hperforms]
      exact thread.unclarified_perform node deps context payload
  | none =>
      cases action with
      | turn context input => exact fun hclarify => nomatch hclarify
      | fail => trivial
      | node deps =>
          have hunclarified := h.unclarified
          rw [Thread.performs] at hperforms
          rw [Thread.step]
          cases hposition : thread.position with
          | idle | suspended =>
              rw [hposition] at hunclarified
              simpa only [hposition] using hunclarified
          | running node context =>
              rw [hposition] at hunclarified
              simp only [hposition] at hperforms ⊢
              split at hperforms
              · next hinterrupts =>
                  rw [if_pos hinterrupts]
                  exact hunclarified
              · cases hperforms
      | resume context deps payload =>
          have hunclarified := h.unclarified
          rw [Thread.performs] at hperforms
          rw [Thread.step]
          cases hposition : thread.position with
          | idle | running =>
              rw [hposition] at hunclarified
              simpa only [hposition] using hunclarified
          | suspended => simp only [hposition, reduceCtorEq] at hperforms

/-- The action runs a node under `node` or past an interrupt under `resume`, or runs none. -/
theorem Follows.performs_cases (h : thread.Follows) {action : Action} {node : Node}
    {deps : GraphDependencies} {context : RunContext} {payload : ResumePayload}
    (hperforms : thread.performs action = some (node, deps, context, payload)) :
    (thread.position = .running node context ∧ node.interrupts = false) ∨
      (thread.position = .suspended node ∧ node.interrupts = true ∧ node ≠ .clarify ∧
        action.isResumption = true) := by
  cases action with
  | turn | fail => cases hperforms
  | node own =>
      rw [Thread.performs] at hperforms
      split at hperforms
      · next running runningContext hposition =>
          split at hperforms
          · cases hperforms
          · next hinterrupts =>
              simp only [Option.some.injEq, Prod.mk.injEq] at hperforms
              obtain ⟨rfl, -, rfl, -⟩ := hperforms
              exact Or.inl ⟨hposition, Bool.eq_false_iff.mpr hinterrupts⟩
      · cases hperforms
      · cases hperforms
  | resume own ownDeps ownPayload =>
      rw [Thread.performs] at hperforms
      split at hperforms
      · next suspended hposition =>
          simp only [Option.some.injEq, Prod.mk.injEq] at hperforms
          obtain ⟨rfl, -, -, -⟩ := hperforms
          have hunclarified := h.unclarified
          rw [hposition] at hunclarified
          exact Or.inr ⟨hposition, h.suspends _ hposition, hunclarified, rfl⟩
      · cases hperforms
      · cases hperforms

/-- A step that runs no node leaves no more ahead than it was given. -/
theorem step_still_ahead {action : Action} (hperforms : thread.performs action = none) :
    (thread.step action).position.ahead ≤ thread.position.ahead + action.given ∧
      (thread.step action).position.mayExecute ≤
        thread.position.mayExecute + if action.isTurn then 1 else 0 := by
  rcases Thread.step_still hperforms with
    ⟨context, input, rfl⟩ | hsame | ⟨position, hposition, hmoved⟩
  · exact ⟨Nat.le_add_left _ _, Nat.le_add_left _ _⟩
  · rw [hsame]
    exact ⟨Nat.le_add_right _ _, Nat.le_add_right _ _⟩
  · rw [hmoved]
    rcases hposition with rfl | ⟨node, rfl⟩
    · exact ⟨Nat.zero_le _, Nat.zero_le _⟩
    · exact ⟨Nat.zero_le _, Nat.zero_le _⟩

/-- **One step.** What is ahead, and what may be invoked, pays for what the step runs and
invokes. -/
theorem Follows.step_pays (h : thread.Follows) (action : Action) :
    (thread.step action).position.ahead + (if (thread.performs action).isSome then 1 else 0) ≤
        thread.position.ahead + action.given ∧
      (thread.step action).position.mayExecute + (thread.invokes action).length ≤
        thread.position.mayExecute +
          ((if action.isTurn then 1 else 0) + if action.isResumption then 1 else 0) := by
  cases hperforms : thread.performs action with
  | none =>
      obtain ⟨hahead, hexecute⟩ := step_still_ahead hperforms
      have hinvokes : thread.invokes action = [] := by rw [Thread.invokes, hperforms]
      rw [hinvokes]
      simp only [Option.isSome_none, Bool.false_eq_true, if_false, List.length_nil]
      omega
  | some performed =>
      obtain ⟨node, deps, context, payload⟩ := performed
      have hinvokes : thread.invokes action =
          (node.run deps context payload thread.state).1 := by
        rw [Thread.invokes, hperforms]
      rw [Thread.step_performs hperforms, hinvokes]
      simp only [Option.isSome_some, if_true]
      rcases h.performs_cases hperforms with
        ⟨hposition, hinterrupts⟩ | ⟨hposition, hinterrupts, hnode, hresumption⟩
      · have hless := thread.perform_ahead node deps context payload hinterrupts
        have hexecute := thread.perform_mayExecute node deps context payload hinterrupts
        have hhere : thread.position.ahead = node.ahead := by rw [hposition, Position.ahead]
        rw [← hposition] at hexecute
        omega
      · have hgiven : action.given = 4 := by
          cases action with
          | resume => rfl
          | turn | node | fail => cases hresumption
        have hthree :=
          thread.perform_ahead_interrupt node deps context payload hinterrupts hnode
        have hexecute := thread.perform_mayExecute_interrupt node deps context payload hinterrupts
        rw [hresumption, if_pos rfl]
        omega

/-! ## Runs -/

theorem Follows.run_pays (h : thread.Follows) (actions : List Action) :
    (thread.run actions).position.ahead + thread.performed actions ≤
        thread.position.ahead + (10 * actions.countP Action.isTurn +
          4 * actions.countP Action.isResumption) ∧
      (thread.run actions).position.mayExecute + (thread.run actions).invoked.length ≤
        thread.position.mayExecute + thread.invoked.length +
          (actions.countP Action.isTurn + actions.countP Action.isResumption) := by
  induction actions generalizing thread with
  | nil => exact ⟨Nat.le_refl _, Nat.le_refl _⟩
  | cons action actions ih =>
      obtain ⟨hahead, hexecute⟩ := h.step_pays action
      obtain ⟨hrest, hinvoked⟩ := ih (h.step action)
      have hlength : (thread.step action).invoked.length =
          thread.invoked.length + (thread.invokes action).length := by
        rw [Thread.step_invoked, List.length_append]
      have hperformed : thread.performed (action :: actions) =
          (thread.step action).performed actions +
            if (thread.performs action).isSome then 1 else 0 := by
        rw [performed, Thread.trace, List.countP_cons]
        rfl
      have hgiven : action.given = 10 * (if action.isTurn then 1 else 0) +
          4 * if action.isResumption then 1 else 0 := by
        cases action <;> rfl
      rw [Thread.run_cons, hperformed, List.countP_cons, List.countP_cons]
      omega

/-- Nodes alone bring a thread to rest. -/
theorem Follows.rests (h : thread.Follows) {collaborators : List GraphDependencies}
    (hlong : thread.position.ahead ≤ collaborators.length) :
    (thread.run (collaborators.map Action.node)).position.isRunning = false := by
  induction collaborators generalizing thread with
  | nil =>
      cases hposition : thread.position with
      | idle | suspended =>
          show thread.position.isRunning = false
          rw [hposition]
          rfl
      | running node context =>
          rw [hposition, Position.ahead] at hlong
          exact absurd hlong (by cases node <;> decide)
  | cons deps collaborators ih =>
      rw [List.map_cons, Thread.run_cons]
      refine ih (h.step (.node deps)) ?_
      rw [List.length_cons] at hlong
      cases hposition : thread.position with
      | idle | suspended =>
          have hsame : thread.step (.node deps) = thread := by rw [Thread.step, hposition]
          rw [hsame, hposition]
          exact Nat.zero_le _
      | running node context =>
          rw [hposition, Position.ahead] at hlong
          cases hinterrupts : node.interrupts with
          | true =>
              have hsuspended : (thread.step (.node deps)).position = .suspended node := by
                rw [Thread.step, hposition]
                dsimp only
                rw [if_pos hinterrupts]
              rw [hsuspended]
              exact Nat.zero_le _
          | false =>
              rw [Thread.step_performs (performs_running hposition hinterrupts)]
              have hless := thread.perform_ahead node deps context ⟨none, none⟩ hinterrupts
              omega

/-- **A turn ends.** Over any run of turns, nodes, resumptions and failures, with whatever
collaborators: a thread runs at most ten nodes for each turn and four for each resumption,
invokes at most once for each of either, and wherever the run leaves it, ten more nodes
bring it to rest. -/
theorem turns_end (actions : List Action) :
    ({} : Thread).performed actions ≤
        10 * actions.countP Action.isTurn + 4 * actions.countP Action.isResumption ∧
      (({} : Thread).run actions).invoked.length ≤
        actions.countP Action.isTurn + actions.countP Action.isResumption ∧
      ∀ collaborators : List GraphDependencies, 10 ≤ collaborators.length →
        ((({} : Thread).run actions).run
          (collaborators.map Action.node)).position.isRunning = false := by
  obtain ⟨hahead, hinvoked⟩ := Follows.start.run_pays actions
  have hfollows : (({} : Thread).run actions).Follows :=
    @Thread.run_keeps Follows (fun _ action h => h.step action) {} Follows.start actions
  refine ⟨?_, ?_, fun collaborators hlong => hfollows.rests ?_⟩
  · rw [show (({} : Thread).position).ahead = 0 from rfl] at hahead
    omega
  · rw [show (({} : Thread).position).mayExecute = 0 from rfl,
      show ({} : Thread).invoked.length = 0 from rfl] at hinvoked
    omega
  · refine le_trans ?_ hlong
    cases (({} : Thread).run actions).position with
    | idle | suspended => exact Nat.zero_le 10
    | running node context =>
        show node.ahead ≤ 10
        cases node <;> decide

end Thread

end Synthia
