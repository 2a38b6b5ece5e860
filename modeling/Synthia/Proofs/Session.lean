import Synthia.Proofs.Grounding
import Synthia.Domain.SessionState

/-!
# Whether the session channel follows its state machine

No node consults `domain.session_state`. Each writes the state it stands for, and
whether that is a legal move is decided by how the graph came to the node:
`converse` writes `resolving` behind an `intake` that may have written it
already, `close` writes `closed_declined` behind a guardrail that closed the
session, a new turn enters at `intake` whatever was terminal before, and the two
interrupting nodes behind `govern` suspend without having written anything.

`session_follows_table_iff` says which runs that leaves. Along such a run the
channel is known at every position (`Thread.SessionHeld`): it is `resolving` from
`converse` to `govern`, so the guardrail may always close or escalate, and an
interrupt is always one step too early.
-/

namespace Synthia

/-- Which interrupt a node raises. -/
def Node.interruptKind : Node → Option InterruptKind
  | .clarify => some .clarification
  | .awaitConsent => some .consent
  | .awaitApproval => some .approval
  | _ => none

/-- What the node a step runs writes to the session channel. -/
def Thread.writesSession (thread : Thread) (action : Action) : Option SessionState :=
  match thread.performs action with
  | none => none
  | some (node, deps, context, payload) =>
      match (node.run deps context payload thread.state).2 with
      | .error _ => none
      | .ok update => update.sessionState.join

/-- The step's write is a legal move from the state it replaces. -/
def LegalWrite (thread : Thread) (action : Action) : Prop :=
  ∀ current written, thread.state.sessionState = some current →
    thread.writesSession action = some written → transition current written = .ok written

/-- A suspended thread's session is in the suspension state of its interrupt. -/
def Thread.SuspendedAsKind (thread : Thread) : Prop :=
  ∀ node, thread.position = .suspended node →
    ∃ kind, node.interruptKind = some kind ∧
      thread.state.sessionState = some (suspensionFor kind)

/-- What the state machine asks of a step. -/
structure FollowsTable (thread : Thread) (action : Action) : Prop where
  legal : LegalWrite thread action
  terminal : ∀ current, thread.state.sessionState = some current →
    current.isTerminal = true → (thread.step action).state.sessionState = some current
  suspended : (thread.step action).SuspendedAsKind

/-- The triage gate would open a work record for the conversation so far. -/
def AgentState.commitsWork (state : AgentState) : Bool :=
  (assessTriage (state.conversation.map fun turn =>
    ⟨turn.content, turn.sender == .endUser⟩)).commitsWork

/-- Where a node may run: `intake` where the channel is empty, or where triage
moves it; `converse` behind a turn that committed no work; `close` on a session
that is still resolving; and no interrupt at all. -/
def Node.sessionAllows (node : Node) (state : AgentState) : Prop :=
  match node with
  | .intake =>
      state.sessionState = none ∨
        (state.sessionState = some .conversational ∧ state.commitsWork = true) ∨
        (state.sessionState = some .resolving ∧ state.commitsWork = false)
  | .converse => state.sessionState = some .conversational
  | .close => state.sessionState = some .resolving
  | .clarify | .awaitConsent | .awaitApproval => False
  | .retrieve | .ground | .guardrail | .propose | .classify | .govern | .execute
  | .verify => True

def KeepsToTable (thread : Thread) (action : Action) : Prop :=
  ∀ deps node context, action = .node deps → thread.position = .running node context →
    node.sessionAllows thread.state

/-! ## What each node writes -/

/-- The nodes that never write the session channel. -/
def Node.isQuiet : Node → Bool
  | .retrieve | .ground | .propose | .classify | .govern | .execute | .verify => true
  | _ => false

theorem sessionState_of_quiet {node : Node} {deps : GraphDependencies} {context : RunContext}
    {payload : ResumePayload} {state : AgentState} {update : AgentUpdate}
    (hquiet : node.isQuiet = true)
    (h : (node.run deps context payload state).2 = .ok update) :
    update.sessionState = none := by
  cases node with
  | retrieve =>
      injection h with h
      rw [← h, retrieve]
      split <;> rfl
  | classify =>
      change classify deps context state = _ at h
      unfold classify at h
      split at h
      · injection h with h
        rw [← h]
      · dsimp only at h
        split at h
        · cases h
        · injection h with h
          rw [← h]
  | govern =>
      change govern deps context state = _ at h
      unfold govern at h
      split at h
      · cases h
      · split at h
        · cases h
        · injection h with h
          rw [← h]
  | execute =>
      change (execute deps context state).2 = _ at h
      rw [execute] at h
      split at h
      · cases h
      · dsimp only at h
        split at h
        · cases h
        · injection h with h
          rw [← h]
          rfl
  | ground | propose | verify =>
      injection h with h
      rw [← h]
      rfl
  | intake | converse | clarify | guardrail | awaitConsent | awaitApproval | close =>
      cases hquiet

theorem Thread.writesSession_running {thread : Thread} {node : Node}
    {deps : GraphDependencies} {context : RunContext}
    (hposition : thread.position = .running node context)
    (hinterrupts : node.interrupts = false) :
    thread.writesSession (.node deps) =
      match (node.run deps context ⟨none, none⟩ thread.state).2 with
      | .error _ => none
      | .ok update => update.sessionState.join := by
  rw [Thread.writesSession, Thread.performs_running hposition hinterrupts]

/-! ## What the channel holds at each position -/

/-- Between turns the channel may hold what any node wrote. Within one it is
known from the position. -/
def Position.holds (position : Position) (session : Option SessionState) : Prop :=
  match position with
  | .idle | .running .intake _ =>
      session = none ∨ session = some .conversational ∨ session = some .resolving ∨
        session = some .escalated ∨ session = some .closedDeclined
  | .running .converse _ =>
      session = some .conversational ∨ session = some .resolving
  | .running .close _ =>
      session = some .resolving ∨ session = some .escalated ∨ session = some .closedDeclined
  | .running .clarify _ | .suspended _ => False
  | .running _ _ => session = some .resolving

def Thread.SessionHeld (thread : Thread) : Prop :=
  thread.position.holds thread.state.sessionState

theorem Position.holds_idle {position : Position} {session : Option SessionState}
    (h : position.holds session) : Position.idle.holds session := by
  cases position with
  | idle => exact h
  | suspended node => exact absurd h id
  | running node context =>
      cases node with
      | intake => exact h
      | clarify => exact absurd h id
      | converse =>
          rcases h with h | h
          · exact Or.inr (Or.inl h)
          · exact Or.inr (Or.inr (Or.inl h))
      | close =>
          rcases h with h | h | h
          · exact Or.inr (Or.inr (Or.inl h))
          · exact Or.inr (Or.inr (Or.inr (Or.inl h)))
          · exact Or.inr (Or.inr (Or.inr (Or.inr h)))
      | retrieve | ground | guardrail | propose | classify | govern | awaitConsent
      | awaitApproval | execute | verify => exact Or.inr (Or.inr (Or.inl h))

/-! ## Which writes are legal -/

theorem legalWrite_of_none {thread : Thread} {action : Action}
    (h : thread.writesSession action = none) : LegalWrite thread action := by
  intro current written _ hwritten
  rw [h] at hwritten
  cases hwritten

theorem legalWrite_iff_some {thread : Thread} {action : Action}
    {current written : SessionState} (hsession : thread.state.sessionState = some current)
    (hwrites : thread.writesSession action = some written) :
    LegalWrite thread action ↔ canTransition current written = true := by
  rw [← transition_ok_iff]
  constructor
  · intro h
    exact h current written hsession hwrites
  · intro h other value hother hvalue
    rw [hsession] at hother
    rw [hwrites] at hvalue
    rw [← Option.some.inj hother, ← Option.some.inj hvalue]
    exact h

section Running

variable {thread : Thread} {deps : GraphDependencies} {context : RunContext}

theorem legalWrite_intake (hposition : thread.position = .running .intake context)
    (hheld : thread.SessionHeld) :
    LegalWrite thread (.node deps) ↔ Node.intake.sessionAllows thread.state := by
  rw [Thread.SessionHeld, hposition] at hheld
  have hwrites : thread.writesSession (.node deps) =
      some (if thread.state.commitsWork then .resolving else .conversational) :=
    Thread.writesSession_running hposition rfl
  show _ ↔ thread.state.sessionState = none ∨
      (thread.state.sessionState = some .conversational ∧ thread.state.commitsWork = true) ∨
      (thread.state.sessionState = some .resolving ∧ thread.state.commitsWork = false)
  rcases hheld with hsession | hsession | hsession | hsession | hsession
  · refine iff_of_true ?_ (Or.inl hsession)
    intro current _ hcurrent
    rw [hsession] at hcurrent
    cases hcurrent
  all_goals
    rw [legalWrite_iff_some hsession hwrites, hsession]
    cases thread.state.commitsWork <;> simp [canTransition, legalMoves]

theorem legalWrite_converse (hposition : thread.position = .running .converse context)
    (hheld : thread.SessionHeld) :
    LegalWrite thread (.node deps) ↔ Node.converse.sessionAllows thread.state := by
  rw [Thread.SessionHeld, hposition] at hheld
  have hwrites : thread.writesSession (.node deps) = some .resolving :=
    Thread.writesSession_running hposition rfl
  show _ ↔ thread.state.sessionState = some .conversational
  rcases hheld with hsession | hsession
  all_goals
    rw [legalWrite_iff_some hsession hwrites, hsession]
    simp [canTransition, legalMoves]

theorem legalWrite_close (hposition : thread.position = .running .close context)
    (hheld : thread.SessionHeld) :
    LegalWrite thread (.node deps) ↔ Node.close.sessionAllows thread.state := by
  rw [Thread.SessionHeld, hposition] at hheld
  have hwrites : thread.writesSession (.node deps) = some .closedDeclined :=
    Thread.writesSession_running hposition rfl
  show _ ↔ thread.state.sessionState = some .resolving
  rcases hheld with hsession | hsession | hsession
  all_goals
    rw [legalWrite_iff_some hsession hwrites, hsession]
    simp [canTransition, legalMoves]

/-- A resolving session may be closed and may be escalated. -/
theorem legalWrite_guardrail (hposition : thread.position = .running .guardrail context)
    (hheld : thread.SessionHeld) : LegalWrite thread (.node deps) := by
  rw [Thread.SessionHeld, hposition] at hheld
  have hwrites : thread.writesSession (.node deps) =
      (guardrail thread.state).sessionState.join :=
    Thread.writesSession_running hposition rfl
  rw [guardrail] at hwrites
  split at hwrites
  · exact (legalWrite_iff_some hheld hwrites).mpr rfl
  · exact (legalWrite_iff_some hheld hwrites).mpr rfl
  · exact legalWrite_of_none hwrites

theorem legalWrite_quiet {node : Node} (hposition : thread.position = .running node context)
    (hquiet : node.isQuiet = true) : LegalWrite thread (.node deps) := by
  have hinterrupts : node.interrupts = false := by
    cases node <;> first | rfl | cases hquiet
  apply legalWrite_of_none
  rw [Thread.writesSession_running hposition hinterrupts]
  cases hwritten : (node.run deps context ⟨none, none⟩ thread.state).2 with
  | error e => rfl
  | ok update =>
      dsimp only
      rw [sessionState_of_quiet hquiet hwritten]
      rfl

/-- Of the nodes that run, which write what the table allows. -/
theorem legalWrite_iff {node : Node} (hposition : thread.position = .running node context)
    (hinterrupts : node.interrupts = false) (hheld : thread.SessionHeld) :
    LegalWrite thread (.node deps) ↔ node.sessionAllows thread.state := by
  cases node with
  | intake => exact legalWrite_intake hposition hheld
  | converse => exact legalWrite_converse hposition hheld
  | close => exact legalWrite_close hposition hheld
  | guardrail => exact iff_of_true (legalWrite_guardrail hposition hheld) trivial
  | retrieve | ground | propose | classify | govern | execute | verify =>
      exact iff_of_true (legalWrite_quiet hposition rfl) trivial
  | clarify | awaitConsent | awaitApproval => cases hinterrupts

end Running

/-! ## One step -/

/-- No node clears the channel. -/
theorem sessionState_ne_cleared {node : Node} {deps : GraphDependencies} {context : RunContext}
    {payload : ResumePayload} {state : AgentState} {update : AgentUpdate}
    (h : (node.run deps context payload state).2 = .ok update) :
    update.sessionState ≠ some none := by
  cases node with
  | retrieve | ground | propose | classify | govern | execute | verify =>
      rw [sessionState_of_quiet rfl h]
      exact Option.some_ne_none none |>.symm
  | intake | converse | clarify | close =>
      injection h with h
      rw [← h]
      rintro ⟨⟩
  | guardrail =>
      injection h with h
      rw [← h, guardrail]
      split <;> rintro ⟨⟩
  | awaitConsent =>
      injection h with h
      rw [← h, awaitConsent]
      split <;> rintro ⟨⟩
  | awaitApproval =>
      injection h with h
      rw [← h, awaitApproval]
      split <;> rintro ⟨⟩

/-- A step that makes only legal writes never leaves a terminal state. -/
theorem LegalWrite.terminal_kept {thread : Thread} {action : Action}
    (h : LegalWrite thread action) {current : SessionState}
    (hsession : thread.state.sessionState = some current)
    (hterminal : current.isTerminal = true) :
    (thread.step action).state.sessionState = some current := by
  have hnone : thread.writesSession action = none := by
    cases hwrites : thread.writesSession action with
    | none => rfl
    | some written =>
        have hlegal := (legalWrite_iff_some hsession hwrites).mp h
        rw [isTerminal_iff.mp hterminal written] at hlegal
        cases hlegal
  rw [← hsession]
  cases hperforms : thread.performs action with
  | none => exact (Thread.step_idle hperforms).2.1
  | some performed =>
      obtain ⟨node, deps, context, payload⟩ := performed
      rw [Thread.step_performs hperforms]
      rcases thread.perform_ends node deps context payload with
        ⟨_, hstate⟩ | ⟨update, hwritten, happly, _⟩
      · rw [hstate]
      · obtain ⟨_, _, _, hafter, _⟩ := AgentState.apply_eq_ok happly
        rw [hafter]
        rw [Thread.writesSession, hperforms] at hnone
        dsimp only at hnone
        rw [hwritten] at hnone
        dsimp only at hnone
        cases hupdate : update.sessionState with
        | none => rfl
        | some value =>
            rw [hupdate] at hnone
            have hcleared : value = none := hnone
            rw [hcleared] at hupdate
            exact absurd hupdate (sessionState_ne_cleared hwritten)

theorem followsTable_of_legal {thread : Thread} {action : Action}
    (hlegal : LegalWrite thread action)
    (hrest : ∀ node, (thread.step action).position ≠ .suspended node) :
    FollowsTable thread action where
  legal := hlegal
  terminal _ hsession hterminal := hlegal.terminal_kept hsession hterminal
  suspended node hnode := absurd hnode (hrest node)

theorem Thread.perform_not_suspended (thread : Thread) (node other : Node)
    (deps : GraphDependencies) (context : RunContext) (payload : ResumePayload) :
    (thread.perform node deps context payload).position ≠ .suspended other := by
  intro hsuspended
  rcases thread.perform_ends node deps context payload with
    ⟨hidle, _⟩ | ⟨_, _, _, ⟨_, hidle⟩ | ⟨_, _, hrunning⟩⟩
  · rw [hidle] at hsuspended
    cases hsuspended
  · rw [hidle] at hsuspended
    cases hsuspended
  · rw [hrunning] at hsuspended
    cases hsuspended

/-- An interrupt behind `govern` finds the session resolving, and suspends it so. -/
theorem interrupt_breaks {thread : Thread} {deps : GraphDependencies} {node : Node}
    {context : RunContext} (hposition : thread.position = .running node context)
    (hinterrupts : node.interrupts = true) (hheld : thread.SessionHeld) :
    ¬ FollowsTable thread (.node deps) := by
  intro h
  rw [Thread.SessionHeld, hposition] at hheld
  have hstep : thread.step (.node deps) = { thread with position := .suspended node } := by
    rw [Thread.step, hposition]
    dsimp only
    rw [if_pos hinterrupts]
  have hsuspended := h.suspended
  rw [hstep] at hsuspended
  obtain ⟨kind, hkind, hsession⟩ := hsuspended node rfl
  cases node with
  | clarify => exact hheld
  | awaitConsent | awaitApproval =>
      injection hkind with hkind
      rw [← hkind] at hsession
      have hresolving : thread.state.sessionState = some .resolving := hheld
      rw [hresolving] at hsession
      cases hsession
  | intake | converse | retrieve | ground | guardrail | propose | classify | govern
  | execute | verify | close => cases hinterrupts

theorem Thread.SessionHeld.not_suspended {thread : Thread} (h : thread.SessionHeld)
    (node : Node) : thread.position ≠ .suspended node := by
  intro hposition
  rw [Thread.SessionHeld, hposition] at h
  exact h

theorem followsTable_iff (thread : Thread) (action : Action) (hheld : thread.SessionHeld) :
    FollowsTable thread action ↔ KeepsToTable thread action := by
  cases action with
  | turn context input =>
      refine iff_of_true (followsTable_of_legal (legalWrite_of_none rfl) ?_) ?_
      · rintro _ ⟨⟩
      · rintro _ _ _ ⟨⟩
  | fail =>
      refine iff_of_true (followsTable_of_legal (legalWrite_of_none rfl) ?_) ?_
      · rintro _ ⟨⟩
      · rintro _ _ _ ⟨⟩
  | resume context deps payload =>
      refine iff_of_true (followsTable_of_legal (legalWrite_of_none ?_) ?_) ?_
      · rw [Thread.writesSession, Thread.performs]
        cases hposition : thread.position with
        | idle | running => rfl
        | suspended node => exact absurd hposition (hheld.not_suspended node)
      · intro node
        rw [Thread.step]
        cases hposition : thread.position with
        | suspended other => exact absurd hposition (hheld.not_suspended other)
        | idle | running =>
            dsimp only
            rw [hposition]
            rintro ⟨⟩
      · rintro _ _ _ ⟨⟩
  | node deps =>
      cases hposition : thread.position with
      | suspended node => exact absurd hposition (hheld.not_suspended node)
      | idle =>
          refine iff_of_true (followsTable_of_legal (legalWrite_of_none ?_) ?_) ?_
          · rw [Thread.writesSession, Thread.performs, hposition]
          · intro node
            rw [Thread.step, hposition]
            dsimp only
            rw [hposition]
            rintro ⟨⟩
          · intro _ _ _ _ hrunning
            rw [hposition] at hrunning
            cases hrunning
      | running node context =>
          have hkeeps : KeepsToTable thread (.node deps) ↔ node.sessionAllows thread.state := by
            constructor
            · intro h
              exact h deps node context rfl hposition
            · intro h _ other _ _ hrunning
              rw [hposition] at hrunning
              injection hrunning with hnode _
              rw [← hnode]
              exact h
          rw [hkeeps]
          cases hinterrupts : node.interrupts with
          | true =>
              refine iff_of_false (interrupt_breaks hposition hinterrupts hheld) ?_
              cases node <;> first | exact id | cases hinterrupts
          | false =>
              rw [← @legalWrite_iff thread deps context node hposition hinterrupts hheld]
              refine ⟨fun h => h.legal, fun h => followsTable_of_legal h ?_⟩
              intro other
              rw [Thread.step_performs (Thread.performs_running hposition hinterrupts)]
              exact thread.perform_not_suspended _ _ _ _ _

/-! ## The whole run -/

/-- No edge of the graph leads to `clarify`. -/
theorem successor_ne_clarify (node : Node) (state : AgentState) :
    node.successor state ≠ .ok (some .clarify) := by
  intro h
  have hedge := Node.successor_mem_targets h
  cases node <;> exact absurd hedge (by decide)

section Kept

variable {thread : Thread} {node : Node} {deps : GraphDependencies} {context : RunContext}
  {update : AgentUpdate} {after : AgentState}

/-- What a node that may run leaves in the channel fits the position its edge
leads to, and fits a thread at rest. -/
theorem holds_after (hposition : thread.position = .running node context)
    (hinterrupts : node.interrupts = false) (hheld : thread.SessionHeld)
    (hallows : node.sessionAllows thread.state)
    (hwritten : (node.run deps context ⟨none, none⟩ thread.state).2 = .ok update)
    (happly : thread.state.apply update = .ok after) :
    Position.idle.holds after.sessionState ∧
      ∀ next, node.successor after = .ok (some next) →
        (Position.running next context).holds after.sessionState := by
  obtain ⟨_, _, _, hafter, _⟩ := AgentState.apply_eq_ok happly
  rw [Thread.SessionHeld, hposition] at hheld
  have hfits : ∀ session, after.sessionState = session →
      (∀ next, node.successor after = .ok (some next) →
        (Position.running next context).holds session) →
      Position.idle.holds session →
      Position.idle.holds after.sessionState ∧
        ∀ next, node.successor after = .ok (some next) →
          (Position.running next context).holds after.sessionState := by
    intro session hsession hnext hidle
    rw [hsession]
    exact ⟨hidle, hnext⟩
  cases node with
  | intake =>
      injection hwritten with hwritten
      rw [← hwritten] at hafter
      have hsession : after.sessionState =
          some (if thread.state.commitsWork then .resolving else .conversational) := hafter
      apply hfits _ hsession
      · intro next hnext
        injection hnext with hnext
        injection hnext with hnext
        rw [← hnext]
        cases thread.state.commitsWork with
        | true => exact Or.inr rfl
        | false => exact Or.inl rfl
      · cases thread.state.commitsWork with
        | true => exact Or.inr (Or.inr (Or.inl rfl))
        | false => exact Or.inr (Or.inl rfl)
  | converse =>
      injection hwritten with hwritten
      rw [← hwritten] at hafter
      have hsession : after.sessionState = some .resolving := hafter
      apply hfits _ hsession
      · intro next hnext
        injection hnext with hnext
        injection hnext with hnext
        rw [← hnext]
        rfl
      · exact Or.inr (Or.inr (Or.inl rfl))
  | close =>
      injection hwritten with hwritten
      rw [← hwritten] at hafter
      have hsession : after.sessionState = some .closedDeclined := hafter
      apply hfits _ hsession
      · intro next hnext
        injection hnext with hnext
        cases hnext
      · exact Or.inr (Or.inr (Or.inr (Or.inr rfl)))
  | guardrail =>
      injection hwritten with hwritten
      rw [← hwritten, guardrail] at hafter
      have hedge : ∀ next, Node.guardrail.successor after = .ok (some next) →
          next = routeAfterGuardrail after := by
        intro next hnext
        injection hnext with hnext
        injection hnext with hnext
        exact hnext.symm
      split at hafter
      · have hsession : after.sessionState = some .closedDeclined := hafter
        apply hfits _ hsession
        · intro next hnext
          rw [hedge next hnext, routeAfterGuardrail, hsession]
          exact Or.inr (Or.inr rfl)
        · exact Or.inr (Or.inr (Or.inr (Or.inr rfl)))
      · have hsession : after.sessionState = some .escalated := hafter
        apply hfits _ hsession
        · intro next hnext
          rw [hedge next hnext, routeAfterGuardrail, hsession]
          exact Or.inr (Or.inl rfl)
        · exact Or.inr (Or.inr (Or.inr (Or.inl rfl)))
      · have hsession : after.sessionState = some .resolving := hafter.trans hheld
        apply hfits _ hsession
        · intro next hnext
          rw [hedge next hnext, routeAfterGuardrail, hsession]
          rfl
        · exact Or.inr (Or.inr (Or.inl rfl))
  | clarify | awaitConsent | awaitApproval => cases hinterrupts
  | retrieve | ground | propose | classify | govern | execute | verify =>
      rw [sessionState_of_quiet rfl hwritten] at hafter
      have hsession : after.sessionState = some .resolving := hafter.trans hheld
      apply hfits _ hsession
      · intro next hnext
        cases next with
        | retrieve | ground | guardrail | propose | classify | govern | awaitConsent
        | awaitApproval | execute | verify => rfl
        | intake => exact Or.inr (Or.inr (Or.inl rfl))
        | converse => exact Or.inr rfl
        | close => exact Or.inl rfl
        | clarify => exact absurd hnext (successor_ne_clarify _ _)
      · exact Or.inr (Or.inr (Or.inl rfl))

end Kept

theorem Thread.SessionHeld.step {thread : Thread} {action : Action} (hheld : thread.SessionHeld)
    (hkeeps : KeepsToTable thread action) : (thread.step action).SessionHeld := by
  cases action with
  | turn context input => exact Position.holds_idle hheld
  | fail => exact Position.holds_idle hheld
  | resume context deps payload =>
      rw [Thread.step]
      split
      · next node hposition => exact absurd hposition (hheld.not_suspended node)
      · exact hheld
      · exact hheld
  | node deps =>
      rw [Thread.step]
      split
      · next node context hposition =>
          have hallows := hkeeps deps node context rfl hposition
          split
          · next hinterrupts =>
              cases node <;> first | exact absurd hallows id | cases hinterrupts
          · next hinterrupts =>
              rw [Bool.not_eq_true] at hinterrupts
              rw [Thread.SessionHeld]
              rcases thread.perform_ends node deps context ⟨none, none⟩ with
                ⟨hidle, hstate⟩ | ⟨update, hwritten, happly, hends⟩
              · rw [hidle, hstate]
                exact Position.holds_idle hheld
              · obtain ⟨hrest, hnext⟩ :=
                  holds_after hposition hinterrupts hheld hallows hwritten happly
                rcases hends with ⟨_, hidle⟩ | ⟨next, hedge, hrunning⟩
                · rw [hidle]
                  exact hrest
                · rw [hrunning]
                  exact hnext next hedge
      · exact hheld
      · exact hheld

theorem Thread.sessionHeld_start : ({} : Thread).SessionHeld := Or.inl rfl

/-- **The session channel follows its table exactly along these runs.** Over any
run of any number of turns: every write is a legal move, no terminal state is
left and every suspension is in its interrupt's state, if and only if `intake`
always runs where triage moves the channel, `converse` where no work was
committed, `close` where the guardrail closed nothing, and nothing interrupts. -/
theorem session_follows_table_iff (actions : List Action) :
    (∀ step ∈ ({} : Thread).trace actions, FollowsTable step.1 step.2) ↔
      ∀ step ∈ ({} : Thread).trace actions, KeepsToTable step.1 step.2 :=
  Thread.trace_iff followsTable_iff
    (fun _ _ hheld hkeeps => hheld.step hkeeps) Thread.sessionHeld_start actions

/-! ### A declined request, and another turn -/

/-- A request outside IT. -/
def payslipTurn : TurnInput where
  conversation := [⟨"m-1", .endUser, Text.ofString "Please send my last payslip again", 0⟩]

/-- The turn to its end, behind the guardrail that declines it, and the next turn
up to `intake`. -/
def declinedTurns : List Action :=
  .turn unlockContext payslipTurn :: List.replicate 6 (.node weakDependencies) ++
    [.turn unlockContext unlockTurn]

/-- The closed session is reopened by the next turn's `intake`. -/
theorem declined_session_reopened :
    ¬ (∀ step ∈ ({} : Thread).trace (declinedTurns ++ [.node weakDependencies]),
        FollowsTable step.1 step.2) ∧
      (({} : Thread).run declinedTurns).state.sessionState = some .closedDeclined ∧
      (({} : Thread).run (declinedTurns ++ [.node weakDependencies])).state.sessionState =
        some .resolving := by
  have hbefore : (({} : Thread).run declinedTurns).state.sessionState =
      some .closedDeclined := by decide +kernel
  have hafter : (({} : Thread).run
      (declinedTurns ++ [.node weakDependencies])).state.sessionState = some .resolving := by
    decide +kernel
  refine ⟨?_, hbefore, hafter⟩
  intro hfollows
  have hlast := hfollows (({} : Thread).run declinedTurns, .node weakDependencies) (by
    rw [Thread.trace_concat]
    exact List.mem_append.mpr (Or.inr (List.mem_singleton.mpr rfl)))
  have hkept := hlast.terminal .closedDeclined hbefore rfl
  rw [← Thread.run_concat, hafter] at hkept
  cases hkept

end Synthia
