import Synthia.Proofs.Grounding

/-!
# Whether every invocation leaves its record

`execute` invokes first and its record meets the reducers afterwards. The
execution channel outlives the turn that sealed it, so an `execute` of a later
turn has already acted by the time `seal_execution` refuses what it wrote; and a
tool that raises leaves nothing to seal at all.

`effects_recorded_iff` says that nothing else goes wrong. A run leaves a record
of every invocation, and makes at most one, exactly when each invocation it
makes finds the channel empty and is answered. One half rests on what the
channel says about the past: it is empty for as long as nothing has been
invoked.
-/

namespace Synthia

/-- Whatever the step invokes is, after the step, what the execution channel
records. -/
def RecordsInvocations (thread : Thread) (action : Action) : Prop :=
  ∀ node deps context payload,
    thread.performs action = some (node, deps, context, payload) →
    ∀ invocation ∈ (node.run deps context payload thread.state).1,
      ∃ result, deps.invoke invocation = some result ∧
        (thread.step action).state.execution =
          (executionUpdate deps invocation result).execution

/-- An invocation the step is about to make finds the execution channel empty,
and is answered. -/
def FirstAndAnswered (thread : Thread) (action : Action) : Prop :=
  ∀ deps context invocation, action = .node deps →
    thread.position = .running .execute context →
    executeInvocation context thread.state = .ok invocation →
    thread.state.execution = none ∧ (deps.invoke invocation).isSome = true

/-! ## What the channel says about the past -/

/-- The two sealed channels are empty together, and stay empty until something
has been invoked. -/
structure Thread.Sealed (thread : Thread) : Prop where
  together : thread.state.execution = none → thread.state.verification = none
  invoked : thread.invoked = [] → thread.state.execution = none
  suspends : thread.SuspendsAtInterrupts

/-- What a sealed channel holds after a write is what it held or what was
written. -/
theorem sealChannel_ok {α : Type} [DecidableEq α] {channel : String}
    {existing update result : Option α}
    (h : sealChannel channel existing update = .ok result) :
    (update = none ∧ result = existing) ∨ (update.isSome = true ∧ result = update) := by
  cases update with
  | none =>
      injection h with h
      exact Or.inl ⟨rfl, h.symm⟩
  | some written =>
      refine Or.inr ⟨rfl, ?_⟩
      cases existing with
      | none =>
          injection h with h
          exact h.symm
      | some held =>
          unfold sealChannel at h
          dsimp only at h
          split at h
          · injection h with h
            exact h.symm
          · cases h

/-- Only `execute` writes the sealed channels, and it writes both. -/
theorem run_seals {node : Node} {deps : GraphDependencies} {context : RunContext}
    {payload : ResumePayload} {state : AgentState} {update : AgentUpdate}
    (h : (node.run deps context payload state).2 = .ok update) :
    (update.execution = none ∧ update.verification = none) ∨
      (∃ invocation result, node = .execute ∧
        executeInvocation context state = .ok invocation ∧
        deps.invoke invocation = some result ∧
        update = executionUpdate deps invocation result) := by
  cases node with
  | execute =>
      right
      change (execute deps context state).2 = _ at h
      rw [execute] at h
      cases hready : executeInvocation context state with
      | error e =>
          rw [hready] at h
          cases h
      | ok invocation =>
          rw [hready] at h
          dsimp only at h
          cases hresult : deps.invoke invocation with
          | none =>
              rw [hresult] at h
              cases h
          | some result =>
              rw [hresult] at h
              injection h with h
              exact ⟨invocation, result, rfl, rfl, hresult, h.symm⟩
  | classify =>
      left
      change classify deps context state = _ at h
      unfold classify at h
      split at h
      · injection h with h
        rw [← h]
        exact ⟨rfl, rfl⟩
      · dsimp only at h
        split at h
        · cases h
        · injection h with h
          rw [← h]
          exact ⟨rfl, rfl⟩
  | govern =>
      left
      change govern deps context state = _ at h
      unfold govern at h
      split at h
      · cases h
      · split at h
        · cases h
        · injection h with h
          rw [← h]
          exact ⟨rfl, rfl⟩
  | retrieve =>
      left
      injection h with h
      rw [← h, retrieve]
      split <;> exact ⟨rfl, rfl⟩
  | guardrail =>
      left
      injection h with h
      rw [← h, guardrail]
      split <;> exact ⟨rfl, rfl⟩
  | awaitConsent =>
      left
      injection h with h
      rw [← h, awaitConsent]
      split <;> exact ⟨rfl, rfl⟩
  | awaitApproval =>
      left
      injection h with h
      rw [← h, awaitApproval]
      split <;> exact ⟨rfl, rfl⟩
  | intake | converse | clarify | ground | propose | verify | close =>
      left
      injection h with h
      rw [← h]
      exact ⟨rfl, rfl⟩

theorem Thread.sealed_start : ({} : Thread).Sealed where
  together _ := rfl
  invoked _ := rfl
  suspends _ h := nomatch h

theorem Thread.Sealed.step {thread : Thread} (h : thread.Sealed) (action : Action) :
    (thread.step action).Sealed := by
  have hsuspends := h.suspends.step action
  have hinvoked := thread.step_invoked action
  cases hperforms : thread.performs action with
  | none =>
      obtain ⟨hsame, _, hexecution, hverification, _⟩ := Thread.step_idle hperforms
      refine ⟨?_, ?_, hsuspends⟩
      · rw [hexecution, hverification]
        exact h.together
      · rw [hexecution, hsame]
        exact h.invoked
  | some performed =>
      obtain ⟨node, deps, context, payload⟩ := performed
      have hrun := Thread.step_performs hperforms
      rw [Thread.invokes, hperforms] at hinvoked
      dsimp only at hinvoked
      have hnil : (thread.step action).invoked = [] →
          thread.invoked = [] ∧ (node.run deps context payload thread.state).1 = [] := by
        rw [hinvoked]
        exact List.append_eq_nil_iff.mp
      rcases thread.perform_ends node deps context payload with
        ⟨_, hstate⟩ | ⟨update, hwritten, happly, _⟩
      · refine ⟨?_, ?_, hsuspends⟩
        · rw [hrun, hstate]
          exact h.together
        · intro hempty
          rw [hrun, hstate]
          exact h.invoked (hnil hempty).1
      · rw [← hrun] at happly
        obtain ⟨_, hexecution, hverification, _⟩ := AgentState.apply_eq_ok happly
        rcases run_seals hwritten with
          ⟨hnoexecution, hnoverification⟩ | ⟨invocation, result, hnode, hready, _, hupdate⟩
        · rw [hnoexecution] at hexecution
          rw [hnoverification] at hverification
          injection hexecution with hexecution
          injection hverification with hverification
          refine ⟨?_, ?_, hsuspends⟩
          · rw [← hexecution, ← hverification]
            exact h.together
          · intro hempty
            rw [← hexecution]
            exact h.invoked (hnil hempty).1
        · rw [hupdate] at hexecution
          rcases sealChannel_ok hexecution with ⟨hnone, _⟩ | ⟨_, hafter⟩
          · cases hnone
          · refine ⟨?_, ?_, hsuspends⟩
            · intro hempty
              rw [hafter] at hempty
              cases hempty
            · intro hempty
              have hnothing := (hnil hempty).2
              rw [hnode] at hnothing
              change (execute deps context thread.state).1 = [] at hnothing
              rw [execute, hready] at hnothing
              cases hnothing

theorem Thread.sealed_run (actions : List Action) : (({} : Thread).run actions).Sealed :=
  Thread.run_keeps (fun _ action h => h.step action) Thread.sealed_start actions

/-! ## One invoking step -/

/-- An answered invocation that finds the channels empty is recorded. -/
theorem Thread.execute_records {thread : Thread} {deps : GraphDependencies}
    {context : RunContext} {payload : ResumePayload} {invocation : Invocation}
    {result : ExecutionResult} (hready : executeInvocation context thread.state = .ok invocation)
    (hresult : deps.invoke invocation = some result)
    (hexecution : thread.state.execution = none)
    (hverification : thread.state.verification = none) :
    (thread.perform .execute deps context payload).state.execution =
      (executionUpdate deps invocation result).execution := by
  have hwritten : (Node.execute.run deps context payload thread.state).2 =
      .ok (executionUpdate deps invocation result) := by
    show (execute deps context thread.state).2 = _
    rw [execute, hready]
    dsimp only
    rw [hresult]
  unfold Thread.perform
  dsimp only
  rw [hwritten]
  simp [finish, AgentState.apply, executionUpdate, sealGovernance, sealExecution,
    sealVerification, sealChannel, hexecution, hverification, bind, Except.bind, pure,
    Except.pure, Node.successor]

/-- A step that meets the condition records what it invokes. -/
theorem Thread.Sealed.records {thread : Thread} {action : Action} (h : thread.Sealed)
    (hfirst : FirstAndAnswered thread action) : RecordsInvocations thread action := by
  intro node deps context payload hperforms invocation hmade
  have hinvokes : invocation ∈ thread.invokes action := by
    rw [Thread.invokes, hperforms]
    exact hmade
  obtain ⟨taken, running, haction, hposition, hexecute, hready, _⟩ :=
    Thread.invokes_execute h.suspends hinvokes
  rw [hexecute, Option.some.injEq, Prod.mk.injEq, Prod.mk.injEq, Prod.mk.injEq] at hperforms
  obtain ⟨rfl, rfl, rfl, rfl⟩ := hperforms
  obtain ⟨hempty, hanswered⟩ := hfirst _ _ _ haction hposition hready
  obtain ⟨result, hresult⟩ := Option.isSome_iff_exists.mp hanswered
  refine ⟨result, hresult, ?_⟩
  rw [Thread.step_performs hexecute]
  exact Thread.execute_records hready hresult hempty (h.together hempty)

/-- A run keeps what was invoked before it. -/
theorem Thread.invoked_run (thread : Thread) (actions : List Action) :
    thread.invoked.length ≤ (thread.run actions).invoked.length := by
  induction actions generalizing thread with
  | nil => exact Nat.le_refl _
  | cons action actions ih =>
      have hlater := ih (thread.step action)
      rw [Thread.step_invoked, List.length_append] at hlater
      rw [Thread.run_cons]
      omega

/-! ## The whole run -/

/-- Along a run that meets the condition at most one invocation is made, and it
is in the channel from then on. -/
theorem Thread.invoked_once {actions : List Action}
    (hgood : ∀ step ∈ ({} : Thread).trace actions, FirstAndAnswered step.1 step.2) :
    (({} : Thread).run actions).invoked.length ≤ 1 ∧
      ((({} : Thread).run actions).invoked ≠ [] →
        (({} : Thread).run actions).state.execution ≠ none) := by
  induction actions using List.reverseRecOn with
  | nil => exact ⟨Nat.zero_le _, fun h => absurd rfl h⟩
  | append_singleton actions action ih =>
      rw [Thread.trace_concat] at hgood
      obtain ⟨hone, hheld⟩ := ih fun step hstep =>
        hgood step (List.mem_append.mpr (Or.inl hstep))
      have hfirst := hgood _ (List.mem_append.mpr (Or.inr (List.mem_singleton.mpr rfl)))
      have hsealed := Thread.sealed_run actions
      rw [Thread.run_concat]
      generalize ({} : Thread).run actions = thread at *
      have hinvoked := thread.step_invoked action
      cases hmade : thread.invokes action with
      | nil =>
          rw [hmade, List.append_nil] at hinvoked
          refine ⟨by rw [hinvoked]; exact hone, ?_⟩
          rw [hinvoked]
          intro hnonempty
          -- nothing was invoked, so nothing was written to the channel either
          have hbefore := hheld hnonempty
          cases hperforms : thread.performs action with
          | none =>
              rw [(Thread.step_idle hperforms).2.2.1]
              exact hbefore
          | some performed =>
              obtain ⟨node, deps, context, payload⟩ := performed
              rw [Thread.step_performs hperforms]
              rcases thread.perform_ends node deps context payload with
                ⟨_, hstate⟩ | ⟨update, _, happly, _⟩
              · rw [hstate]
                exact hbefore
              · obtain ⟨_, hexecution, _⟩ := AgentState.apply_eq_ok happly
                rcases sealChannel_ok hexecution with ⟨_, hsame⟩ | ⟨hsome, hafter⟩
                · rw [hsame]
                  exact hbefore
                · rw [hafter]
                  exact Option.isSome_iff_ne_none.mp hsome
      | cons invocation others =>
          have hmem : invocation ∈ thread.invokes action := by
            rw [hmade]
            exact List.mem_cons_self
          obtain ⟨deps, context, haction, hposition, hperforms, hready, honly⟩ :=
            Thread.invokes_execute hsealed.suspends hmem
          have hempty := (hfirst _ _ _ haction hposition hready).1
          have hnone : thread.invoked = [] := by
            by_contra hnonempty
            exact hheld hnonempty hempty
          rw [hnone, honly] at hinvoked
          refine ⟨by rw [hinvoked]; exact Nat.le_refl _, ?_⟩
          intro _
          obtain ⟨result, _, hrecord⟩ := hsealed.records hfirst _ _ _ _ hperforms invocation (by
            rw [Thread.invokes, hperforms] at hmem
            exact hmem)
          rw [hrecord]
          exact Option.some_ne_none _

/-- **Every effect is recorded exactly where it is the first and is answered.**
Over any run of any number of turns: each invocation is in the execution channel
after the step that made it, and there is at most one, if and only if each
invocation finds the channel empty and its tool answers. -/
theorem effects_recorded_iff (actions : List Action) :
    ((∀ step ∈ ({} : Thread).trace actions, RecordsInvocations step.1 step.2) ∧
        (({} : Thread).run actions).invoked.length ≤ 1) ↔
      ∀ step ∈ ({} : Thread).trace actions, FirstAndAnswered step.1 step.2 := by
  constructor
  · rintro ⟨hrecords, hone⟩ ⟨thread, action⟩ hstep deps context invocation haction hposition
      hready
    dsimp only at haction hposition hready
    subst haction
    have hperforms : thread.performs (.node deps) =
        some (.execute, deps, context, ⟨none, none⟩) :=
      Thread.performs_running hposition rfl
    have hmade : (Node.execute.run deps context ⟨none, none⟩ thread.state).1 =
        [invocation] := by
      show (execute deps context thread.state).1 = _
      rw [execute, hready]
    obtain ⟨result, hresult, _⟩ := hrecords _ hstep _ _ _ _ hperforms invocation (by
      rw [hmade]
      exact List.mem_cons_self)
    refine ⟨?_, by rw [hresult]; rfl⟩
    -- a value in the channel is an earlier invocation, and this step adds another
    by_contra hheld
    obtain ⟨before, after, hsplit, hrun⟩ := Thread.trace_split hstep
    dsimp only at hsplit hrun
    have hsealed : thread.Sealed := by
      rw [hrun]
      exact Thread.sealed_run before
    have hearlier : thread.invoked ≠ [] := fun hnil => hheld (hsealed.invoked hnil)
    have hlast : ({} : Thread).run actions = (thread.step (.node deps)).run after := by
      rw [hsplit, Thread.run_append, ← hrun, Thread.run_cons]
    have hgrows := (thread.step (.node deps)).invoked_run after
    rw [← hlast, Thread.step_invoked, Thread.invokes, hperforms] at hgrows
    dsimp only at hgrows
    rw [hmade, List.length_append, List.length_singleton] at hgrows
    have := List.length_pos_iff.mpr hearlier
    omega
  · intro hgood
    refine ⟨?_, (Thread.invoked_once hgood).1⟩
    intro step hstep
    obtain ⟨before, _, _, hrun⟩ := Thread.trace_split hstep
    have hsealed : step.1.Sealed := by
      rw [hrun]
      exact Thread.sealed_run before
    exact hsealed.records (hgood step hstep)

/-! ### The same proposal in two turns -/

/-- The collaborators of the second turn, an instant later. -/
def laterDependencies : GraphDependencies := { weakDependencies with clock := fun _ => 1 }

/-- A turn to its end, and the same turn again up to `execute`. -/
def repeatedTurn : List Action :=
  .turn unlockContext unlockTurn :: List.replicate 10 (.node weakDependencies) ++
    .turn unlockContext unlockTurn :: List.replicate 8 (.node laterDependencies)

/-- The second turn's `execute` invokes the tool again, and its record is the one
`seal_execution` refuses. -/
theorem second_effect_unrecorded :
    ¬ ((∀ step ∈ ({} : Thread).trace (repeatedTurn ++ [.node laterDependencies]),
          RecordsInvocations step.1 step.2) ∧
        (({} : Thread).run (repeatedTurn ++ [.node laterDependencies])).invoked.length ≤ 1) ∧
      ¬ RecordsInvocations (({} : Thread).run repeatedTurn) (.node laterDependencies) := by
  refine ⟨?_, ?_⟩
  · rintro ⟨_, hone⟩
    exact absurd hone (by decide +kernel)
  · intro hrecords
    obtain ⟨result, hresult, hrecord⟩ := hrecords .execute laterDependencies unlockContext
      ⟨none, none⟩ (Thread.performs_running (by decide +kernel) rfl)
      ⟨unlockContext.tenant, unlockProposal.identity, "", ⟨⟨2⟩, unlockProposal.identity⟩, ⟨[]⟩⟩
      (by decide +kernel)
    rw [← Option.some.inj hresult] at hrecord
    exact absurd hrecord (by decide +kernel)

end Synthia
