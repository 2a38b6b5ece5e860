import Synthia.Graph.Run
import Synthia.Proofs.Gate

/-!
# Whether ungrounded actions run

The gate withholds an ungrounded proposal when its request carries the
knowledge condition. `govern` builds the request without one, so the default,
`not_required`, stands, and the assessment the `ground` node wrote reaches the
gate on no path. The other place it is read is the guardrail, and there a
proposal counts as grounding by itself.

What is left is stated over runs. A run invokes nothing on ungrounded evidence
exactly when each of its evaluations on such evidence is stopped by something
else: the entry does not permit the request, or a stricter treatment is already
sealed. The link from an invocation back to the evaluation behind it is an
invariant on positions: a thread about to execute got there from a `govern` step
that wrote `PROCEED`, and the assessment has not changed since.
-/

namespace Synthia

/-- The last assessment says grounding is required and not met. -/
def AgentState.Ungrounded (state : AgentState) : Prop :=
  ∃ grounding, state.grounding = some grounding ∧ grounding.required = true ∧
    grounding.isConfident = false

/-- The step runs `govern`, whose `PROCEED` the reducers accept. -/
def WritesProceed (thread : Thread) (action : Action) : Prop :=
  ∃ deps context update result after,
    action = .node deps ∧ thread.position = .running .govern context ∧
    govern deps context thread.state = .ok update ∧
    update.governance = some result ∧ result.disposition = .proceed ∧
    thread.state.apply update = .ok after

/-- The step invokes a tool. -/
def InvokesTool (thread : Thread) (action : Action) : Prop :=
  (thread.step action).invoked ≠ thread.invoked

/-! ## What `govern` writes -/

section Govern

variable {deps : GraphDependencies} {context : RunContext} {state after : AgentState}
  {update : AgentUpdate} {proposed : ProposedOperationView}

theorem govern_eq_ok (hproposal : state.proposal = some proposed) :
    ∃ outcome, evaluate (gateRequest deps context proposed) = .ok outcome ∧
      govern deps context state = .ok
        { governance := some (governanceResult deps outcome)
          pendingInterrupt := some outcome.suspendsOn } := by
  obtain ⟨outcome, houtcome⟩ := evaluate_total (gateRequest deps context proposed)
  refine ⟨outcome, houtcome, ?_⟩
  unfold govern
  rw [hproposal]
  dsimp only
  rw [houtcome]

/-- An update of the governance and interrupt channels is accepted exactly when
it does not widen what is sealed, and touches no other channel. -/
theorem apply_governance (result : GovernanceResult)
    (pending : Option (Option InterruptKind)) :
    (∃ after, state.apply { governance := some result, pendingInterrupt := pending } =
      .ok after) ↔
      ∀ held, state.governance = some held →
        isNarrowing held.treatment result.treatment = true := by
  constructor
  · rintro ⟨after, hafter⟩
    rcases sealGovernance_ok (AgentState.apply_eq_ok hafter).1 with
      ⟨hnone, _⟩ | ⟨written, hwritten, _, hnarrow⟩
    · cases hnone
    · rw [Option.some.inj hwritten]
      exact hnarrow
  · intro hnarrow
    have hseal : sealGovernance state.governance (some result) = .ok (some result) := by
      cases hheld : state.governance with
      | none => rfl
      | some held =>
          show (if _ then _ else _) = _
          rw [if_pos (hnarrow held hheld)]
    unfold AgentState.apply
    dsimp only
    rw [hseal]
    cases state.execution <;> cases state.verification <;> exact ⟨_, rfl⟩

end Govern

/-- When a `govern` step writes `PROCEED`: an entry permits the proposal, and its
treatment does not widen the sealed one. Knowledge is not among the conditions. -/
theorem writesProceed_iff {thread : Thread} {deps : GraphDependencies}
    {context : RunContext} (hposition : thread.position = .running .govern context) :
    WritesProceed thread (.node deps) ↔
      ∃ proposed entry, thread.state.proposal = some proposed ∧
        PermittedBy (gateRequest deps context proposed) entry ∧
        ∀ held, thread.state.governance = some held →
          isNarrowing held.treatment entry.treatment = true := by
  constructor
  · rintro ⟨_, _, update, result, after, haction, hrunning, hgovern, hresult, hproceed,
      happly⟩
    injection haction with haction
    subst haction
    rw [hposition] at hrunning
    injection hrunning with _ hcontext
    subst hcontext
    cases hproposal : thread.state.proposal with
    | none =>
        unfold govern at hgovern
        rw [hproposal] at hgovern
        cases hgovern
    | some proposed =>
        obtain ⟨outcome, houtcome, hwritten⟩ := @govern_eq_ok deps context _ _ hproposal
        rw [hwritten] at hgovern
        injection hgovern with hgovern
        subst hgovern
        rw [← Option.some.inj hresult] at hproceed
        obtain ⟨_, entry, hpermitted⟩ := (evaluate_proceeds_entry houtcome).mp hproceed
        refine ⟨proposed, entry, rfl, hpermitted, ?_⟩
        have hnarrow := (apply_governance _ _).mp ⟨after, happly⟩
        rwa [show (governanceResult deps outcome).treatment = entry.treatment from
          (evaluate_treatment hpermitted.assigned houtcome).1] at hnarrow
  · rintro ⟨proposed, entry, hproposal, hpermitted, hnarrow⟩
    obtain ⟨outcome, houtcome, hwritten⟩ := @govern_eq_ok deps context _ _ hproposal
    have htreatment := (evaluate_treatment hpermitted.assigned houtcome).1
    obtain ⟨after, happly⟩ := (@apply_governance thread.state
      (governanceResult deps outcome) (some outcome.suspendsOn)).mpr (by
        rwa [show (governanceResult deps outcome).treatment = entry.treatment from htreatment])
    exact ⟨deps, context, _, _, after, rfl, hposition, hwritten, rfl,
      (evaluate_proceeds_entry houtcome).mpr ⟨rfl, entry, hpermitted⟩, happly⟩

/-! ## How a thread comes to execute -/

/-- What is true of a thread after the steps `past`. -/
structure Thread.Reached (past : List (Thread × Action)) (thread : Thread) : Prop where
  /-- Only interrupting nodes suspend. -/
  suspended : ∀ node, thread.position = .suspended node → node.interrupts = true
  /-- A thread about to execute was sent there by a `PROCEED`, on the assessment
  it still holds. -/
  authorized : ∀ context, thread.position = .running .execute context →
    ∃ step ∈ past, WritesProceed step.1 step.2 ∧
      step.1.state.grounding = thread.state.grounding

theorem Thread.reached_start : Thread.Reached [] {} where
  suspended _ h := nomatch h
  authorized _ h := nomatch h

theorem Thread.Reached.mono {past : List (Thread × Action)} {thread : Thread}
    (h : thread.Reached past) (step : Thread × Action) :
    thread.Reached (past ++ [step]) where
  suspended := h.suspended
  authorized context hexecute := by
    obtain ⟨earlier, hearlier, hrest⟩ := h.authorized context hexecute
    exact ⟨earlier, List.mem_append.mpr (Or.inl hearlier), hrest⟩

/-- A thread that is neither suspended nor about to execute satisfies both
clauses for want of a case. -/
theorem Thread.reached_elsewhere {past : List (Thread × Action)} {thread : Thread}
    (hsuspended : ∀ node, thread.position ≠ .suspended node)
    (hexecute : ∀ context, thread.position ≠ .running .execute context) :
    thread.Reached past :=
  ⟨fun node h => absurd h (hsuspended node), fun context h => absurd h (hexecute context)⟩

/-- Running a node keeps the invariant. The one case with anything in it is
`govern`, whose edge into `execute` is taken on the `PROCEED` it wrote. -/
theorem Thread.reached_perform {past : List (Thread × Action)} {thread : Thread}
    {node : Node} {deps : GraphDependencies} {context : RunContext}
    {payload : ResumePayload} {action : Action}
    (hgovern : node = .govern → action = .node deps ∧
      thread.position = .running .govern context) :
    (thread.perform node deps context payload).Reached (past ++ [(thread, action)]) := by
  refine ⟨thread.suspendsAtInterrupts_perform node deps context payload, ?_⟩
  intro other hexecute
  rcases thread.perform_cases node deps context payload with
    hidle | ⟨update, after, next, hwritten, happly, hnext, hstate, hposition⟩
  · rw [hidle] at hexecute
    cases hexecute
  · rw [hposition] at hexecute
    injection hexecute with hexecute _
    subst hexecute
    obtain ⟨hnode, governance, hgovernance, hproceed⟩ := Node.successor_execute hnext
    obtain ⟨rfl, hrunning⟩ := hgovern hnode
    subst hnode
    have hran : govern deps context thread.state = .ok update := hwritten
    obtain ⟨proposed, hproposal⟩ : ∃ proposed, thread.state.proposal = some proposed := by
      cases hproposal : thread.state.proposal with
      | none =>
          unfold govern at hran
          rw [hproposal] at hran
          cases hran
      | some proposed => exact ⟨proposed, rfl⟩
    obtain ⟨outcome, _, houtcome⟩ := @govern_eq_ok deps context _ _ hproposal
    rw [houtcome] at hran
    injection hran with hran
    subst hran
    have hreduced := AgentState.apply_eq_ok happly
    refine ⟨(thread, .node deps), List.mem_append.mpr (Or.inr (List.mem_singleton.mpr rfl)),
      ⟨deps, context, _, _, after, rfl, hrunning, houtcome, rfl, ?_, happly⟩, ?_⟩
    · rcases sealGovernance_ok hreduced.1 with ⟨hnone, _⟩ | ⟨written, hsome, hafter, _⟩
      · cases hnone
      · rw [hgovernance] at hafter
        rw [Option.some.inj hsome, ← Option.some.inj hafter]
        exact hproceed
    · rw [hstate]
      exact hreduced.2.2.2.2.2.2.2.1.symm

theorem Thread.Reached.step {past : List (Thread × Action)} {thread : Thread}
    (h : thread.Reached past) (action : Action) :
    (thread.step action).Reached (past ++ [(thread, action)]) := by
  cases action with
  | turn context input =>
      refine Thread.reached_elsewhere ?_ ?_
      · rintro _ ⟨⟩
      · rintro _ ⟨⟩
  | fail =>
      refine Thread.reached_elsewhere ?_ ?_
      · rintro _ ⟨⟩
      · rintro _ ⟨⟩
  | node deps =>
      rw [Thread.step]
      split
      · next node context hposition =>
          split
          · next hinterrupts =>
              refine ⟨?_, ?_⟩
              · intro other hother
                injection hother with hother
                rw [← hother]
                exact hinterrupts
              · rintro _ ⟨⟩
          · apply Thread.reached_perform
            intro hnode
            rw [← hnode]
            exact ⟨rfl, hposition⟩
      · exact h.mono _
      · exact h.mono _
  | resume context deps payload =>
      rw [Thread.step]
      split
      · next node hposition =>
          apply Thread.reached_perform
          intro hnode
          have hinterrupts := h.suspended node hposition
          rw [hnode] at hinterrupts
          cases hinterrupts
      · exact h.mono _
      · exact h.mono _

/-- The invariant at every step of a run: the induction is on the steps taken
so far. -/
theorem Thread.reached_run (actions : List Action) :
    (({} : Thread).run actions).Reached (({} : Thread).trace actions) := by
  induction actions using List.reverseRecOn with
  | nil => exact Thread.reached_start
  | append_singleton actions action ih =>
      rw [Thread.run_concat, Thread.trace_concat]
      exact ih.step action

/-- A step that invokes a tool is `execute`'s own. -/
theorem InvokesTool.position {past : List (Thread × Action)} {thread : Thread}
    {action : Action} (h : InvokesTool thread action) (hreached : thread.Reached past) :
    ∃ context, thread.position = .running .execute context := by
  have hmade : thread.invokes action ≠ [] := by
    intro hnone
    unfold InvokesTool at h
    rw [Thread.step_invoked, hnone, List.append_nil] at h
    exact h rfl
  obtain ⟨invocation, hinvocation⟩ := List.exists_mem_of_ne_nil _ hmade
  obtain ⟨_, context, _, hposition, _⟩ :=
    Thread.invokes_execute hreached.suspended hinvocation
  exact ⟨context, hposition⟩

/-! ## The whole run -/

/-- Something other than knowledge stops the step: it is no evaluation on
ungrounded evidence, or no entry permits the proposal it evaluates, or the
thread has sealed a treatment stricter than the entry's. -/
def StoppedOtherwise (thread : Thread) (action : Action) : Prop :=
  ∀ deps context proposed entry, action = .node deps →
    thread.position = .running .govern context → thread.state.Ungrounded →
    thread.state.proposal = some proposed →
    PermittedBy (gateRequest deps context proposed) entry →
    ∃ held, thread.state.governance = some held ∧
      entry.treatment.strictness < held.treatment.strictness

/-- **Ungrounded actions run exactly where nothing else stops them.** Over any
run of any number of turns: no `govern` step writes `PROCEED` and no `execute`
step invokes a tool on ungrounded evidence, if and only if every evaluation on
such evidence is stopped by something other than knowledge. -/
theorem ungrounded_never_runs_iff (actions : List Action) :
    (∀ step ∈ ({} : Thread).trace actions, step.1.state.Ungrounded →
      ¬ WritesProceed step.1 step.2 ∧ ¬ InvokesTool step.1 step.2) ↔
      ∀ step ∈ ({} : Thread).trace actions, StoppedOtherwise step.1 step.2 := by
  constructor
  · rintro hnever ⟨thread, action⟩ hstep deps context proposed entry rfl hposition
      hungrounded hproposal hpermitted
    have hblocked := (hnever _ hstep hungrounded).1
    by_contra hwide
    apply hblocked
    rw [writesProceed_iff hposition]
    refine ⟨proposed, entry, hproposal, hpermitted, ?_⟩
    intro held hheld
    rw [isNarrowing, decide_eq_true_eq]
    by_contra hstrict
    exact hwide ⟨held, hheld, by omega⟩
  · intro hstopped
    have hgovern : ∀ step ∈ ({} : Thread).trace actions, step.1.state.Ungrounded →
        ¬ WritesProceed step.1 step.2 := by
      rintro ⟨thread, action⟩ hstep hungrounded hwrites
      obtain ⟨deps, context, rfl, hposition⟩ : ∃ deps context,
          action = .node deps ∧ thread.position = .running .govern context := by
        obtain ⟨deps, context, _, _, _, haction, hposition, _⟩ := hwrites
        exact ⟨deps, context, haction, hposition⟩
      obtain ⟨proposed, entry, hproposal, hpermitted, hnarrow⟩ :=
        (writesProceed_iff hposition).mp hwrites
      obtain ⟨held, hheld, hstrict⟩ := hstopped _ hstep deps context proposed entry rfl
        hposition hungrounded hproposal hpermitted
      have := hnarrow held hheld
      rw [isNarrowing, decide_eq_true_eq] at this
      omega
    rintro ⟨thread, action⟩ hstep hungrounded
    refine ⟨hgovern _ hstep hungrounded, ?_⟩
    intro hinvokes
    -- the invariant holds of the thread the earlier steps reached
    obtain ⟨before, hrun, hearlier⟩ := Thread.mem_trace hstep
    have hreached : Thread.Reached (({} : Thread).trace before) thread := by
      rw [show thread = ({} : Thread).run before from hrun]
      exact Thread.reached_run before
    obtain ⟨context, hposition⟩ := hinvokes.position hreached
    obtain ⟨governed, hgoverned, hwrites, hsame⟩ := hreached.authorized context hposition
    obtain ⟨grounding, hgrounding, hweak⟩ := hungrounded
    exact hgovern governed (hearlier governed hgoverned)
      ⟨grounding, hsame.trans hgrounding, hweak⟩ hwrites

/-! ### One turn on weak evidence -/

def unlockProposal : ProposedOperationView :=
  ⟨"unlock_account", 1, "", "model", "the account is locked"⟩

/-- An `AUTO` entry, and one chunk of evidence far below the threshold. -/
def weakDependencies : GraphDependencies where
  clock _ := 0
  lookup _ identity := some ⟨identity, .auto, ⟨∅⟩, .action, false, false⟩
  isEntitled _ _ := true
  search _ _ _ := [⟨[], 1 / 10, "kb-1"⟩]
  verdictFor _ _ := none
  consentFor _ _ := none
  invoke _ := some ⟨true, .clientAttested⟩

def unlockContext : RunContext :=
  ⟨⟨⟨1⟩, ⟨1⟩, .active, .endUserIdentity⟩, ⟨7⟩, ⟨[]⟩, ⟨1⟩, some ⟨2⟩⟩

def unlockTurn : TurnInput where
  conversation := [⟨"m-1", .endUser, Text.ofString "Please unlock my account", 0⟩]
  proposal := some (some unlockProposal)

/-- The thread `count` nodes into the turn. -/
def unlockThread (count : Nat) : Thread :=
  ({} : Thread).run
    (.turn unlockContext unlockTurn :: List.replicate count (.node weakDependencies))

/-- The proposal runs on evidence the platform itself assessed as required and
not confident: the eighth node writes `PROCEED` and the ninth invokes the tool. -/
theorem ungrounded_proposal_runs :
    (unlockThread 7).state.Ungrounded ∧
      WritesProceed (unlockThread 7) (.node weakDependencies) ∧
      (unlockThread 8).state.Ungrounded ∧
      InvokesTool (unlockThread 8) (.node weakDependencies) := by
  have hseven : (unlockThread 7).position = .running .govern unlockContext := by decide +kernel
  refine ⟨⟨⟨1 / 10, 1 / 10, false, true⟩, by decide +kernel, rfl, rfl⟩, ?_,
    ⟨⟨1 / 10, 1 / 10, false, true⟩, by decide +kernel, rfl, rfl⟩, ?_⟩
  · rw [writesProceed_iff hseven]
    refine ⟨unlockProposal, ⟨unlockProposal.identity, .auto, ⟨∅⟩, .action, false, false⟩,
      by decide +kernel, ⟨rfl, rfl, rfl, rfl, Or.inl rfl⟩, ?_⟩
    have hunsealed : (unlockThread 7).state.governance = none := by decide +kernel
    intro held hheld
    rw [hunsealed] at hheld
    cases hheld
  · unfold InvokesTool
    decide +kernel

end Synthia
