import Synthia.Proofs.Standing

/-!
# What the graph mirrors

Two nodes write the decision channel, each what the reader of its table gave it, and the
channel keeps the first value. So a value in the channel was read from the tables, in a
context of the conversation's: a node runs in the context its thread is in or is resumed
with, and a step leaves the thread in no other.
-/

namespace Synthia

open Relational

/-- Resumed on a consent, a thread mirrors it. -/
theorem Thread.resume_consent {thread : Thread} {deps : GraphDependencies} {context : RunContext}
    {payload : ResumePayload} {consent : EndUserConsent}
    (hposition : thread.position = .suspended .awaitConsent)
    (hread : context.workItemId.bind (deps.consentFor context.tenant) = some consent) :
    (thread.step (.resume context deps payload)).state.decision =
      sealHumanDecision thread.state.decision
        (some (RecordedDecision.endUser consent).mirrored) := by
  have hwritten : Synthia.awaitConsent deps context = mirrorConsent consent := by
    unfold awaitConsent
    rw [hread]
  rw [Thread.step, hposition]
  show (thread.perform .awaitConsent deps context payload).state.decision = _
  unfold Thread.perform Node.run finish
  rw [hwritten]
  rfl

/-- Resumed on a verdict, it mirrors the verdict. -/
theorem Thread.resume_verdict {thread : Thread} {deps : GraphDependencies} {context : RunContext}
    {payload : ResumePayload} {verdict : StaffVerdict}
    (hposition : thread.position = .suspended .awaitApproval)
    (hread : context.workItemId.bind (deps.verdictFor context.tenant) = some verdict) :
    (thread.step (.resume context deps payload)).state.decision =
      sealHumanDecision thread.state.decision
        (some (RecordedDecision.staff verdict).mirrored) := by
  have hwritten : Synthia.awaitApproval deps context = mirrorVerdict verdict := by
    unfold awaitApproval
    rw [hread]
  rw [Thread.step, hposition]
  show (thread.perform .awaitApproval deps context payload).state.decision = _
  unfold Thread.perform Node.run finish
  rw [hwritten]
  rfl

section Threads

variable {thread : Thread} {action : Action} {node : Node} {deps : GraphDependencies}
  {context : RunContext} {payload : ResumePayload}

/-- Only the two nodes that wait for a decision write the channel, and what they write
is what they read. -/
theorem Node.run_decision {state : AgentState} {update : AgentUpdate}
    {held : HumanDecisionRecord} (h : (node.run deps context payload state).2 = .ok update)
    (hheld : update.decision = some held) :
    (∃ consent, context.workItemId.bind (deps.consentFor context.tenant) = some consent ∧
        held = (RecordedDecision.endUser consent).mirrored) ∨
      ∃ verdict, context.workItemId.bind (deps.verdictFor context.tenant) = some verdict ∧
        held = (RecordedDecision.staff verdict).mirrored := by
  cases node with
  | awaitConsent =>
      injection h with h
      rw [← h] at hheld
      unfold Synthia.awaitConsent at hheld
      cases hread : context.workItemId.bind (deps.consentFor context.tenant) with
      | none =>
          rw [hread] at hheld
          cases hheld
      | some consent =>
          rw [hread] at hheld
          exact Or.inl ⟨consent, rfl, (Option.some.inj hheld).symm⟩
  | awaitApproval =>
      injection h with h
      rw [← h] at hheld
      unfold Synthia.awaitApproval at hheld
      cases hread : context.workItemId.bind (deps.verdictFor context.tenant) with
      | none =>
          rw [hread] at hheld
          cases hheld
      | some verdict =>
          rw [hread] at hheld
          exact Or.inr ⟨verdict, rfl, (Option.some.inj hheld).symm⟩
  | retrieve =>
      change Except.ok (Synthia.retrieve deps context state) = _ at h
      injection h with h
      rw [← h] at hheld
      unfold Synthia.retrieve at hheld
      dsimp only at hheld
      split at hheld <;> cases hheld
  | guardrail =>
      change Except.ok (Synthia.guardrail state) = _ at h
      injection h with h
      rw [← h] at hheld
      unfold Synthia.guardrail at hheld
      dsimp only at hheld
      split at hheld <;> cases hheld
  | classify =>
      change Synthia.classify deps context state = _ at h
      unfold Synthia.classify at h
      split at h
      · injection h with h
        rw [← h] at hheld
        cases hheld
      · dsimp only at h
        split at h
        · cases h
        · injection h with h
          rw [← h] at hheld
          cases hheld
  | govern =>
      change Synthia.govern deps context state = _ at h
      unfold Synthia.govern at h
      split at h
      · cases h
      · split at h
        · cases h
        · injection h with h
          rw [← h] at hheld
          cases hheld
  | execute =>
      change (Synthia.execute deps context state).2 = _ at h
      unfold Synthia.execute at h
      split at h
      · cases h
      · dsimp only at h
        split at h
        · cases h
        · injection h with h
          rw [← h] at hheld
          cases hheld
  | intake | converse | clarify | ground | propose | verify | close =>
      injection h with h
      rw [← h] at hheld
      cases hheld

/-- What a step leaves in the channel: what it held, or what the node it ran wrote. -/
theorem Thread.step_decision {held : HumanDecisionRecord}
    (h : (thread.step action).state.decision = some held) :
    thread.state.decision = some held ∨
      ∃ node deps context payload update,
        thread.performs action = some (node, deps, context, payload) ∧
          (node.run deps context payload thread.state).2 = .ok update ∧
          update.decision = some held := by
  cases hperforms : thread.performs action with
  | none =>
      obtain ⟨_, _, _, _, hdecision⟩ := Thread.step_idle hperforms
      rw [hdecision] at h
      exact Or.inl h
  | some performed =>
      obtain ⟨node, deps, context, payload⟩ := performed
      rw [Thread.step_performs hperforms] at h
      rcases thread.perform_ends node deps context payload with
        ⟨_, hsame⟩ | ⟨update, hrun, happly, _⟩
      · left
        rw [hsame] at h
        exact h
      · obtain ⟨_, _, _, _, _, _, _, _, _, _, hdecision⟩ := AgentState.apply_eq_ok happly
        rw [hdecision] at h
        cases hexisting : thread.state.decision with
        | some existing =>
            rw [hexisting] at h
            exact Or.inl h
        | none =>
            rw [hexisting] at h
            exact Or.inr ⟨node, deps, context, payload, update, rfl, hrun, h⟩

/-- The run contexts of a thread come from the position it is in or from the action. -/
theorem Thread.performs_context
    (h : thread.performs action = some (node, deps, context, payload)) :
    (∃ running, thread.position = .running running context) ∨
      ∃ deps payload, action = .resume context deps payload := by
  cases action with
  | turn | fail => cases h
  | node =>
      rw [Thread.performs] at h
      split at h
      · next hposition =>
          split at h
          · cases h
          · simp only [Option.some.injEq, Prod.mk.injEq] at h
            obtain ⟨rfl, _, rfl, _⟩ := h
            exact Or.inl ⟨_, hposition⟩
      · cases h
      · cases h
  | resume =>
      rw [Thread.performs] at h
      split at h
      · simp only [Option.some.injEq, Prod.mk.injEq] at h
        obtain ⟨_, _, rfl, _⟩ := h
        exact Or.inr ⟨_, _, rfl⟩
      · cases h
      · cases h

theorem DecidedItem.binds_performed {item : DecidedItem} (hhosts : item.hosts action = true)
    (hbound : ∀ running bound, thread.position = .running running bound →
      item.binds bound = true)
    (h : thread.performs action = some (node, deps, context, payload)) :
    item.binds context = true := by
  rcases Thread.performs_context h with ⟨running, hposition⟩ | ⟨_, _, haction⟩
  · exact hbound running context hposition
  · rw [haction] at hhosts
    exact hhosts

/-- A step of the conversation's own leaves the thread in its own contexts. -/
theorem DecidedItem.binds_step {item : DecidedItem} (hhosts : item.hosts action = true)
    (hbound : ∀ running bound, thread.position = .running running bound →
      item.binds bound = true)
    (h : (thread.step action).position = .running node context) : item.binds context = true := by
  cases hperforms : thread.performs action with
  | some performed =>
      obtain ⟨performedNode, deps, own, payload⟩ := performed
      rw [Thread.step_performs hperforms] at h
      have howned := item.binds_performed hhosts hbound hperforms
      rcases thread.perform_cases performedNode deps own payload with
        hidle | ⟨_, _, next, _, _, _, _, hposition⟩
      · rw [hidle] at h
        cases h
      · rw [hposition] at h
        injection h with _ hcontext
        rw [← hcontext]
        exact howned
  | none =>
      rcases Thread.step_still hperforms with ⟨own, input, rfl⟩ | hsame |
        ⟨position, hwhere, hmoved⟩
      · injection h with _ hcontext
        rw [← hcontext]
        exact hhosts
      · rw [hsame] at h
        exact hbound node context h
      · rw [hmoved] at h
        rcases hwhere with rfl | ⟨_, rfl⟩
        · cases h
        · cases h

end Threads

theorem DecisionWorld.hosts_readsFor {world : DecisionWorld} {item : DecidedItem}
    {action : Action} (h : item.hosts action = true) :
    item.hosts (world.readsFor action) = true := by
  cases action with
  | turn | node | resume | fail => exact h

/-- The collaborators of a node that runs answer from the tables. -/
theorem DecisionWorld.performs_reads {world : DecisionWorld} {thread : Thread} {action : Action}
    {node : Node} {deps : GraphDependencies} {context : RunContext} {payload : ResumePayload}
    (h : thread.performs (world.readsFor action) = some (node, deps, context, payload)) :
    ∃ own, deps = world.reads own := by
  cases action with
  | turn | fail => cases h
  | node own =>
      rw [DecisionWorld.readsFor, Thread.performs] at h
      split at h
      · split at h
        · cases h
        · simp only [Option.some.injEq, Prod.mk.injEq] at h
          exact ⟨own, h.2.1.symm⟩
      · cases h
      · cases h
  | resume _ own _ =>
      rw [DecisionWorld.readsFor, Thread.performs] at h
      split at h
      · simp only [Option.some.injEq, Prod.mk.injEq] at h
        exact ⟨own, h.2.1.symm⟩
      · cases h
      · cases h

end Synthia
