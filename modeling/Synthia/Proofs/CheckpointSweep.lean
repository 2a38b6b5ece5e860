import Synthia.Proofs.Keys
import Synthia.Workers.RetentionSweep

/-!
# What the checkpoint sweep removes

A thread's name is three identifiers of fixed length with separators between, so
it names one organisation, requester and session, and by the unique session at
most one work item. The sweep picks a thread from a work item that is completed
and past the window; that item is then the thread's only one, and no thread it
removes has another that could still be claimed or resumed.

A pass that returned has emptied every thread it picked, and the work items it
picked them from are as they were. The same pass again picks the same threads and
finds them empty.
-/

namespace Synthia

open Relational Machine Text

theorem checkpointThreadId_inj {tenantId requesterOid sessionId otherTenant otherRequester
    otherSession : Uuid}
    (h : checkpointThreadId tenantId requesterOid sessionId =
      checkpointThreadId otherTenant otherRequester otherSession) :
    tenantId = otherTenant ∧ requesterOid = otherRequester ∧ sessionId = otherSession := by
  obtain ⟨htenant, hrest⟩ := Uuid.toText_append h
  injection hrest with _ hrest
  obtain ⟨hrequester, hrest⟩ := Uuid.toText_append hrest
  injection hrest with _ hsession
  exact ⟨htenant, hrequester, Uuid.toText_injective hsession⟩

theorem threadConfig_inj {a b : RunContext} (h : threadConfig a = threadConfig b) :
    a.tenant.tenantId = b.tenant.tenantId ∧ a.requester = b.requester ∧
      a.sessionId = b.sessionId := by
  obtain ⟨htenant, hrequester, hsession⟩ := checkpointThreadId_inj h
  exact ⟨congrArg TenantId.mk htenant, congrArg PrincipalId.mk hrequester,
    congrArg SessionId.mk hsession⟩

/-- The states an item passes through on its way to an outcome. -/
def unfinishedWorkStates : List WorkItemState :=
  [.open, .awaitingDecision, .authorized, .claimed]

theorem unfinished_iff {state : WorkItemState} :
    state ∈ unfinishedWorkStates ↔ state ∉ completedWorkStates := by
  cases state <;> decide

theorem WorkItemRow.unfinished_of_claimable {row : WorkItemRow} {now : Instant}
    (h : row.claimable now = true) : row.state ∈ unfinishedWorkStates := by
  rw [(WorkItemRow.claimable_iff.mp h).2.1]
  decide

namespace CheckpointSweep

variable {Store Checkpoint : Type} {saver : CheckpointSaver Store Checkpoint}
  {world next : World Store} {tenant : TenantContext} {now : Instant}
  {overrides : RetentionOverrides} {threadId : List CodePoint}

/-- One of the tenant's items, completed, and past the window as of `now`. -/
structure PastWindow (row : WorkItemRow) (tenant : TenantContext) (now : Instant)
    (overrides : RetentionOverrides) : Prop where
  ofTenant : row.tenantId = tenant.tenantId
  completed : row.state ∈ completedWorkStates
  past : ∃ window, windowFor .graphCheckpoint overrides = .ok window ∧
    row.updatedAt ≤ now - window.duration

/-! ## The selection -/

theorem mem_eligibleCheckpointThreads {workItems : WorkItemTable}
    {threadIds : List (List CodePoint)}
    (h : eligibleCheckpointThreads workItems tenant now overrides = .ok threadIds)
    (hthread : threadId ∈ threadIds) :
    ∃ row ∈ workItems.rows, row.threadId = threadId ∧ PastWindow row tenant now overrides := by
  unfold eligibleCheckpointThreads at h
  cases hwindow : windowFor .graphCheckpoint overrides with
  | error error =>
      rw [hwindow] at h
      cases h
  | ok window =>
      rw [hwindow] at h
      change (subDuration now window.duration >>= fun before => pure
        ((workItems.rows.filter (eligible tenant before)).map WorkItemRow.threadId)) = _ at h
      unfold subDuration at h
      split at h
      · cases h
      · injection h with h
        rw [← h, List.mem_map] at hthread
        obtain ⟨row, hrow, hthread⟩ := hthread
        simp only [List.mem_filter, eligible, Bool.and_eq_true, beq_iff_eq,
          List.contains_iff_mem, decide_eq_true_eq] at hrow
        obtain ⟨hmem, ⟨htenant, hstate⟩, hbefore⟩ := hrow
        exact ⟨row, hmem, hthread, htenant, hstate, window, hwindow, hbefore⟩

/-- A thread has at most one work item. -/
theorem World.eq_of_threadId (world : World Store) {a b : WorkItemRow}
    (ha : a ∈ world.content.workItems.rows) (hb : b ∈ world.content.workItems.rows)
    (h : a.threadId = b.threadId) : a = b := by
  obtain ⟨_, _, hsession⟩ := checkpointThreadId_inj h
  exact List.inj_on_of_nodup_map world.onePerSession ha hb (congrArg SessionId.mk hsession)

/-! ## The removal -/

section Prune

variable {pruned count : Nat} {store : Store} {threadIds : List (List CodePoint)}

theorem held_adeleteThread (saver : CheckpointSaver Store Checkpoint) (store : Store)
    (threadId other : List CodePoint) :
    saver.held (saver.adeleteThread store threadId).2 other = [] ∨
      saver.held (saver.adeleteThread store threadId).2 other = saver.held store other := by
  by_cases h : other = threadId
  · rw [h]
    exact saver.held_raised store threadId
  · exact Or.inr (saver.held_other store threadId other h)

theorem held_pruneFrom_other (h : threadId ∉ threadIds) :
    saver.held (pruneFrom saver pruned store threadIds).2 threadId =
      saver.held store threadId := by
  induction threadIds generalizing pruned store with
  | nil => rfl
  | cons first threadIds ih =>
      rw [List.mem_cons, not_or] at h
      have hfirst := saver.held_other store first threadId h.1
      simp only [pruneFrom]
      split
      · rw [ih h.2, hfirst]
      · exact hfirst

theorem held_pruneFrom (saver : CheckpointSaver Store Checkpoint) (pruned : Nat)
    (store : Store) (threadIds : List (List CodePoint)) (threadId : List CodePoint) :
    saver.held (pruneFrom saver pruned store threadIds).2 threadId = [] ∨
      saver.held (pruneFrom saver pruned store threadIds).2 threadId =
        saver.held store threadId := by
  induction threadIds generalizing pruned store with
  | nil => exact Or.inr rfl
  | cons first threadIds ih =>
      have hfirst := held_adeleteThread saver store first threadId
      simp only [pruneFrom]
      split
      · rcases ih (pruned + 1) (saver.adeleteThread store first).2 with hnil | hsame
        · exact Or.inl hnil
        · rw [hsame]
          exact hfirst
      · exact hfirst

/-- Deletes that all returned leave nothing in the threads they were asked for. -/
theorem held_pruneFrom_ok (hok : (pruneFrom saver pruned store threadIds).1 = .ok count)
    (h : threadId ∈ threadIds) :
    saver.held (pruneFrom saver pruned store threadIds).2 threadId = [] := by
  induction threadIds generalizing pruned store with
  | nil => cases h
  | cons first threadIds ih =>
      simp only [pruneFrom] at hok ⊢
      split at hok
      · next hdeleted =>
          rw [if_pos hdeleted]
          by_cases hlater : threadId ∈ threadIds
          · exact ih hok hlater
          · rcases List.mem_cons.mp h with hfirst | hmem
            · rw [held_pruneFrom_other hlater, hfirst]
              exact saver.held_deleted store first hdeleted
            · exact absurd hmem hlater
      · cases hok

end Prune

/-! ## One pass -/

/-- A pass empties a thread or leaves it alone, and empties only threads all of
whose work is past its window. -/
theorem World.sweep_held (saver : CheckpointSaver Store Checkpoint) (world : World Store)
    (tenant : TenantContext) (now : Instant) (overrides : RetentionOverrides)
    (threadId : List CodePoint) :
    saver.held (world.sweep saver tenant now overrides).threads threadId =
        saver.held world.threads threadId ∨
      saver.held (world.sweep saver tenant now overrides).threads threadId = [] ∧
        ∃ row ∈ world.content.workItems.rows, row.threadId = threadId ∧
          PastWindow row tenant now overrides := by
  have hitems : (RetentionSweep.sweepChatContent world.content tenant now).2.workItems =
      world.content.workItems := rfl
  simp only [World.sweep, sweepTenant, hitems]
  cases helig : eligibleCheckpointThreads world.content.workItems tenant now overrides with
  | error error => exact Or.inl rfl
  | ok threadIds =>
      dsimp only [pruneCheckpoints]
      by_cases hthread : threadId ∈ threadIds
      · rcases held_pruneFrom saver 0 world.threads threadIds threadId with hnil | hsame
        · exact Or.inr ⟨hnil, mem_eligibleCheckpointThreads helig hthread⟩
        · exact Or.inl hsame
      · exact Or.inl (held_pruneFrom_other hthread)

/-- All the work of a thread is past its window. -/
def World.AllPast (world : World Store) (threadId : List CodePoint) (tenant : TenantContext)
    (now : Instant) (overrides : RetentionOverrides) : Prop :=
  (∃ row ∈ world.content.workItems.rows, row.threadId = threadId) ∧
    ∀ row ∈ world.content.workItems.rows, row.threadId = threadId →
      PastWindow row tenant now overrides

theorem World.allPast_of_sweep
    (h : saver.held (world.sweep saver tenant now overrides).threads threadId ≠
      saver.held world.threads threadId) :
    world.AllPast threadId tenant now overrides := by
  rcases world.sweep_held saver tenant now overrides threadId with
    hsame | ⟨_, row, hrow, hthread, hpast⟩
  · exact absurd hsame h
  · refine ⟨⟨row, hrow, hthread⟩, ?_⟩
    intro other hother hsame
    rw [world.eq_of_threadId hother hrow (hsame.trans hthread.symm)]
    exact hpast

/-- Some work of the thread can still be claimed, or its run resumed. -/
def World.Live (world : World Store) (threadId : List CodePoint) : Prop :=
  ∃ row ∈ world.content.workItems.rows, row.threadId = threadId ∧
    ((∃ now, row.claimable now = true) ∨ row.state ∈ unfinishedWorkStates)

theorem World.Live.sweep (h : world.Live threadId) :
    saver.held (world.sweep saver tenant now overrides).threads threadId =
      saver.held world.threads threadId := by
  by_contra hne
  obtain ⟨row, hrow, hthread, hlive⟩ := h
  have hcompleted := ((World.allPast_of_sweep hne).2 row hrow hthread).completed
  have hunfinished : row.state ∈ unfinishedWorkStates := by
    rcases hlive with ⟨instant, hclaimable⟩ | hstate
    · exact WorkItemRow.unfinished_of_claimable hclaimable
    · exact hstate
  exact unfinished_iff.mp hunfinished hcompleted

/-- A thread with live work loses nothing to any step. -/
theorem World.Live.step {action : Action Checkpoint} (h : world.Live threadId)
    (hstep : world.step saver action = some next) :
    saver.held world.threads threadId <+: saver.held next.threads threadId := by
  cases action with
  | checkpoint context checkpoint =>
      simp only [World.step, Option.some.injEq] at hstep
      rw [← hstep, saver.held_aput]
      split
      · exact List.prefix_append _ _
      · exact List.prefix_rfl
  | commitWork row =>
      simp only [World.step, Option.some.injEq, World.commitWork] at hstep
      rw [← hstep]
      split
      · split
        · exact List.prefix_rfl
        · exact List.prefix_rfl
      · exact List.prefix_rfl
  | claim tenant workItemId claimedBy now databaseNow =>
      simp only [World.step, Option.some.injEq] at hstep
      rw [← hstep]
      exact List.prefix_rfl
  | moveWork tenant workItemId state expectedVersion databaseNow =>
      simp only [World.step, Option.some.injEq] at hstep
      rw [← hstep]
      exact List.prefix_rfl
  | sweep tenant now overrides =>
      simp only [World.step, Option.some.injEq] at hstep
      rw [← hstep, h.sweep]

/-- The thread holds at `state` all it held at `world`. -/
def World.Keeps (saver : CheckpointSaver Store Checkpoint) (world : World Store)
    (threadId : List CodePoint) (state : World Store) : Prop :=
  saver.held world.threads threadId <+: saver.held state.threads threadId

theorem World.keeps_run {last : World Store} {actions : List (Action Checkpoint)}
    (hrun : Machine.run (World.step saver) world actions = some last)
    (hlive : Along (World.step saver) (fun state _ => state.Live threadId) world actions) :
    World.Keeps saver world threadId last := by
  refine invariant_along ?_ ?_ hrun hlive
  · intro state action next hkeeps hstate hstep
    exact hkeeps.trans (World.Live.step hstate hstep)
  · exact List.prefix_rfl

/-! ## The same pass again -/

theorem sweepChatContent_again (content : ContentStore) (tenant : TenantContext)
    (now : Instant) :
    (RetentionSweep.sweepChatContent (RetentionSweep.sweepChatContent content tenant now).2
      tenant now).2 = (RetentionSweep.sweepChatContent content tenant now).2 := by
  -- no session left by the first pass is past its window, so nothing hangs off one
  have hgone : ∀ sessionId, RetentionSweep.sessionGone
      (RetentionSweep.sweepChatContent content tenant now).2 tenant now sessionId = false := by
    intro sessionId
    rw [← Bool.not_eq_true, RetentionSweep.sessionGone_iff]
    rintro ⟨row, hrow, hpast, _⟩
    rw [(Table.mem_delete.mp hrow).2] at hpast
    cases hpast
  have hmessage : ∀ messageId, RetentionSweep.messageGone
      (RetentionSweep.sweepChatContent content tenant now).2 tenant now messageId = false := by
    intro messageId
    rw [← Bool.not_eq_true, RetentionSweep.messageGone_iff]
    rintro ⟨message, _, _, hsession⟩
    rw [hgone] at hsession
    cases hsession
  have hsessions : (RetentionSweep.sweepChatContent content tenant now).2.sessions.delete
      (RetentionSweep.pastWindow tenant now) =
        (RetentionSweep.sweepChatContent content tenant now).2.sessions := by
    simp [RetentionSweep.sweepChatContent, Table.delete]
  conv_lhs => rw [RetentionSweep.sweepChatContent]
  simp only [hgone, hmessage, hsessions, Bool.or_self, Bool.not_false, List.filter_true]

/-- What the pass would remove is gone already. -/
structure World.Settled (saver : CheckpointSaver Store Checkpoint) (world : World Store)
    (tenant : TenantContext) (now : Instant) (overrides : RetentionOverrides) : Prop where
  content : (RetentionSweep.sweepChatContent world.content tenant now).2 = world.content
  threads : ∀ threadIds,
    eligibleCheckpointThreads world.content.workItems tenant now overrides = .ok threadIds →
      ∀ threadId ∈ threadIds, saver.held world.threads threadId = []

/-- A pass that returned. -/
def World.Returns (saver : CheckpointSaver Store Checkpoint) (world : World Store)
    (tenant : TenantContext) (now : Instant) (overrides : RetentionOverrides) : Prop :=
  ∃ result, (sweepTenant saver world.content world.threads tenant now overrides).result =
    .ok result

theorem World.Returns.settled (h : world.Returns saver tenant now overrides) :
    (world.sweep saver tenant now overrides).Settled saver tenant now overrides := by
  obtain ⟨result, hresult⟩ := h
  have hcontent : (world.sweep saver tenant now overrides).content =
      (RetentionSweep.sweepChatContent world.content tenant now).2 := by
    simp only [World.sweep, Swept.committed, hresult]
    unfold sweepTenant
    dsimp only
    split <;> rfl
  refine ⟨by rw [hcontent, sweepChatContent_again], ?_⟩
  intro threadIds helig threadId hthread
  rw [hcontent] at helig
  change eligibleCheckpointThreads world.content.workItems tenant now overrides = _ at helig
  have hitems : (RetentionSweep.sweepChatContent world.content tenant now).2.workItems =
      world.content.workItems := rfl
  simp only [sweepTenant, hitems, helig] at hresult
  simp only [World.sweep, sweepTenant, hitems, helig]
  cases hpruned : (pruneCheckpoints saver world.threads threadIds).1 with
  | error error =>
      rw [hpruned] at hresult
      cases hresult
  | ok count => exact held_pruneFrom_ok hpruned hthread

theorem World.Settled.sweep (h : world.Settled saver tenant now overrides) :
    (world.sweep saver tenant now overrides).content = world.content ∧
      ∀ threadId, saver.held (world.sweep saver tenant now overrides).threads threadId =
        saver.held world.threads threadId := by
  constructor
  · have hswept : (sweepTenant saver world.content world.threads tenant now
        overrides).content = world.content := by
      rw [← h.content]
      unfold sweepTenant
      dsimp only
      rw [h.content]
      split <;> exact h.content
    simp only [World.sweep, Swept.committed]
    split
    · exact hswept
    · rfl
  · intro threadId
    have hitems : (RetentionSweep.sweepChatContent world.content tenant now).2.workItems =
        world.content.workItems := rfl
    simp only [World.sweep, sweepTenant, hitems]
    cases helig : eligibleCheckpointThreads world.content.workItems tenant now overrides with
    | error error => rfl
    | ok threadIds =>
        dsimp only [pruneCheckpoints]
        by_cases hthread : threadId ∈ threadIds
        · have hempty := h.threads threadIds helig threadId hthread
          rcases held_pruneFrom saver 0 world.threads threadIds threadId with hnil | hsame
          · rw [hnil, hempty]
          · exact hsame
        · exact held_pruneFrom_other hthread

theorem World.Settled.sweep_settled (h : world.Settled saver tenant now overrides) :
    (world.sweep saver tenant now overrides).Settled saver tenant now overrides := by
  obtain ⟨hcontent, hthreads⟩ := World.Settled.sweep h
  refine ⟨by rw [hcontent, h.content], ?_⟩
  intro threadIds helig threadId hthread
  rw [hcontent] at helig
  rw [hthreads]
  exact h.threads threadIds helig threadId hthread

/-- Any number of further passes. -/
theorem World.Settled.run {again : Nat} {last : World Store}
    (h : world.Settled saver tenant now overrides)
    (hrun : Machine.run (World.step saver) world
      (List.replicate again (.sweep tenant now overrides)) = some last) :
    last.content = world.content ∧
      ∀ threadId, saver.held last.threads threadId = saver.held world.threads threadId := by
  induction again generalizing world with
  | zero =>
      injection hrun with hrun
      rw [hrun]
      exact ⟨rfl, fun _ => rfl⟩
  | succ again ih =>
      obtain ⟨next, hnext, hrest⟩ := run_cons.mp hrun
      injection hnext with hnext
      rw [← hnext] at hrest
      obtain ⟨hcontent, hthreads⟩ := ih h.sweep_settled hrest
      obtain ⟨hcontentFirst, hthreadsFirst⟩ := World.Settled.sweep h
      exact ⟨hcontent.trans hcontentFirst, fun threadId =>
        (hthreads threadId).trans (hthreadsFirst threadId)⟩

/-! ## Every pass of every run -/

/-- Names tell people apart; every pass of a run empties only threads all of whose
work is completed and past its window; the thread of work that stays live loses
nothing in a run; and after a pass that returned, the same pass any number of times
more changes nothing. -/
theorem checkpoint_sweeps_spare_live_work (saver : CheckpointSaver Store Checkpoint)
    {world last : World Store} {actions : List (Action Checkpoint)}
    (hrun : run (World.step saver) world actions = some last) :
    (∀ a b : RunContext, threadConfig a = threadConfig b →
      a.tenant.tenantId = b.tenant.tenantId ∧ a.requester = b.requester ∧
        a.sessionId = b.sessionId) ∧
    Along (World.step saver) (fun state action => ∀ tenant now overrides,
      action = .sweep tenant now overrides → ∀ threadId,
        saver.held (state.sweep saver tenant now overrides).threads threadId ≠
          saver.held state.threads threadId →
        ¬ state.Live threadId ∧ state.AllPast threadId tenant now overrides) world actions ∧
    (∀ threadId, Along (World.step saver) (fun state _ => state.Live threadId) world actions →
      saver.held world.threads threadId <+: saver.held last.threads threadId) ∧
    (∀ tenant now overrides, last.Returns saver tenant now overrides →
      ∀ again final, run (World.step saver) (last.sweep saver tenant now overrides)
        (List.replicate again (.sweep tenant now overrides)) = some final →
      final.content = (last.sweep saver tenant now overrides).content ∧
        ∀ threadId, saver.held final.threads threadId =
          saver.held (last.sweep saver tenant now overrides).threads threadId) := by
  refine ⟨fun a b => threadConfig_inj, along_of_forall ?_, ?_, ?_⟩
  · intro before action after state _ _ tenant now overrides _ threadId hne
    exact ⟨fun hlive => hne hlive.sweep, World.allPast_of_sweep hne⟩
  · intro threadId hlive
    exact World.keeps_run hrun hlive
  · intro tenant now overrides hreturns again final hagain
    exact hreturns.settled.run hagain

/-- A saver that keeps its threads in memory. -/
def memorySaver : CheckpointSaver (List CodePoint → List Nat) Nat where
  held store := store
  aput store threadId checkpoint :=
    Function.update store threadId (store threadId ++ [checkpoint])
  adeleteThread store threadId := (true, Function.update store threadId [])
  held_aput store threadId checkpoint other := by
    by_cases h : other = threadId
    · rw [h, Function.update_self, if_pos rfl]
    · rw [Function.update_of_ne h, if_neg h]
  held_other store threadId other h := Function.update_of_ne h _ _
  held_deleted store threadId _ := Function.update_self _ _ _
  held_raised store threadId := Or.inl (Function.update_self _ _ _)

def sweptTenant : TenantContext := ⟨⟨1⟩, ⟨2⟩, .active, .platformObject⟩

/-- An item executed at the epoch, in the first session. -/
def executedItem : WorkItemRow :=
  ⟨⟨3⟩, ⟨1⟩, ⟨4⟩, ⟨5⟩, .executed, .approved, none, none, none, 1, 0, WorkItemRow.unclaimed⟩

/-- An item that waits for a decision, in the second. -/
def waitingItem : WorkItemRow :=
  ⟨⟨6⟩, ⟨1⟩, ⟨7⟩, ⟨5⟩, .awaitingDecision, .pending, none, none, none, 1, 0,
    WorkItemRow.unclaimed⟩

theorem onePerSession_nil :
    ((({} : ContentStore).workItems.rows.map WorkItemRow.sessionId)).Nodup := List.nodup_nil

def emptyWorld : World (List CodePoint → List Nat) := ⟨{}, fun _ => [], onePerSession_nil⟩

/-- Two conversations are put, their work is committed, and a pass a year later
empties the first thread and not the second. -/
def sweptRun : List (Action Nat) :=
  [.checkpoint ⟨sweptTenant, ⟨5⟩, ⟨[]⟩, ⟨4⟩, none⟩ 0,
    .checkpoint ⟨sweptTenant, ⟨5⟩, ⟨[]⟩, ⟨7⟩, none⟩ 1,
    .commitWork executedItem, .commitWork waitingItem,
    .sweep sweptTenant (days 365) none]

def sweptWorld : World (List CodePoint → List Nat) :=
  (run (World.step memorySaver) emptyWorld sweptRun).getD emptyWorld

theorem sweptRun_spares :
    sweptWorld.threads executedItem.threadId = [] ∧
      sweptWorld.threads waitingItem.threadId = [1] ∧
      ∀ final, run (World.step memorySaver)
        (sweptWorld.sweep memorySaver sweptTenant (days 365) none)
          (List.replicate 3 (.sweep sweptTenant (days 365) none)) = some final →
        ∀ threadId, final.threads threadId =
          (sweptWorld.sweep memorySaver sweptTenant (days 365) none).threads threadId := by
  refine ⟨by decide +kernel, by decide +kernel, ?_⟩
  intro final hfinal
  have hrun : run (World.step memorySaver) emptyWorld sweptRun = some sweptWorld := rfl
  have hreturns : sweptWorld.Returns memorySaver sweptTenant (days 365) none :=
    ⟨⟨⟨1⟩, 0, 1, 1⟩, by decide +kernel⟩
  exact ((checkpoint_sweeps_spare_live_work memorySaver hrun).2.2.2 sweptTenant (days 365) none
    hreturns 3 final hfinal).2

end CheckpointSweep

end Synthia
