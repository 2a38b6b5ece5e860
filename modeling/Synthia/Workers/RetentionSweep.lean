import Mathlib.Logic.Function.Basic
import Synthia.Graph.Turns
import Synthia.Lib.Machine
import Synthia.Persistence.Audit
import Synthia.Persistence.Sessions
import Synthia.Persistence.WorkItems

/-!
# The content sweep

`workers.retention_sweep.sweep_chat_content`, over the tables its one statement can
reach: the sessions it deletes, the messages, steps and feedback that go with them
by `ON DELETE CASCADE`, and the work items and audit events that do not.

Around it are the callers that move sessions. A caller reads a session, asks the
state machine for the move, asks the retention module for the content's expiry and
makes the guarded update with the version it read. Any number of them do so at
once, each on what it read last.
-/

namespace Synthia

open Relational

structure MessageId where
  value : Uuid
  deriving DecidableEq, Repr

/-- A `message` row, by the columns a cascade follows. -/
structure MessageRow where
  messageId : MessageId
  sessionId : SessionId
  tenantId : TenantId
  deriving DecidableEq, Repr

/-- A `session_step` row. -/
structure SessionStepRow where
  stepId : Uuid
  sessionId : SessionId
  tenantId : TenantId
  deriving DecidableEq, Repr

/-- A `feedback` row. It references its message and its session, and goes with
either. -/
structure FeedbackRow where
  feedbackId : Uuid
  messageId : MessageId
  sessionId : SessionId
  tenantId : TenantId
  deriving DecidableEq, Repr

structure ContentStore where
  sessions : SessionTable := ⟨[], List.nodup_nil⟩
  messages : List MessageRow := []
  steps : List SessionStepRow := []
  feedback : List FeedbackRow := []
  workItems : WorkItemTable := ⟨[], List.nodup_nil⟩
  audit : AuditTable := ⟨[], List.nodup_nil⟩

namespace RetentionSweep

/-- The `WHERE` of the sweep. -/
def pastWindow (tenant : TenantContext) (now : Instant) (row : ChatSessionRow) : Bool :=
  row.tenantId == tenant.tenantId &&
    row.contentExpiresAt.any fun expiresAt => decide (expiresAt ≤ now)

theorem pastWindow_iff {tenant : TenantContext} {now : Instant} {row : ChatSessionRow} :
    pastWindow tenant now row = true ↔
      row.tenantId = tenant.tenantId ∧
        ∃ expiresAt, row.contentExpiresAt = some expiresAt ∧ expiresAt ≤ now := by
  simp [pastWindow, Option.any_eq_true]

/-- A session the sweep removes. -/
def sessionGone (store : ContentStore) (tenant : TenantContext) (now : Instant)
    (sessionId : SessionId) : Bool :=
  store.sessions.rows.any fun row => pastWindow tenant now row && row.sessionId == sessionId

/-- A message that goes with its session. -/
def messageGone (store : ContentStore) (tenant : TenantContext) (now : Instant)
    (messageId : MessageId) : Bool :=
  store.messages.any fun message =>
    message.messageId == messageId && sessionGone store tenant now message.sessionId

def sweepChatContent (store : ContentStore) (tenant : TenantContext) (now : Instant) :
    Nat × ContentStore :=
  (rowsAffected (pastWindow tenant now) store.sessions.rows,
    { store with
      sessions := store.sessions.delete (pastWindow tenant now)
      messages := store.messages.filter fun message =>
        !sessionGone store tenant now message.sessionId
      steps := store.steps.filter fun step => !sessionGone store tenant now step.sessionId
      feedback := store.feedback.filter fun entry =>
        !(sessionGone store tenant now entry.sessionId ||
          messageGone store tenant now entry.messageId) })

theorem sessionGone_iff {store : ContentStore} {tenant : TenantContext} {now : Instant}
    {sessionId : SessionId} :
    sessionGone store tenant now sessionId = true ↔
      ∃ row ∈ store.sessions.rows, pastWindow tenant now row = true ∧
        row.sessionId = sessionId := by
  simp [sessionGone]

theorem messageGone_iff {store : ContentStore} {tenant : TenantContext} {now : Instant}
    {messageId : MessageId} :
    messageGone store tenant now messageId = true ↔
      ∃ message ∈ store.messages, message.messageId = messageId ∧
        sessionGone store tenant now message.sessionId = true := by
  simp [messageGone]

/-! ## The callers that move sessions -/

abbrev CallerId := Nat

/-- What a caller read of a session. -/
structure SessionRead where
  sessionId : SessionId
  state : SessionState
  version : Int
  deriving DecidableEq, Repr

/-- A move that won: the state entered, when, and the overrides then in force. -/
structure Entered where
  sessionId : SessionId
  state : SessionState
  enteredAt : Instant
  overrides : RetentionOverrides
  deriving DecidableEq

structure World where
  store : ContentStore
  reads : CallerId → Option SessionRead := fun _ => none
  /-- The moves that won, oldest first. -/
  entered : List Entered := []

inductive Action where
  | read (caller : CallerId) (tenant : TenantContext) (sessionId : SessionId)
  | move (caller : CallerId) (tenant : TenantContext) (requested : SessionState)
      (now : Instant) (overrides : RetentionOverrides) (databaseNow : Instant)
  | sweep (tenant : TenantContext) (now : Instant)

/-- What a caller passes to the repository, where neither the state machine nor
the retention module raises. -/
def plan (read : SessionRead) (requested : SessionState) (now : Instant)
    (overrides : RetentionOverrides) : Option (SessionState × Option Instant) :=
  match transition read.state requested with
  | .error _ => none
  | .ok state =>
      match contentExpiryFor state now overrides with
      | .error _ => none
      | .ok contentExpiresAt => some (state, contentExpiresAt)

namespace World

def read (world : World) (caller : CallerId) (tenant : TenantContext)
    (sessionId : SessionId) : World :=
  { world with
    reads := Function.update world.reads caller
      ((SessionRepository.get world.store.sessions tenant sessionId).map fun row =>
        ⟨row.sessionId, row.state, row.version⟩) }

def move (world : World) (caller : CallerId) (tenant : TenantContext)
    (requested : SessionState) (now : Instant) (overrides : RetentionOverrides)
    (databaseNow : Instant) : Option World :=
  match world.reads caller with
  | none => none
  | some read =>
      match plan read requested now overrides with
      | none => some world
      | some (state, contentExpiresAt) =>
          let written := SessionRepository.transition world.store.sessions tenant
            read.sessionId state read.version contentExpiresAt databaseNow
          some { world with
            store := { world.store with sessions := written.2 }
            entered := if written.1 then
                world.entered ++ [⟨read.sessionId, state, now, overrides⟩]
              else
                world.entered }

def step (world : World) : Action → Option World
  | .read caller tenant sessionId => some (world.read caller tenant sessionId)
  | .move caller tenant requested now overrides databaseNow =>
      world.move caller tenant requested now overrides databaseNow
  | .sweep tenant now => some { world with store := (sweepChatContent world.store tenant now).2 }

end World

end RetentionSweep

end Synthia

/-!
## The checkpoint sweep

The rest of `workers.retention_sweep`: which threads are past their window, their
removal through the checkpointer, and one organisation's whole pass.

The threads are chosen from the work items. `work_item.session_id` is unique and
none of the columns a thread is named by may change, so a thread has at most one
work item; the tables a pass reads carry that.

Around the pass are the writers it runs beside: the host putting checkpoints, and
the work items being committed, claimed and moved.
-/

namespace Synthia

open Relational Text

/-- `datetime.min` in UTC. -/
def minInstant : Instant := -62135596800000000

/-- `datetime - timedelta`. -/
def subDuration (instant : Instant) (duration : Duration) : Except DateError Instant :=
  if instant - duration < minInstant then .error .overflow else .ok (instant - duration)

/-- The thread the host keeps a work item's conversation under. -/
def WorkItemRow.threadId (row : WorkItemRow) : List CodePoint :=
  checkpointThreadId row.tenantId.value row.requestedByOid.value row.sessionId.value

namespace CheckpointSweep

variable {Store Checkpoint : Type}

/-- What a pass raises. -/
inductive SweepError where
  | date (error : DateError)
  | checkpointer
  deriving DecidableEq, Repr

structure SweepResult where
  tenantId : TenantId
  sessionsRemoved : Nat
  checkpointsEligible : Nat
  checkpointsPruned : Nat
  deriving DecidableEq, Repr

/-- The `WHERE` of the selection, past the subtraction. -/
def eligible (tenant : TenantContext) (before : Instant) (row : WorkItemRow) : Bool :=
  row.tenantId == tenant.tenantId && completedWorkStates.contains row.state &&
    decide (row.updatedAt ≤ before)

def eligibleCheckpointThreads (workItems : WorkItemTable) (tenant : TenantContext)
    (now : Instant) (overrides : RetentionOverrides) :
    Except DateError (List (List CodePoint)) := do
  let window ← windowFor .graphCheckpoint overrides
  let before ← subDuration now window.duration
  return (workItems.rows.filter (eligible tenant before)).map WorkItemRow.threadId

/-- The loop of `prune_checkpoints`, with the count so far. The first delete that
raises ends it. -/
def pruneFrom (saver : CheckpointSaver Store Checkpoint) (pruned : Nat) (store : Store) :
    List (List CodePoint) → Except SweepError Nat × Store
  | [] => (.ok pruned, store)
  | threadId :: threadIds =>
      let deleted := saver.adeleteThread store threadId
      if deleted.1 then
        pruneFrom saver (pruned + 1) deleted.2 threadIds
      else
        (.error .checkpointer, deleted.2)

def pruneCheckpoints (saver : CheckpointSaver Store Checkpoint) (store : Store)
    (threadIds : List (List CodePoint)) : Except SweepError Nat × Store :=
  pruneFrom saver 0 store threadIds

/-- A pass, with what it left of the tables in its session and of the threads. -/
structure Swept (Store : Type) where
  result : Except SweepError SweepResult
  content : ContentStore
  threads : Store

def sweepTenant (saver : CheckpointSaver Store Checkpoint) (content : ContentStore)
    (threads : Store) (tenant : TenantContext) (now : Instant)
    (overrides : RetentionOverrides) : Swept Store :=
  let swept := RetentionSweep.sweepChatContent content tenant now
  match eligibleCheckpointThreads swept.2.workItems tenant now overrides with
  | .error error => ⟨.error (.date error), swept.2, threads⟩
  | .ok threadIds =>
      let pruned := pruneCheckpoints saver threads threadIds
      ⟨pruned.1.map fun count => ⟨tenant.tenantId, swept.1, threadIds.length, count⟩,
        swept.2, pruned.2⟩

/-- The tables once the caller's transaction has ended: what the pass did, or, where
it raised, what was there before. A thread deleted stays deleted either way. -/
def Swept.committed (swept : Swept Store) (before : ContentStore) : ContentStore :=
  match swept.result with
  | .ok _ => swept.content
  | .error _ => before

/-! ### The writers beside it -/

structure World (Store : Type) where
  content : ContentStore
  threads : Store
  /-- `uq_work_item_session_id`. -/
  onePerSession : (content.workItems.rows.map WorkItemRow.sessionId).Nodup

inductive Action (Checkpoint : Type) where
  | checkpoint (context : RunContext) (checkpoint : Checkpoint)
  | commitWork (row : WorkItemRow)
  | claim (tenant : TenantContext) (workItemId : WorkItemId) (claimedBy : String)
      (now databaseNow : Instant)
  | moveWork (tenant : TenantContext) (workItemId : WorkItemId) (state : WorkItemState)
      (expectedVersion : Int) (databaseNow : Instant)
  | sweep (tenant : TenantContext) (now : Instant) (overrides : RetentionOverrides)

/-- An update of the work items that leaves their sessions alone. -/
theorem onePerSession_update {workItems : WorkItemTable} {pred : WorkItemRow → Bool}
    {change : Change WorkItemRow.workItemId}
    (hkeep : ∀ row, (change.apply row).sessionId = row.sessionId)
    (h : (workItems.rows.map WorkItemRow.sessionId).Nodup) :
    ((workItems.update pred change).rows.map WorkItemRow.sessionId).Nodup := by
  have hsame : (workItems.update pred change).rows.map WorkItemRow.sessionId =
      workItems.rows.map WorkItemRow.sessionId := map_updateRows hkeep
  rw [hsame]
  exact h

theorem onePerSession_insert {workItems : WorkItemTable} {row : WorkItemRow}
    (hfresh : row.workItemId ∉ workItems.rows.map WorkItemRow.workItemId)
    (hsession : row.sessionId ∉ workItems.rows.map WorkItemRow.sessionId)
    (h : (workItems.rows.map WorkItemRow.sessionId).Nodup) :
    ((workItems.insert row hfresh).rows.map WorkItemRow.sessionId).Nodup := by
  show ((workItems.rows ++ [row]).map WorkItemRow.sessionId).Nodup
  rw [List.map_append, List.map_singleton]
  exact (List.nodup_append_comm.mp (List.nodup_cons.mpr ⟨hsession, h⟩))

theorem sweepTenant_workItems {saver : CheckpointSaver Store Checkpoint}
    {content : ContentStore} {threads : Store} {tenant : TenantContext} {now : Instant}
    {overrides : RetentionOverrides} :
    (sweepTenant saver content threads tenant now overrides).content.workItems =
      content.workItems := by
  unfold sweepTenant
  dsimp only
  split <;> rfl

theorem onePerSession_committed {saver : CheckpointSaver Store Checkpoint}
    {content : ContentStore} {threads : Store} {tenant : TenantContext} {now : Instant}
    {overrides : RetentionOverrides}
    (h : (content.workItems.rows.map WorkItemRow.sessionId).Nodup) :
    (((sweepTenant saver content threads tenant now overrides).committed
      content).workItems.rows.map WorkItemRow.sessionId).Nodup := by
  unfold Swept.committed
  split
  · rw [sweepTenant_workItems]
    exact h
  · exact h

namespace World

/-- `INSERT INTO work_item`, refused by either of the table's unique keys. -/
def commitWork (world : World Store) (row : WorkItemRow) : World Store :=
  if hfresh : row.workItemId ∉ world.content.workItems.rows.map WorkItemRow.workItemId then
    if hsession : row.sessionId ∉ world.content.workItems.rows.map WorkItemRow.sessionId then
      { world with
        content :=
          { world.content with workItems := world.content.workItems.insert row hfresh }
        onePerSession := onePerSession_insert hfresh hsession world.onePerSession }
    else
      world
  else
    world

def claim (world : World Store) (tenant : TenantContext) (workItemId : WorkItemId)
    (claimedBy : String) (now databaseNow : Instant) : World Store :=
  { world with
    content :=
      { world.content with
        workItems := (WorkItemRepository.claim world.content.workItems tenant workItemId
          claimedBy now databaseNow).2 }
    onePerSession := onePerSession_update (fun _ => rfl) world.onePerSession }

def moveWork (world : World Store) (tenant : TenantContext) (workItemId : WorkItemId)
    (state : WorkItemState) (expectedVersion : Int) (databaseNow : Instant) : World Store :=
  { world with
    content :=
      { world.content with
        workItems := (WorkItemRepository.transition world.content.workItems tenant workItemId
          state expectedVersion databaseNow).2 }
    onePerSession := onePerSession_update (fun _ => rfl) world.onePerSession }

def sweep (saver : CheckpointSaver Store Checkpoint) (world : World Store)
    (tenant : TenantContext) (now : Instant) (overrides : RetentionOverrides) :
    World Store :=
  let swept := sweepTenant saver world.content world.threads tenant now overrides
  { content := swept.committed world.content
    threads := swept.threads
    onePerSession := onePerSession_committed world.onePerSession }

def step (saver : CheckpointSaver Store Checkpoint) (world : World Store) :
    Action Checkpoint → Option (World Store)
  | .checkpoint context checkpoint =>
      some { world with threads := saver.aput world.threads (threadConfig context) checkpoint }
  | .commitWork row => some (world.commitWork row)
  | .claim tenant workItemId claimedBy now databaseNow =>
      some (world.claim tenant workItemId claimedBy now databaseNow)
  | .moveWork tenant workItemId state expectedVersion databaseNow =>
      some (world.moveWork tenant workItemId state expectedVersion databaseNow)
  | .sweep tenant now overrides => some (world.sweep saver tenant now overrides)

end World

end CheckpointSweep

end Synthia
