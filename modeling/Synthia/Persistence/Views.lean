import Synthia.Lib.Aggregates
import Synthia.Persistence.Decisions
import Synthia.Persistence.Feedback
import Synthia.Persistence.Retention
import Synthia.Persistence.Sessions
import Synthia.ReadModels.Views
import Synthia.Workers.RetentionSweep

/-!
# The dashboard rollup

`vw_dashboard_rollup_v1`, over the tables it counts, and the content sweep over the same
tables. The view has a window for every day, in UTC, on which an organisation had a
session created or an approval requested. What it counts in a window is chosen by other
instants: sessions by their creation, approvals by their decision, agent messages by
their own creation.

A rate is kept as an exact fraction. The view divides the two counts as doubles.
-/

namespace Synthia

open Relational

/-- A `message` row, with when it was written. -/
structure MessageRecord extends AuthoredMessage where
  createdAt : Instant
  deriving DecidableEq

structure ReportingStore where
  sessions : SessionTable := ⟨[], List.nodup_nil⟩
  messages : Table MessageRecord fun row => row.messageId := ⟨[], List.nodup_nil⟩
  steps : List SessionStepRow := []
  feedback : FeedbackTable := ⟨⟨[], List.nodup_nil⟩, FeedbackTable.oneEach_nil⟩
  workItems : WorkItemTable := ⟨[], List.nodup_nil⟩
  approvals : ApprovalTable := ⟨⟨[], List.nodup_nil⟩, List.nodup_nil⟩
  audit : AuditTable := ⟨[], List.nodup_nil⟩

/-- `date_trunc('day', …)`. -/
def truncDay (instant : Instant) : Instant := windowStart (days 1) instant

/-- A row of `vw_dashboard_rollup_v1`. -/
@[ext]
structure RollupRow where
  tenantId : TenantId
  windowStart : Instant
  windowEnd : Instant
  sessionCount : Nat
  approvalCount : Nat
  unexecutedApprovalCount : Nat
  feedbackRate : ℚ
  deriving DecidableEq

/-- `instant >= window_start AND instant < window_end`. -/
def RollupRow.covers (row : RollupRow) (instant : Instant) : Bool :=
  decide (row.windowStart ≤ instant) && decide (instant < row.windowEnd)

namespace ReportingStore

/-- The `windows` of the view: `UNION` keeps one of each. -/
def windows (store : ReportingStore) : List (TenantId × Instant) :=
  (store.sessions.rows.map (fun row => (row.tenantId, truncDay row.createdAt)) ++
    store.approvals.rows.map fun row => (row.tenantId, truncDay row.requestedAt)).dedup

/-- `instant >= b.window_start AND instant < b.window_end`, for the day from an instant. -/
def inDay (start instant : Instant) : Bool :=
  decide (start ≤ instant) && decide (instant < start + days 1)

/-- The same of a column that may be null. -/
def decidedIn (start : Instant) (row : ApprovalRow) : Bool :=
  row.decidedAt.any (inDay start)

/-- The condition the view joins an approval's work item by. -/
def worksOn (approval : ApprovalRow) (work : WorkItemRow) : Bool :=
  work.workItemId == approval.workItemId && work.tenantId == approval.tenantId

/-- The condition the view joins a message's signals by. -/
def signalOn (message : MessageRecord) (signal : SignalRow) : Bool :=
  signal.messageId == message.messageId && signal.tenantId == message.tenantId

/-- The agent messages of an organisation in a day. -/
def agentMessage (tenantId : TenantId) (start : Instant) (message : MessageRecord) : Bool :=
  message.tenantId == tenantId && message.senderKind == .agent &&
    inDay start message.createdAt

/-- The rows the rate is taken over. -/
def rated (messages : List MessageRecord) (feedback : List SignalRow) (tenantId : TenantId)
    (start : Instant) : List (MessageRecord × Option SignalRow) :=
  leftJoin signalOn (messages.filter (agentMessage tenantId start)) feedback

/-- `count(f.feedback_id)`. -/
def signals (joined : List (MessageRecord × Option SignalRow)) : Nat :=
  joined.countP fun row => row.2.isSome

def rollupRow (store : ReportingStore) (window : TenantId × Instant) : RollupRow where
  tenantId := window.1
  windowStart := window.2
  windowEnd := window.2 + days 1
  sessionCount := store.sessions.rows.countP fun row =>
    row.tenantId == window.1 && inDay window.2 row.createdAt
  approvalCount := store.approvals.rows.countP fun row =>
    row.tenantId == window.1 && decidedIn window.2 row
  unexecutedApprovalCount :=
    (innerJoin worksOn store.approvals.rows store.workItems.rows).countP fun row =>
      row.1.tenantId == window.1 && row.1.verdict == some .approved &&
        decidedIn window.2 row.1 && row.2.state != .executed
  feedbackRate :=
    let joined := rated store.messages.rows store.feedback.rows window.1 window.2
    ratio (signals joined) joined.length

def vwDashboardRollupV1 (store : ReportingStore) : List RollupRow :=
  store.windows.map store.rollupRow

/-- The rows of an organisation. -/
def rollupOf (store : ReportingStore) (tenantId : TenantId) : List RollupRow :=
  store.vwDashboardRollupV1.filter fun row => row.tenantId == tenantId

/-! ## The content sweep -/

/-- The tables the sweep was modelled on. -/
def content (store : ReportingStore) : ContentStore where
  sessions := store.sessions
  messages := store.messages.rows.map fun row => row.toMessageRow
  steps := store.steps
  feedback := store.feedback.rows.map SignalRow.toFeedbackRow
  workItems := store.workItems
  audit := store.audit

/-- The session of a message or a signal goes with this sweep. -/
def swept (store : ReportingStore) (tenant : TenantContext) (now : Instant)
    (sessionId : SessionId) : Bool :=
  RetentionSweep.sessionGone store.content tenant now sessionId

/-- A signal goes with its session or with its message. -/
def signalSwept (store : ReportingStore) (tenant : TenantContext) (now : Instant)
    (signal : SignalRow) : Bool :=
  store.swept tenant now signal.sessionId ||
    RetentionSweep.messageGone store.content tenant now signal.messageId

/-- `sweep_chat_content`. -/
def sweepChatContent (store : ReportingStore) (tenant : TenantContext) (now : Instant) :
    ReportingStore :=
  { store with
    sessions := store.sessions.delete (RetentionSweep.pastWindow tenant now)
    messages := store.messages.delete fun message => store.swept tenant now message.sessionId
    steps := store.steps.filter fun step => !store.swept tenant now step.sessionId
    feedback :=
      { store.feedback.delete (store.signalSwept tenant now) with
        oneEach := (List.filter_sublist.map SignalRow.giver).nodup store.feedback.oneEach } }

/-- What it leaves of the tables the sweep was modelled on is what the sweep leaves. -/
theorem content_sweepChatContent (store : ReportingStore) (tenant : TenantContext)
    (now : Instant) :
    (store.sweepChatContent tenant now).content =
      (RetentionSweep.sweepChatContent store.content tenant now).2 := by
  unfold RetentionSweep.sweepChatContent
  show ContentStore.mk _ _ _ _ _ _ = ContentStore.mk _ _ _ _ _ _
  congr 1
  · show _ = List.filter _ (store.messages.rows.map _)
    rw [List.filter_map]
    rfl
  · show _ = List.filter _ (store.feedback.rows.map _)
    rw [List.filter_map]
    rfl

end ReportingStore

end Synthia

/-!
## The published views, as the database answers them

`ragcore.persistence.views`. A view is a query over the tables as they stand at the
instant it is read, so each is a function of the tables, and of `now()` where the
query reads it. What the read side gets is the rows of this.
-/

namespace Synthia

open Relational

/-- A `timestamptz` as the read side's type. A `datetime` never leaves the years 1 to
9999, so the bounds are never met. -/
def DateTimeOffset.ofInstant (instant : Instant) : DateTimeOffset where
  ticks := min ((instant + Calendar.unixEpoch * 1000000) * 10).toNat (tickLimit - 1)
  bounded := by
    have := zero_lt_tickLimit
    omega

/-! ### `vw_session_summary_v1` -/

/-- A `chat_session` row, with the two columns the statements of `SessionRepository`
leave alone. -/
structure SessionRecord extends ChatSessionRow where
  caseReference : Option String
  closedAt : Option Instant
  deriving DecidableEq

abbrev SessionRecordTable := Table SessionRecord fun row => row.sessionId

instance : Versioned SessionRecord fun row => row.sessionId where
  version row := row.version
  manage now row := { row with version := row.version + 1, updatedAt := now }
  version_manage _ _ := rfl
  key_manage _ _ := rfl

namespace SessionRecord

/-- `ChatSessionRow.movedTo`, on the whole row. -/
def movedTo (state : SessionState) (contentExpiresAt : Option Instant) :
    Changes SessionRecord fun row => row.sessionId where
  apply row :=
    { row with
      toChatSessionRow := (ChatSessionRow.movedTo state contentExpiresAt).apply
        row.toChatSessionRow }
  keeps_key _ := rfl
  keeps_version _ := rfl

/-- A session as it is created: in its first state, with no expiry and no closing. -/
def created (sessionId : SessionId) (tenantId : TenantId) (requesterOid : PrincipalId)
    (caseReference : Option String) (now : Instant) : SessionRecord where
  sessionId := sessionId
  tenantId := tenantId
  requesterOid := requesterOid
  state := .conversational
  contentExpiresAt := none
  createdAt := now
  version := 1
  updatedAt := now
  caseReference := caseReference
  closedAt := none

end SessionRecord

/-- `SessionRepository.transition`, on whole rows. -/
def SessionRecordTable.transition (table : SessionRecordTable) (tenant : TenantContext)
    (sessionId : SessionId) (state : SessionState) (expectedVersion : Int)
    (contentExpiresAt : Option Instant) (databaseNow : Instant) : Bool × SessionRecordTable :=
  guardedUpdate table ⟨fun row => row.scopedTo tenant sessionId, expectedVersion⟩
    (SessionRecord.movedTo state contentExpiresAt) databaseNow

/-- The columns the repository works on. -/
def SessionRecordTable.base (table : SessionRecordTable) : SessionTable where
  rows := table.rows.map SessionRecord.toChatSessionRow
  unique := by
    rw [List.map_map]
    exact table.unique

/-- What is done to whole rows is what the repository does to its columns. -/
theorem SessionRecordTable.base_transition (table : SessionRecordTable) (tenant : TenantContext)
    (sessionId : SessionId) (state : SessionState) (expectedVersion : Int)
    (contentExpiresAt : Option Instant) (databaseNow : Instant) :
    SessionRepository.transition table.base tenant sessionId state expectedVersion
        contentExpiresAt databaseNow =
      ((table.transition tenant sessionId state expectedVersion contentExpiresAt
          databaseNow).1,
        SessionRecordTable.base (table.transition tenant sessionId state expectedVersion
          contentExpiresAt databaseNow).2) := by
  unfold SessionRepository.transition SessionRecordTable.transition guardedUpdate
  dsimp only
  refine Prod.ext ?_ ?_
  · dsimp only [SessionRecordTable.base, rowsAffected]
    rw [List.countP_map]
    rfl
  · dsimp only [SessionRecordTable.base, Table.update, updateRows]
    congr 1
    rw [List.map_map, List.map_map]
    refine List.map_congr_left fun row _ => ?_
    rw [Function.comp_apply, Function.comp_apply, apply_ite SessionRecord.toChatSessionRow]
    rfl

/-- The `WHERE` of every view of a session's content. -/
def ChatSessionRow.retained (now : Instant) (row : ChatSessionRow) : Bool :=
  row.contentExpiresAt.all fun expiresAt => decide (expiresAt > now)

def SessionRecord.summary (row : SessionRecord) : PublishedViews.SessionSummaryRow where
  sessionId := row.sessionId.value
  tenantId := row.tenantId.value
  requesterOid := row.requesterOid.value
  state := row.state
  caseReference := row.caseReference
  createdAt := .ofInstant row.createdAt
  updatedAt := .ofInstant row.updatedAt
  closedAt := row.closedAt.map .ofInstant

def vwSessionSummaryV1 (sessions : SessionRecordTable) (now : Instant) :
    Table PublishedViews.SessionSummaryRow fun row => row.sessionId where
  rows := (sessions.rows.filter fun row => row.retained now).map SessionRecord.summary
  unique := by
    rw [List.map_map]
    have hkeys : ((sessions.rows.filter fun row => row.retained now).map
        fun row => row.sessionId).Nodup :=
      (List.filter_sublist.map _).nodup sessions.unique
    have hvalues := hkeys.map (f := SessionId.value) fun a b h => by
      cases a
      cases b
      exact congrArg SessionId.mk h
    rw [List.map_map] at hvalues
    exact hvalues

/-! ### `vw_approval_unexecuted_v1` -/

/-- A row of the view. -/
structure UnexecutedApprovalRow where
  approvalId : ApprovalId
  workItemId : WorkItemId
  tenantId : TenantId
  catalogueId : String
  decidedAt : Option Instant
  decidedByOid : Option PrincipalId
  expiresAt : Option Instant
  version : Int
  deriving DecidableEq

/-- The condition of the lateral subquery. -/
def ApprovalRow.proposedOn (approval : ApprovalRow) (operation : OperationRow) : Bool :=
  operation.workItemId == approval.workItemId && operation.tenantId == approval.tenantId

/-- The lateral subquery: the newest operation, in the order the rows are found. -/
def latestOperation (operations : List OperationRow) (approval : ApprovalRow) :
    Option OperationRow :=
  (orderByDesc OperationRow.createdAt (operations.filter approval.proposedOn)).head?

/-- The `WHERE` of the view. -/
def standsUnexecuted (approval : ApprovalRow) (work : WorkItemRow) : Bool :=
  approval.verdict == some .approved && approval.decidedAt.isSome && work.state != .executed

def ApprovalRow.unexecuted (approval : ApprovalRow) (catalogueId : String) :
    UnexecutedApprovalRow :=
  ⟨approval.approvalId, approval.workItemId, approval.tenantId, catalogueId,
    approval.decidedAt, approval.decidedByOid, approval.expiresAt, approval.version⟩

/-- The operations are in whatever physical order they have. -/
def vwApprovalUnexecutedV1 (approvals : ApprovalTable) (workItems : WorkItemTable)
    (operations : List OperationRow) : List UnexecutedApprovalRow :=
  (innerJoin ReportingStore.worksOn approvals.rows workItems.rows).filterMap fun joined =>
    (latestOperation operations joined.1).bind fun operation =>
      if standsUnexecuted joined.1 joined.2 then
        some (joined.1.unexecuted operation.catalogueId)
      else
        none

end Synthia
