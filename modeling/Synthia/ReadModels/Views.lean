import Synthia.Lib.Calendar
import Synthia.Persistence.Feedback

/-!
# The published views, as the read side maps them

`Synthia.Persistence.Views`: one record a view, with the columns something here
reads. A `timestamptz` arrives as a `DateTimeOffset` of offset zero, so what is
left of one is its ticks.
-/

namespace Synthia

open Text

/-- One past the last tick of the year 9999. -/
def tickLimit : Nat := Calendar.dayLimit * 86400 * 10000000

theorem zero_lt_tickLimit : 0 < tickLimit := by decide +kernel

/-- A `DateTimeOffset` in UTC, in ticks of a hundred nanoseconds from the first
midnight of the year 1. -/
structure DateTimeOffset where
  ticks : Nat
  bounded : ticks < tickLimit
  deriving DecidableEq

namespace PublishedViews

structure SessionSummaryRow where
  sessionId : Uuid
  tenantId : Uuid
  requesterOid : Uuid
  state : SessionState
  caseReference : Option String
  createdAt : DateTimeOffset
  updatedAt : DateTimeOffset
  closedAt : Option DateTimeOffset
  deriving DecidableEq

structure SessionMessageRow where
  messageId : Uuid
  sessionId : Uuid
  tenantId : Uuid
  senderKind : SenderKind
  senderOid : Option Uuid
  body : String
  createdAt : DateTimeOffset
  deriving DecidableEq

structure SessionStepRow where
  stepId : Uuid
  sessionId : Uuid
  tenantId : Uuid
  kind : String
  summary : String
  createdAt : DateTimeOffset
  deriving DecidableEq

structure MessageFeedbackRow where
  messageId : Uuid
  sessionId : Uuid
  tenantId : Uuid
  signal : FeedbackSignal
  updatedAt : DateTimeOffset
  deriving DecidableEq

structure ApprovalQueueRow where
  approvalId : Uuid
  tenantId : Uuid
  createdAt : DateTimeOffset
  expiresAt : Option DateTimeOffset
  deriving DecidableEq

structure ApprovalUnexecutedRow where
  approvalId : Uuid
  tenantId : Uuid
  decidedAt : DateTimeOffset
  expiresAt : Option DateTimeOffset
  deriving DecidableEq

structure AuditEventRow where
  auditId : Uuid
  tenantId : Uuid
  occurredAt : DateTimeOffset
  workItemId : Option Uuid
  action : String
  deriving DecidableEq

structure TenantRow where
  tenantId : Uuid
  entraTid : Uuid
  displayName : List CodePoint
  status : TenantStatus
  createdAt : DateTimeOffset
  updatedAt : DateTimeOffset
  version : Int
  deriving DecidableEq

end PublishedViews

end Synthia
