import Synthia.ReadModels.Identity
import Synthia.ReadModels.Keyset

/-!
# The read models over sessions

`SynthiaReadContext`, and the read models of `Synthia.Modules.Sessions` over it. Every
view is queried through one filter, which the scope of the request fills in; the
admission lookup alone goes past it. A query says which rows it was let see, whatever
it keeps of them, so that seeing none is something to be stated.
-/

namespace Synthia

open Text Relational

/-! ## The context -/

/-- The views, with the keys the context maps them by. A message is rated by its session's
requester and by nobody else, so the message tells its signals apart. -/
structure ReadDatabase where
  sessionSummaries : Table PublishedViews.SessionSummaryRow fun row => row.sessionId
  sessionMessages : Table PublishedViews.SessionMessageRow fun row => row.messageId
  sessionSteps : Table PublishedViews.SessionStepRow fun row => row.stepId
  messageFeedback : Table PublishedViews.MessageFeedbackRow fun row => row.messageId
  tenants : Registry

/-- `ITenantScopedRow`. -/
inductive TenantScopedRow where
  | sessionSummary (row : PublishedViews.SessionSummaryRow)
  | sessionMessage (row : PublishedViews.SessionMessageRow)
  | sessionStep (row : PublishedViews.SessionStepRow)
  | messageFeedback (row : PublishedViews.MessageFeedbackRow)
  | tenant (row : PublishedViews.TenantRow)
  deriving DecidableEq

/-- A computation over the views, with the rows it was let see. -/
abbrev Reading := StateM (List TenantScopedRow)

namespace Reading

variable {α : Type}

def answer (reading : Reading α) : α := (Id.run (reading.run [])).1

def rowsSeen (reading : Reading α) : List TenantScopedRow := (Id.run (reading.run [])).2

end Reading

def TenantScope.organisation : TenantScope → Option TenantContext
  | .singleOrganisation organisation => some organisation
  | .none | .operatorWide => Option.none

/-- The predicate `HasQueryFilter` is given; no row is soft-deletable. -/
def ReadModelQueryFilter.build {Row : Type} (hasOrganisation : Bool) (currentTenantId : Uuid)
    (operatorWide : Bool) (tenantId : Row → Uuid) (row : Row) : Bool :=
  (hasOrganisation && tenantId row == currentTenantId) || operatorWide

structure SynthiaReadContext where
  database : ReadDatabase
  tenantScope : TenantScope

namespace SynthiaReadContext

variable (context : SynthiaReadContext)

def hasOrganisationScope : Bool := context.tenantScope.organisation.isSome

/-- `Guid.Empty` where there is none. -/
def currentTenantId : Uuid :=
  match context.tenantScope.organisation with
  | some organisation => organisation.tenantId.value
  | none => 0

def isOperatorWide : Bool := context.tenantScope == .operatorWide

def tenantScopedView {Row : Type} (rows : List Row) (tenantId : Row → Uuid)
    (seen : Row → TenantScopedRow) : Reading (List Row) := do
  let admitted := rows.filter (ReadModelQueryFilter.build context.hasOrganisationScope
    context.currentTenantId context.isOperatorWide tenantId)
  modify fun log => log ++ admitted.map seen
  return admitted

def sessionSummaries : Reading (List PublishedViews.SessionSummaryRow) :=
  context.tenantScopedView context.database.sessionSummaries.rows (·.tenantId) .sessionSummary

def sessionMessages : Reading (List PublishedViews.SessionMessageRow) :=
  context.tenantScopedView context.database.sessionMessages.rows (·.tenantId) .sessionMessage

def sessionSteps : Reading (List PublishedViews.SessionStepRow) :=
  context.tenantScopedView context.database.sessionSteps.rows (·.tenantId) .sessionStep

def messageFeedback : Reading (List PublishedViews.MessageFeedbackRow) :=
  context.tenantScopedView context.database.messageFeedback.rows (·.tenantId) .messageFeedback

end SynthiaReadContext

/-! ## What is answered -/

structure SessionSummary where
  sessionId : Uuid
  tenantId : Uuid
  state : SessionState
  caseReference : Option String
  createdAt : DateTimeOffset
  updatedAt : DateTimeOffset
  closedAt : Option DateTimeOffset
  deriving DecidableEq

structure SessionMessage where
  messageId : Uuid
  sessionId : Uuid
  tenantId : Uuid
  senderKind : SenderKind
  senderOid : Option Uuid
  body : String
  createdAt : DateTimeOffset
  deriving DecidableEq

structure SessionStep where
  stepId : Uuid
  sessionId : Uuid
  tenantId : Uuid
  kind : String
  summary : String
  createdAt : DateTimeOffset
  deriving DecidableEq

structure MessageFeedback where
  messageId : Uuid
  sessionId : Uuid
  tenantId : Uuid
  signal : FeedbackSignal
  updatedAt : DateTimeOffset
  deriving DecidableEq

structure SortSpec where
  field : String
  direction : KeysetDirection
  deriving DecidableEq

/-- A validated page request. Its position is an anchor, field by field. -/
structure KeysetRequest where
  limit : Nat
  sort : SortSpec
  position : Option KeysetAnchor

structure KeysetPage (Item : Type) where
  items : List Item
  next : Option KeysetAnchor

/-- Why a query raises: a sort field no key is under, or what paging raises. -/
inductive QueryFailure where
  | keyNotFound
  | paging (error : PagingError)
  deriving DecidableEq

/-- Narrowing by an optional filter. -/
def whereSome {Row Value : Type} (filter : Option Value) (meets : Value → Row → Bool)
    (query : List Row) : List Row :=
  match filter with
  | none => query
  | some value => query.filter (meets value)

/-- A page of a query, under the sort key its request names. -/
def pageOver {Row Item : Type} (store : Database) (sortKeys : List (KeysetSortKey Row))
    (project : Row → Item) (query : List Row) (request : KeysetRequest) :
    Except QueryFailure (KeysetPage Item) :=
  match sortKeys.find? fun sortKey => sortKey.field == request.sort.field with
  | none => .error .keyNotFound
  | some sortKey =>
      match takeAsync store query sortKey request.sort.direction request.position
        request.limit with
      | .error error => .error (.paging error)
      | .ok slice => .ok ⟨slice.rows.map project, slice.next⟩

def senderKindNumber : SenderKind → Int
  | .endUser => 1
  | .agent => 2
  | .staff => 3

/-! ## Sessions -/

namespace SessionReadModel

variable (store : Database) (context : SynthiaReadContext)

def projectSummary (row : PublishedViews.SessionSummaryRow) : SessionSummary :=
  ⟨row.sessionId, row.tenantId, row.state, row.caseReference, row.createdAt, row.updatedAt,
    row.closedAt⟩

def projectMessage (row : PublishedViews.SessionMessageRow) : SessionMessage :=
  ⟨row.messageId, row.sessionId, row.tenantId, row.senderKind, row.senderOid, row.body,
    row.createdAt⟩

def projectStep (row : PublishedViews.SessionStepRow) : SessionStep :=
  ⟨row.stepId, row.sessionId, row.tenantId, row.kind, row.summary, row.createdAt⟩

def pageSummaries (query : List PublishedViews.SessionSummaryRow) (request : KeysetRequest) :
    Except QueryFailure (KeysetPage SessionSummary) :=
  pageOver store SessionSortKeys.summaries projectSummary query request

def stateIs (state : Int) (row : PublishedViews.SessionSummaryRow) : Bool :=
  sessionStateNumber row.state == state

def listAsync (requester : PrincipalId) (state : Option Int) (request : KeysetRequest) :
    Reading (Except QueryFailure (KeysetPage SessionSummary)) := do
  let summaries ← context.sessionSummaries
  let query := summaries.filter fun row => row.requesterOid == requester.value
  return pageSummaries store (whereSome state stateIs query) request

def ownSession (requester : PrincipalId) (sessionId : SessionId)
    (row : PublishedViews.SessionSummaryRow) : Bool :=
  row.sessionId == sessionId.value && row.requesterOid == requester.value

def findAsync (requester : PrincipalId) (sessionId : SessionId) :
    Reading (Option SessionSummary) := do
  let summaries ← context.sessionSummaries
  return (summaries.find? (ownSession requester sessionId)).map projectSummary

/-- The subquery every nested read re-establishes ownership by. -/
def ownSessions (requester : PrincipalId) (sessionId : SessionId) : Reading (List Uuid) := do
  let summaries ← context.sessionSummaries
  return (summaries.filter (ownSession requester sessionId)).map (·.sessionId)

def listMessagesAsync (requester : PrincipalId) (sessionId : SessionId)
    (senderKind : Option Int) (request : KeysetRequest) :
    Reading (Except QueryFailure (KeysetPage SessionMessage)) := do
  let own ← ownSessions context requester sessionId
  let messages ← context.sessionMessages
  let query := messages.filter fun row => own.contains row.sessionId
  return pageOver store SessionSortKeys.messages projectMessage
    (whereSome senderKind (fun kind row => senderKindNumber row.senderKind == kind) query) request

def listStepsAsync (requester : PrincipalId) (sessionId : SessionId) :
    Reading (List SessionStep) := do
  let own ← ownSessions context requester sessionId
  let steps ← context.sessionSteps
  let query := steps.filter fun row => own.contains row.sessionId
  return (orderBy (fun row => toLex (row.createdAt.ticks, row.stepId.toNat)) query).map projectStep

/-- What `ListLiveAsync` pages over. -/
def liveQuery (state : Option Int) (tenantId : Option TenantId)
    (summaries : List PublishedViews.SessionSummaryRow) :
    List PublishedViews.SessionSummaryRow :=
  whereSome tenantId (fun tenant row => row.tenantId == tenant.value)
    (whereSome state stateIs (summaries.filter fun row => row.closedAt.isNone))

def listLiveAsync (state : Option Int) (tenantId : Option TenantId) (request : KeysetRequest) :
    Reading (Except QueryFailure (KeysetPage SessionSummary)) := do
  let summaries ← context.sessionSummaries
  return pageSummaries store (liveQuery state tenantId summaries) request

end SessionReadModel

/-! ## Feedback -/

namespace FeedbackReadModel

def project (row : PublishedViews.MessageFeedbackRow) : MessageFeedback :=
  ⟨row.messageId, row.sessionId, row.tenantId, row.signal, row.updatedAt⟩

def listForSessionAsync (context : SynthiaReadContext) (requester : PrincipalId)
    (sessionId : SessionId) : Reading (List MessageFeedback) := do
  let own ← SessionReadModel.ownSessions context requester sessionId
  let feedback ← context.messageFeedback
  let query := feedback.filter fun row => own.contains row.sessionId
  return (orderBy (fun row => toLex (row.updatedAt.ticks, row.messageId.toNat)) query).map project

end FeedbackReadModel

/-! ## Admission -/

/-- `TryBindScopeAsync`, with the row the admission lookup reads past the filter. -/
def tryBindScopeAsync (database : ReadDatabase) (principal : AuthenticatedPrincipal) :
    Reading (Option TenantScope) := do
  if principal.audience ≠ .staff then
    modify fun log => log ++
      (TenantRegistry.findAsync database.tenants principal.identity.tenantId).toList.map .tenant
  return tryBindScope database.tenants principal

end Synthia
