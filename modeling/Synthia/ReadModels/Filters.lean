import Synthia.ReadModels.CustomerViews
import Synthia.ReadModels.Querying

/-!
# The paged resources

Seven routes are paged. Each declares a whitelist, which is what a request is bound
against, and its read model looks the field of the request up among sort keys of its own.
A cursor says nothing of the field or the resource it was issued under: what its sort
value is read as is the new request's to decide.

Which texts the database takes as a parameter of a query is a parameter here.
-/

namespace Synthia

open Text Relational

namespace ResourceQueries

/-- The one query field that looks like authority, and narrows. -/
def tenantNarrowing : String := "tenantId"

def staffLiveSessions : QueryWhitelist :=
  ⟨["createdAt", "updatedAt", "state"], ["state", tenantNarrowing], ⟨"createdAt", .descending⟩⟩

def staffApprovalQueue : QueryWhitelist :=
  ⟨["createdAt", "expiresAt"], [tenantNarrowing], ⟨"createdAt", .descending⟩⟩

def staffUnexecutedApprovals : QueryWhitelist :=
  ⟨["decidedAt", "expiresAt"], [tenantNarrowing], ⟨"decidedAt", .descending⟩⟩

def staffAudit : QueryWhitelist :=
  ⟨["occurredAt"], [tenantNarrowing, "workItemId", "eventKind", "occurredFrom", "occurredTo"],
    ⟨"occurredAt", .descending⟩⟩

def staffTenants : QueryWhitelist :=
  ⟨["displayName", "status"], ["status"], ⟨"displayName", .ascending⟩⟩

end ResourceQueries

/-- A route declared with `PagedOver`. -/
inductive PagedResource where
  | customerSessions
  | customerSessionMessages
  | staffLiveSessions
  | staffApprovalQueue
  | staffUnexecutedApprovals
  | staffAudit
  | staffTenants
  deriving DecidableEq, Repr

namespace PagedResource

def whitelist : PagedResource → QueryWhitelist
  | customerSessions => ResourceQueries.customerSessions
  | customerSessionMessages => ResourceQueries.customerSessionMessages
  | staffLiveSessions => ResourceQueries.staffLiveSessions
  | staffApprovalQueue => ResourceQueries.staffApprovalQueue
  | staffUnexecutedApprovals => ResourceQueries.staffUnexecutedApprovals
  | staffAudit => ResourceQueries.staffAudit
  | staffTenants => ResourceQueries.staffTenants

def Row : PagedResource → Type
  | customerSessions | staffLiveSessions => PublishedViews.SessionSummaryRow
  | customerSessionMessages => PublishedViews.SessionMessageRow
  | staffApprovalQueue => PublishedViews.ApprovalQueueRow
  | staffUnexecutedApprovals => PublishedViews.ApprovalUnexecutedRow
  | staffAudit => PublishedViews.AuditEventRow
  | staffTenants => PublishedViews.TenantRow

def sortKeys : (resource : PagedResource) → List (KeysetSortKey resource.Row)
  | customerSessions | staffLiveSessions => SessionSortKeys.summaries
  | customerSessionMessages => SessionSortKeys.messages
  | staffApprovalQueue => ApprovalSortKeys.queue
  | staffUnexecutedApprovals => ApprovalSortKeys.unexecuted
  | staffAudit => AuditSortKeys.events
  | staffTenants => TenantSortKeys.tenants

/-- The sort key a field is looked up as. -/
def sortKey (resource : PagedResource) (field : String) : Option (KeysetSortKey resource.Row) :=
  resource.sortKeys.find? fun key => key.field == field

end PagedResource

/-! ## A page or a refusal -/

/-- A database, with the texts it takes. -/
structure Server extends Database where
  takes : List CodePoint → Bool

/-- The texts a query has among its parameters. -/
def KeysetSortKey.parameters {Row : Type} (key : KeysetSortKey Row) :
    Option KeysetAnchor → List (List CodePoint)
  | none => []
  | some anchor => if key.type = .string then [anchor.sortValue] else []

inductive PageFailure where
  | query (failure : QueryFailure)
  | database
  deriving DecidableEq

/-- What a request for a page comes to. -/
inductive PageAnswer (Row : Type) where
  | refused (detail : List CodePoint)
  | page (page : KeysetPage Row)
  | raised (failure : PageFailure)

namespace PagedResource

variable (server : Server) (resource : PagedResource)

/-- The page of a bound request. -/
def takePage (source : List resource.Row) (request : KeysetRequest) :
    Except PageFailure (KeysetPage resource.Row) :=
  match pageOver server.toDatabase resource.sortKeys id source request with
  | .error failure => .error (.query failure)
  | .ok page =>
      let parameters := ((resource.sortKey request.sort.field).map fun key =>
        key.parameters request.position).getD []
      if parameters.all server.takes then .ok page else .error .database

/-- `TryBindPage`, and then `TakeAsync` on what it bound. -/
def answer (codec : CursorCodec) (source : List resource.Row) (query : QueryString) :
    PageAnswer resource.Row :=
  match QueryBinding.tryBindPage codec query resource.whitelist with
  | .error detail => .refused detail
  | .ok request =>
      match resource.takePage server source request with
      | .error failure => .raised failure
      | .ok page => .page page

end PagedResource

end Synthia

/-!
## What a view's query binds to

The filters a route declares, with the values it publishes for them, and the handlers of
`CustomerViewEndpoints` and `StaffViewEndpoints` as far as the query goes. A handler
refuses what it does not know, binds the page where its route is paged, and binds its
filters one after another; the audit search then looks at the range it was given. All of
them read the first value a parameter has.

`DateTimeOffset.TryParse` is a parameter: nothing here depends on which texts are
timestamps.
-/

namespace Synthia

open Text Relational

/-! ### Filters -/

/-- What a filter's value is: `FilterKind`, with the enumeration a handler parses into. -/
inductive FilterType where
  | text
  | identifier
  | timestamp
  | enumeration (members : List (Int × String))
  deriving DecidableEq

structure FilterField where
  name : String
  type : FilterType
  deriving DecidableEq

/-- The values `FilterField.Over` publishes of an enumeration. -/
def publishedValues (members : List (Int × String)) : List (List CodePoint) :=
  orderBy id (members.map fun member => (ofString member.2).map asciiLower)

def FilterField.values (field : FilterField) : List (List CodePoint) :=
  match field.type with
  | .enumeration members => publishedValues members
  | .text | .identifier | .timestamp => []

inductive FilterValue where
  | text (value : List CodePoint)
  | identifier (value : Uuid)
  | timestamp (value : DateTimeOffset)
  | member (number : Int)
  deriving DecidableEq

/-! ### Binding a filter -/

namespace QueryBinding

def tryBindGuid (query : QueryString) (field : String) :
    Except (List CodePoint) (Option Uuid) :=
  if isNullOrEmpty (query.first field) then .ok none
  else
    match Guid.tryParseExactD ((query.first field).getD []) with
    | none => .error (ofString s!"'{field}' must be a UUID in 8-4-4-4-12 form.")
    | some parsed => .ok (some parsed)

def tryBindTimestamp (tryParse : List CodePoint → Option DateTimeOffset) (query : QueryString)
    (field : String) : Except (List CodePoint) (Option DateTimeOffset) :=
  if isNullOrEmpty (query.first field) then .ok none
  else
    match tryParse ((query.first field).getD []) with
    | none => .error (ofString s!"'{field}' must be an ISO-8601 timestamp.")
    | some parsed => .ok (some parsed)

/-- A filter, as the handlers bind its kind. A free text is taken as it comes. -/
def bindFilter (tryParse : List CodePoint → Option DateTimeOffset) (query : QueryString)
    (field : FilterField) : Except (List CodePoint) (Option FilterValue) :=
  match field.type with
  | .text => .ok ((query.first field.name).map .text)
  | .identifier => (tryBindGuid query field.name).map (·.map .identifier)
  | .timestamp => (tryBindTimestamp tryParse query field.name).map (·.map .timestamp)
  | .enumeration members => (tryBindEnum members query field.name).map (·.map .member)

end QueryBinding

/-! ### The handlers -/

/-- What a route declares, and whether it is paged. -/
structure ViewQuery where
  whitelist : QueryWhitelist
  filters : List FilterField
  paged : Bool

/-- What a handler has in hand once the query is bound. -/
structure BoundRequest where
  page : Option KeysetRequest
  filters : List (FilterField × Option FilterValue)

section Handlers

variable (tryParse : List CodePoint → Option DateTimeOffset) (codec : CursorCodec)

/-- The page of a route that has one. -/
def ViewQuery.bindPage (view : ViewQuery) (query : QueryString) :
    Except (List CodePoint) (Option KeysetRequest) :=
  if view.paged then (QueryBinding.tryBindPage codec query view.whitelist).map some else .ok none

/-- The part the handlers have in common. -/
def ViewQuery.bind (view : ViewQuery) (query : QueryString) :
    Except (List CodePoint) BoundRequest := do
  QueryBinding.tryRejectUnknownFilters query view.whitelist
  let page ← view.bindPage codec query
  let filters ← view.filters.mapM fun field =>
    (QueryBinding.bindFilter tryParse query field).map (field, ·)
  return ⟨page, filters⟩

def sessionStateField : FilterField := ⟨"state", .enumeration ClrType.sessionState.members⟩

def tenantField : FilterField := ⟨ResourceQueries.tenantNarrowing, .identifier⟩

namespace CustomerViewEndpoints

def listSessions : ViewQuery := ⟨ResourceQueries.customerSessions, [sessionStateField], true⟩

def listMessages : ViewQuery :=
  ⟨ResourceQueries.customerSessionMessages, [⟨"senderKind", .enumeration senderKindMembers⟩],
    true⟩

def listSteps : ViewQuery := ⟨ResourceQueries.customerSessionSteps, [], false⟩

def listFeedback : ViewQuery := ⟨ResourceQueries.customerSessionFeedback, [], false⟩

end CustomerViewEndpoints

namespace StaffViewEndpoints

def listLiveSessions : ViewQuery :=
  ⟨ResourceQueries.staffLiveSessions, [sessionStateField, tenantField], true⟩

def listApprovalQueue : ViewQuery := ⟨ResourceQueries.staffApprovalQueue, [tenantField], true⟩

def listUnexecutedApprovals : ViewQuery :=
  ⟨ResourceQueries.staffUnexecutedApprovals, [tenantField], true⟩

def occurredFrom : FilterField := ⟨"occurredFrom", .timestamp⟩

def occurredTo : FilterField := ⟨"occurredTo", .timestamp⟩

def searchAudit : ViewQuery :=
  ⟨ResourceQueries.staffAudit,
    [tenantField, ⟨"workItemId", .identifier⟩, ⟨"eventKind", .text⟩, occurredFrom, occurredTo],
    true⟩

def listTenants : ViewQuery :=
  ⟨ResourceQueries.staffTenants, [⟨"status", .enumeration ClrType.tenantStatus.members⟩], true⟩

/-- Whether a range ends where it begins, or before. -/
def reversed : Option FilterValue → Option FilterValue → Bool
  | some (.timestamp lower), some (.timestamp upper) => decide (upper.ticks ≤ lower.ticks)
  | _, _ => false

/-- `SearchAuditAsync`, which looks at its range once both ends are bound. -/
def bindAudit (query : QueryString) : Except (List CodePoint) BoundRequest := do
  let bound ← searchAudit.bind tryParse codec query
  if reversed (bound.filters.lookup occurredFrom).join (bound.filters.lookup occurredTo).join then
    .error (ofString ("'occurredFrom' must be earlier than 'occurredTo'. The range is " ++
      "inclusive of the lower bound and exclusive of the upper."))
  else return bound

end StaffViewEndpoints

/-- A route that reads a query. -/
inductive ViewRoute where
  | customerSessions
  | customerSessionMessages
  | customerSessionSteps
  | customerSessionFeedback
  | staffLiveSessions
  | staffApprovalQueue
  | staffUnexecutedApprovals
  | staffAudit
  | staffTenants
  deriving DecidableEq, Repr

namespace ViewRoute

def declared : ViewRoute → ViewQuery
  | customerSessions => CustomerViewEndpoints.listSessions
  | customerSessionMessages => CustomerViewEndpoints.listMessages
  | customerSessionSteps => CustomerViewEndpoints.listSteps
  | customerSessionFeedback => CustomerViewEndpoints.listFeedback
  | staffLiveSessions => StaffViewEndpoints.listLiveSessions
  | staffApprovalQueue => StaffViewEndpoints.listApprovalQueue
  | staffUnexecutedApprovals => StaffViewEndpoints.listUnexecutedApprovals
  | staffAudit => StaffViewEndpoints.searchAudit
  | staffTenants => StaffViewEndpoints.listTenants

def bind (route : ViewRoute) (query : QueryString) : Except (List CodePoint) BoundRequest :=
  match route with
  | staffAudit => StaffViewEndpoints.bindAudit tryParse codec query
  | customerSessions | customerSessionMessages | customerSessionSteps | customerSessionFeedback
  | staffLiveSessions | staffApprovalQueue | staffUnexecutedApprovals | staffTenants =>
      route.declared.bind tryParse codec query

end ViewRoute

end Handlers

end Synthia
