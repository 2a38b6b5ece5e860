import Synthia.Egress.ModelGateway
import Synthia.Graph.Turns
import Synthia.Retrieval.Hybrid

/-!
# The derived index

`retrieval.search`, the legs `retrieval.hybrid` joins, and the two checks of
`egress.validation` that an answer passes on its way in. A query is one call through the
shared caller; its filter is built from the organisation alone, and each document that
comes back is read against that organisation's identifier again.

A score is the number its literal stands for; what a literal stands for is a parameter,
as no property here is about a score.
-/

namespace Synthia

open Text Json

namespace Search

def system : String := "ai-search"

def apiVersion : List CodePoint := ofString "2024-07-01"

/-- The index field every document carries and every query filters on. -/
def tenantField : List CodePoint := ofString "tenant_id"

def maxResults : Int := 50

def tenantFilter (tenant : TenantContext) : List CodePoint :=
  tenantField ++ ofString " eq '" ++ tenant.tenantId.value.toText ++ ofString "'"

/-- An endpoint that is set is `https`. -/
structure RetrievalSettings where
  endpoint : List CodePoint
  indexName : List CodePoint := ofString "synthia-knowledge"
  requestTimeoutSeconds : ℚ := 15
  https : (endpoint.isEmpty || (ofString "https://").isPrefixOf endpoint) = true
  positive : 0 < requestTimeoutSeconds

def RetrievalSettings.isConfigured (settings : RetrievalSettings) : Bool :=
  !settings.endpoint.isEmpty

/-- The exceptions that leave `search`. -/
inductive Raised where
  | notConfigured
  | credential
  | value
  | integration (error : IntegrationError)
  | notJson
  | boundary (system reason : String)
  | overflow
  deriving DecidableEq, Repr

/-! ## Validation at the boundary -/

def requireObject (payload : Value CodePoint) :
    Except Raised (List (List CodePoint × Value CodePoint)) :=
  match payload with
  | .object members => .ok members
  | other =>
      .error (.boundary system ("expected a JSON object, got " ++ ModelGateway.typeName other))

/-- `require_text`, with the field's name as it is quoted. -/
def requireText (payload : Value CodePoint) (field : String) :
    Except Raised (List CodePoint) :=
  match payload.member (ofString field) with
  | none | some .null =>
      .error (.boundary system ("the required field '" ++ field ++ "' is absent"))
  | some (.string text) =>
      if (strip text).isEmpty then
        .error (.boundary system ("the field '" ++ field ++ "' is empty"))
      else if ModelGateway.maxTextCharacters < text.length then
        .error (.boundary system ("the field '" ++ field ++ "' is " ++ toString text.length ++
          " characters, above the " ++ toString ModelGateway.maxTextCharacters ++ " limit"))
      else .ok text
  | some other =>
      .error (.boundary system
        ("the field '" ++ field ++ "' should be a string, got " ++ ModelGateway.typeName other))

def optionalText (payload : Value CodePoint) (field : String) :
    Except Raised (Option (List CodePoint)) :=
  match payload.member (ofString field) with
  | none | some .null => .ok none
  | some _ => (requireText payload field).map some

/-! ## Reading an answer -/

/-- The `str` a text of code points is. A lone surrogate, which no `String` can hold, is
replaced. -/
def asString (text : List CodePoint) : String :=
  String.ofList (text.map fun c => Char.ofNat c.val)

/-- `float(score) if isinstance(score, int | float) else 0.0`. -/
def scoreOf (float : List CodePoint → ℚ) : Option (Value CodePoint) → Except Raised ℚ
  | some (.number literal) =>
      if ModelGateway.overflows (.number literal) then .error .overflow
      else .ok (float literal)
  | some (.bool true) => .ok 1
  | _ => .ok 0

/-- The document names the organisation that was asked for. -/
def belongsTo (expected : List CodePoint) (document : Value CodePoint) : Bool :=
  match document.member tenantField with
  | some (.string label) => label == expected
  | _ => false

/-- One document, in the order its chunk's fields are read. -/
def readDocument (float : List CodePoint → ℚ) (expected : List CodePoint)
    (document : Value CodePoint) : Except Raised RetrievedChunk := do
  let fields ← requireObject document
  if !belongsTo expected (.object fields) then
    throw (.boundary system
      ("a returned document does not belong to the organisation that was queried. " ++
        "The result is discarded in full rather than filtered, because a filter that " ++
        "did not apply cannot be trusted to have applied partially."))
  let content ← requireText (.object fields) "content"
  let score ← scoreOf float ((Value.object fields).member (ofString "@search.score"))
  let sourceReference ← optionalText (.object fields) "source_reference"
  return ⟨content, score, asString (sourceReference.getD [])⟩

/-- `_read`. -/
def read (float : List CodePoint → ℚ) (tenant : TenantContext) (payload : Value CodePoint) :
    Except Raised (List RetrievedChunk) := do
  let body ← requireObject payload
  match (Value.object body).member (ofString "value") with
  | some (.array documents) =>
      documents.mapM (readDocument float tenant.tenantId.value.toText)
  | _ => throw (.boundary system "the response carries no document list")

/-! ## Asking -/

/-- The body of a query. -/
def query (tenant : TenantContext) (text : List CodePoint) (limit : Int) : Value CodePoint :=
  .object
    [(ofString "search", .string text),
      (ofString "top", .number (ofString (toString (max 1 (min limit maxResults))))),
      (ofString "filter", .string (tenantFilter tenant))]

/-- The request `search` sends. The headers are made first, and need a token. -/
def outbound (settings : RetrievalSettings) (token : Option (List CodePoint))
    (tenant : TenantContext) (text : List CodePoint) (limit : Int) :
    Except Raised OutboundRequest := do
  if !settings.isConfigured then throw .notConfigured
  match token with
  | none => throw .credential
  | some token =>
      match OutboundRequest.make "POST"
          (rstripChars (ofString "/") settings.endpoint ++ ofString "/indexes/" ++
            settings.indexName ++ ofString "/docs/search?api-version=" ++ apiVersion)
          settings.requestTimeoutSeconds
          [("Authorization", ofString "Bearer " ++ token),
            ("Content-Type", ofString "application/json")]
          (some (query tenant text limit)) with
      | none => throw .value
      | some request => return request

/-- What `search` makes of the caller's result. -/
def answered (float : List CodePoint → ℚ) (tenant : TenantContext) :
    Except IntegrationError HttpResponse → Except Raised (List RetrievedChunk)
  | .error error => .error (.integration error)
  | .ok response =>
      match response.body with
      | none => .error .notJson
      | some payload => read float tenant payload

end Search

/-- `AzureAiSearchRetrieval`, with what becomes of one call's attempts. -/
structure AzureAiSearchRetrieval where
  settings : Search.RetrievalSettings
  policy : RetryPolicy
  token : Option (List CodePoint)
  farSide : Nat → FarSide
  float : List CodePoint → ℚ

/-- `search`, with the requests it issued. -/
def AzureAiSearchRetrieval.search (index : AzureAiSearchRetrieval) (tenant : TenantContext)
    (text : List CodePoint) (limit : Int) :
    List OutboundRequest × Except Search.Raised (List RetrievedChunk) :=
  match Search.outbound index.settings index.token tenant text limit with
  | .error raised => ([], .error raised)
  | .ok request =>
      let sent := ResilientHttpCaller.send index.policy Search.system request index.farSide
      (sent.1, Search.answered index.float tenant sent.2)

/-- `OVER_FETCH`. -/
def overFetch : Int := 2

def FusedChunk.retrieved (chunk : FusedChunk) : RetrievedChunk :=
  ⟨chunk.content, chunk.score, chunk.sourceReference⟩

/-- What may stand behind the graph's retrieval port: an index, or two ports as the legs
of a hybrid. -/
inductive RetrievalPort where
  | index (adapter : AzureAiSearchRetrieval)
  | hybrid (dense sparse : RetrievalPort)

/-- `search`, of either. The sparse leg is asked once the dense one has answered. -/
def RetrievalPort.search (tenant : TenantContext) (text : List CodePoint) :
    RetrievalPort → Int → List OutboundRequest × Except Search.Raised (List RetrievedChunk)
  | .index adapter, limit => adapter.search tenant text limit
  | .hybrid dense sparse, limit =>
      let overFetched := max 1 (limit * overFetch)
      let first := dense.search tenant text overFetched
      match first.2 with
      | .error raised => (first.1, .error raised)
      | .ok denseChunks =>
          let second := sparse.search tenant text overFetched
          match second.2 with
          | .error raised => (first.1 ++ second.1, .error raised)
          | .ok sparseChunks =>
              (first.1 ++ second.1,
                .ok ((fuse denseChunks sparseChunks limit).map FusedChunk.retrieved))

end Synthia

/-!
## The host's threads

Every thread a process serves, with the requests its searches have issued. A turn and a
resumption go to the thread their own context names; a node runs on whichever thread is
scheduled next, so the turns of different threads interleave in any order.

A search that raises is a node that raises.
-/

namespace Synthia

open Text Json

def GraphDependencies.searching (deps : GraphDependencies) (chunks : List RetrievedChunk) :
    GraphDependencies :=
  { deps with search := fun _ _ _ => chunks }

inductive HostAction where
  | turn (context : RunContext) (input : TurnInput)
  | node (thread : List CodePoint) (deps : GraphDependencies) (port : RetrievalPort)
  | resume (context : RunContext) (deps : GraphDependencies) (payload : ResumePayload)
      (port : RetrievalPort)
  | fail (thread : List CodePoint)

namespace HostAction

/-- The thread an action is about. -/
def threadId : HostAction → List CodePoint
  | .turn context _ | .resume context _ _ _ => threadConfig context
  | .node thread _ _ | .fail thread => thread

/-- The retrieval port an action's node would search. -/
def port : HostAction → Option RetrievalPort
  | .node _ _ port | .resume _ _ _ port => some port
  | .turn _ _ | .fail _ => none

/-- The step of its thread, given what a search found. -/
def action (chunks : List RetrievedChunk) : HostAction → Action
  | .turn context input => .turn context input
  | .node _ deps _ => .node (deps.searching chunks)
  | .resume context deps payload _ => .resume context (deps.searching chunks) payload
  | .fail _ => .fail

/-- The search the action makes on the thread: the organisation and the text it asks. -/
def searches (thread : Thread) (action : HostAction) :
    Option (RetrievalPort × TenantContext × List CodePoint) :=
  match action.port, thread.performs (action.action []) with
  | some port, some (.retrieve, _, context, _) =>
      let text := latestUserContent thread.state
      if text.isEmpty then none else some (port, context.tenant, text)
  | _, _ => none

end HostAction

structure ThreadHost where
  threads : List CodePoint → Thread := fun _ => {}
  /-- The requests issued to an index, each with the thread it was issued for. -/
  issued : List (List CodePoint × OutboundRequest) := []

namespace ThreadHost

def setThread (host : ThreadHost) (threadId : List CodePoint) (thread : Thread) : ThreadHost :=
  { host with threads := fun other => if other = threadId then thread else host.threads other }

def step (host : ThreadHost) (action : HostAction) : ThreadHost :=
  let thread := host.threads action.threadId
  match action.searches thread with
  | none => host.setThread action.threadId (thread.step (action.action []))
  | some (port, tenant, text) =>
      let found := port.search tenant text retrievalLimit
      let host := { host with
        issued := host.issued ++ found.1.map fun request => (action.threadId, request) }
      match found.2 with
      | .error _ => host.setThread action.threadId (thread.step .fail)
      | .ok chunks => host.setThread action.threadId (thread.step (action.action chunks))

def run (host : ThreadHost) (actions : List HostAction) : ThreadHost :=
  actions.foldl step host

end ThreadHost

end Synthia
