import Synthia.Api.Streaming
import Synthia.Graph.Nodes
import Synthia.Graph.Run
import Synthia.Messaging.Envelopes

/-!
# Turns on one thread

What a caller begins a turn with, and a thread over any number of turns. Beside the
thread goes what a turn ought to be judged by: its own request, the evidence the thread
had before it, the operations proposed before it, and the same thread as it would be if
nothing had been governed before the turn. No node reads any of them.
-/

namespace Synthia

open Text

/-- The end user's message, and a proposal where the caller seeds one. -/
structure TurnRequest where
  messageId : String
  content : List CodePoint
  occurredAt : Instant
  proposal : Option ProposedOperationView
  deriving DecidableEq

/-- `_initial_state`, with the `proposal` channel where there is one to seed. -/
def TurnRequest.input (request : TurnRequest) : TurnInput where
  conversation := [⟨request.messageId, .endUser, request.content, request.occurredAt⟩]
  proposal := request.proposal.map some

inductive TurnAction where
  | turn (context : RunContext) (request : TurnRequest)
  | node (deps : GraphDependencies)
  | resume (context : RunContext) (deps : GraphDependencies) (payload : ResumePayload)
  | fail

def TurnAction.action : TurnAction → Action
  | .turn context request => .turn context request.input
  | .node deps => .node deps
  | .resume context deps payload => .resume context deps payload
  | .fail => .fail

/-- The thread as it would be had nothing been governed. -/
def Thread.ungoverned (thread : Thread) : Thread :=
  { thread with state := { thread.state with governance := none } }

structure TurnWorld where
  thread : Thread := {}
  /-- The thread, had nothing been governed before this turn. -/
  fresh : Thread := {}
  /-- What this turn began with. -/
  request : Option TurnRequest := none
  /-- The operations earlier turns began with. -/
  earlier : List OperationIdentity := []
  /-- How much evidence there was before this turn. -/
  evidence : Nat := 0

namespace TurnWorld

/-- The operation this turn began with. -/
def proposed (world : TurnWorld) : Option OperationIdentity :=
  (world.request.bind TurnRequest.proposal).map ProposedOperationView.identity

def step (world : TurnWorld) : TurnAction → Option TurnWorld
  | .turn context request =>
      let thread := world.thread.step (TurnAction.turn context request).action
      some
        { thread
          fresh := thread.ungoverned
          request := some request
          earlier := world.earlier ++ world.proposed.toList
          evidence := world.thread.state.retrieved.length }
  | action =>
      some
        { world with
          thread := world.thread.step action.action
          fresh := world.fresh.step action.action }

/-- Whether the evidence this turn retrieved is confident. -/
def ownConfidence (world : TurnWorld) : Bool :=
  (assessScores ((world.thread.state.retrieved.drop world.evidence).map
    RetrievedContext.score)).isConfident

/-- Whether all the evidence of the thread is. -/
def threadConfidence (world : TurnWorld) : Bool :=
  (assessScores (world.thread.state.retrieved.map RetrievedContext.score)).isConfident

end TurnWorld

end Synthia

/-!
## Threads

`graph.threads` and the host's use of it. A thread is named by the organisation,
the requester and the session, and the retention sweeper derives the same name
from a work item's own columns.

The saver that keeps the threads is a library's. What is relied on is what its
documentation says of each verb: a put adds to one thread, a delete empties one
thread, and a delete that raises has either done so or done nothing.
-/

namespace Synthia

open Text

/-- `f"{tenant_id}:{requester_oid}:{session_id}"`. -/
def checkpointThreadId (tenantId requesterOid sessionId : Uuid) : List CodePoint :=
  tenantId.toText ++ 0x3A :: (requesterOid.toText ++ 0x3A :: sessionId.toText)

/-- The checkpointer thread for one session. -/
def threadConfig (context : RunContext) : List CodePoint :=
  checkpointThreadId context.tenant.tenantId.value context.requester.value
    context.sessionId.value

structure CheckpointSaver (Store Checkpoint : Type) where
  /-- The checkpoints of a thread, oldest first. -/
  held : Store → List CodePoint → List Checkpoint
  aput : Store → List CodePoint → Checkpoint → Store
  /-- Whether the call returned, and the store after it. -/
  adeleteThread : Store → List CodePoint → Bool × Store
  held_aput : ∀ store threadId checkpoint other,
    held (aput store threadId checkpoint) other =
      if other = threadId then held store other ++ [checkpoint] else held store other
  held_other : ∀ store threadId other, other ≠ threadId →
    held (adeleteThread store threadId).2 other = held store other
  held_deleted : ∀ store threadId, (adeleteThread store threadId).1 = true →
    held (adeleteThread store threadId).2 threadId = []
  held_raised : ∀ store threadId,
    held (adeleteThread store threadId).2 threadId = [] ∨
      held (adeleteThread store threadId).2 threadId = held store threadId

end Synthia

/-!
## The run host

`graph.host.RunHost.stream_turn`. The compiled graph hands over one dictionary per update,
from node to what it wrote, until it is exhausted or raises. The generator keeps its
place: what is left of the update it is in, and the stream behind it. Each pull runs it to
its next `yield`.

A pull after the `error` event raises what the graph raised, and any pull after that, or
after `done`, finds the generator closed.
-/

namespace Synthia

open Text

/-- `STEP_LABELS`. -/
def stepLabels : List (String × String) :=
  [("intake", "Reading your request"),
   ("converse", "Working on your request"),
   ("retrieve", "Looking for relevant guidance"),
   ("ground", "Checking what was found"),
   ("guardrail", "Checking this is something I can help with"),
   ("propose", "Deciding what to do"),
   ("classify", "Checking what this needs"),
   ("govern", "Applying governance"),
   ("execute", "Carrying it out"),
   ("verify", "Confirming the outcome"),
   ("close", "Finishing up")]

/-! ### Updates -/

/-- An item of an interrupt's payload, by its `value`: a dictionary with the `kind` it
holds where that is a string, or anything else. -/
inductive InterruptItem where
  | dictionary (kind : Option String)
  | other
  deriving DecidableEq, Repr

/-- What stands under a node: a tuple or a list, or anything else. -/
inductive Channels where
  | sequence (items : List InterruptItem)
  | other
  deriving DecidableEq, Repr

abbrev GraphUpdate := List (String × Channels)

/-- What `graph.astream` produces, and how it ends. -/
inductive Astream (Error : Type) where
  | exhausted
  | raises (error : Error)
  | update (entries : GraphUpdate) (rest : Astream Error)
  deriving DecidableEq, Repr

/-- `_interrupt_kind`. -/
def interruptKind : Channels → String
  | .sequence (.dictionary (some kind) :: _) => kind
  | .sequence (.dictionary none :: _) | .sequence (.other :: _) | .sequence [] | .other =>
      "clarification"

/-- The event of one entry of an update, where it has one. -/
def reported (entry : String × Channels) : Option TurnEvent :=
  if entry.1 == "__interrupt__" then
    some { kind := .interrupt, name := ofString (interruptKind entry.2) }
  else
    (stepLabels.lookup entry.1).map fun label =>
      { kind := .step, name := ofString entry.1, label := ofString label }

/-! ### The generator -/

section Generator

variable {Error : Type}

/-- What one pull gives. -/
inductive Pulled (Error : Type) where
  | event (event : TurnEvent)
  | raised (error : Error)
  | stopped
  deriving DecidableEq, Repr

/-- Where the generator is suspended. -/
inductive TurnGenerator (Error : Type) where
  | reading (pending : GraphUpdate) (rest : Astream Error)
  | reraising (error : Error)
  | closed
  deriving DecidableEq, Repr

/-- The inner loop, up to its next `yield`; `next` is where it goes when it has none. -/
def scanUpdate (rest : Astream Error) (next : Pulled Error × TurnGenerator Error) :
    GraphUpdate → Pulled Error × TurnGenerator Error
  | [] => next
  | entry :: pending =>
      match reported entry with
      | some event => (.event event, .reading pending rest)
      | none => scanUpdate rest next pending

/-- The outer loop and what follows it. -/
def scanStream : Astream Error → Pulled Error × TurnGenerator Error
  | .exhausted => (.event { kind := .done }, .closed)
  | .raises error => (.event { kind := .error }, .reraising error)
  | .update entries rest => scanUpdate rest (scanStream rest) entries

def TurnGenerator.anext : TurnGenerator Error → Pulled Error × TurnGenerator Error
  | .reading pending rest => scanUpdate rest (scanStream rest) pending
  | .reraising error => (.raised error, .closed)
  | .closed => (.stopped, .closed)

/-- `stream_turn`, as called: nothing has run. -/
def streamTurn (stream : Astream Error) : TurnGenerator Error := .reading [] stream

/-- What a number of pulls give, in order. -/
def TurnGenerator.received (generator : TurnGenerator Error) : Nat → List (Pulled Error)
  | 0 => []
  | pulls + 1 => generator.anext.1 :: generator.anext.2.received pulls

end Generator

end Synthia
