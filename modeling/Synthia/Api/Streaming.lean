import Synthia.Lib.Json
import Synthia.Graph.Nodes
import Synthia.Messaging.Envelopes

/-!
# The stream the server sends

`api.customer.streaming` and the rendering in `api.customer.sessions`. A turn of
the graph reports itself as a sequence of events; each becomes one server-sent
frame, whose `event:` line names the kind and whose `data:` line carries a flat
JSON object.
-/

namespace Synthia

open Text Json

/-! ## The events of a turn -/

inductive TurnEventKind where
  | step
  | interrupt
  | done
  | error
  deriving DecidableEq, Repr

/-- `graph.host.TurnEvent`. The name is a step's node or an interrupt's kind. -/
structure TurnEvent where
  kind : TurnEventKind
  name : List CodePoint := []
  label : List CodePoint := []
  deriving DecidableEq, Repr

/-! ## Frames -/

inductive StreamEventKind where
  | token
  | step
  | interrupt
  | done
  | error
  deriving DecidableEq, Repr

def StreamEventKind.value : StreamEventKind → String
  | .token => "token"
  | .step => "step"
  | .interrupt => "interrupt"
  | .done => "done"
  | .error => "error"

namespace Streaming

/-- `event: …`, `data: …` and a blank line. -/
def encodeEvent (kind : StreamEventKind) (data : List (List CodePoint × Value CodePoint)) :
    List CodePoint :=
  ofString "event: " ++ ofString kind.value ++ ofString "\ndata: " ++
    dumps [] (.object data) ++ ofString "\n\n"

def token (text : List CodePoint) : List CodePoint :=
  encodeEvent .token [(ofString "text", .string text)]

def step (stepId label : List CodePoint) : List CodePoint :=
  encodeEvent .step [(ofString "stepId", .string stepId), (ofString "label", .string label)]

def interrupt (kind sessionId : List CodePoint) (workItemId : Option (List CodePoint))
    (correlationId : List CodePoint) : List CodePoint :=
  encodeEvent .interrupt
    [(ofString "kind", .string kind),
     (ofString "sessionId", .string sessionId),
     (ofString "workItemId", leaf workItemId),
     (ofString "correlationId", .string correlationId)]

def done (sessionId : List CodePoint) : List CodePoint :=
  encodeEvent .done [(ofString "sessionId", .string sessionId)]

def error (correlationId : List CodePoint) : List CodePoint :=
  encodeEvent .error
    [(ofString "correlationId", .string correlationId),
     (ofString "detail", .string (ofString
       "The turn could not be completed. Quote the correlation identifier."))]

end Streaming

/-- `_render`, of one event. The identifiers come from the run context and never
from the event. -/
def render (context : RunContext) (event : TurnEvent) : List CodePoint :=
  match event.kind with
  | .step => Streaming.step event.name event.label
  | .interrupt =>
      Streaming.interrupt event.name context.sessionId.value.toText
        (context.workItemId.map fun workItemId => workItemId.value.toText)
        context.correlationId.value
  | .error => Streaming.error context.correlationId.value
  | .done => Streaming.done context.sessionId.value.toText

end Synthia
