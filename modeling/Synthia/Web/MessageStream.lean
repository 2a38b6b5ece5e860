import Synthia.Lib.Framing
import Synthia.Lib.Json

/-!
# The stream the browser reads

`parseFrame` of the browser's message stream client. It takes the `data:` lines
of a frame, reads them as one JSON document and expects the kind inside it, as a
member beside the data. A frame it does not recognise gives `none`, and nobody
is told.
-/

namespace Synthia

open Text Json

/-- `StreamEvent` of the customer contracts. A step is passed on as the object
it was read as. -/
inductive StreamEvent where
  | token (text : List CodeUnit)
  | step (step : Value CodeUnit)
  | interrupt (interrupt workItemId : List CodeUnit)
  | done
  | error (title : List CodeUnit)

/-- `typeof value === 'object' && value !== null`. -/
def isObject : Value CodeUnit → Bool
  | .array _ | .object _ => true
  | _ => false

/-- `typeof value === 'string'`, with the string. -/
def asString : Option (Value CodeUnit) → Option (List CodeUnit)
  | some (.string text) => some text
  | _ => none

def isStep (value : Value CodeUnit) : Bool :=
  isObject value && (asString (value.member (units "stepId"))).isSome &&
    (asString (value.member (units "label"))).isSome

def toStreamEvent (payload : Value CodeUnit) : Option StreamEvent :=
  if !isObject payload then none
  else
    match asString (payload.member (units "kind")) with
    | none => none
    | some kind =>
        if kind = units "token" then
          (asString (payload.member (units "text"))).map .token
        else if kind = units "step" then
          ((payload.member (units "step")).filter isStep).map .step
        else if kind = units "interrupt" then
          match asString (payload.member (units "interrupt")),
              asString (payload.member (units "workItemId")) with
          | some interrupt, some workItemId => some (.interrupt interrupt workItemId)
          | _, _ => none
        else if kind = units "done" then some .done
        else if kind = units "error" then
          some (.error ((asString (payload.member (units "title"))).getD
            (units "Stream failed")))
        else none

def dataLines (frame : List CodeUnit) : List (List CodeUnit) :=
  ((lines frame).filter fun line => (units "data:").isPrefixOf line).map fun line =>
    trim (line.drop 5)

def parseFrame (frame : List CodeUnit) : Option StreamEvent :=
  if (dataLines frame).isEmpty then none
  else (jsonParse (Text.joinLines (dataLines frame))).bind toStreamEvent

end Synthia

/-!
## Reading the stream

`pump` of the browser's message stream client: one request, and what its subscriber is told
of the response. The body arrives as chunks of text that end anywhere. The loop holds back
what no blank line has ended yet, and drops it when the body is at its end.

Whatever the chunks are, the subscriber is told the events of the frames that were sent. It
is told them even where a frame ends in a line break and is therefore not cut off whole: the
line break goes to the frame behind it, and no line of data begins with one.
-/

namespace Synthia

open Text Json

/-- The body of a response, as the reader yields it. `thrown` is a read that rejects in
place of being done. -/
structure ResponseBody where
  chunks : List (List CodeUnit)
  thrown : Bool := false

/-- What `fetch` comes to. -/
inductive Fetched where
  | rejected
  | response (ok : Bool) (status : Nat) (body : Option ResponseBody)

/-- What a subscriber is told. -/
inductive Signal where
  | next (event : StreamEvent)
  | error
  | complete

namespace MessageStreamClient

def blankLine : List CodeUnit := [0x0A, 0x0A]

/-- The read loop: the texts it passes to `parseFrame`, in order. -/
def framesRead (chunks : List (List CodeUnit)) : List (List CodeUnit) :=
  Framing.feed blankLine [] chunks

/-- The `catch` of `pump`. Aborting the request is not a failure of it. -/
def caught (aborted : Bool) : List Signal := if aborted then [.complete] else [.error]

def pump (aborted : Bool) : Fetched → List Signal
  | .rejected => caught aborted
  | .response true _ (some body) =>
      ((framesRead body.chunks).filterMap parseFrame).map .next ++
        if body.thrown then caught aborted else [.complete]
  | .response _ status _ =>
      [.next (.error (units ("The platform returned " ++ toString status))), .complete]

/-! ### Frames of data lines -/

theorem dataLines_lineBreak (before behind : List CodeUnit) :
    dataLines (before ++ 0x0A :: behind) = dataLines before ++ dataLines behind := by
  simp [dataLines, lines_append]

@[simp] theorem dataLines_nil : dataLines [] = [] := by decide

theorem parseFrame_nil : parseFrame [] = none := by simp [parseFrame]

theorem parseFrame_congr {first second : List CodeUnit} (h : dataLines first = dataLines second) :
    parseFrame first = parseFrame second := by
  simp [parseFrame, h]

theorem parseFrame_front (frame : List CodeUnit) :
    parseFrame (0x0A :: frame) = parseFrame frame :=
  parseFrame_congr (by simpa using dataLines_lineBreak [] frame)

theorem parseFrame_back (frame : List CodeUnit) :
    parseFrame (frame ++ [0x0A]) = parseFrame frame :=
  parseFrame_congr (by simpa using dataLines_lineBreak frame [])

/-! ### Reassembly -/

theorem framesRead_eq (chunks : List (List CodeUnit)) :
    framesRead chunks = (Framing.drained blankLine chunks.flatten).1 :=
  Framing.feed_eq_drained (List.cons_ne_nil _ _) (Framing.cut_nil (List.cons_ne_nil _ _)) chunks

/-- Frames that hold no blank line arrive, however their text was cut: the subscriber is told
the events of exactly those frames, in their order, before the stream completes. The texts
that are passed to `parseFrame` are those frames, too, unless one of them ends in a line
break. -/
theorem reassembles {frames chunks : List (List CodeUnit)}
    (hframes : ∀ frame ∈ frames, ¬ blankLine <:+: frame)
    (hchunks : chunks.flatten = frames.flatMap (· ++ blankLine)) (aborted : Bool)
    (status : Nat) :
    pump aborted (.response true status (some { chunks := chunks })) =
        (frames.filterMap parseFrame).map .next ++ [.complete] ∧
      (framesRead chunks = frames ↔ ∀ frame ∈ frames, frame.getLast? ≠ some 0x0A) := by
  rw [pump, framesRead_eq, hchunks]
  constructor
  · have hread := Framing.filterMap_drained parseFrame_nil parseFrame_front parseFrame_back
      hframes (Or.inl rfl)
    rw [List.nil_append] at hread
    rw [blankLine, hread]
    rfl
  · exact Framing.drained_blank_iff hframes

/-- Two frames in three chunks, one of which ends between the two line breaks. -/
theorem reassembles_straddled :
    pump false (.response true 200
        (some { chunks := [units "data: \x7b\"kind\":\"do", units "ne\"\x7d\n",
          units "\n:\n\n"] })) =
      ([units "data: \x7b\"kind\":\"done\"\x7d", units ":"].filterMap parseFrame).map .next ++
        [.complete] := by
  have hframes : ∀ frame ∈ [units "data: \x7b\"kind\":\"done\"\x7d", units ":"],
      ¬ blankLine <:+: frame := by decide +kernel
  exact (reassembles hframes (by decide +kernel) false 200).1

/-- A frame that ends in a line break is not passed on as it was sent. -/
theorem frame_shortened :
    ¬ ∀ frames chunks : List (List CodeUnit), (∀ frame ∈ frames, ¬ blankLine <:+: frame) →
      chunks.flatten = frames.flatMap (· ++ blankLine) → framesRead chunks = frames := by
  intro h
  have hsame := h [units "data: 1\n"] [units "data: 1\n\n\n"] (by decide +kernel)
    (by decide +kernel)
  exact absurd hsame (by decide +kernel)

end MessageStreamClient

end Synthia
