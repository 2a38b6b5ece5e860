import Synthia.Api.Streaming
import Synthia.Web.MessageStream

/-!
# What the browser makes of the server's frames

The two sides put the kind in different places. The server names it on the
`event:` line, which the browser does not read; the browser looks for it inside
the data, where only an interrupt has a member of that name, and that member
holds the kind of interrupt. So every frame comes through intact as JSON, and
then all but two of them are dropped: an interrupt whose kind is `done` or
`error` is taken for the end of the turn.

`parseFrame_encodeEvent` carries the text from one side to the other. What the
browser concludes from a frame is then a matter of looking up five names.
-/

namespace Synthia

open Text Json

/-! ## From frame to document -/

/-- What stands behind a line break is read as lines of its own. -/
theorem dataLines_append (frame rest : List CodeUnit) :
    dataLines (frame ++ 0x0A :: rest) = dataLines frame ++ dataLines rest := by
  rw [dataLines, lines_append, List.filter_append, List.map_append]
  rfl

theorem dataLines_data {document : List CodeUnit} (hbreak : (0x0A : CodeUnit) ∉ document) :
    dataLines (units "data: " ++ document) = [trim (0x20 :: document)] := by
  have hline : (0x0A : CodeUnit) ∉ units "data: " ++ document := by
    rw [List.mem_append]
    exact fun h => h.elim (by decide) hbreak
  rw [dataLines, lines_of_notMem hline]
  rfl

/-- The blank line that ends a frame makes no difference. -/
theorem parseFrame_terminator (frame : List CodeUnit) :
    parseFrame (frame ++ [0x0A, 0x0A]) = parseFrame frame := by
  have hblank : dataLines [(0x0A : CodeUnit)] = [] := by decide
  rw [parseFrame, dataLines_append, hblank, List.append_nil]
  rfl

/-- The browser reads the object the server encoded, and nothing else. -/
theorem parseFrame_encodeEvent (kind : StreamEventKind)
    (entries : List (List CodePoint × Option (List CodePoint))) :
    parseFrame (utf16 (Streaming.encodeEvent kind
        (entries.map fun entry => (entry.1, leaf entry.2)))) =
      toStreamEvent (flat (entries.map fun entry => (utf16 entry.1, entry.2.map utf16))) := by
  obtain ⟨middle, hmiddle⟩ := dumps_braces [] (entries.map fun entry => (entry.1, leaf entry.2))
  have hprintable := dumps_flat_printable .nil entries
  have hdumps := @jsonParse_dumps [] (fun c hc => (List.not_mem_nil hc).elim) entries
  rw [flat] at hprintable hdumps
  let document := utf16 (dumps [] (.object (entries.map fun entry => (entry.1, leaf entry.2))))
  have hbreak : (0x0A : CodeUnit) ∉ document := by
    intro h
    obtain ⟨c, hc, hcode⟩ := mem_utf16_of_lt (fun c hc => by have := hprintable c hc; omega) h
    have := hprintable c hc
    rw [hcode] at this
    exact absurd this.1 (by decide)
  have htrim : trim (0x20 :: document) = document := by
    have hbraces : document = 0x7B :: (utf16 middle ++ [0x7D]) := by
      show utf16 (dumps _ _) = _
      rw [hmiddle, utf16_cons, utf16_append]
      rfl
    rw [hbraces]
    exact trim_space (by decide) (by decide) _
  have hkind : dataLines (utf16 (ofString "event: " ++ ofString kind.value)) = [] := by
    cases kind <;> decide
  have hframe : utf16 (Streaming.encodeEvent kind
      (entries.map fun entry => (entry.1, leaf entry.2))) =
      (utf16 (ofString "event: " ++ ofString kind.value) ++
        0x0A :: (units "data: " ++ document)) ++ [0x0A, 0x0A] := by
    have hdata : utf16 (ofString "\ndata: ") = 0x0A :: units "data: " := by decide
    have hblank : utf16 (ofString "\n\n") = [0x0A, 0x0A] := by decide
    rw [Streaming.encodeEvent, utf16_append, utf16_append, utf16_append, hdata, hblank]
    simp only [document, List.append_assoc, List.cons_append]
  rw [hframe, parseFrame_terminator, parseFrame, dataLines_append, hkind, List.nil_append,
    dataLines_data hbreak, htrim]
  show (jsonParse (Text.joinLines [document])).bind toStreamEvent = _
  rw [Text.joinLines, List.intercalate_singleton, hdumps]
  rfl

/-! ## From document to event -/

theorem parseFrame_token (text : List CodePoint) :
    parseFrame (utf16 (Streaming.token text)) = none := by
  exact (parseFrame_encodeEvent .token [(ofString "text", some text)]).trans rfl

theorem parseFrame_step (stepId label : List CodePoint) :
    parseFrame (utf16 (Streaming.step stepId label)) = none := by
  exact (parseFrame_encodeEvent .step
    [(ofString "stepId", some stepId), (ofString "label", some label)]).trans rfl

theorem parseFrame_done (sessionId : List CodePoint) :
    parseFrame (utf16 (Streaming.done sessionId)) = none := by
  exact (parseFrame_encodeEvent .done [(ofString "sessionId", some sessionId)]).trans rfl

theorem parseFrame_error (correlationId : List CodePoint) :
    parseFrame (utf16 (Streaming.error correlationId)) = none := by
  exact (parseFrame_encodeEvent .error
    [(ofString "correlationId", some correlationId),
     (ofString "detail", some (ofString
       "The turn could not be completed. Quote the correlation identifier."))]).trans rfl

/-- The kind of an interrupt stands where the browser looks for the kind of the
event, and nothing stands where it then looks for the kind of the interrupt. -/
theorem parseFrame_interrupt (kind sessionId : List CodePoint)
    (workItemId : Option (List CodePoint)) (correlationId : List CodePoint) :
    parseFrame (utf16 (Streaming.interrupt kind sessionId workItemId correlationId)) =
      if utf16 kind = units "done" then some .done
      else if utf16 kind = units "error" then some (.error (units "Stream failed"))
      else none := by
  let entries := [(ofString "kind", some kind), (ofString "sessionId", some sessionId),
    (ofString "workItemId", workItemId), (ofString "correlationId", some correlationId)]
  let payload : Value CodeUnit :=
    flat (entries.map fun entry => (utf16 entry.1, entry.2.map utf16))
  have hread : parseFrame (utf16 (Streaming.interrupt kind sessionId workItemId correlationId)) =
      toStreamEvent payload := parseFrame_encodeEvent .interrupt entries
  have hobject : isObject payload = true := rfl
  have hkind : asString (payload.member (units "kind")) = some (utf16 kind) := rfl
  have htext : asString (payload.member (units "text")) = none := rfl
  have hstep : payload.member (units "step") = none := rfl
  have hinterrupt : asString (payload.member (units "interrupt")) = none := rfl
  have htitle : asString (payload.member (units "title")) = none := rfl
  rw [hread, toStreamEvent, hobject, hkind, htext, hstep, hinterrupt, htitle]
  by_cases h1 : utf16 kind = units "token"
  · rw [h1]; rfl
  by_cases h2 : utf16 kind = units "step"
  · rw [h2]; rfl
  by_cases h3 : utf16 kind = units "interrupt"
  · rw [h3]; rfl
  simp only [Bool.not_true, Bool.false_eq_true, if_false, if_neg h1, if_neg h2, if_neg h3,
    Option.getD_none]

/-! ## What the browser recovers -/

/-- What the server sends: the events of a turn, and partial content. -/
inductive ServerEvent where
  | turn (event : TurnEvent)
  | token (text : List CodePoint)

def ServerEvent.frame (context : RunContext) : ServerEvent → List CodePoint
  | .turn event => render context event
  | .token text => Streaming.token text

/-- The browser's event is of the server's kind and carries its data. Where the
server has no work item, any will do. -/
def StreamEvent.Carries (parsed : StreamEvent) (context : RunContext) : ServerEvent → Prop
  | .token text => parsed = .token (utf16 text)
  | .turn event =>
      match event.kind with
      | .step => ∃ entry, parsed = .step entry ∧
          entry.member (units "stepId") = some (.string (utf16 event.name)) ∧
          entry.member (units "label") = some (.string (utf16 event.label))
      | .interrupt => ∃ workItemId, parsed = .interrupt (utf16 event.name) workItemId ∧
          ∀ known, context.workItemId = some known → workItemId = utf16 known.value.toText
      | .done => parsed = .done
      | .error => ∃ title, parsed = .error title

def Recovered (context : RunContext) (event : ServerEvent) : Prop :=
  ∃ parsed, parseFrame (utf16 (event.frame context)) = some parsed ∧
    parsed.Carries context event

/-- No event of the server's reaches the browser as what it is, whatever it says
and whomever it concerns. -/
theorem never_recovered (context : RunContext) (event : ServerEvent) :
    ¬ Recovered context event := by
  rintro ⟨parsed, hparsed, hcarries⟩
  cases event with
  | token text =>
      rw [ServerEvent.frame, parseFrame_token] at hparsed
      cases hparsed
  | turn event =>
      obtain ⟨kind, name, label⟩ := event
      cases kind with
      | step =>
          rw [ServerEvent.frame, render, parseFrame_step] at hparsed
          cases hparsed
      | done =>
          rw [ServerEvent.frame, render, parseFrame_done] at hparsed
          cases hparsed
      | error =>
          rw [ServerEvent.frame, render, parseFrame_error] at hparsed
          cases hparsed
      | interrupt =>
          -- what is read, where anything is, is of another kind
          obtain ⟨workItemId, hevent, _⟩ := hcarries
          rw [ServerEvent.frame, render, parseFrame_interrupt, hevent] at hparsed
          split at hparsed
          · injection hparsed with hparsed
            cases hparsed
          split at hparsed
          · injection hparsed with hparsed
            cases hparsed
          · cases hparsed

def turnContext : RunContext :=
  ⟨⟨⟨1⟩, ⟨1⟩, .active, .endUserIdentity⟩, ⟨7⟩, ⟨ofString "journey"⟩, ⟨1⟩, none⟩

/-- The frame that ends a turn is dropped, while an interrupt named `done` ends it. -/
theorem done_frame_dropped :
    ¬ Recovered turnContext (.turn { kind := .done }) ∧
      parseFrame (utf16 (render turnContext { kind := .done })) = none ∧
      parseFrame (utf16 (render turnContext
        { kind := .interrupt, name := ofString "done" })) = some .done := by
  have hdone : parseFrame (utf16 (render turnContext { kind := .done })) = none :=
    parseFrame_done _
  refine ⟨?_, hdone, ?_⟩
  · rintro ⟨parsed, hparsed, _⟩
    rw [ServerEvent.frame, hdone] at hparsed
    cases hparsed
  · exact (parseFrame_interrupt _ _ _ _).trans (if_pos rfl)

end Synthia
