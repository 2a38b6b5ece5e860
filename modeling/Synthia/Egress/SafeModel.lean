import Synthia.Egress.ModelGateway
import Synthia.Graph.State
import Synthia.Lib.Traces
import Synthia.Messaging.Envelopes
import Synthia.Proofs.Provenance

/-!
# Content safety

`model.safety` around `model.adapter`: a model port that screens what goes to the model and
what comes back from it, and holds the port it screens. A call leaves a trace: each
screening with what the service answered to it, each line of the log, each request on the
wire and what the caller is given in the end.

The screening service and the far side of the gateway are not in the repository. What the
service raises is the text of its traceback, which the log line of that failure shows.
-/

namespace Synthia

open Text Json

inductive SafetyDirection where
  | inbound
  | outbound
  deriving DecidableEq, Repr

def SafetyDirection.value : SafetyDirection → List CodePoint
  | .inbound => ofString "inbound"
  | .outbound => ofString "outbound"

inductive SafetyCategory where
  | harmful
  | promptInjection
  | sensitiveDisclosure
  | unavailable
  deriving DecidableEq, Repr

def SafetyCategory.value : SafetyCategory → List CodePoint
  | .harmful => ofString "harmful"
  | .promptInjection => ofString "prompt_injection"
  | .sensitiveDisclosure => ofString "sensitive_disclosure"
  | .unavailable => ofString "unavailable"

structure SafetyVerdict where
  allowed : Bool
  direction : SafetyDirection
  category : Option SafetyCategory := none
  deriving DecidableEq, Repr

namespace SafetyVerdict

def unavailable (direction : SafetyDirection) : SafetyVerdict :=
  ⟨false, direction, some .unavailable⟩

end SafetyVerdict

/-- What becomes of one screening. -/
inductive Screening where
  | answered (verdict : SafetyVerdict)
  | raised (traceback : List CodePoint)
  deriving DecidableEq

/-- The verdict `_enforce` acts on. -/
def Screening.verdict (direction : SafetyDirection) : Screening → SafetyVerdict
  | .answered verdict => verdict
  | .raised _ => SafetyVerdict.unavailable direction

/-- A call to the logger, its message rendered. -/
structure SafetyLogLine where
  warning : Bool
  message : List CodePoint
  correlationId : List CodePoint
  excInfo : Option (List CodePoint)
  deriving DecidableEq

namespace SafeModel

/-- The message of a `ContentBlockedError`. -/
def blockedMessage (verdict : SafetyVerdict) : List CodePoint :=
  ofString "content safety blocked this text on the " ++ verdict.direction.value ++
    ofString " path (" ++ (verdict.category.map SafetyCategory.value).getD
      (ofString "unspecified") ++
    ofString "). The text itself is deliberately not reproduced here."

/-- The exceptions that leave `SafeModel`. -/
inductive Raised where
  | blocked (verdict : SafetyVerdict) (message : List CodePoint)
  | model (raised : ModelGateway.Raised)
  deriving DecidableEq, Repr

/-- `ContentBlockedError(verdict)`. -/
def Raised.contentBlocked (verdict : SafetyVerdict) : Raised :=
  .blocked verdict (blockedMessage verdict)

/-- What a caller is given. -/
inductive Answer where
  | text (text : List CodePoint)
  | vector (numbers : List (Value CodePoint))

inductive Event where
  | screened (tenant : TenantContext) (text : List CodePoint) (direction : SafetyDirection)
      (screening : Screening)
  | logged (line : SafetyLogLine)
  | sent (request : OutboundRequest)
  | returned (answer : Answer)

/-! ## Enforcing -/

def unreachableLine (correlation traceback : List CodePoint) : SafetyLogLine where
  warning := true
  message := ofString "content safety was unreachable; failing closed"
  correlationId := correlation
  excInfo := some traceback

def decisionLine (correlation : List CodePoint) (verdict : SafetyVerdict)
    (characters : Nat) : SafetyLogLine where
  warning := false
  message := ofString "content safety " ++
    ofString (if verdict.allowed then "allowed" else "blocked") ++ ofString " on the " ++
    verdict.direction.value ++ ofString " path (" ++
    (verdict.category.map SafetyCategory.value).getD (ofString "none") ++ ofString ", " ++
    ofString (toString characters) ++ ofString " characters)"
  correlationId := correlation
  excInfo := none

/-- What a screening of a text of so many characters writes to the log. -/
def linesOf (correlation : List CodePoint) (direction : SafetyDirection)
    (characters : Nat) : Screening → List SafetyLogLine
  | .answered verdict => [decisionLine correlation verdict characters]
  | .raised traceback =>
      [unreachableLine correlation traceback,
        decisionLine correlation (SafetyVerdict.unavailable direction) characters]

/-- `_enforce`, with the trace it leaves. -/
def enforce (tenant : TenantContext) (text : List CodePoint) (direction : SafetyDirection)
    (correlation : List CodePoint) (screening : Screening) :
    List Event × Except Raised Unit :=
  (.screened tenant text direction screening ::
      (linesOf correlation direction text.length screening).map .logged,
    if (screening.verdict direction).allowed then .ok ()
    else .error (.contentBlocked (screening.verdict direction)))

/-- One step after another, the second only where the first did not raise. -/
def andThen {α β : Type} (first : List Event × Except Raised α)
    (next : α → List Event × Except Raised β) : List Event × Except Raised β :=
  match first.2 with
  | .error raised => (first.1, .error raised)
  | .ok value => (first.1 ++ (next value).1, (next value).2)

/-! ## The port inside -/

/-- `ModelRequest(...)`; its `ValueError` where an identifier is blank. -/
def modelRequest (tenantId correlationId : List CodePoint)
    (purpose : ModelGateway.ModelPurpose) (inputText : List CodePoint) :
    Except ModelGateway.Raised ModelGateway.ModelRequest :=
  if h : strip tenantId ≠ [] ∧ strip correlationId ≠ [] then
    .ok ⟨tenantId, correlationId, purpose, inputText, h⟩
  else .error .value

/-- What the world outside does during one call. -/
structure Surroundings where
  screen : TenantContext → List CodePoint → SafetyDirection → Screening
  token : Option (List CodePoint)
  farSide : Nat → FarSide

/-- What `send` puts on the wire for a request. -/
def wire (settings : ModelGateway.ModelGatewaySettings) (policy : RetryPolicy)
    (around : Surroundings) (request : ModelGateway.ModelRequest) : List OutboundRequest :=
  match ModelGateway.outbound settings around.token request with
  | .error _ => []
  | .ok outbound =>
      (ResilientHttpCaller.send policy ModelGateway.system outbound around.farSide).1

/-- A call of `GatewayModelAdapter`. -/
def adapter (settings : ModelGateway.ModelGatewaySettings) (policy : RetryPolicy)
    (around : Surroundings) (tenant : TenantContext) (correlationId : List CodePoint)
    (purpose : ModelGateway.ModelPurpose) (text : List CodePoint) :
    List Event × Except Raised ModelGateway.ModelResponse :=
  match modelRequest tenant.tenantId.value.toText correlationId purpose text with
  | .error raised => ([], .error (.model raised))
  | .ok request =>
      ((wire settings policy around request).map .sent,
        (ModelGateway.send settings policy around.token request around.farSide).mapError .model)

/-! ## The two methods -/

def complete (settings : ModelGateway.ModelGatewaySettings) (policy : RetryPolicy)
    (around : Surroundings) (tenant : TenantContext) (prompt : List CodePoint)
    (correlationId : CorrelationId) : List Event × Except Raised (List CodePoint) :=
  andThen (enforce tenant prompt .inbound correlationId.value
      (around.screen tenant prompt .inbound)) fun _ =>
    andThen (adapter settings policy around tenant correlationId.value .completion prompt)
      fun response =>
        andThen (enforce tenant response.text .outbound correlationId.value
          (around.screen tenant response.text .outbound)) fun _ => ([], .ok response.text)

def embed (settings : ModelGateway.ModelGatewaySettings) (policy : RetryPolicy)
    (around : Surroundings) (tenant : TenantContext) (text : List CodePoint) :
    List Event × Except Raised (List (Value CodePoint)) :=
  andThen (enforce tenant text .inbound tenant.tenantId.value.toText
      (around.screen tenant text .inbound)) fun _ =>
    andThen (adapter settings policy around tenant tenant.tenantId.value.toText .embedding text)
      fun response => ([], .ok response.embedding)

/-! ## Many calls -/

inductive Call where
  | complete (tenant : TenantContext) (prompt : List CodePoint) (correlationId : CorrelationId)
  | embed (tenant : TenantContext) (text : List CodePoint)

namespace Call

def tenant : Call → TenantContext
  | .complete tenant _ _ | .embed tenant _ => tenant

/-- The text that goes to the model. -/
def text : Call → List CodePoint
  | .complete _ prompt _ => prompt
  | .embed _ text => text

/-- The identifier the call is logged under and metered with. -/
def correlation : Call → List CodePoint
  | .complete _ _ correlationId => correlationId.value
  | .embed tenant _ => tenant.tenantId.value.toText

/-- The trace a call leaves, with what its caller is given at the end of it. -/
def trace (settings : ModelGateway.ModelGatewaySettings) (policy : RetryPolicy)
    (around : Surroundings) : Call → List Event
  | .complete tenant prompt correlationId =>
      (andThen (SafeModel.complete settings policy around tenant prompt correlationId)
        fun text => ([.returned (.text text)], .ok ())).1
  | .embed tenant text =>
      (andThen (SafeModel.embed settings policy around tenant text)
        fun numbers => ([.returned (.vector numbers)], .ok ())).1

end Call

end SafeModel

end Synthia

/-!
## Both crossings are screened

Any number of calls of the screening port run beside each other. Whatever the screening
service and the gateway do, and wherever a call is cut off, nothing goes to the gateway that
the service did not permit before, for the same organisation and as the very same text; and
no completion reaches a caller that it did not permit on the way out. Each of these
decisions stands in the log under the call's identifier before what it decided, and a line
of the log follows from the screening it tells of and the length of what was screened.

A call's trace is a stretch for each of its steps, and each stretch is shown good after the
ones before it. That calls interleave adds nothing, as what an event needs before it is in
its own call's trace.
-/

namespace Synthia

open Text Json Traces

namespace SafeModel

/-- The text was permitted in that direction, and the decision logged. -/
def Crossed (call : Call) (direction : SafetyDirection) (text : List CodePoint)
    (earlier : List Event) : Prop :=
  ∃ verdict, verdict.allowed = true ∧
    .screened call.tenant text direction (.answered verdict) ∈ earlier ∧
    .logged (decisionLine call.correlation verdict text.length) ∈ earlier

/-- The request carries the call's text, under its organisation and identifier. -/
structure Bears (call : Call) (request : OutboundRequest) : Prop where
  organisation : ("X-Synthia-Organisation", call.tenant.tenantId.value.toText) ∈ request.headers
  correlation : ("X-Correlation-Id", call.correlation) ∈ request.headers
  input : request.jsonBody = some (.object [(ofString "input", .string call.text)])

/-- What stands before an event of a call. -/
def Guarded (call : Call) (earlier : List Event) : Event → Prop
  | .screened tenant text direction _ =>
      tenant = call.tenant ∧
        (text = call.text ∧ direction = .inbound ∨
          direction = .outbound ∧ Crossed call .inbound call.text earlier)
  | .logged line =>
      ∃ text direction screening,
        .screened call.tenant text direction screening ∈ earlier ∧
          line ∈ linesOf call.correlation direction text.length screening
  | .sent request => Crossed call .inbound call.text earlier ∧ Bears call request
  | .returned (.text text) => Crossed call .outbound text earlier
  | .returned (.vector _) => Crossed call .inbound call.text earlier

/-! ### One step after another -/

section Steps

variable {α β : Type} {call : Call} {earlier : List Event}
variable {first : List Event × Except Raised α} {next : α → List Event × Except Raised β}

theorem led_andThen {Good : List Event → Event → Prop} (hfirst : Led Good earlier first.1)
    (hnext : ∀ value, first.2 = .ok value →
      Led Good (earlier ++ first.1) (next value).1) :
    Led Good earlier (andThen first next).1 := by
  rw [andThen]
  split
  · exact hfirst
  · next value hvalue => exact led_append.mpr ⟨hfirst, hnext value hvalue⟩

/-- Where the second step was reached and did not raise, the trace is that of both. -/
theorem andThen_ok {result : β} (h : (andThen first next).2 = .ok result) :
    ∃ value, first.2 = .ok value ∧ (next value).2 = .ok result ∧
      (andThen first next).1 = first.1 ++ (next value).1 := by
  rw [andThen] at h ⊢
  split at h
  · cases h
  · next value hvalue =>
      rw [hvalue]
      exact ⟨value, rfl, h, rfl⟩

theorem Crossed.append {direction : SafetyDirection} {text : List CodePoint}
    (h : Crossed call direction text earlier) (more : List Event) :
    Crossed call direction text (earlier ++ more) := by
  obtain ⟨verdict, hallowed, hscreened, hlogged⟩ := h
  exact ⟨verdict, hallowed, List.mem_append_left more hscreened,
    List.mem_append_left more hlogged⟩

/-! ### A screening -/

variable {text : List CodePoint} {direction : SafetyDirection} {screening : Screening}

/-- A screening that does not raise was answered with a permit, which is logged. -/
theorem crossed_of_enforce
    (h : (enforce call.tenant text direction call.correlation screening).2 = .ok ()) :
    Crossed call direction text
      (earlier ++ (enforce call.tenant text direction call.correlation screening).1) := by
  rw [enforce] at h
  dsimp only at h
  cases screening with
  | raised traceback => cases h
  | answered verdict =>
      rw [Screening.verdict] at h
      cases hallowed : verdict.allowed with
      | false =>
          rw [hallowed] at h
          cases h
      | true =>
          refine ⟨verdict, hallowed, List.mem_append_right _ ?_, List.mem_append_right _ ?_⟩
          · exact List.mem_cons_self ..
          · exact List.mem_cons_of_mem _ (List.mem_cons_self ..)

theorem led_enforce
    (h : text = call.text ∧ direction = .inbound ∨
      direction = .outbound ∧ Crossed call .inbound call.text earlier) :
    Led (Guarded call) earlier
      (enforce call.tenant text direction call.correlation screening).1 := by
  refine led_cons.mpr ⟨⟨rfl, h⟩, led_of_forall fun more event hevent => ?_⟩
  obtain ⟨line, hline, rfl⟩ := List.mem_map.mp hevent
  refine ⟨text, direction, screening, ?_, hline⟩
  rw [List.append_assoc]
  exact List.mem_append_right earlier (List.mem_cons_self ..)

end Steps

/-! ### The adapter -/

section Adapter

variable {settings : ModelGateway.ModelGatewaySettings} {policy : RetryPolicy}
variable {around : Surroundings}

theorem outboundRequest_make {method : String} {url : List CodePoint} {timeoutSeconds : ℚ}
    {headers : List (String × List CodePoint)} {body : Option (Json.Value CodePoint)}
    {request : OutboundRequest}
    (h : OutboundRequest.make method url timeoutSeconds headers body = some request) :
    request.headers = headers ∧ request.jsonBody = body := by
  rw [OutboundRequest.make] at h
  split at h
  · injection h with h
    rw [← h]
    exact ⟨rfl, rfl⟩
  · cases h

theorem headers_ok {token : Option (List CodePoint)} {request : ModelGateway.ModelRequest}
    {headers : List (String × List CodePoint)}
    (h : ModelGateway.headers settings token request = .ok headers) :
    ("X-Synthia-Organisation", request.tenantId) ∈ headers ∧
      ("X-Correlation-Id", request.correlationId) ∈ headers := by
  unfold ModelGateway.headers at h
  dsimp only at h
  split at h
  · injection h with h
    rw [← h]
    simp
  · cases token with
    | none => cases h
    | some token =>
        injection h with h
        rw [← h]
        simp

theorem outbound_bears {token : Option (List CodePoint)} {request : ModelGateway.ModelRequest}
    {outbound : OutboundRequest}
    (h : ModelGateway.outbound settings token request = .ok outbound) :
    ("X-Synthia-Organisation", request.tenantId) ∈ outbound.headers ∧
      ("X-Correlation-Id", request.correlationId) ∈ outbound.headers ∧
      outbound.jsonBody = some (.object [(ofString "input", .string request.inputText)]) := by
  unfold ModelGateway.outbound at h
  dsimp only [bind, Except.bind, pure, Except.pure] at h
  split at h
  · cases h
  · cases hheaders : ModelGateway.headers settings token request with
    | error raised =>
        rw [hheaders] at h
        cases h
    | ok headers =>
        rw [hheaders] at h
        dsimp only at h
        split at h
        · cases h
        · next made hmade =>
            injection h with h
            obtain ⟨hmadeHeaders, hbody⟩ := outboundRequest_make hmade
            rw [← h, hmadeHeaders]
            obtain ⟨horganisation, hcorrelation⟩ := headers_ok hheaders
            exact ⟨horganisation, hcorrelation, hbody⟩

theorem modelRequest_ok {tenantId correlationId text : List CodePoint}
    {purpose : ModelGateway.ModelPurpose} {request : ModelGateway.ModelRequest}
    (h : modelRequest tenantId correlationId purpose text = .ok request) :
    request.tenantId = tenantId ∧ request.correlationId = correlationId ∧
      request.inputText = text := by
  rw [modelRequest] at h
  split at h
  · injection h with h
    rw [← h]
    exact ⟨rfl, rfl, rfl⟩
  · cases h

theorem wire_bears {request : ModelGateway.ModelRequest} {sent : OutboundRequest}
    (h : sent ∈ wire settings policy around request) :
    ("X-Synthia-Organisation", request.tenantId) ∈ sent.headers ∧
      ("X-Correlation-Id", request.correlationId) ∈ sent.headers ∧
      sent.jsonBody = some (.object [(ofString "input", .string request.inputText)]) := by
  rw [wire] at h
  split at h
  · cases h
  · next outbound houtbound =>
      rw [ResilientHttpCaller.send_issued h]
      exact outbound_bears houtbound

/-- The adapter puts nothing on the wire but requests that carry the call's text. -/
theorem led_adapter {call : Call} {earlier : List Event}
    {purpose : ModelGateway.ModelPurpose}
    (hcrossed : Crossed call .inbound call.text earlier) :
    Led (Guarded call) earlier
      (adapter settings policy around call.tenant call.correlation purpose call.text).1 := by
  cases hrequest : modelRequest call.tenant.tenantId.value.toText call.correlation purpose
      call.text with
  | error raised =>
      unfold adapter
      simp only [hrequest]
      exact led_nil
  | ok request =>
      unfold adapter
      simp only [hrequest]
      refine led_of_forall fun more event hevent => ?_
      obtain ⟨sent, hsent, rfl⟩ := List.mem_map.mp hevent
      obtain ⟨htenant, hcorrelation, htext⟩ := modelRequest_ok hrequest
      have hbears := wire_bears hsent
      rw [htenant, hcorrelation, htext] at hbears
      exact ⟨hcrossed.append more, hbears.1, hbears.2.1, hbears.2.2⟩

/-! ### A call -/

/-- A completion that is given back was permitted on its way out. -/
theorem crossed_of_complete {tenant : TenantContext} {prompt text : List CodePoint}
    {correlationId : CorrelationId}
    (h : (complete settings policy around tenant prompt correlationId).2 = .ok text) :
    Crossed (.complete tenant prompt correlationId) .outbound text
      (complete settings policy around tenant prompt correlationId).1 := by
  rw [complete] at h ⊢
  obtain ⟨-, -, h, htrace⟩ := andThen_ok h
  rw [htrace]
  obtain ⟨response, -, h, htrace⟩ := andThen_ok h
  rw [htrace]
  obtain ⟨_, houtbound, h, htrace⟩ := andThen_ok h
  rw [htrace]
  injection h with h
  rw [← h, List.append_nil, ← List.append_assoc]
  exact @crossed_of_enforce (.complete tenant prompt correlationId) _ _ _ _ houtbound

/-- A vector is given back for a text that was permitted on its way in. -/
theorem crossed_of_embed {tenant : TenantContext} {text : List CodePoint}
    {numbers : List (Value CodePoint)}
    (h : (embed settings policy around tenant text).2 = .ok numbers) :
    Crossed (.embed tenant text) .inbound text
      (embed settings policy around tenant text).1 := by
  rw [embed] at h ⊢
  obtain ⟨_, hinbound, -, htrace⟩ := andThen_ok h
  rw [htrace]
  exact (@crossed_of_enforce (.embed tenant text) [] _ _ _ hinbound).append _

/-- Every event of a call's trace has before it what it needs. -/
theorem led_trace (call : Call) :
    Led (Guarded call) [] (call.trace settings policy around) := by
  cases call with
  | complete tenant prompt correlationId =>
      refine led_andThen ?_ fun text htext =>
        led_cons.mpr ⟨crossed_of_complete htext, led_nil⟩
      refine led_andThen (led_enforce (Or.inl ⟨rfl, rfl⟩)) fun _ hinbound => ?_
      have hcrossed :=
        @crossed_of_enforce (.complete tenant prompt correlationId) [] _ _ _ hinbound
      refine led_andThen (led_adapter hcrossed) fun response _ => ?_
      exact led_andThen (led_enforce (Or.inr ⟨rfl, hcrossed.append _⟩)) fun _ _ => led_nil
  | embed tenant text =>
      refine led_andThen ?_ fun numbers hnumbers =>
        led_cons.mpr ⟨crossed_of_embed hnumbers, led_nil⟩
      refine led_andThen (led_enforce (Or.inl ⟨rfl, rfl⟩)) fun _ hinbound => ?_
      have hcrossed := @crossed_of_enforce (.embed tenant text) [] _ _ _ hinbound
      exact led_andThen (led_adapter hcrossed) fun _ _ => led_nil

end Adapter

/-! ### Calls beside each other -/

/-- **Both crossings are screened.** In any interleaving of any calls, each of them perhaps
cut off, whatever the screening service and the gateway do: a request on the wire carries its
call's text, organisation and identifier, and that text was permitted inbound for that
organisation before; a completion was permitted outbound before its caller has it; both
decisions are in the log before; and a line of the log follows from a screening before it
and the length of what was screened. -/
theorem crossings_screened {ι : Type} [DecidableEq ι]
    (settings : ModelGateway.ModelGatewaySettings) (policy : RetryPolicy) (calls : ι → Call)
    (around : ι → Surroundings) (schedule : List ι) :
    Led (fun earlier entry => Guarded (calls entry.1) (own entry.1 earlier) entry.2) []
      (weave (fun party => (calls party).trace settings policy (around party)) schedule) :=
  led_weave (fun party => led_trace (calls party)) schedule

end SafeModel

end Synthia
