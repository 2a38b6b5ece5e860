import Synthia.Egress.ModelGateway
import Synthia.Proofs.OnePost

/-!
# What a model call is refused with

A model call ends with the answer that decides it: the first one the shared caller does not
retry on, or the last one the policy allows. The gateway refuses for want of budget with a
403 and for the rate with a 429, and the caller of the model is to be told of these two with
an error of their own, and of everything else with the general one.

The 403 is told from the other refusals by its number in the message. The 429 is a transient
failure to the shared caller, so what arrives here when the attempts are used up is the one
error of all transient failures, and it is told like an outage. An answer below 400 is read
as a success, and what goes wrong in the reading is told with whatever is raised there.
-/

namespace Synthia

open Text Json

namespace ModelGateway

/-- The answer that decides a call: that of the last attempt made. -/
def deciding (policy : RetryPolicy) (farSide : Nat → FarSide) : FarSide :=
  (Retry.answers FarSide.isTransient farSide policy.maxAttempts 1).getLast
    (Retry.answers_ne_nil _ _ policy.bounded.1 1)

/-- An exhausted budget, or an exceeded rate. -/
def Limited : FarSide → Prop
  | .responded answer => answer.status = 403 ∨ answer.status = 429
  | _ => False

def Succeeded (answer : HttpResponse) : Prop := 200 ≤ answer.status ∧ answer.status < 300

/-- The field holds a text that is not blank and within the limit. -/
def HoldsText (payload : Value CodePoint) (field : String) : Prop :=
  ∃ text, payload.member (ofString field) = some (.string text) ∧ strip text ≠ [] ∧
    text.length ≤ maxTextCharacters

def IsNumber (value : Value CodePoint) : Prop := ∃ literal, value = .number literal

/-- The body is an object with the completion's text, or with an embedding of numbers. -/
def WellFormed (purpose : ModelPurpose) (payload : Value CodePoint) : Prop :=
  (∃ members, payload = .object members) ∧
    match purpose with
    | .completion => HoldsText payload "output"
    | .embedding =>
        ∃ values, payload.member (ofString "embedding") = some (.array values) ∧
          values ≠ [] ∧ ∀ value ∈ values, IsNumber value

/-- What a caller is to be told of a call decided by that answer. -/
structure Told (purpose : ModelPurpose) (decided : FarSide)
    (result : Except Raised ModelResponse) : Prop where
  returned : ∀ response, result = .ok response → ∃ answer payload,
    decided = .responded answer ∧ Succeeded answer ∧ answer.body = some payload ∧
      WellFormed purpose payload
  limited : (∃ message, result = .error (.budgetExceeded message)) ↔ Limited decided
  failed : ∀ raised, result = .error raised → ¬ Limited decided →
    ∃ message, raised = .egress message

/-- A body below 400 can be read without an exception of another kind, and is returned only
as what it is: for an embedding, where every value passes for a number, the values are
numbers that a float takes and the status is that of a success. -/
def Readable (purpose : ModelPurpose) (answer : HttpResponse) : Prop :=
  ∃ members, answer.body = some (.object members) ∧
    match purpose with
    | .completion => Succeeded answer ∧ HoldsText (.object members) "output"
    | .embedding =>
        ∀ values, (Value.object members).member (ofString "embedding") = some (.array values) →
          values ≠ [] → (∀ value ∈ values, isNumeric value = true) →
          Succeeded answer ∧ ∀ value ∈ values, IsNumber value ∧ overflows value = false

/-- The answer is not a 429, and below 400 its body can be read. -/
def Mappable (purpose : ModelPurpose) : FarSide → Prop
  | .responded answer =>
      answer.status ≠ 429 ∧ (answer.status < 400 → Readable purpose answer)
  | _ => True

/-! ## What each result tells -/

section Told

variable {purpose : ModelPurpose} {decided : FarSide} {answer : HttpResponse}

theorem told_ok_iff {response : ModelResponse} (h : ¬ Limited (.responded answer)) :
    Told purpose (.responded answer) (.ok response) ↔
      Succeeded answer ∧ ∃ payload, answer.body = some payload ∧ WellFormed purpose payload := by
  constructor
  · intro htold
    obtain ⟨_, payload, heq, hsucceeded, hbody, hpayload⟩ := htold.returned response rfl
    cases heq
    exact ⟨hsucceeded, payload, hbody, hpayload⟩
  · intro ⟨hsucceeded, payload, hbody, hpayload⟩
    exact ⟨fun _ _ => ⟨answer, payload, rfl, hsucceeded, hbody, hpayload⟩, by simp [h], by simp⟩

theorem told_egress_iff {message : String} :
    Told purpose decided (.error (.egress message)) ↔ ¬ Limited decided := by
  constructor
  · intro htold hlimited
    obtain ⟨_, heq⟩ := htold.limited.mpr hlimited
    cases heq
  · intro h
    exact ⟨by simp, by simp [h], by simp⟩

theorem told_budgetExceeded_iff {message : String} :
    Told purpose decided (.error (.budgetExceeded message)) ↔ Limited decided := by
  constructor
  · intro htold
    exact htold.limited.mp ⟨message, rfl⟩
  · intro h
    exact ⟨by simp, by simp [h], by simp [h]⟩

/-- Nothing else that is raised tells anything. -/
theorem not_told {raised : Raised} (hbudget : ∀ message, raised ≠ .budgetExceeded message)
    (hegress : ∀ message, raised ≠ .egress message) :
    ¬ Told purpose decided (.error raised) := by
  intro htold
  by_cases hlimited : Limited decided
  · obtain ⟨message, heq⟩ := htold.limited.mpr hlimited
    cases heq
    exact hbudget message rfl
  · obtain ⟨message, heq⟩ := htold.failed raised rfl hlimited
    exact hegress message heq

end Told

/-! ## Reading -/

theorem requireText_cases (payload : Value CodePoint) (field : String) :
    (HoldsText payload field ∧ ∃ text, requireText payload field = .ok text) ∨
      (¬ HoldsText payload field ∧
        ∃ reason, requireText payload field = .error (.boundary system reason)) := by
  unfold requireText HoldsText
  cases hmember : payload.member (ofString field) with
  | none => simp
  | some value =>
      cases value with
      | string text =>
          by_cases hblank : strip text = []
          · simp [hblank]
          · by_cases hlong : maxTextCharacters < text.length
            · simp [hblank, hlong]
            · simp [hblank, hlong, not_lt.mp hlong]
      | _ => simp

section Read

variable {answer : HttpResponse} {members : List (List CodePoint × Value CodePoint)}

theorem told_completion_iff (h : ¬ Limited (.responded answer))
    (hbody : answer.body = some (.object members)) :
    Told .completion (.responded answer) (read .completion (.object members)) ↔
      Succeeded answer ∧ HoldsText (.object members) "output" := by
  rcases requireText_cases (.object members) "output" with
    ⟨hholds, text, htext⟩ | ⟨hholds, reason, htext⟩
  · have hread : ∃ response, read .completion (.object members) = .ok response := by
      simp only [read, requireObject, bind, Except.bind, htext]
      exact ⟨_, rfl⟩
    obtain ⟨response, hread⟩ := hread
    rw [hread, told_ok_iff h, hbody]
    simp [WellFormed, hholds]
  · have hread : read .completion (.object members) = .error (.boundary system reason) := by
      simp only [read, requireObject, bind, Except.bind, htext]
    rw [hread]
    exact iff_of_false (not_told (by simp) (by simp)) fun hfine => hholds hfine.2

/-- What `_read` makes of an embedding. -/
theorem read_embedding (members : List (List CodePoint × Value CodePoint)) :
    (∃ values, (Value.object members).member (ofString "embedding") = some (.array values) ∧
      values ≠ [] ∧ (∀ value ∈ values, isNumeric value = true) ∧
        (((∃ value ∈ values, overflows value = true) ∧
            read .embedding (.object members) = .error .overflow) ∨
          ((∀ value ∈ values, overflows value = false) ∧
            ∃ response, read .embedding (.object members) = .ok response))) ∨
      ((∀ values, (Value.object members).member (ofString "embedding") = some (.array values) →
          values ≠ [] → ¬ ∀ value ∈ values, isNumeric value = true) ∧
        ∃ message, read .embedding (.object members) = .error (.egress message)) := by
  simp only [read, requireObject, bind, Except.bind]
  cases hmember : (Value.object members).member (ofString "embedding") with
  | none => simp
  | some value =>
      cases value with
      | array values =>
          cases values with
          | nil => simp
          | cons first values =>
              by_cases hnumeric : (first :: values).all isNumeric = true
              · left
                refine ⟨first :: values, rfl, List.cons_ne_nil _ _,
                  List.all_eq_true.mp hnumeric, ?_⟩
                by_cases hoverflows : (first :: values).any overflows = true
                · left
                  refine ⟨List.any_eq_true.mp hoverflows, ?_⟩
                  simp [hnumeric, hoverflows]
                · right
                  have hfits : ∀ value ∈ first :: values, overflows value = false := by
                    simpa using hoverflows
                  refine ⟨hfits, ?_⟩
                  simp [hnumeric, hoverflows]
              · right
                refine ⟨?_, ?_⟩
                · intro values' heq _ hall
                  cases heq
                  exact hnumeric (List.all_eq_true.mpr hall)
                · simp [hnumeric]
      | _ => simp

theorem told_embedding_iff (h : ¬ Limited (.responded answer))
    (hbody : answer.body = some (.object members)) :
    Told .embedding (.responded answer) (read .embedding (.object members)) ↔
      ∀ values, (Value.object members).member (ofString "embedding") = some (.array values) →
        values ≠ [] → (∀ value ∈ values, isNumeric value = true) →
        Succeeded answer ∧ ∀ value ∈ values, IsNumber value ∧ overflows value = false := by
  rcases read_embedding members with
    ⟨values, hmember, hsome, hnumeric, ⟨⟨value, hvalue, hoverflows⟩, hread⟩ |
      ⟨hfits, response, hread⟩⟩ | ⟨hnone, message, hread⟩
  · rw [hread]
    refine iff_of_false (not_told (by simp) (by simp)) fun hfine => ?_
    have hfits := ((hfine values hmember hsome hnumeric).2 value hvalue).2
    rw [hoverflows] at hfits
    cases hfits
  · rw [hread, told_ok_iff h, hbody]
    constructor
    · intro ⟨hsucceeded, payload, heq, _, values', hmember', _, hnumbers⟩ others hothers _ _
      cases heq
      rw [hmember] at hmember' hothers
      cases hmember'
      cases hothers
      exact ⟨hsucceeded, fun value hvalue => ⟨hnumbers value hvalue, hfits value hvalue⟩⟩
    · intro hfine
      obtain ⟨hsucceeded, hnumbers⟩ := hfine values hmember hsome hnumeric
      exact ⟨hsucceeded, _, rfl, ⟨members, rfl⟩, values, hmember, hsome,
        fun value hvalue => (hnumbers value hvalue).1⟩
  · rw [hread, told_egress_iff]
    exact iff_of_true h fun values hmember hsome hall => absurd hall (hnone values hmember hsome)

/-- An answer below 400 is told as what it is exactly if it can be read. -/
theorem told_read_iff {purpose : ModelPurpose} (hstatus : answer.status < 400) :
    Told purpose (.responded answer) (mapped purpose (.ok answer)) ↔ Readable purpose answer := by
  have hlimited : ¬ Limited (.responded answer) := by
    simp only [Limited]
    omega
  rw [mapped]
  cases hbody : answer.body with
  | none =>
      refine iff_of_false (not_told (by simp) (by simp)) ?_
      intro ⟨members, hmembers, _⟩
      rw [hbody] at hmembers
      cases hmembers
  | some payload =>
      cases payload with
      | object members =>
          have hreadable : Readable purpose answer ↔ match purpose with
              | .completion => Succeeded answer ∧ HoldsText (.object members) "output"
              | .embedding => ∀ values,
                  (Value.object members).member (ofString "embedding") = some (.array values) →
                    values ≠ [] → (∀ value ∈ values, isNumeric value = true) →
                    Succeeded answer ∧
                      ∀ value ∈ values, IsNumber value ∧ overflows value = false := by
            simp only [Readable, hbody, Option.some.injEq, Value.object.injEq]
            exact exists_eq_left'
          rw [hreadable]
          cases purpose with
          | completion => exact told_completion_iff hlimited hbody
          | embedding => exact told_embedding_iff hlimited hbody
      | _ =>
          refine iff_of_false ?_ ?_
          · exact not_told (by simp) (by simp)
          · intro ⟨members, hmembers, _⟩
            rw [hbody] at hmembers
            cases hmembers

end Read

/-! ## Every answer -/

/-- Among the refusals that are not retried on only the 403 has its number in the message. -/
theorem message_403 : ∀ offset < 100,
    (IntegrationError.permanent system ("HTTP " ++ toString (400 + offset))).message.tails.any
      (ofString "403").isPrefixOf = decide (offset = 3) := by
  decide +kernel

/-- What a call that was sent comes to is told rightly exactly if the answer that decides it
is not a 429 and, below 400, can be read. -/
theorem told_attempted_iff (purpose : ModelPurpose) (decided : FarSide) :
    Told purpose decided (mapped purpose (ResilientHttpCaller.attempted system decided)) ↔
      Mappable purpose decided := by
  cases decided with
  | timedOut => exact iff_of_true (told_egress_iff.mpr id) trivial
  | transportFailed => exact iff_of_true (told_egress_iff.mpr id) trivial
  | responded answer =>
      rw [ResilientHttpCaller.attempted, Egress.classify, Mappable]
      by_cases hfine : answer.status < 400
      · rw [if_pos hfine]
        dsimp only
        rw [told_read_iff hfine]
        constructor
        · intro hreadable
          exact ⟨by omega, fun _ => hreadable⟩
        · intro hmappable
          exact hmappable.2 hfine
      · rw [if_neg hfine]
        by_cases htransient : answer.status = 408 ∨ answer.status = 429 ∨ answer.status ≥ 500
        · rw [if_pos htransient]
          simp only [mapped, told_egress_iff, Limited, hfine, false_implies, and_true]
          omega
        · rw [if_neg htransient]
          obtain ⟨offset, hoffset⟩ := Nat.exists_eq_add_of_le (not_lt.mp hfine)
          have hmessage := message_403 offset (by omega)
          rw [← hoffset] at hmessage
          simp only [mapped, hmessage, decide_eq_true_eq]
          by_cases hbudget : offset = 3
          · simp only [if_pos hbudget, told_budgetExceeded_iff, Limited, hfine, false_implies,
              and_true]
            omega
          · simp only [if_neg hbudget, told_egress_iff, Limited, hfine, false_implies, and_true]
            omega

/-- A model call that is sent is told as what it was exactly if the answer that decides it
is not a 429 and, below 400, can be read. -/
theorem told_iff {settings : ModelGatewaySettings} {token : Option (List CodePoint)}
    {request : ModelRequest} {sent : OutboundRequest}
    (hsent : outbound settings token request = .ok sent) (policy : RetryPolicy)
    (farSide : Nat → FarSide) :
    Told request.purpose (deciding policy farSide)
        (send settings policy token request farSide) ↔
      Mappable request.purpose (deciding policy farSide) := by
  have hsend : send settings policy token request farSide =
      mapped request.purpose
        (ResilientHttpCaller.attempted system (deciding policy farSide)) := by
    rw [send, hsent]
    show mapped _ (ResilientHttpCaller.send policy system sent farSide).2 = _
    rw [ResilientHttpCaller.send, ResilientHttpCaller.sendFrom_result policy.bounded.1]
    rfl
  rw [hsend, told_attempted_iff]

/-- A completion asked of a configured gateway. -/
def sampleSettings : ModelGatewaySettings :=
  ⟨ofString "https://gateway.example/", [], 60⟩

def sampleRequest : ModelRequest :=
  ⟨ofString "contoso", ofString "journey-1", .completion, ofString "Hello", by decide +kernel⟩

def sampleOutbound : OutboundRequest :=
  ⟨"POST", ofString "https://gateway.example/completion", 60,
    [("X-Synthia-Organisation", ofString "contoso"),
      ("X-Correlation-Id", ofString "journey-1"),
      ("Content-Type", ofString "application/json")],
    some (.object [(ofString "input", .string (ofString "Hello"))]), by decide +kernel⟩

/-- An exhausted budget is told as one. -/
theorem told_budget :
    Told .completion (deciding {} fun _ => .responded ⟨403, none⟩)
      (send sampleSettings {} none sampleRequest fun _ => .responded ⟨403, none⟩) := by
  have hsent : outbound sampleSettings none sampleRequest = .ok sampleOutbound := rfl
  exact (told_iff hsent {} _).mpr ⟨by decide, fun hbelow => absurd hbelow (by decide)⟩

/-- A rate that stays exceeded is told as an outage. -/
theorem throttle_not_told :
    ¬ Told .completion (deciding {} fun _ => .responded ⟨429, none⟩)
      (send sampleSettings {} none sampleRequest fun _ => .responded ⟨429, none⟩) := by
  intro htold
  obtain ⟨message, hmessage⟩ := htold.limited.mpr (Or.inr rfl)
  have hsend : send sampleSettings {} none sampleRequest (fun _ => .responded ⟨429, none⟩) =
      .error (.egress "the AI Gateway did not respond") := rfl
  rw [hsend] at hmessage
  cases hmessage

end ModelGateway

end Synthia
