import Synthia.Integrations.CaseOperations
import Synthia.Proofs.OnePost

/-!
# What a case operation came to, at both ends

The client reads every answer from 400 on that it does not retry on as a refusal. The
service refuses with such an answer, and it also says with one that the caller is not to be
served at all, that the body is not of the contract, or that there is no such session; and
the gateway says with one that the token will not do. None of these was a decision on the
operation. Every other ending is told as it was.

Of the attempts of one call only the last can have been answered in a way that is not
retried on, so what holds of that one holds of the call.
-/

namespace Synthia.Integrations

open Text

/-- One call of `create_case`. -/
structure CaseCall where
  settings : IntegrationsClientSettings
  policy : RetryPolicy
  token : Option (List CodePoint)
  sessionId : Uuid
  catalogueId : List CodePoint
  catalogueVersion : Int
  parameters : Members
  idempotencyKey : List CodePoint
  correlationId : CorrelationId

namespace CaseCall

def request (call : CaseCall) : Except CreateCaseError OutboundRequest :=
  IntegrationsClient.createCaseRequest call.settings call.token call.sessionId call.catalogueId
    call.catalogueVersion call.parameters call.idempotencyKey call.correlationId

/-- The body that is sent, if one is. -/
def body (call : CaseCall) : Option (Json.Value CodePoint) :=
  match call.request with
  | .ok request => request.jsonBody
  | .error _ => none

end CaseCall

section Ends

variable (uuid : List CodePoint → Option Uuid) (integer : Json.Value CodePoint → Option Int)

/-- How the serving ended, where the request got to the service. -/
def Hop.ending (body : Option (Json.Value CodePoint)) : Hop → Option CaseEnding
  | .service state headers correlationId =>
      some (serve uuid integer state headers correlationId body)
  | _ => none

/-- The route decided that the operation is not permitted. -/
def Hop.NotPermitted (body : Option (Json.Value CodePoint)) (hop : Hop) : Prop :=
  (∃ refusal, hop.ending uuid integer body = some (.refused refusal)) ∨
    ∃ error, hop.ending uuid integer body = some (.notEntitled error)

/-- The gateway turned the request away for what it is, the service did not know who sent
it, its body was not of the contract, or its session is not there. -/
def Hop.Misread (body : Option (Json.Value CodePoint)) : Hop → Prop
  | .timedOut | .transportFailed => False
  | .gateway status _ _ => status < 500 ∧ status ≠ 408 ∧ status ≠ 429
  | .service state headers _ =>
      (IdentityMiddleware.rejection headers).isSome = true ∨
        ∀ request, body.bind (CaseOperationRequest.read uuid integer) = some request →
          state.raises .tenantForSession = false ∧
            ∀ row ∈ state.sessions, row.sessionId ≠ request.sessionId

namespace CaseCall

/-- The requests of the call, and what it comes to. -/
def outcome (call : CaseCall) (hops : Nat → Hop) :
    List OutboundRequest × Except CreateCaseError CaseOperationOutcome :=
  IntegrationsClient.createCase call.settings call.policy call.token
    (fun attempt => (hops attempt).farSide uuid integer call.body) call.sessionId
    call.catalogueId call.catalogueVersion call.parameters call.idempotencyKey
    call.correlationId

/-- What the requests of the call met. -/
def met (call : CaseCall) (hops : Nat → Hop) : List Hop :=
  (List.range' 1 (call.outcome uuid integer hops).1.length).map hops

/-- The attempts the policy allows, up to the first that is answered for good. -/
def allowed (call : CaseCall) (hops : Nat → Hop) : List Hop :=
  Retry.answers (fun hop => (hop.farSide uuid integer call.body).isTransient) hops
    call.policy.maxAttempts 1

/-- Both ends know the same of the operation: that it was refused, how it was answered, or
that it ended otherwise. -/
structure EndsAgree (call : CaseCall) (hops : Nat → Hop) : Prop where
  refused : (∃ outcome, (call.outcome uuid integer hops).2 = .ok outcome ∧
      outcome.refused = true) ↔
    ∃ hop ∈ call.met uuid integer hops, hop.NotPermitted uuid integer call.body
  answered : ∀ outcome, (call.outcome uuid integer hops).2 = .ok outcome →
    outcome.refused = false →
      ∃ hop ∈ call.met uuid integer hops, ∃ result,
        hop.ending uuid integer call.body = some (.answered result) ∧
          outcome.succeeded = result.succeeded ∧
          outcome.externalReference = result.externalReference
  others : (∀ hop ∈ call.met uuid integer hops,
      ¬ hop.NotPermitted uuid integer call.body ∧
        ∀ result, hop.ending uuid integer call.body ≠ some (.answered result)) →
    ∃ error, (call.outcome uuid integer hops).2 = .error error

end CaseCall

/-! ## One answer -/

variable {uuid integer}

/-- What `create_case` tells its caller of an answer. -/
def told (farSide : FarSide) : Except CreateCaseError CaseOperationOutcome :=
  match ResilientHttpCaller.attempted integrationsSystem farSide with
  | .error (.permanent _ _) => .ok ⟨false, none, true⟩
  | .error error => .error (.integration error)
  | .ok response => IntegrationsClient.caseOutcome response

theorem told_transient {farSide : FarSide} (h : farSide.isTransient = true) :
    ∃ error, told farSide = .error error := by
  rcases ResilientHttpCaller.attempted_cases integrationsSystem farSide with
    ⟨_, system, reason, hattempted⟩ | ⟨hfinal, _⟩
  · exact ⟨.integration (.transient system reason), by rw [told, hattempted]⟩
  · rw [h] at hfinal
    cases hfinal

theorem told_client_error {response : HttpResponse} (hfailed : 400 ≤ response.status)
    (hfinal : (FarSide.responded response).isTransient = false) :
    told (.responded response) = .ok ⟨false, none, true⟩ := by
  unfold told ResilientHttpCaller.attempted Egress.classify
  rw [FarSide.isTransient, decide_eq_false_iff_not] at hfinal
  simp only [if_neg (Nat.not_lt.mpr hfailed), if_neg hfinal]

theorem told_problem {status : Nat} {title detail kind : String} {correlationId : List CodePoint}
    (h : 400 ≤ status ∧ status < 500 ∧ status ≠ 408 ∧ status ≠ 429) :
    told (.responded (problem status title detail kind correlationId)) =
      .ok ⟨false, none, true⟩ := by
  refine told_client_error h.1 (decide_eq_false ?_)
  show ¬ (status = 408 ∨ status = 429 ∨ status ≥ 500)
  omega

theorem told_answered (result : CaseOperationResult) :
    told (.responded ⟨200, some result.toJson⟩) =
      .ok ⟨result.succeeded, result.externalReference, false⟩ := by
  obtain ⟨succeeded, externalReference, payload⟩ := result
  cases externalReference <;> rfl

/-- Not to serve the caller: it is not known, or not what it asks, or not the session. -/
def CaseEnding.Turned : CaseEnding → Prop
  | .rejected _ | .malformed | .unknownSession => True
  | _ => False

theorem operate_not_turned {state : ServiceState} {tenantId : TenantId}
    {correlationId : List CodePoint} {request : CaseOperationRequest} :
    ¬ (operate state tenantId correlationId request).Turned := by
  unfold operate
  repeat' split
  all_goals exact id

theorem createCase_turned_iff {state : ServiceState} {correlationId : List CodePoint}
    {request : CaseOperationRequest} :
    (createCase state correlationId request).Turned ↔
      state.raises .tenantForSession = false ∧
        ∀ row ∈ state.sessions, row.sessionId ≠ request.sessionId := by
  unfold createCase
  cases hraises : state.raises .tenantForSession with
  | true => simp [CaseEnding.Turned]
  | false =>
      cases hfound : state.sessions.find? fun row => row.sessionId == request.sessionId with
      | none =>
          rw [List.find?_eq_none] at hfound
          refine iff_of_true trivial ⟨rfl, fun row hrow hsame => ?_⟩
          exact hfound row hrow (beq_iff_eq.mpr hsame)
      | some row =>
          have hsame := List.find?_some hfound
          rw [beq_iff_eq] at hsame
          exact iff_of_false operate_not_turned fun h =>
            h.2 row (List.mem_of_find?_eq_some hfound) hsame

/-- The service answers without a decision exactly where it turns the request away. -/
theorem misread_service_iff {body : Option (Json.Value CodePoint)} {state : ServiceState}
    {headers : IdpHeaders} {correlationId : List CodePoint} :
    (Hop.service state headers correlationId).Misread uuid integer body ↔
      (serve uuid integer state headers correlationId body).Turned := by
  rw [Hop.Misread, serve]
  cases IdentityMiddleware.rejection headers with
  | some rejection => exact iff_of_true (.inl rfl) trivial
  | none =>
      cases body.bind (CaseOperationRequest.read uuid integer) with
      | none => exact iff_of_true (.inr fun request h => nomatch h) trivial
      | some request =>
          rw [createCase_turned_iff]
          simp

section Hops

variable {body : Option (Json.Value CodePoint)} {hop : Hop}

/-- What a hop was, and what it is told as: two kinds are told as a refusal, and one of them
is none. -/
theorem hop_cases (body : Option (Json.Value CodePoint)) (hop : Hop) :
    (hop.NotPermitted uuid integer body ∧ ¬ hop.Misread uuid integer body ∧
        told (hop.farSide uuid integer body) = .ok ⟨false, none, true⟩) ∨
      (hop.Misread uuid integer body ∧ ¬ hop.NotPermitted uuid integer body ∧
        told (hop.farSide uuid integer body) = .ok ⟨false, none, true⟩) ∨
      (∃ result, hop.ending uuid integer body = some (.answered result) ∧
        ¬ hop.Misread uuid integer body ∧ told (hop.farSide uuid integer body) =
          .ok ⟨result.succeeded, result.externalReference, false⟩) ∨
      (¬ hop.NotPermitted uuid integer body ∧ ¬ hop.Misread uuid integer body ∧
        ∃ error, told (hop.farSide uuid integer body) = .error error) := by
  cases hop with
  | timedOut | transportFailed =>
      refine .inr (.inr (.inr ⟨?_, id, told_transient rfl⟩))
      simp [Hop.NotPermitted, Hop.ending]
  | gateway status answer failed =>
      have hnever : ¬ (Hop.gateway status answer failed).NotPermitted uuid integer body := by
        simp [Hop.NotPermitted, Hop.ending]
      by_cases hstatus : status < 500 ∧ status ≠ 408 ∧ status ≠ 429
      · refine .inr (.inl ⟨hstatus, hnever, told_client_error failed (decide_eq_false ?_)⟩)
        show ¬ (status = 408 ∨ status = 429 ∨ status ≥ 500)
        omega
      · refine .inr (.inr (.inr ⟨hnever, hstatus, told_transient (decide_eq_true ?_)⟩))
        show status = 408 ∨ status = 429 ∨ status ≥ 500
        omega
  | service state headers correlationId =>
      rw [misread_service_iff]
      simp only [Hop.NotPermitted, Hop.ending, Hop.farSide, Option.some.injEq]
      generalize serve uuid integer state headers correlationId body = ending
      cases ending with
      | rejected rejection =>
          refine .inr (.inl ⟨trivial, by simp, ?_⟩)
          cases rejection <;> exact told_problem (by decide)
      | malformed | unknownSession =>
          exact .inr (.inl ⟨trivial, by simp, told_problem (by decide)⟩)
      | refused refusal => exact .inl ⟨.inl ⟨refusal, rfl⟩, id, told_problem (by decide)⟩
      | notEntitled error => exact .inl ⟨.inr ⟨error, rfl⟩, id, told_problem (by decide)⟩
      | connectorMissing | systemUnavailable | unexpected =>
          exact .inr (.inr (.inr ⟨by simp, id, told_transient rfl⟩))
      | answered result => exact .inr (.inr (.inl ⟨result, rfl, id, told_answered result⟩))

theorem Hop.NotPermitted.told (h : hop.NotPermitted uuid integer body) :
    told (hop.farSide uuid integer body) = .ok ⟨false, none, true⟩ := by
  rcases hop_cases body hop with ⟨_, _, htold⟩ | ⟨_, hnot, _⟩ | ⟨result, hending, _⟩ | ⟨hnot, _⟩
  · exact htold
  · exact absurd h hnot
  · simp [Hop.NotPermitted, hending] at h
  · exact absurd h hnot

theorem Hop.Misread.not_permitted (h : hop.Misread uuid integer body) :
    ¬ hop.NotPermitted uuid integer body := by
  rcases hop_cases body hop with ⟨_, hread, _⟩ | ⟨_, hnot, _⟩ | ⟨_, _, hread, _⟩ | ⟨hnot, _⟩
  · exact absurd h hread
  · exact hnot
  · exact absurd h hread
  · exact hnot

end Hops

/-! ## The call -/

namespace CaseCall

variable {call : CaseCall} {hops : Nat → Hop}

theorem allowed_ne_nil : call.allowed uuid integer hops ≠ [] :=
  Retry.answers_ne_nil _ _ call.policy.bounded.1 1

/-- Where no request can be built, none is sent. -/
theorem outcome_of_error {error : CreateCaseError} (h : call.request = .error error) :
    call.outcome uuid integer hops = ([], .error error) := by
  rw [request] at h
  rw [outcome, IntegrationsClient.createCase, h]

theorem answers_farSide :
    Retry.answers FarSide.isTransient (fun attempt => (hops attempt).farSide uuid integer call.body)
        call.policy.maxAttempts 1 =
      (call.allowed uuid integer hops).map fun hop => hop.farSide uuid integer call.body :=
  Retry.answers_map hops FarSide.isTransient
    (fun hop => hop.farSide uuid integer call.body) call.policy.maxAttempts 1

theorem met_of_ok {made : OutboundRequest} (h : call.request = .ok made) :
    call.met uuid integer hops = call.allowed uuid integer hops := by
  rw [request] at h
  have hlength : (call.outcome uuid integer hops).1.length =
      (call.allowed uuid integer hops).length := by
    rw [outcome, IntegrationsClient.createCase, h]
    simp only [ResilientHttpCaller.send, ResilientHttpCaller.sendFrom_issued, List.length_map,
      answers_farSide]
  unfold met
  rw [hlength]
  exact (Retry.answers_eq_map_range' _ hops call.policy.maxAttempts 1).symm

/-- The call tells what the last of its answers tells. -/
theorem outcome_of_ok {made : OutboundRequest} (h : call.request = .ok made) :
    (call.outcome uuid integer hops).2 =
      told (((call.allowed uuid integer hops).getLast allowed_ne_nil).farSide uuid integer
        call.body) := by
  rw [request] at h
  rw [outcome, IntegrationsClient.createCase, h]
  simp only [ResilientHttpCaller.send,
    ResilientHttpCaller.sendFrom_result call.policy.bounded.1, answers_farSide, List.getLast_map]
  rfl

/-- One answer is what the call came to, and no other was an outcome. -/
theorem exists_last (uuid : List CodePoint → Option Uuid)
    (integer : Json.Value CodePoint → Option Int) (hops : Nat → Hop) {made : OutboundRequest}
    (h : call.request = .ok made) :
    ∃ last ∈ call.met uuid integer hops,
      (call.outcome uuid integer hops).2 = told (last.farSide uuid integer call.body) ∧
        ∀ hop ∈ call.met uuid integer hops, ∀ outcome,
          told (hop.farSide uuid integer call.body) = .ok outcome → hop = last := by
  rw [met_of_ok h]
  refine ⟨_, List.getLast_mem allowed_ne_nil, outcome_of_ok h, fun hop hhop outcome htold => ?_⟩
  rcases Retry.again_or_eq_getLast _ _ call.policy.bounded.1 hhop with htransient | hlast
  · obtain ⟨error, herror⟩ := told_transient htransient
    rw [htold] at herror
    cases herror
  · exact hlast

theorem endsAgree_of_error {error : CreateCaseError} (h : call.request = .error error) :
    call.EndsAgree uuid integer hops := by
  have hnothing : call.outcome uuid integer hops = _ := outcome_of_error h
  have hmet : call.met uuid integer hops = [] := by
    rw [met, hnothing]
    rfl
  constructor
  · rw [hnothing, hmet]
    simp
  · rw [hnothing]
    intro outcome h
    cases h
  · exact fun _ => ⟨error, by rw [hnothing]⟩

/-- The two ends agree on a call that was sent if its last answer was not misread. -/
theorem endsAgree_of_last {last : Hop} (hlast : last ∈ call.met uuid integer hops)
    (hresult : (call.outcome uuid integer hops).2 = told (last.farSide uuid integer call.body))
    (honly : ∀ hop ∈ call.met uuid integer hops, ∀ outcome,
      told (hop.farSide uuid integer call.body) = .ok outcome → hop = last)
    (hread : ¬ last.Misread uuid integer call.body) : call.EndsAgree uuid integer hops := by
  have hrefused : (∃ hop ∈ call.met uuid integer hops, hop.NotPermitted uuid integer call.body) →
      (call.outcome uuid integer hops).2 = .ok ⟨false, none, true⟩ := by
    intro h
    obtain ⟨hop, hhop, hpermitted⟩ := h
    rw [hresult, ← honly hop hhop _ hpermitted.told]
    exact hpermitted.told
  rcases hop_cases call.body last with
    ⟨hpermitted, _, htold⟩ | ⟨hmisread, _⟩ | ⟨result, hending, _, htold⟩ |
      ⟨_, _, error, htold⟩
  · rw [← hresult] at htold
    constructor
    · exact iff_of_true ⟨_, htold, rfl⟩ ⟨last, hlast, hpermitted⟩
    · intro outcome houtcome hanswered
      rw [htold] at houtcome
      cases houtcome
      cases hanswered
    · exact fun hother => absurd hpermitted (hother last hlast).1
  · exact absurd hmisread hread
  · rw [← hresult] at htold
    rw [htold] at hrefused
    constructor
    · refine iff_of_false (fun h => ?_) fun h => by simpa using hrefused h
      obtain ⟨outcome, houtcome, hflag⟩ := h
      rw [htold] at houtcome
      cases houtcome
      cases hflag
    · intro outcome houtcome _
      rw [htold] at houtcome
      cases houtcome
      exact ⟨last, hlast, result, hending, rfl, rfl⟩
    · exact fun hother => absurd hending ((hother last hlast).2 result)
  · rw [← hresult] at htold
    rw [htold] at hrefused
    constructor
    · refine iff_of_false (fun h => ?_) fun h => nomatch hrefused h
      obtain ⟨outcome, houtcome, _⟩ := h
      rw [htold] at houtcome
      cases houtcome
    · intro outcome houtcome
      rw [htold] at houtcome
      cases houtcome
    · exact fun _ => ⟨error, htold⟩

/-- **Both ends of a case operation.** The client and the route agree exactly if no attempt
of the call was answered with a refusal that the route did not make. -/
theorem endsAgree_iff (uuid : List CodePoint → Option Uuid)
    (integer : Json.Value CodePoint → Option Int) (call : CaseCall) (hops : Nat → Hop) :
    call.EndsAgree uuid integer hops ↔
      (∃ error, call.request = .error error) ∨
        ∀ hop ∈ call.allowed uuid integer hops, ¬ hop.Misread uuid integer call.body := by
  cases hrequest : call.request with
  | error error => exact iff_of_true (endsAgree_of_error hrequest) (.inl ⟨error, rfl⟩)
  | ok made =>
      rw [or_iff_right (by simp), ← met_of_ok hrequest]
      obtain ⟨last, hlast, hresult, honly⟩ :=
        exists_last uuid integer hops hrequest
      constructor
      · intro h hop hhop hmisread
        rcases hop_cases call.body hop with
          ⟨_, hread, _⟩ | ⟨_, hnot, htold⟩ | ⟨_, _, hread, _⟩ | ⟨_, hread, _⟩
        · exact hread hmisread
        · have hsame := honly hop hhop _ htold
          rw [hsame, ← hresult] at htold
          obtain ⟨other, hother, hpermitted⟩ := h.refused.mp ⟨_, htold, rfl⟩
          rw [honly other hother _ hpermitted.told, ← hsame] at hpermitted
          exact hnot hpermitted
        · exact hread hmisread
        · exact hread hmisread
      · exact fun h => endsAgree_of_last hlast hresult honly (h last hlast)

/-- A service that knows its caller and has no session. -/
def noSession : Hop :=
  .service
    { sessions := [], catalogue := ⟨[], []⟩, registry := ⟨[], []⟩, credentials := []
      secrets := fun _ => none, servicenow := true, vendor := fun _ => .transportFailed
      floatText := fun literal => literal
      raises := fun _ => false }
    ⟨ofString "principal", ofString "tenant", ofString "app", ofString "workload"⟩ []

def strayCall : CaseCall where
  settings := ⟨ofString "https://gateway.example", ofString "scope", by decide +kernel⟩
  policy := {}
  token := some []
  sessionId := ⟨1⟩
  catalogueId := ofString "case.create"
  catalogueVersion := 1
  parameters := []
  idempotencyKey := ofString "case-key-1"
  correlationId := ⟨[]⟩

theorem not_endsAgree_noSession :
    ¬ ∀ uuid integer call hops, CaseCall.EndsAgree uuid integer call hops := by
  intro h
  have hagree := h (fun _ => some ⟨1⟩) (fun _ => some 1) strayCall fun _ => noSession
  have hrefused : (strayCall.outcome (fun _ => some ⟨1⟩) (fun _ => some 1)
      fun _ => noSession).2 = .ok ⟨false, none, true⟩ := by
    decide +kernel
  obtain ⟨hop, hhop, hpermitted⟩ := hagree.refused.mp ⟨_, hrefused, rfl⟩
  obtain ⟨attempt, _, rfl⟩ := List.mem_map.mp hhop
  have hmisread : noSession.Misread (fun _ => some ⟨1⟩) (fun _ => some 1) strayCall.body :=
    Or.inr fun request _ => ⟨rfl, fun row hrow => nomatch hrow⟩
  exact hmisread.not_permitted hpermitted

end CaseCall

end Ends

end Synthia.Integrations
