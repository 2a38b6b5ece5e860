import Synthia.PlatformClients.Integrations

/-!
# How often a create-case request is sent

The shared caller retries on what came back and never asks which method it is sending, so
a create-case request is sent again after a timeout or a transport failure exactly as a
read is. How many requests are issued is the count of the bounded retry behind the loop.
-/

namespace Synthia

/-- The far side's behaviour is one the caller retries on. -/
def FarSide.isTransient : FarSide → Bool
  | .timedOut | .transportFailed => true
  | .responded response =>
      decide (response.status = 408 ∨ response.status = 429 ∨ response.status ≥ 500)

namespace ResilientHttpCaller

variable {system : String} {request : OutboundRequest} {farSide : Nat → FarSide}

/-- What an attempt comes to is transient exactly where the behaviour is. -/
theorem attempted_cases (system : String) (behaviour : FarSide) :
    (behaviour.isTransient = true ∧
        ∃ system' reason, attempted system behaviour = .error (.transient system' reason)) ∨
      (behaviour.isTransient = false ∧
        ((∃ response, attempted system behaviour = .ok response) ∨
          ∃ system' reason, attempted system behaviour = .error (.permanent system' reason))) := by
  cases behaviour with
  | timedOut => exact Or.inl ⟨rfl, _, _, rfl⟩
  | transportFailed => exact Or.inl ⟨rfl, _, _, rfl⟩
  | responded response =>
      rw [FarSide.isTransient, attempted]
      by_cases hfine : response.status < 400
      · have hclass : Egress.classify system response = none := if_pos hfine
        refine Or.inr ⟨decide_eq_false (by omega), Or.inl ⟨response, ?_⟩⟩
        rw [hclass]
      · by_cases htransient : response.status = 408 ∨ response.status = 429 ∨
            response.status ≥ 500
        · have hclass : Egress.classify system response =
              some (.transient system ("HTTP " ++ toString response.status)) := by
            rw [Egress.classify, if_neg hfine, if_pos htransient]
          refine Or.inl ⟨decide_eq_true htransient, system,
            "HTTP " ++ toString response.status, ?_⟩
          rw [hclass]
        · have hclass : Egress.classify system response =
              some (.permanent system ("HTTP " ++ toString response.status)) := by
            rw [Egress.classify, if_neg hfine, if_neg htransient]
          refine Or.inr ⟨decide_eq_false htransient, Or.inr ⟨system,
            "HTTP " ++ toString response.status, ?_⟩⟩
          rw [hclass]

/-- The loop issues its request once for each attempt of the bounded retry. -/
theorem sendFrom_issued (left attempt : Nat) (last : Option IntegrationError) :
    (sendFrom system request farSide left attempt last).1 =
      (Retry.answers FarSide.isTransient farSide left attempt).map fun _ => request := by
  induction left generalizing attempt last with
  | zero => rfl
  | succ left ih =>
      rw [sendFrom, Retry.answers]
      rcases attempted_cases system (farSide attempt) with
        ⟨htransient, system', reason, hattempted⟩ |
          ⟨hfinal, ⟨response, hattempted⟩ | ⟨system', reason, hattempted⟩⟩
      · rw [hattempted, htransient]
        simp only [if_true, List.map_cons, ih]
      · rw [hattempted, hfinal]
        rfl
      · rw [hattempted, hfinal]
        rfl

/-- The loop answers with what its last attempt comes to. -/
theorem sendFrom_result {left : Nat} (hleft : 1 ≤ left) (attempt : Nat)
    (last : Option IntegrationError) :
    (sendFrom system request farSide left attempt last).2 =
      attempted system ((Retry.answers FarSide.isTransient farSide left attempt).getLast
        (Retry.answers_ne_nil _ _ hleft attempt)) := by
  induction left generalizing attempt last with
  | zero => omega
  | succ left ih =>
      simp only [sendFrom, Retry.answers]
      rcases attempted_cases system (farSide attempt) with
        ⟨htransient, system', reason, hattempted⟩ |
          ⟨hfinal, ⟨response, hattempted⟩ | ⟨system', reason, hattempted⟩⟩
      · simp only [hattempted, htransient, if_true]
        cases left with
        | zero => simp [sendFrom, Retry.answers, hattempted]
        | succ left =>
            rw [ih (by omega), List.getLast_cons (Retry.answers_ne_nil _ _ (by omega) _)]
      · simp [hattempted, hfinal]
      · simp [hattempted, hfinal]

end ResilientHttpCaller

namespace IntegrationsClient

variable {settings : IntegrationsClientSettings} {token : Option (List Text.CodePoint)}
  {sessionId : Uuid} {catalogueId : List Text.CodePoint} {catalogueVersion : Int}
  {parameters : List (List Text.CodePoint × Json.Value Text.CodePoint)}
  {idempotencyKey : List Text.CodePoint} {correlationId : CorrelationId}

/-- How many of the requests are `POST`s. -/
def posts (issued : List OutboundRequest) : Nat :=
  issued.countP fun request => request.method == "POST"

theorem createCaseRequest_method {request : OutboundRequest}
    (h : createCaseRequest settings token sessionId catalogueId catalogueVersion parameters
      idempotencyKey correlationId = .ok request) : request.method = "POST" := by
  cases token with
  | none => cases h
  | some token =>
      simp only [createCaseRequest, OutboundRequest.make] at h
      split at h
      · cases h
      · next made hmade =>
          injection h with h
          split at hmade
          · injection hmade with hmade
            rw [← h, ← hmade]
          · cases hmade

/-- **One call issues at most one `POST` exactly if no second attempt is made**: no request
was built, the policy allows one attempt only, or what the far side did with the first is
not retried on. -/
theorem at_most_one_post_iff (settings : IntegrationsClientSettings) (policy : RetryPolicy)
    (token : Option (List Text.CodePoint)) (farSide : Nat → FarSide) (sessionId : Uuid)
    (catalogueId : List Text.CodePoint) (catalogueVersion : Int)
    (parameters : List (List Text.CodePoint × Json.Value Text.CodePoint))
    (idempotencyKey : List Text.CodePoint) (correlationId : CorrelationId) :
    posts (createCase settings policy token farSide sessionId catalogueId catalogueVersion
        parameters idempotencyKey correlationId).1 ≤ 1 ↔
      (∃ error, createCaseRequest settings token sessionId catalogueId catalogueVersion
          parameters idempotencyKey correlationId = .error error) ∨
        policy.maxAttempts = 1 ∨ (farSide 1).isTransient = false := by
  rw [createCase]
  cases hrequest : createCaseRequest settings token sessionId catalogueId catalogueVersion
      parameters idempotencyKey correlationId with
  | error error => simp [posts]
  | ok request =>
      have hmethod := createCaseRequest_method hrequest
      have hposts : posts (ResilientHttpCaller.send policy integrationsSystem request
          farSide).1 =
            (Retry.answers FarSide.isTransient farSide policy.maxAttempts 1).length := by
        rw [ResilientHttpCaller.send, ResilientHttpCaller.sendFrom_issued, posts,
          List.countP_map]
        exact List.countP_eq_length.mpr fun _ _ => beq_iff_eq.mpr hmethod
      have hbound := policy.bounded
      simp only [hposts, Retry.answers_length_le_one_iff, reduceCtorEq, exists_false, false_or]
      have hone : policy.maxAttempts ≤ 1 ↔ policy.maxAttempts = 1 := by omega
      rw [hone]

/-- The default policy, and a far side that accepts each request and answers too late. -/
theorem case_posted_three_times :
    posts (createCase
        ⟨Text.ofString "https://edge.example", Text.ofString "scope", by decide +kernel⟩ {}
        (some []) (fun _ => .timedOut) ⟨1⟩ (Text.ofString "create_case") 1 [] [] ⟨[]⟩).1 = 3 := by
  decide +kernel

end IntegrationsClient

end Synthia
