import Synthia.Application.Cases
import Synthia.Proofs.Keys

/-!
# Which write the case keeps

Anchoring and escalating write under one key, made of the session. The system of
record keeps the first write it sees under a key, so of all a session's writes it
keeps one, and it is the escalation exactly when that is the one that got there
first.

The case is followed through a run by what stands under the session's key. A step
hands the system of record at most one write, its own call's or a held one, and
that write either takes the key or changes nothing.
-/

namespace Synthia

open Machine Text

theorem anchorKey_injective : Function.Injective anchorKey := by
  intro a b h
  exact congrArg SessionId.mk (Uuid.toText_injective (List.append_cancel_left h))

/-! ## Calls and what they record -/

namespace CaseCall

/-- The call is an escalation of this session for this reason, with this transcript. -/
def escalates (tenantId : TenantId) (sessionId : SessionId) (reason : EscalationReason)
    (transcript : List CodePoint) : CaseCall → Bool
  | .anchor .. => false
  | .escalate tenant session _ _ _ given conversation _ =>
      tenant.tenantId == tenantId && session == sessionId && given == reason &&
        renderTranscript conversation == transcript

end CaseCall

namespace CaseWrite

/-- The write put this reason and this transcript on this session's case. -/
def records (tenantId : TenantId) (sessionId : SessionId) (reason : EscalationReason)
    (transcript : List CodePoint) (write : CaseWrite) : Bool :=
  write.tenantId == tenantId && write.caseReference == sessionId.value.toText &&
    write.facts.lookup "reason" == some (ofString reason.value) &&
    write.facts.lookup "transcript" == some transcript

/-- A write goes to its session's case under its session's key. -/
def Keyed (write : CaseWrite) : Prop :=
  ∃ sessionId : SessionId, write.caseReference = sessionId.value.toText ∧
    write.idempotencyKey = anchorKey sessionId

end CaseWrite

variable {tenantId : TenantId} {sessionId : SessionId} {reason : EscalationReason}
  {transcript : List CodePoint}

theorem EscalationReason.text_injective :
    Function.Injective fun reason : EscalationReason => ofString reason.value := by
  intro a b h
  revert h
  cases a <;> cases b <;> decide

theorem CaseCall.key_write (call : CaseCall) :
    call.write.idempotencyKey = anchorKey call.sessionId := by
  cases call <;> rfl

theorem CaseCall.keyed (call : CaseCall) : call.write.Keyed :=
  ⟨call.sessionId, by cases call <;> rfl, call.key_write⟩

/-- An anchoring records no reason, and an escalation the one it was given. -/
theorem CaseCall.records_write (call : CaseCall) :
    call.write.records tenantId sessionId reason transcript =
      call.escalates tenantId sessionId reason transcript := by
  cases call with
  | anchor tenant session requester correlationId now summary =>
      have hreason : (CaseCall.anchor tenant session requester correlationId now
          summary).write.facts.lookup "reason" = none := rfl
      simp [CaseWrite.records, CaseCall.escalates, hreason]
  | escalate tenant session requester correlationId now given conversation candidates =>
      have hreason : (CaseCall.escalate tenant session requester correlationId now given
          conversation candidates).write.facts.lookup "reason" =
            some (ofString given.value) := rfl
      have htranscript : (CaseCall.escalate tenant session requester correlationId now given
          conversation candidates).write.facts.lookup "transcript" =
            some (renderTranscript conversation) := rfl
      have hsession : session.value.toText = sessionId.value.toText ↔ session = sessionId :=
        ⟨fun h => congrArg SessionId.mk (Uuid.toText_injective h), fun h => by rw [h]⟩
      have hgiven : ofString given.value = ofString reason.value ↔ given = reason :=
        EscalationReason.text_injective.eq_iff
      rw [Bool.eq_iff_iff]
      simp only [CaseWrite.records, CaseCall.escalates, hreason, htranscript, Bool.and_eq_true,
        beq_iff_eq, Option.some.injEq, hgiven]
      exact and_congr_left fun _ => and_congr_left fun _ => and_congr_right fun _ => hsession

namespace CaseWorld

/-- The call whose write a step hands to the system of record. -/
def arrival (world : CaseWorld) : CaseEvent → Option CaseCall
  | .call reach call => if reach.arrives then some call else none
  | .replay position => world.held[position]?

/-- The first of a session's calls whose write arrives in a run. -/
def firstArrival (sessionId : SessionId) : CaseWorld → List CaseEvent → Option CaseCall
  | _, [] => none
  | world, event :: events =>
      ((world.arrival event).filter fun call => call.sessionId == sessionId).or
        ((world.step event).bind fun next => firstArrival sessionId next events)

/-- What stands under a session's key. -/
def under (world : CaseWorld) (sessionId : SessionId) : Option CaseWrite :=
  FirstWrite.under CaseWrite.idempotencyKey world.recorded (anchorKey sessionId)

structure Kept (world : CaseWorld) : Prop where
  once : (world.recorded.map CaseWrite.idempotencyKey).Nodup
  keyed : ∀ write ∈ world.recorded, write.Keyed

/-! ## One step -/

theorem recorded_recordEscalation (world : CaseWorld) (reach : Reach) (call : CaseCall) :
    (world.recordEscalation reach call).recorded = world.recorded := by
  cases call with
  | anchor tenant session requester correlationId now summary => rfl
  | escalate tenant session requester correlationId now given conversation candidates =>
      simp only [recordEscalation]
      split <;> rfl

/-- A step adds the write that arrives with it, under the rule of the first. -/
theorem step_recorded {world next : CaseWorld} {event : CaseEvent}
    (h : world.step event = some next) :
    next.recorded = match world.arrival event with
      | some call => FirstWrite.accept CaseWrite.idempotencyKey world.recorded call.write
      | none => world.recorded := by
  cases event with
  | call reach call =>
      simp only [step, Option.some.injEq] at h
      rw [← h, recorded_recordEscalation]
      simp only [arrival]
      split <;> rfl
  | replay position =>
      simp only [step, Option.map_eq_some_iff] at h
      obtain ⟨call, hcall, rfl⟩ := h
      simp only [arrival, hcall]
      rfl

theorem step_under {world next : CaseWorld} {event : CaseEvent}
    (h : world.step event = some next) (sessionId : SessionId) :
    next.under sessionId = (world.under sessionId).or
      (((world.arrival event).filter fun call => call.sessionId == sessionId).map
        CaseCall.write) := by
  simp only [under, step_recorded h]
  cases harrival : world.arrival event with
  | none => simp
  | some call =>
      dsimp only
      rw [FirstWrite.under_accept, call.key_write, Option.filter_some]
      by_cases hsession : call.sessionId = sessionId
      · rw [if_pos (by rw [hsession]), if_pos (beq_iff_eq.mpr hsession), Option.map_some]
      · rw [if_neg (anchorKey_injective.ne hsession), if_neg (by rwa [beq_iff_eq]),
          Option.map_none]

theorem Kept.step {world next : CaseWorld} {event : CaseEvent} (h : world.Kept)
    (hstep : world.step event = some next) : next.Kept := by
  have hrecorded := step_recorded hstep
  cases harrival : world.arrival event with
  | none =>
      rw [harrival] at hrecorded
      exact ⟨by rw [hrecorded]; exact h.once, by rw [hrecorded]; exact h.keyed⟩
  | some call =>
      rw [harrival] at hrecorded
      refine ⟨by rw [hrecorded]; exact FirstWrite.nodup_accept h.once call.write, ?_⟩
      intro write hwrite
      rw [hrecorded] at hwrite
      rcases FirstWrite.mem_accept hwrite with hold | hnew
      · exact h.keyed write hold
      · rw [hnew]
        exact call.keyed

/-! ## A run -/

theorem run_under {world last : CaseWorld} {events : List CaseEvent}
    (hrun : run step world events = some last) (sessionId : SessionId) :
    last.under sessionId =
      (world.under sessionId).or ((firstArrival sessionId world events).map CaseCall.write) := by
  induction events generalizing world with
  | nil =>
      injection hrun with hrun
      simp [hrun, firstArrival]
  | cons event events ih =>
      obtain ⟨next, hnext, hrest⟩ := run_cons.mp hrun
      rw [ih hrest, step_under hnext, firstArrival, hnext, Option.bind_some, Option.map_or,
        Option.or_assoc]

/-- A write of the session's case was made under the session's key. -/
theorem Kept.key_of_records {world : CaseWorld} (h : world.Kept) {write : CaseWrite}
    (hwrite : write ∈ world.recorded)
    (hrecords : write.records tenantId sessionId reason transcript = true) :
    write.idempotencyKey = anchorKey sessionId := by
  obtain ⟨session, hcase, hkey⟩ := h.keyed write hwrite
  simp only [CaseWrite.records, Bool.and_eq_true, beq_iff_eq] at hrecords
  have hsame : session = sessionId :=
    congrArg SessionId.mk (Uuid.toText_injective (hcase.symm.trans hrecords.1.1.2))
  rw [hkey, hsame]

/-- How often a reason and transcript stand on a session's case after a run. -/
def timesRecorded (world : CaseWorld) (tenantId : TenantId) (sessionId : SessionId)
    (reason : EscalationReason) (transcript : List CodePoint) : Nat :=
  world.recorded.countP (CaseWrite.records tenantId sessionId reason transcript)

/-- In every run of anchorings, escalations and replays for any sessions, an
escalation's reason and transcript are on the session's case exactly once if and only
if, of the session's writes, one of that escalation is the first to arrive. -/
theorem escalation_recorded_iff {events : List CaseEvent} {last : CaseWorld}
    (hrun : run step {} events = some last) (tenantId : TenantId) (sessionId : SessionId)
    (reason : EscalationReason) (conversation : List ConversationTurn) :
    last.timesRecorded tenantId sessionId reason (renderTranscript conversation) = 1 ↔
      ∃ call, firstArrival sessionId {} events = some call ∧
        call.escalates tenantId sessionId reason (renderTranscript conversation) = true := by
  have hkept : last.Kept := by
    refine invariant_run (fun _ _ _ h hstep => h.step hstep) ?_ hrun
    exact ⟨List.nodup_nil, fun write hwrite => absurd hwrite List.not_mem_nil⟩
  have hcount : last.recorded.countP
      (CaseWrite.records tenantId sessionId reason (renderTranscript conversation)) = _ :=
    FirstWrite.countP_eq hkept.once
    fun write hwrite hrecords =>
      (hkept.key_of_records hwrite hrecords : write.idempotencyKey = anchorKey sessionId)
  have hunder := run_under hrun sessionId
  have hfresh : ({} : CaseWorld).under sessionId = none := rfl
  rw [hfresh, Option.none_or] at hunder
  rw [timesRecorded, hcount]
  change (if (last.under sessionId).any _ = true then 1 else 0) = 1 ↔ _
  rw [hunder]
  cases firstArrival sessionId {} events with
  | none => simp
  | some call => simp [CaseCall.records_write]

/-! ## The order the platform produces -/

def escalatedTenant : TenantContext := ⟨⟨1⟩, ⟨2⟩, .active, .endUserIdentity⟩

def anchoring : CaseCall :=
  .anchor escalatedTenant ⟨3⟩ ⟨4⟩ ⟨[]⟩ 0 (ofString "printer")

def escalation : CaseCall :=
  .escalate escalatedTenant ⟨3⟩ ⟨4⟩ ⟨[]⟩ 1 .notPermitted
    [⟨"m", .endUser, ofString "printer", 0⟩] []

/-- The session is anchored, escalated, and the escalation retried, and nothing is
held; its case does not have the escalation. -/
theorem escalation_lost :
    ∃ last, run step {} [.call .accepted anchoring, .call .accepted escalation,
        .call .accepted escalation] = some last ∧
      last.held = [] ∧
      last.timesRecorded ⟨1⟩ ⟨3⟩ .notPermitted
        (renderTranscript [⟨"m", .endUser, ofString "printer", 0⟩]) = 0 :=
  ⟨_, rfl, by decide +kernel, by decide +kernel⟩

/-- The anchoring found the system unreachable, and the escalation got there before
the held write was replayed. -/
def overtaking : List CaseEvent :=
  [.call .unreachable anchoring, .call .replyLost escalation, .call .accepted escalation,
    .replay 0]

def overtaken : CaseWorld := (run step {} overtaking).getD {}

theorem overtaking_recorded :
    run step {} overtaking = some overtaken ∧ overtaken.held = [] ∧
      overtaken.timesRecorded ⟨1⟩ ⟨3⟩ .notPermitted
        (renderTranscript [⟨"m", .endUser, ofString "printer", 0⟩]) = 1 := by
  have hrun : run step {} overtaking = some overtaken := rfl
  have hfirst : firstArrival ⟨3⟩ {} overtaking = some escalation := rfl
  refine ⟨hrun, by decide +kernel, ?_⟩
  exact (escalation_recorded_iff hrun ⟨1⟩ ⟨3⟩ .notPermitted
    [⟨"m", .endUser, ofString "printer", 0⟩]).mpr ⟨escalation, hfirst, by decide +kernel⟩

end CaseWorld

end Synthia

/-!
## What a failed escalation leaves behind

`escalate` writes to the case, writes the audit event and moves the session, in that
order, and the move is where an illegal escalation raises. By then both writes are made.
So the call fails cleanly only where it does not fail on the move: from a session that may
be escalated, or where one of the writes raised first.
-/

namespace Synthia

namespace EscalationPath

/-- If the call raised because of the session's state, neither the case system nor the
audit trail shows it. -/
def FailsCleanly (before : CaseWorld)
    (result : CaseWorld × Except EscalationError EscalationOutcome) : Prop :=
  ∀ error, result.2 = .error (.illegalTransition error) →
    result.1.recorded = before.recorded ∧ result.1.audit = before.audit

section Escalate

variable {world : CaseWorld} {reach : Reach} {auditRaises : Bool} {tenant : TenantContext}
  {sessionId : SessionId} {requester : PrincipalId} {correlationId : CorrelationId}
  {now : Instant} {reason : EscalationReason} {conversation : List ConversationTurn}
  {candidates : List RetrievedChunk} {currentState : SessionState} {receipt : CaseWriteReceipt}

theorem answer_legal (h : canTransition currentState .escalated = true) :
    answer reason currentState receipt =
      .ok ⟨reason, reason.explanation, .escalated, !receipt.committed⟩ := by
  simp only [answer, transition_ok_iff.mpr h]
  rfl

theorem answer_illegal (h : canTransition currentState .escalated = false) :
    answer reason currentState receipt = .error ⟨currentState, .escalated⟩ := by
  simp only [answer, transition, h]
  rfl

/-- A call whose writes both went through is the run's step, whatever it answers. -/
theorem escalate_step (hreceipt : reach.receipt = some receipt) :
    world.step (.call reach (.escalate tenant sessionId requester correlationId now reason
        conversation candidates)) =
      some (escalate world reach false tenant sessionId requester correlationId now reason
        conversation candidates currentState).1 := by
  rw [escalate, hreceipt]
  rfl

/-- And it leaves an audit event. -/
theorem escalate_audit (hreceipt : reach.receipt = some receipt) :
    (escalate world reach false tenant sessionId requester correlationId now reason
        conversation candidates currentState).1.audit =
      world.audit ++ [⟨tenant.tenantId, correlationId, requester, reason.value⟩] := by
  rw [escalate, hreceipt]
  simp only [Bool.false_eq_true, if_false, CaseWorld.recordEscalation, hreceipt,
    Option.isSome_some, if_true]
  split <;> rfl

/-- The call raises because of the session's state exactly where it gets that far and the
move is not legal. -/
theorem escalate_illegal_iff :
    (∃ error, (escalate world reach auditRaises tenant sessionId requester correlationId now
        reason conversation candidates currentState).2 = .error (.illegalTransition error)) ↔
      canTransition currentState .escalated = false ∧ reach.receipt.isSome = true ∧
        auditRaises = false := by
  rw [escalate]
  cases hreceipt : reach.receipt with
  | none => simp
  | some receipt =>
      cases auditRaises with
      | true => simp
      | false =>
          simp only [Bool.false_eq_true, if_false]
          cases hlegal : canTransition currentState .escalated with
          | true => simp [answer_legal hlegal, Except.mapError]
          | false => simp [answer_illegal hlegal, Except.mapError]

/-- **An escalation fails cleanly exactly if it does not fail on the session's state**: the
session may be escalated, or the case system or the audit writer raised before. -/
theorem fails_cleanly_iff (world : CaseWorld) (reach : Reach) (auditRaises : Bool)
    (tenant : TenantContext) (sessionId : SessionId) (requester : PrincipalId)
    (correlationId : CorrelationId) (now : Instant) (reason : EscalationReason)
    (conversation : List ConversationTurn) (candidates : List RetrievedChunk)
    (currentState : SessionState) :
    FailsCleanly world (escalate world reach auditRaises tenant sessionId requester
        correlationId now reason conversation candidates currentState) ↔
      canTransition currentState .escalated = true ∨ reach.receipt = none ∨
        auditRaises = true := by
  constructor
  · intro hclean
    by_contra hnot
    push Not at hnot
    obtain ⟨hlegal, hreceipt, haudit⟩ := hnot
    have hillegal := Bool.eq_false_iff.mpr hlegal
    have hwritten := Bool.eq_false_iff.mpr haudit
    obtain ⟨receipt, hsome⟩ := Option.ne_none_iff_exists'.mp hreceipt
    obtain ⟨error, herror⟩ := escalate_illegal_iff.mpr
      ⟨hillegal, Option.isSome_iff_exists.mpr ⟨receipt, hsome⟩, hwritten⟩
    have hsame := (hclean error herror).2
    rw [hwritten, escalate_audit hsome] at hsame
    exact absurd hsame (by simp)
  · intro hfine error herror
    obtain ⟨hillegal, hreceipt, hwritten⟩ := escalate_illegal_iff.mp ⟨error, herror⟩
    rcases hfine with hlegal | hnone | haudit
    · rw [hlegal] at hillegal
      cases hillegal
    · rw [hnone] at hreceipt
      cases hreceipt
    · rw [haudit] at hwritten
      cases hwritten

end Escalate

/-- A resolved session: the call raises, and the case and the audit trail say escalated. -/
theorem resolved_session_escalated :
    let result := escalate {} .accepted false CaseWorld.escalatedTenant ⟨3⟩ ⟨4⟩ ⟨[]⟩ 1
      .notPermitted [] [] .resolved
    result.2 = .error (.illegalTransition ⟨.resolved, .escalated⟩) ∧
      result.1.recorded.length = 1 ∧ result.1.audit.length = 1 ∧
      ¬ FailsCleanly {} result := by
  refine ⟨rfl, rfl, rfl, ?_⟩
  intro hclean
  exact absurd (hclean _ rfl).2 (by decide)

end EscalationPath

end Synthia
