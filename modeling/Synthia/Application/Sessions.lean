import Synthia.Domain.SessionState
import Synthia.Graph.Reading

/-!
# The session lifecycle

`application.sessions`: what one turn does to a session. The factory that commits the
work item is not in the repository; a call brings the identifier it answers with.

A run feeds each call's result into the next. A call that raised has no result, so the
next one is given what it was given.
-/

namespace Synthia

structure TurnResult where
  state : SessionState
  workItemId : Option WorkItemId
  triage : TriageAssessment
  deriving DecidableEq, Repr

/-- One call of `open_work_item`. -/
structure WorkItemOpening where
  tenant : TenantContext
  sessionId : SessionId
  requestedBy : PrincipalId
  correlationId : CorrelationId
  deriving DecidableEq

/-- `SessionLifecycle.advance`, with the work items it opened. -/
def SessionLifecycle.advance (openWorkItem : WorkItemOpening → WorkItemId)
    (tenant : TenantContext) (sessionId : SessionId) (requester : PrincipalId)
    (correlationId : CorrelationId) (turns : List SessionTurn) (currentState : SessionState)
    (workItemId : Option WorkItemId) :
    List WorkItemId × Except IllegalSessionTransitionError TurnResult :=
  let triage := assessTriage turns
  match workItemId with
  | some committed => ([], .ok ⟨currentState, some committed, triage⟩)
  | none =>
      if !triage.commitsWork then
        ([], .ok ⟨currentState, none, triage⟩)
      else
        let committed := openWorkItem ⟨tenant, sessionId, requester, correlationId⟩
        let moved :=
          if currentState = .resolving then .ok currentState
          else transition currentState .resolving
        ([committed], moved.map fun state => ⟨state, some committed, triage⟩)

/-! ## Runs -/

/-- What one call of a run brings: who asked, the conversation so far, and what the
factory answers. -/
structure AdvanceCall where
  requester : PrincipalId
  correlationId : CorrelationId
  turns : List SessionTurn
  openWorkItem : WorkItemOpening → WorkItemId

structure SessionWorld where
  tenant : TenantContext
  sessionId : SessionId
  state : SessionState
  workItemId : Option WorkItemId
  /-- The work items opened so far. -/
  opened : List WorkItemId := []

namespace SessionWorld

def advance (world : SessionWorld) (call : AdvanceCall) :
    List WorkItemId × Except IllegalSessionTransitionError TurnResult :=
  SessionLifecycle.advance call.openWorkItem world.tenant world.sessionId call.requester
    call.correlationId call.turns world.state world.workItemId

def step (world : SessionWorld) (call : AdvanceCall) : SessionWorld :=
  match world.advance call with
  | (opened, .ok result) =>
      { world with
        state := result.state
        workItemId := result.workItemId
        opened := world.opened ++ opened }
  | (opened, .error _) => { world with opened := world.opened ++ opened }

def run (world : SessionWorld) (calls : List AdvanceCall) : SessionWorld :=
  calls.foldl step world

end SessionWorld

end Synthia
