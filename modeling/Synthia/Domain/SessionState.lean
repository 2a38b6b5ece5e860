import Synthia.Domain.Vocabulary

/-!
# The session state machine

`ragcore.domain.session_state`: which moves between the nine session states are
legal, as a table. A move from a state to itself is not, and a terminal state
has no move out of it.
-/

namespace Synthia

/-- `SessionState.is_terminal`. -/
def SessionState.isTerminal : SessionState → Bool
  | .resolved | .escalated | .closedDeclined => true
  | _ => false

/-- `_LEGAL`, keyed by the state being left. -/
def legalMoves : SessionState → List SessionState
  | .conversational =>
      [.resolving, .awaitingUser, .staffControlled, .resolved, .escalated, .closedDeclined]
  | .resolving =>
      [.conversational, .awaitingUser, .awaitingConsent, .awaitingApproval, .staffControlled,
        .resolved, .escalated, .closedDeclined]
  | .awaitingUser | .awaitingConsent | .awaitingApproval =>
      [.resolving, .staffControlled, .escalated, .closedDeclined]
  | .staffControlled => [.resolved, .escalated, .closedDeclined]
  | .resolved | .escalated | .closedDeclined => []

def canTransition (current requested : SessionState) : Bool :=
  (legalMoves current).contains requested

structure IllegalSessionTransitionError where
  current : SessionState
  requested : SessionState
  deriving DecidableEq, Repr

def transition (current requested : SessionState) :
    Except IllegalSessionTransitionError SessionState :=
  if canTransition current requested then .ok requested else .error ⟨current, requested⟩

/-- The state a session enters when it suspends. -/
def suspensionFor : InterruptKind → SessionState
  | .clarification => .awaitingUser
  | .consent => .awaitingConsent
  | .approval => .awaitingApproval

theorem transition_ok_iff {current requested : SessionState} :
    transition current requested = .ok requested ↔ canTransition current requested = true := by
  unfold transition
  split <;> simp_all

/-- The terminal states are the states with no move out of them. -/
theorem isTerminal_iff {state : SessionState} :
    state.isTerminal = true ↔ ∀ requested, canTransition state requested = false := by
  constructor
  · intro h requested
    cases state with
    | resolved | escalated | closedDeclined => rfl
    | conversational | resolving | awaitingUser | awaitingConsent | awaitingApproval
    | staffControlled => cases h
  · intro h
    have hescalated := h .escalated
    cases state with
    | resolved | escalated | closedDeclined => rfl
    | conversational | resolving | awaitingUser | awaitingConsent | awaitingApproval
    | staffControlled => cases hescalated

end Synthia
