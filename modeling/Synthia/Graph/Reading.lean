import Synthia.Graph.State

/-!
# What the user's own words decide

The two deterministic readings of a conversation: `assess_triage`, which asks
whether a request has been articulated, and `classify_scope`, which asks whether
it is one the platform serves. Neither reads retrieved content or model output.
-/

namespace Synthia

open Text

/-! ## Triage -/

inductive TriageOutcome where
  | articulated
  | conversational
  deriving DecidableEq, Repr

structure TriageAssessment where
  outcome : TriageOutcome
  reason : String
  deriving DecidableEq, Repr

def TriageAssessment.commitsWork (assessment : TriageAssessment) : Bool :=
  assessment.outcome == .articulated

structure SessionTurn where
  content : List CodePoint
  senderIsEndUser : Bool
  deriving DecidableEq

def minimumArticulatedWords : Nat := 4

def minimumArticulatedCharacters : Nat := 15

def acknowledgements : List String :=
  ["hi", "hello", "hey", "thanks", "thank you", "ok", "okay", "yes", "no", "sure",
    "please", "help", "good morning", "good afternoon", "are you there"]

/-- Whether a word set of ASCII literals contains a word. -/
def oneOf (vocabulary : List String) (word : List CodePoint) : Bool :=
  vocabulary.any fun entry => ofString entry == word

/-- Whether one turn states a request. -/
def articulates (turn : SessionTurn) : Bool :=
  let text := strip turn.content
  turn.senderIsEndUser &&
    !oneOf acknowledgements (rstripChars (ofString "!.?") (lower text)) &&
    decide (text.length ≥ minimumArticulatedCharacters) &&
    decide ((split text).length ≥ minimumArticulatedWords)

def assessTriage (turns : List SessionTurn) : TriageAssessment :=
  if turns.any articulates then
    ⟨.articulated, "the request has been described in enough detail to be worked on"⟩
  else
    ⟨.conversational, "no request has been described yet, so no work record has been opened"⟩

/-! ## Scope -/

def itVocabulary : List String :=
  ["access", "account", "application", "browser", "certificate", "computer", "connect",
    "crash", "device", "disk", "email", "error", "install", "laptop", "licence", "license",
    "login", "mailbox", "network", "outlook", "password", "permission", "printer", "reset",
    "server", "software", "teams", "update", "vpn", "wifi", "windows"]

def outOfScopeVocabulary : List String :=
  ["appraisal", "bonus", "expenses", "grievance", "holiday", "invoice", "maternity",
    "payroll", "payslip", "pension", "recruitment", "resignation", "salary", "sickness",
    "timesheet"]

inductive ScopeOutcome where
  | continue
  | decline
  | escalate
  deriving DecidableEq, Repr

inductive EscalationReason where
  | insufficientKnowledge
  | notPermitted
  | humanDecisionRequired
  | outOfScope
  | unansweredItQuestion
  | externalSystemUnavailable
  deriving DecidableEq, Repr

def EscalationReason.explanation : EscalationReason → String
  | .insufficientKnowledge =>
      "I could not find guidance specific enough to your organisation to act on, so I have " ++
      "passed this to the support team with everything you have told me."
  | .notPermitted =>
      "This is not something I am permitted to do, so I have passed it to the support team, who " ++
      "can take it forward."
  | .humanDecisionRequired =>
      "This needs a person to decide before anything happens, so I have passed it to the " ++
      "support team rather than acting on it myself."
  | .outOfScope =>
      "This is outside what I can help with, so I have passed it to the support team."
  | .unansweredItQuestion =>
      "I could not answer this one, so I have passed it to the support team with what you have " ++
      "told me."
  | .externalSystemUnavailable =>
      "A system I need is temporarily unavailable, so I have passed this to the support team. " ++
      "Nothing is wrong with your request."

structure ScopeDecision where
  outcome : ScopeOutcome
  explanation : String
  escalationReason : Option EscalationReason := none
  deriving DecidableEq, Repr

def declinedExplanation : String :=
  "This is not something the IT service desk handles, so I have not passed it on — somebody " ++
  "would have to raise it with the right team directly. I can help with IT accounts, devices, " ++
  "software and access."

/-- `_in_scope`. -/
def inScope (grounded : Bool) : ScopeDecision :=
  if grounded then
    ⟨.continue, "", none⟩
  else
    ⟨.escalate, EscalationReason.unansweredItQuestion.explanation,
      some .unansweredItQuestion⟩

/-- The words of a request, without the punctuation around them. -/
def scopeWords (text : List CodePoint) : List (List CodePoint) :=
  (split text).map fun word => lower (stripChars (ofString ".,!?;:'\"") word)

/-- IT vocabulary is checked first: a request that mentions both is an IT
request. -/
def classifyScope (text : List CodePoint) (grounded : Bool) : ScopeDecision :=
  if (scopeWords text).any (oneOf itVocabulary) then
    inScope grounded
  else if (scopeWords text).any (oneOf outOfScopeVocabulary) then
    ⟨.decline, declinedExplanation, none⟩
  else
    inScope grounded

/-- `_latest_user_content`. -/
def latestUserContent (state : AgentState) : List CodePoint :=
  match state.conversation.reverse.find? fun turn => turn.sender == .endUser with
  | some turn => turn.content
  | none => []

end Synthia
