import Synthia.Lib.RowLock
import Synthia.Persistence.Sessions
import Synthia.Workers.RetentionSweep

/-!
# Feedback

`FeedbackRepository`. Both methods read the caller's own agent-authored message
first, through its session; the write is an upsert on the unique
`(message_id, given_by_oid)`, and a conflict there updates the row found whatever
else it holds.
-/

namespace Synthia

open Relational

inductive FeedbackSignal where
  | positive
  | negative
  deriving DecidableEq, Repr

/-- A `message` row, with who wrote it. -/
structure AuthoredMessage extends MessageRow where
  senderKind : SenderKind
  deriving DecidableEq

abbrev MessageTable := Table AuthoredMessage fun row => row.messageId

/-- A `feedback` row, with whose signal it is and which. -/
structure SignalRow extends FeedbackRow where
  givenByOid : PrincipalId
  signal : FeedbackSignal
  deriving DecidableEq

/-- The columns of `uq_feedback_message_id_given_by_oid`. -/
def SignalRow.giver (row : SignalRow) : MessageId × PrincipalId :=
  (row.messageId, row.givenByOid)

structure FeedbackTable extends Table SignalRow (fun row => row.feedbackId) where
  oneEach : (rows.map SignalRow.giver).Nodup

theorem FeedbackTable.oneEach_nil : (([] : List SignalRow).map SignalRow.giver).Nodup :=
  List.nodup_nil

namespace FeedbackRepository

def agentAuthored (tenant : TenantContext) (messageId : MessageId) (row : AuthoredMessage) :
    Bool :=
  row.tenantId == tenant.tenantId && row.messageId == messageId && row.senderKind == .agent

def requestedBy (tenant : TenantContext) (sessionId : SessionId) (givenBy : PrincipalId)
    (row : ChatSessionRow) : Bool :=
  row.tenantId == tenant.tenantId && row.sessionId == sessionId && row.requesterOid == givenBy

/-- `_owned_message`. -/
def ownedMessage (messages : MessageTable) (sessions : SessionTable) (tenant : TenantContext)
    (messageId : MessageId) (givenBy : PrincipalId) : Option AuthoredMessage :=
  (messages.rows.find? (agentAuthored tenant messageId)).filter fun message =>
    (sessions.rows.find? (requestedBy tenant message.sessionId givenBy)).isSome

def givenFor (messageId : MessageId) (givenBy : PrincipalId) (row : SignalRow) : Bool :=
  row.messageId == messageId && row.givenByOid == givenBy

def setSignal (signal : FeedbackSignal) : Change fun row : SignalRow => row.feedbackId where
  apply row := { row with signal }
  keeps_key _ := rfl

def revised (feedback : FeedbackTable) (messageId : MessageId) (givenBy : PrincipalId)
    (signal : FeedbackSignal) : FeedbackTable where
  toTable := feedback.update (givenFor messageId givenBy) (setSignal signal)
  oneEach := by
    have hsame : (feedback.update (givenFor messageId givenBy) (setSignal signal)).rows.map
        SignalRow.giver = feedback.rows.map SignalRow.giver := map_updateRows fun _ => rfl
    rw [hsame]
    exact feedback.oneEach

def added (feedback : FeedbackTable) (row : SignalRow)
    (hfresh : row.feedbackId ∉ feedback.rows.map fun row => row.feedbackId)
    (hfirst : row.giver ∉ feedback.rows.map SignalRow.giver) : FeedbackTable where
  toTable := feedback.insert row hfresh
  oneEach := by
    show ((feedback.rows ++ [row]).map SignalRow.giver).Nodup
    rw [List.map_append, List.map_singleton, List.nodup_append]
    refine ⟨feedback.oneEach, List.nodup_singleton _, ?_⟩
    intro a ha b hb hab
    rw [List.mem_singleton] at hb
    rw [hab, hb] at ha
    exact hfirst ha

/-- `INSERT … ON CONFLICT DO UPDATE`; nothing where the row's own identifier is
taken. -/
def upsert (feedback : FeedbackTable) (row : SignalRow) : Option FeedbackTable :=
  if hfirst : row.giver ∈ feedback.rows.map SignalRow.giver then
    some (revised feedback row.messageId row.givenByOid row.signal)
  else if hfresh : row.feedbackId ∈ feedback.rows.map fun row => row.feedbackId then
    none
  else
    some (added feedback row hfresh hfirst)

/-- `record`, with the `uuid4()` it draws. -/
def record (messages : MessageTable) (sessions : SessionTable) (feedback : FeedbackTable)
    (tenant : TenantContext) (messageId : MessageId) (givenBy : PrincipalId)
    (signal : FeedbackSignal) (feedbackId : Uuid) : Option (Bool × FeedbackTable) :=
  match ownedMessage messages sessions tenant messageId givenBy with
  | none => some (false, feedback)
  | some owned =>
      (upsert feedback
        ⟨⟨feedbackId, messageId, owned.sessionId, tenant.tenantId⟩, givenBy, signal⟩).map
          fun written => (true, written)

def withdrawn (tenant : TenantContext) (messageId : MessageId) (givenBy : PrincipalId)
    (row : SignalRow) : Bool :=
  row.tenantId == tenant.tenantId && givenFor messageId givenBy row

def withdraw (messages : MessageTable) (sessions : SessionTable) (feedback : FeedbackTable)
    (tenant : TenantContext) (messageId : MessageId) (givenBy : PrincipalId) :
    Bool × FeedbackTable :=
  match ownedMessage messages sessions tenant messageId givenBy with
  | none => (false, feedback)
  | some _ =>
      (true,
        { feedback.delete (withdrawn tenant messageId givenBy) with
          oneEach := (List.filter_sublist.map SignalRow.giver).nodup feedback.oneEach })

end FeedbackRepository

end Synthia

/-!
## Feedback calls, one beside the other

`record` and `withdraw` read the message and its session, and write one row: the one
the unique `(message_id, given_by_oid)` lets their own arguments name. Here each is a call
on that row, and what it does to the table is what it does to the row.

A record whose fresh identifier is taken raises, so its transaction rolls back; among the
statements that return there is none.
-/

namespace Synthia

open Relational RowLock

/-- A call of the repository, with the `uuid4()` that a record draws. -/
inductive FeedbackCall where
  | record (tenant : TenantContext) (messageId : MessageId) (givenBy : PrincipalId)
      (signal : FeedbackSignal) (feedbackId : Uuid)
  | withdraw (tenant : TenantContext) (messageId : MessageId) (givenBy : PrincipalId)
  deriving DecidableEq

/-- The same rows, by the columns of the unique constraint. -/
def FeedbackTable.byGiver (feedback : FeedbackTable) : Table SignalRow SignalRow.giver where
  rows := feedback.rows
  unique := feedback.oneEach

/-- The row of one giver on one message. -/
def FeedbackTable.given (feedback : FeedbackTable) (giver : MessageId × PrincipalId) :
    Option SignalRow :=
  feedback.byGiver.find giver

namespace FeedbackCall

open FeedbackRepository

/-- The row a call names. -/
def giver : FeedbackCall → MessageId × PrincipalId
  | .record _ messageId givenBy _ _ | .withdraw _ messageId givenBy => (messageId, givenBy)

/-- What `_owned_message` finds for a call. -/
def owned (messages : MessageTable) (sessions : SessionTable) :
    FeedbackCall → Option AuthoredMessage
  | .record tenant messageId givenBy _ _ | .withdraw tenant messageId givenBy =>
      ownedMessage messages sessions tenant messageId givenBy

/-- What a call makes of the row it names, where it writes. -/
def act (messages : MessageTable) (sessions : SessionTable) (found : Option SignalRow) :
    FeedbackCall → Option (Option SignalRow)
  | .record tenant messageId givenBy signal feedbackId =>
      (ownedMessage messages sessions tenant messageId givenBy).map fun message =>
        some
          (match found with
          | some row => (setSignal signal).apply row
          | none =>
              ⟨⟨feedbackId, messageId, message.sessionId, tenant.tenantId⟩, givenBy, signal⟩)
  | .withdraw tenant messageId givenBy =>
      (ownedMessage messages sessions tenant messageId givenBy).bind fun _ =>
        if found.any (withdrawn tenant messageId givenBy) then some none else none

/-- The call on the table, with its answer. -/
def execute (messages : MessageTable) (sessions : SessionTable) (feedback : FeedbackTable) :
    FeedbackCall → Option (Bool × FeedbackTable)
  | .record tenant messageId givenBy signal feedbackId =>
      FeedbackRepository.record messages sessions feedback tenant messageId givenBy signal
        feedbackId
  | .withdraw tenant messageId givenBy =>
      some (FeedbackRepository.withdraw messages sessions feedback tenant messageId givenBy)

end FeedbackCall

/-! ### The table, row by row -/

section Rows

open FeedbackRepository

variable {feedback after : FeedbackTable} {giver : MessageId × PrincipalId} {row : SignalRow}

theorem given_eq_some :
    feedback.given giver = some row ↔ row ∈ feedback.rows ∧ row.giver = giver :=
  Table.find_eq_some

theorem given_eq_none :
    feedback.given giver = none ↔ giver ∉ feedback.rows.map SignalRow.giver := by
  unfold FeedbackTable.given FeedbackTable.byGiver Table.find
  simp only [List.find?_eq_none, beq_iff_eq, List.mem_map, not_exists, not_and]

theorem givenFor_iff {messageId : MessageId} {givenBy : PrincipalId} :
    givenFor messageId givenBy row = true ↔ row.giver = (messageId, givenBy) := by
  unfold givenFor SignalRow.giver
  simp only [Bool.and_eq_true, beq_iff_eq, Prod.mk.injEq]

theorem revised_given {messageId : MessageId} {givenBy : PrincipalId}
    {signal : FeedbackSignal} :
    (revised feedback messageId givenBy signal).given giver =
      if giver = (messageId, givenBy) then
        (feedback.given giver).map (setSignal signal).apply
      else
        feedback.given giver := by
  have hmap : (revised feedback messageId givenBy signal).given giver =
      (feedback.given giver).map fun row =>
        if givenFor messageId givenBy row then (setSignal signal).apply row else row := by
    unfold FeedbackTable.given Table.find
    show ((feedback.rows.map _).find? _) = _
    rw [List.find?_map]
    congr 2
    funext row
    rw [Function.comp_apply]
    split <;> rfl
  rw [hmap]
  cases hgiven : feedback.given giver with
  | none => simp
  | some row =>
      have hrow : row.giver = giver := (given_eq_some.mp hgiven).2
      rw [Option.map_some, Option.map_some]
      by_cases hgiver : giver = (messageId, givenBy)
      · rw [if_pos hgiver, if_pos (givenFor_iff.mpr (hrow.trans hgiver))]
      · rw [if_neg hgiver, if_neg fun h => hgiver (hrow.symm.trans (givenFor_iff.mp h))]

theorem added_given {hfresh : row.feedbackId ∉ feedback.rows.map fun row => row.feedbackId}
    {hfirst : row.giver ∉ feedback.rows.map SignalRow.giver} :
    (added feedback row hfresh hfirst).given giver =
      if giver = row.giver then some row else feedback.given giver := by
  by_cases hgiver : giver = row.giver
  · rw [if_pos hgiver]
    exact given_eq_some.mpr ⟨List.mem_append_right _ (List.mem_singleton.mpr rfl), hgiver.symm⟩
  · rw [if_neg hgiver]
    unfold FeedbackTable.given Table.find
    show (feedback.rows ++ [row]).find? _ = _
    rw [List.find?_append, List.find?_cons_of_neg (by simpa using Ne.symm hgiver)]
    exact Option.or_none

end Rows

namespace FeedbackCall

open FeedbackRepository

variable {messages : MessageTable} {sessions : SessionTable} {feedback after : FeedbackTable}
  {call : FeedbackCall} {answer : Bool}

theorem record_act {tenant : TenantContext} {messageId : MessageId} {givenBy : PrincipalId}
    {signal : FeedbackSignal} {feedbackId : Uuid} {message : AuthoredMessage}
    (howned : ownedMessage messages sessions tenant messageId givenBy = some message)
    (h : upsert feedback
      ⟨⟨feedbackId, messageId, message.sessionId, tenant.tenantId⟩, givenBy, signal⟩ = some after)
    (giver : MessageId × PrincipalId) :
    after.given giver =
      if giver = (messageId, givenBy) then
        ((FeedbackCall.record tenant messageId givenBy signal feedbackId).act messages sessions
          (feedback.given giver)).getD (feedback.given giver)
      else
        feedback.given giver := by
  simp only [act, howned, Option.map_some, Option.getD_some]
  unfold upsert at h
  split at h
  · next hfirst =>
      injection h with h
      rw [← h, revised_given]
      split
      · next hgiver =>
          subst hgiver
          cases hgiven : feedback.given (messageId, givenBy) with
          | none => exact absurd hfirst (given_eq_none.mp hgiven)
          | some row => rfl
      · rfl
  · next hfirst =>
      split at h
      · cases h
      · injection h with h
        rw [← h, added_given]
        by_cases hgiver : giver = (messageId, givenBy)
        · subst hgiver
          rw [if_pos rfl, show feedback.given (messageId, givenBy) = none from
            given_eq_none.mpr hfirst]
          exact if_pos rfl
        · rw [if_neg hgiver]
          exact if_neg hgiver

theorem withdraw_given {tenant : TenantContext} {messageId : MessageId} {givenBy : PrincipalId}
    {message : AuthoredMessage} {giver : MessageId × PrincipalId} {row : SignalRow}
    (howned : ownedMessage messages sessions tenant messageId givenBy = some message) :
    (FeedbackRepository.withdraw messages sessions feedback tenant messageId givenBy).2.given
        giver = some row ↔
      feedback.given giver = some row ∧ withdrawn tenant messageId givenBy row = false := by
  have hrows : (FeedbackRepository.withdraw messages sessions feedback tenant messageId
      givenBy).2.rows = (feedback.delete (withdrawn tenant messageId givenBy)).rows := by
    unfold FeedbackRepository.withdraw
    split
    · next hnone =>
        rw [howned] at hnone
        cases hnone
    · rfl
  rw [given_eq_some, given_eq_some, hrows, Table.mem_delete]
  exact and_right_comm

theorem withdraw_act {tenant : TenantContext} {messageId : MessageId} {givenBy : PrincipalId}
    (giver : MessageId × PrincipalId) :
    (FeedbackRepository.withdraw messages sessions feedback tenant messageId givenBy).2.given
        giver =
      if giver = (messageId, givenBy) then
        ((FeedbackCall.withdraw tenant messageId givenBy).act messages sessions
          (feedback.given giver)).getD (feedback.given giver)
      else
        feedback.given giver := by
  cases howned : ownedMessage messages sessions tenant messageId givenBy with
  | none => simp [act, FeedbackRepository.withdraw, howned]
  | some message =>
      refine Option.ext fun row => ?_
      rw [withdraw_given howned]
      simp only [act, howned, Option.bind_some]
      cases hgiven : feedback.given giver with
      | none => simp
      | some found =>
          by_cases hgiver : giver = (messageId, givenBy)
          · rw [if_pos hgiver, Option.any_some]
            cases hwithdrawn : withdrawn tenant messageId givenBy found with
            | false =>
                simp only [Option.some.injEq, Bool.false_eq_true, if_false, Option.getD_none]
                constructor
                · exact And.left
                · intro hsame
                  exact ⟨hsame, hsame ▸ hwithdrawn⟩
            | true =>
                simp only [Option.some.injEq, if_true, Option.getD_some, reduceCtorEq, iff_false]
                intro hboth
                rw [← hboth.1, hwithdrawn] at hboth
                cases hboth.2
          · rw [if_neg hgiver]
            refine and_iff_left_of_imp fun hrow => Bool.eq_false_iff.mpr fun hwithdrawn => ?_
            rw [withdrawn, Bool.and_eq_true, givenFor_iff] at hwithdrawn
            exact hgiver ((given_eq_some.mp (hgiven.trans hrow)).2.symm.trans hwithdrawn.2)

/-- **A call does to the table what it does to its row**, and says whether the message is
its giver's. -/
theorem execute_act (h : call.execute messages sessions feedback = some (answer, after)) :
    answer = (call.owned messages sessions).isSome ∧
      ∀ giver, after.given giver =
        if giver = call.giver then
          (call.act messages sessions (feedback.given giver)).getD (feedback.given giver)
        else
          feedback.given giver := by
  cases call with
  | record tenant messageId givenBy signal feedbackId =>
      simp only [execute, FeedbackRepository.record] at h
      simp only [owned]
      cases howned : ownedMessage messages sessions tenant messageId givenBy with
      | none =>
          simp only [howned, Option.some.injEq, Prod.mk.injEq] at h
          rw [← h.1, ← h.2]
          refine ⟨rfl, fun giver => ?_⟩
          simp [act, howned]
      | some message =>
          simp only [howned, Option.map_eq_some_iff, Prod.mk.injEq] at h
          obtain ⟨written, hwritten, hanswer, hafter⟩ := h
          rw [← hanswer, ← hafter]
          exact ⟨rfl, record_act howned hwritten⟩
  | withdraw tenant messageId givenBy =>
      simp only [execute, Option.some.injEq] at h
      refine ⟨?_, fun giver => ?_⟩
      · rw [show answer = _ from (congrArg Prod.fst h).symm]
        simp only [owned, FeedbackRepository.withdraw]
        cases ownedMessage messages sessions tenant messageId givenBy <;> rfl
      · rw [show after = _ from (congrArg Prod.snd h).symm]
        exact withdraw_act giver

end FeedbackCall

end Synthia
