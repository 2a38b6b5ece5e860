import Synthia.Persistence.Concurrency

/-!
# Chat sessions

A `chat_session` row and the three statements of `SessionRepository`. The
transition is a guarded update like a work item's; what it sets besides the state
is the expiry of the session's content, and that only when its caller passes one.
-/

namespace Synthia

open Relational

/-- A `chat_session` row. -/
structure ChatSessionRow where
  sessionId : SessionId
  tenantId : TenantId
  requesterOid : PrincipalId
  state : SessionState
  contentExpiresAt : Option Instant
  createdAt : Instant
  version : Int
  updatedAt : Instant
  deriving DecidableEq

abbrev SessionTable := Table ChatSessionRow ChatSessionRow.sessionId

instance : Versioned ChatSessionRow ChatSessionRow.sessionId where
  version := ChatSessionRow.version
  manage now row := { row with version := row.version + 1, updatedAt := now }
  version_manage _ _ := rfl
  key_manage _ _ := rfl

namespace ChatSessionRow

/-- `state`, and `content_expires_at` where one is given. -/
def movedTo (state : SessionState) (contentExpiresAt : Option Instant) :
    Changes ChatSessionRow ChatSessionRow.sessionId where
  apply row :=
    { row with state, contentExpiresAt := contentExpiresAt.or row.contentExpiresAt }
  keeps_key _ := rfl
  keeps_version _ := rfl

/-- The repositories' `_scope` predicate together with the primary key. -/
def scopedTo (tenant : TenantContext) (sessionId : SessionId) (row : ChatSessionRow) : Bool :=
  row.tenantId == tenant.tenantId && row.sessionId == sessionId

theorem scopedTo_iff {tenant : TenantContext} {sessionId : SessionId} {row : ChatSessionRow} :
    row.scopedTo tenant sessionId = true ↔
      row.tenantId = tenant.tenantId ∧ row.sessionId = sessionId := by
  simp [scopedTo]

end ChatSessionRow

namespace SessionRepository

def get (table : SessionTable) (tenant : TenantContext) (sessionId : SessionId) :
    Option ChatSessionRow :=
  table.rows.find? (ChatSessionRow.scopedTo tenant sessionId)

def listForRequester (table : SessionTable) (tenant : TenantContext) (requester : PrincipalId)
    (limit : Nat) : List ChatSessionRow :=
  let own := table.rows.filter fun row =>
    row.tenantId == tenant.tenantId && row.requesterOid == requester
  (orderByDesc ChatSessionRow.createdAt own).take limit

def transition (table : SessionTable) (tenant : TenantContext) (sessionId : SessionId)
    (state : SessionState) (expectedVersion : Int) (contentExpiresAt : Option Instant)
    (databaseNow : Instant) : Bool × SessionTable :=
  guardedUpdate table ⟨ChatSessionRow.scopedTo tenant sessionId, expectedVersion⟩
    (ChatSessionRow.movedTo state contentExpiresAt) databaseNow

end SessionRepository

section Spec

variable {table : SessionTable} {tenant : TenantContext} {sessionId : SessionId}
  {state : SessionState} {expectedVersion : Int} {contentExpiresAt : Option Instant}
  {databaseNow : Instant} {row : ChatSessionRow}

/-- A transition wins exactly when the row is still at the version read. -/
theorem SessionRepository.transition_won :
    (transition table tenant sessionId state expectedVersion contentExpiresAt databaseNow).1 =
        true ↔
      ∃ row ∈ table.rows, row.scopedTo tenant sessionId = true ∧
        row.version = expectedVersion := by
  unfold transition
  rw [guardedUpdate_won (k := sessionId)]
  · rfl
  · intro row hrow
    exact (ChatSessionRow.scopedTo_iff.mp hrow).2

theorem SessionRepository.mem_transition :
    row ∈ (transition table tenant sessionId state expectedVersion contentExpiresAt
        databaseNow).2.rows ↔
      ∃ old ∈ table.rows,
        row = if old.scopedTo tenant sessionId && old.version == expectedVersion then
          ((ChatSessionRow.movedTo state contentExpiresAt).managed databaseNow).apply old
        else old :=
  mem_guardedUpdate

end Spec

end Synthia
