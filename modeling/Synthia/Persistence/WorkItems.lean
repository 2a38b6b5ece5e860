import Synthia.Persistence.Concurrency

/-!
# Work items

The durable authority record and the three statements `WorkItemRepository`
issues against it: the claim, the versioned transition and the expiry sweeper's
read. `claim` compares the window with the caller's clock; the managed columns
are stamped by the database's, so each statement that writes takes both.
-/

namespace Synthia

open Relational

/-- A `work_item` row. `claimNamed` is the table's own CHECK constraint. -/
structure WorkItemRow where
  workItemId : WorkItemId
  tenantId : TenantId
  sessionId : SessionId
  requestedByOid : PrincipalId
  state : WorkItemState
  approvalState : ApprovalState
  expiresAt : Option Instant
  claimedAt : Option Instant
  claimedBy : Option String
  version : Int
  updatedAt : Instant
  claimNamed : claimedAt.isNone = claimedBy.isNone
  deriving DecidableEq

abbrev WorkItemTable := Table WorkItemRow WorkItemRow.workItemId

instance : Versioned WorkItemRow WorkItemRow.workItemId where
  version := WorkItemRow.version
  manage now row := { row with version := row.version + 1, updatedAt := now }
  version_manage _ _ := rfl
  key_manage _ _ := rfl

namespace WorkItemRow

/-- Neither half of a claim is there. -/
theorem unclaimed : (none : Option Instant).isNone = (none : Option String).isNone := rfl

/-- `claimed_at`, `claimed_by` and `state`, as `claim` sets them. -/
def takenBy (claimedBy : String) (now : Instant) :
    Changes WorkItemRow WorkItemRow.workItemId where
  apply row :=
    { row with
      claimedAt := some now
      claimedBy := some claimedBy
      state := .claimed
      claimNamed := rfl }
  keeps_key _ := rfl
  keeps_version _ := rfl

/-- `state`, as `transition` sets it. -/
def movedTo (state : WorkItemState) : Changes WorkItemRow WorkItemRow.workItemId where
  apply row := { row with state }
  keeps_key _ := rfl
  keeps_version _ := rfl

/-- The repositories' `_scope` predicate together with the primary key. -/
def scopedTo (tenant : TenantContext) (workItemId : WorkItemId) (row : WorkItemRow) :
    Bool :=
  row.tenantId == tenant.tenantId && row.workItemId == workItemId

/-- The predicate `claim` puts in its `WHERE`, past the scope. -/
def claimable (now : Instant) (row : WorkItemRow) : Bool :=
  row.claimedAt.isNone && row.state == .authorized &&
    row.expiresAt.any fun expiresAt => decide (expiresAt > now)

/-- The predicate `list_expired` puts in its `WHERE`, past the scope. -/
def lapsed (now : Instant) (row : WorkItemRow) : Bool :=
  row.claimedAt.isNone && (row.expiresAt.any fun expiresAt => decide (expiresAt ≤ now)) &&
    row.state == .authorized

end WorkItemRow

namespace WorkItemRepository

def get (table : WorkItemTable) (tenant : TenantContext) (workItemId : WorkItemId) :
    Option WorkItemRow :=
  table.rows.find? (WorkItemRow.scopedTo tenant workItemId)

def claim (table : WorkItemTable) (tenant : TenantContext) (workItemId : WorkItemId)
    (claimedBy : String) (now databaseNow : Instant) : Bool × WorkItemTable :=
  claimOnce table
    (fun row => row.scopedTo tenant workItemId && row.claimable now)
    (WorkItemRow.takenBy claimedBy now) databaseNow

def transition (table : WorkItemTable) (tenant : TenantContext)
    (workItemId : WorkItemId) (state : WorkItemState) (expectedVersion : Int)
    (databaseNow : Instant) : Bool × WorkItemTable :=
  guardedUpdate table ⟨WorkItemRow.scopedTo tenant workItemId, expectedVersion⟩
    (WorkItemRow.movedTo state) databaseNow

/-- Rows without a window never satisfy `lapsed`, so the order's value for them
is never looked at. -/
def listExpired (table : WorkItemTable) (tenant : TenantContext) (now : Instant)
    (limit : Nat) : List (WorkItemId × Int) :=
  let lapsed := table.rows.filter fun row =>
    row.tenantId == tenant.tenantId && row.lapsed now
  ((orderBy (fun row => row.expiresAt.getD 0) lapsed).take limit).map
    fun row => (row.workItemId, row.version)

end WorkItemRepository

/-- `COMPLETED_WORK_STATES`: the states that mean the graph will not resume. -/
def completedWorkStates : List WorkItemState :=
  [.executed, .failed, .expired, .cancelled, .escalated]

/-! ## What the statements do to a row -/

section Spec

variable {table : WorkItemTable} {tenant : TenantContext} {workItemId : WorkItemId}
  {claimedBy : String} {now databaseNow : Instant} {state : WorkItemState}
  {expectedVersion : Int} {limit : Nat} {row : WorkItemRow}

theorem WorkItemRow.scopedTo_iff :
    row.scopedTo tenant workItemId = true ↔
      row.tenantId = tenant.tenantId ∧ row.workItemId = workItemId := by
  simp [WorkItemRow.scopedTo]

theorem WorkItemRow.claimable_iff :
    row.claimable now = true ↔
      row.claimedAt = none ∧ row.state = .authorized ∧
        ∃ expiresAt, row.expiresAt = some expiresAt ∧ now < expiresAt := by
  simp [WorkItemRow.claimable, and_assoc, Option.any_eq_true]

theorem WorkItemRow.lapsed_iff :
    row.lapsed now = true ↔
      row.claimedAt = none ∧ row.state = .authorized ∧
        ∃ expiresAt, row.expiresAt = some expiresAt ∧ expiresAt ≤ now := by
  simp only [WorkItemRow.lapsed, Bool.and_eq_true, Option.isNone_iff_eq_none,
    Option.any_eq_true, decide_eq_true_eq, beq_iff_eq]
  constructor
  · rintro ⟨⟨hfree, hwindow⟩, hstate⟩
    exact ⟨hfree, hstate, hwindow⟩
  · rintro ⟨hfree, hstate, hwindow⟩
    exact ⟨⟨hfree, hwindow⟩, hstate⟩

/-- A claim wins exactly when the item is there for this tenant and claimable. -/
theorem WorkItemRepository.claim_won :
    (claim table tenant workItemId claimedBy now databaseNow).1 = true ↔
      ∃ row ∈ table.rows, row.scopedTo tenant workItemId = true ∧
        row.claimable now = true := by
  unfold claim
  rw [claimOnce_won (k := workItemId)]
  · simp only [Bool.and_eq_true]
  · intro row hrow
    rw [Bool.and_eq_true, WorkItemRow.scopedTo_iff] at hrow
    exact hrow.1.2

theorem WorkItemRepository.mem_claim :
    row ∈ (claim table tenant workItemId claimedBy now databaseNow).2.rows ↔
      ∃ old ∈ table.rows,
        row = if old.scopedTo tenant workItemId && old.claimable now then
          ((WorkItemRow.takenBy claimedBy now).managed databaseNow).apply old else old :=
  mem_claimOnce

/-- A transition wins exactly when the row is still at the version read. -/
theorem WorkItemRepository.transition_won :
    (transition table tenant workItemId state expectedVersion databaseNow).1 = true ↔
      ∃ row ∈ table.rows, row.scopedTo tenant workItemId = true ∧
        row.version = expectedVersion := by
  unfold transition
  rw [guardedUpdate_won (k := workItemId)]
  · rfl
  · intro row hrow
    exact (WorkItemRow.scopedTo_iff.mp hrow).2

theorem WorkItemRepository.mem_transition :
    row ∈ (transition table tenant workItemId state expectedVersion databaseNow).2.rows ↔
      ∃ old ∈ table.rows,
        row = if old.scopedTo tenant workItemId && old.version == expectedVersion then
          ((WorkItemRow.movedTo state).managed databaseNow).apply old else old :=
  mem_guardedUpdate

/-- Everything listed is a lapsed row of the tenant, at the version it had. -/
theorem WorkItemRepository.mem_listExpired {entry : WorkItemId × Int}
    (h : entry ∈ listExpired table tenant now limit) :
    ∃ row ∈ table.rows, row.tenantId = tenant.tenantId ∧ row.lapsed now = true ∧
      entry = (row.workItemId, row.version) := by
  unfold listExpired at h
  obtain ⟨row, hrow, rfl⟩ := List.mem_map.mp h
  have hmem := mem_orderBy.mp (List.mem_of_mem_take hrow)
  rw [List.mem_filter, Bool.and_eq_true, beq_iff_eq] at hmem
  exact ⟨row, hmem.1, hmem.2.1, hmem.2.2, rfl⟩

end Spec

end Synthia
