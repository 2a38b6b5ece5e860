import Synthia.Lib.RowLock
import Synthia.Proofs.Binding

/-!
# First verdict wins

`record_verdict` is one conditional update, and its condition is that nobody has
decided. Any number of deciders may call it, each in a transaction of its own
that may commit, be rolled back or stay open, and the statements interleave as
Read Committed lets them.

Two facts about the one statement carry the argument. On an undecided approval it
writes, whoever calls; and on what it wrote it never writes again, whoever calls.
So no run has two that won. And a call that was refused was refused on a version
somebody had already written, so a run in which a call has returned has one.
-/

namespace Synthia

open Relational

/-- What one decider supplies. -/
structure VerdictCall where
  decidedBy : PrincipalId
  rolesHeld : RoleSet
  verdict : ApprovalVerdict
  expiresAt : Instant
  databaseNow : Instant
  deriving DecidableEq

/-- The statement of one decider on one approval. -/
def recordsVerdict (tenant : TenantContext) (approvalId : ApprovalId)
    (approvals : ApprovalTable) (call : VerdictCall) : Option ApprovalTable :=
  wrote (ApprovalRepository.recordVerdict approvals tenant approvalId call.decidedBy
    call.rolesHeld call.verdict call.expiresAt call.databaseNow)

/-- The decision on a row is the one this decider supplied. -/
structure VerdictCall.Stored (call : VerdictCall) (row : ApprovalRow) : Prop where
  verdict : row.verdict = some call.verdict
  decidedBy : row.decidedByOid = some call.decidedBy
  rolesHeld : row.decidedByRoles = some call.rolesHeld.sortedValues
  decidedAt : row.decidedAt = some call.databaseNow
  expiresAt : row.expiresAt = some call.expiresAt

/-! ## The one statement -/

section Statement

variable {approvals written : ApprovalTable} {tenant : TenantContext} {approvalId : ApprovalId}
  {call other : VerdictCall} {approval : ApprovalRow}

/-- An undecided approval takes any verdict. -/
theorem recordsVerdict_open (hpending : approval ∈ approvals.rows)
    (hundecided : approval.undecided tenant approvalId = true) :
    recordsVerdict tenant approvalId approvals call ≠ none := by
  intro hnone
  have hlost := wrote_eq_none.mp hnone
  rw [ApprovalRepository.recordVerdict_won.mpr ⟨approval, hpending, hundecided⟩] at hlost
  cases hlost

/-- A decided one takes none. -/
theorem recordsVerdict_closes
    (hwritten : recordsVerdict tenant approvalId approvals call = some written) :
    recordsVerdict tenant approvalId written other = none := by
  obtain ⟨_, rfl⟩ := wrote_eq_some.mp hwritten
  rw [recordsVerdict, wrote_eq_none, ← Bool.not_eq_true, ApprovalRepository.recordVerdict_won]
  rintro ⟨row, hrow, hundecided⟩
  obtain ⟨old, _, hold⟩ := ApprovalRepository.mem_recordVerdict.mp hrow
  split at hold
  · -- the row a verdict was written to
    rw [hold] at hundecided
    cases (ApprovalRow.undecided_iff.mp hundecided).2.2
  · next hother => exact hother (hold ▸ hundecided)

theorem recordsVerdict_stored (hpending : approval ∈ approvals.rows)
    (hundecided : approval.undecided tenant approvalId = true)
    (hwritten : recordsVerdict tenant approvalId approvals call = some written) :
    ∃ row ∈ written.rows, row.approvalId = approvalId ∧ row.workItemId = approval.workItemId ∧
      call.Stored row := by
  obtain ⟨_, rfl⟩ := wrote_eq_some.mp hwritten
  refine ⟨_, ApprovalRepository.mem_recordVerdict.mpr ⟨approval, hpending, rfl⟩, ?_⟩
  rw [if_pos hundecided]
  exact ⟨(ApprovalRow.undecided_iff.mp hundecided).2.1, rfl, rfl, rfl, rfl, rfl, rfl⟩

/-- A committed decision closes its approval. -/
theorem recordsVerdict_decided {row : ApprovalRow} (hrow : row ∈ approvals.rows)
    (hid : row.approvalId = approvalId) (hdecided : row.decidedAt.isSome = true) :
    recordsVerdict tenant approvalId approvals call = none := by
  rw [recordsVerdict, wrote_eq_none, ← Bool.not_eq_true, ApprovalRepository.recordVerdict_won]
  rintro ⟨other, hother, hundecided⟩
  obtain ⟨_, hotherId, hnone⟩ := ApprovalRow.undecided_iff.mp hundecided
  rw [approvals.eq_of_key hother hrow (hotherId.trans hid.symm)] at hnone
  rw [hnone] at hdecided
  cases hdecided

end Statement

/-- **First verdict wins.** In every interleaving of the transactions of any
number of deciders on an undecided approval, one call that stands answered true
as soon as any has returned; the decision on the row, as it is stored and as it
is read back, is that caller's, and is committed once its transaction is; a call
that answered false changed nothing; and no further call moves a committed
decision. -/
theorem first_verdict_wins {approvals : ApprovalTable} {tenant : TenantContext}
    {approval : ApprovalRow} (hpending : approval ∈ approvals.rows)
    (hundecided : approval.undecided tenant approval.approvalId = true)
    {events : List (RowLock.Event TransactionId VerdictCall)}
    {world : RowLock.World ApprovalTable TransactionId VerdictCall}
    (hrun : Machine.run (RowLock.step (recordsVerdict tenant approval.approvalId))
      (RowLock.start approvals) events = some world) :
    (world.calls ≠ [] → world.calls.countP RowLock.Call.won = 1) ∧
    (∀ call ∈ world.calls, call.won = true →
      (∃ row ∈ world.current.rows, row.approvalId = approval.approvalId ∧
        row.workItemId = approval.workItemId ∧ call.attempt.Stored row) ∧
      (∀ operations,
        ApprovalRepository.decisionFor world.current operations tenant approval.workItemId =
          .ok ((boundOperation operations tenant approval.workItemId).map fun bound =>
            ⟨approval.approvalId, call.attempt.decidedBy, call.attempt.rolesHeld,
              call.attempt.verdict, bound.identity, call.attempt.databaseNow,
              some call.attempt.expiresAt⟩)) ∧
      (call ∈ world.settled → world.current = world.committed)) ∧
    (∀ transaction attempt next,
      RowLock.step (recordsVerdict tenant approval.approvalId) world
        (.call transaction attempt) = some next →
      next.opened = world.opened ++ [⟨transaction, attempt, false⟩] →
      next.committed = world.committed ∧ next.holder = world.holder) ∧
    (∀ row ∈ world.committed.rows, row.approvalId = approval.approvalId →
      row.decidedAt.isSome = true → ∀ later last,
      Machine.run (RowLock.step (recordsVerdict tenant approval.approvalId)) world later =
        some last → last.committed = world.committed) := by
  have hserial := RowLock.serial_run hrun
  have hcloses : ∀ version attempt written,
      recordsVerdict tenant approval.approvalId version attempt = some written →
      ∀ other, recordsVerdict tenant approval.approvalId written other = none :=
    fun _ _ _ hwritten _ => recordsVerdict_closes hwritten
  refine ⟨?_, ?_, ?_, ?_⟩
  · intro hreturned
    exact RowLock.exactly_one (fun _ => recordsVerdict_open hpending hundecided) hcloses hrun
      hreturned
  · intro call hcall hwon
    have hwritten := hserial.won_by hcloses hcall hwon
    refine ⟨recordsVerdict_stored hpending hundecided hwritten, ?_, ?_⟩
    · intro operations
      obtain ⟨hrecorded, hcurrent⟩ := wrote_eq_some.mp hwritten
      rw [← hcurrent]
      exact decisionFor_recordVerdict hrecorded hpending rfl operations
    · intro hsettled
      exact hserial.settled_by hcloses hsettled hwon
  · intro transaction attempt next hstep hlost
    exact RowLock.call_lost hstep hlost
  · intro row hrow hid hdecided later last hlater
    exact hserial.final_run (fun _ => recordsVerdict_decided hrow hid hdecided) hlater

/-! ### Two deciders -/

def approvesUnlock : VerdictCall := ⟨⟨9⟩, technicianOnly, .approved, 100, 10⟩

def rejectsUnlock : VerdictCall := ⟨⟨7⟩, technicianOnly, .rejected, 100, 11⟩

/-- Both call before either commits; the approval was first, and the rejection
is answered once it has committed. -/
def racingVerdicts : List (RowLock.Event TransactionId VerdictCall) :=
  [.call 1 approvesUnlock, .read 2, .commit 1, .call 2 rejectsUnlock, .commit 2]

/-- One call is true, and what is read back is its approval. -/
theorem racing_verdicts_one_wins :
    ∃ world, Machine.run (RowLock.step (recordsVerdict caseTenant ⟨3⟩))
        (RowLock.start requestedApprovals) racingVerdicts = some world ∧
      world.calls.countP RowLock.Call.won = 1 := by
  have hundecided : requestedApproval.undecided caseTenant requestedApproval.approvalId = true :=
    by decide
  refine ⟨_, rfl, ?_⟩
  exact (first_verdict_wins (show requestedApproval ∈ requestedApprovals.rows from
    List.mem_cons_self) hundecided (show Machine.run
      (RowLock.step (recordsVerdict caseTenant requestedApproval.approvalId))
      (RowLock.start requestedApprovals) racingVerdicts = some _ from rfl)).1 (by decide)

end Synthia
