import Synthia.Lib.Table
import Synthia.Messaging.Envelopes

/-!
# The transactional outbox

The `outbox_message` table and the statements the `Outbox` repository issues
against it. The dispatcher's read is the one to look at: undispatched rows in
sequence order, and a limit. Attempts are counted by the two writes and looked
at by neither of them, nor by the read.

Two transactions that insert at once take their sequence numbers in one order
and may commit in the other, so the number a row has is settled when it is
inserted and not when it can be seen.
-/

namespace Synthia

open Relational Text

/-! ## Rows -/

/-- A JSONB payload. What is falsy reads as an empty object. -/
inductive Payload where
  | object (members : List (String × JsonMember))
  | falsy
  | other
  deriving DecidableEq, Repr

structure OutboxRow where
  outboxId : Uuid
  tenantId : TenantId
  sequence : Nat
  kind : String
  payload : Payload
  dispatchedAt : Option Instant
  attempts : Nat
  version : Nat
  updatedAt : Instant
  deriving DecidableEq, Repr

abbrev OutboxTable := Table OutboxRow OutboxRow.outboxId

def OutboxRow.undispatched (row : OutboxRow) : Bool := row.dispatchedAt.isNone

/-- `mark_dispatched`, on the row it is about. -/
def OutboxRow.marked (now : Instant) (row : OutboxRow) : OutboxRow :=
  { row with
    dispatchedAt := some now
    attempts := row.attempts + 1
    version := row.version + 1
    updatedAt := now }

/-- `record_failure`, on the row it is about. -/
def OutboxRow.failed (now : Instant) (row : OutboxRow) : OutboxRow :=
  { row with
    attempts := row.attempts + 1
    version := row.version + 1
    updatedAt := now }

/-! ## The statements -/

namespace Outbox

/-- The row an insert leaves, with the defaults of the columns it does not
name. -/
def inserted (outboxId : Uuid) (tenantId : TenantId) (kind : String) (payload : Payload)
    (sequence : Nat) (now : Instant) : OutboxRow :=
  ⟨outboxId, tenantId, sequence, kind, payload, none, 0, 1, now⟩

/-- What an `INSERT` of a message raises. -/
inductive EnqueueError where
  | typeError
  | integrityError
  deriving DecidableEq, Repr

def insertMessage (table : OutboxTable) (row : OutboxRow) : Except EnqueueError OutboxTable :=
  if hfresh : row.outboxId ∉ table.rows.map OutboxRow.outboxId then
    .ok (table.insert row hfresh)
  else
    .error .integrityError

/-- `enqueue`, with the `uuid4()` and the sequence number it draws. -/
def enqueue (table : OutboxTable) (tenant : TenantContext) (envelope : TriggerEnvelope)
    (outboxId : Uuid) (sequence : Nat) (now : Instant) : Except EnqueueError OutboxTable :=
  match correlationText envelope.correlationId with
  | none => .error .typeError
  | some correlationId =>
      insertMessage table (inserted outboxId tenant.tenantId envelope.kind.value
        (.object [("workItemId", .text envelope.workItemId.value.toText),
          ("correlationId", .text correlationId)]) sequence now)

def enqueueIntegrationCommand (table : OutboxTable) (tenant : TenantContext)
    (envelope : IntegrationCommandEnvelope) (outboxId : Uuid) (sequence : Nat) (now : Instant) :
    Except EnqueueError OutboxTable :=
  match correlationText envelope.correlationId with
  | none => .error .typeError
  | some correlationId =>
      insertMessage table (inserted outboxId tenant.tenantId envelope.kind.value
        (.object [("jobId", .text envelope.jobId.value.toText),
          ("correlationId", .text correlationId)]) sequence now)

def undispatched (table : OutboxTable) (limit : Nat) : List OutboxRow :=
  (orderBy OutboxRow.sequence (table.rows.filter OutboxRow.undispatched)).take limit

def markDispatched (table : OutboxTable) (outboxId : Uuid) (now : Instant) : OutboxTable :=
  table.update (fun row => row.outboxId == outboxId) ⟨OutboxRow.marked now, fun _ => rfl⟩

/-- The attempt count after the failure, and the table; `scalar_one` raises where
there is no row. -/
def recordFailure (table : OutboxTable) (outboxId : Uuid) (now : Instant) :
    Option Nat × OutboxTable :=
  let after :=
    table.update (fun row => row.outboxId == outboxId) ⟨OutboxRow.failed now, fun _ => rfl⟩
  ((after.find outboxId).map OutboxRow.attempts, after)

/-! ## What they do -/

section Spec

variable {table : OutboxTable} {limit : Nat} {now : Instant} {row : OutboxRow}

theorem mem_undispatched (h : row ∈ undispatched table limit) :
    row ∈ table.rows ∧ row.dispatchedAt = none := by
  obtain ⟨hrow, hpred⟩ := List.mem_filter.mp (mem_orderBy.mp (List.mem_of_mem_take h))
  exact ⟨hrow, Option.isNone_iff_eq_none.mp hpred⟩

theorem undispatched_nodup (table : OutboxTable) (limit : Nat) :
    ((undispatched table limit).map OutboxRow.outboxId).Nodup := by
  have hperm := (orderBy_perm OutboxRow.sequence
    (table.rows.filter OutboxRow.undispatched)).map OutboxRow.outboxId
  have hall := hperm.nodup_iff.mpr ((List.filter_sublist.map _).nodup table.unique)
  exact ((List.take_sublist _ _).map _).nodup hall

/-- An undispatched row the read leaves out was crowded out: the batch is full,
and of rows no later in the sequence. -/
theorem crowded_out (hrow : row ∈ table.rows) (hfree : row.dispatchedAt = none)
    (hout : row ∉ undispatched table limit) :
    (undispatched table limit).length = limit ∧
      ∀ other ∈ undispatched table limit, other.sequence ≤ row.sequence := by
  have hcandidate : row ∈ orderBy OutboxRow.sequence
      (table.rows.filter OutboxRow.undispatched) :=
    mem_orderBy.mpr (List.mem_filter.mpr ⟨hrow, Option.isNone_iff_eq_none.mpr hfree⟩)
  have hsorted := orderBy_sorted OutboxRow.sequence
    (table.rows.filter OutboxRow.undispatched)
  unfold undispatched at hout ⊢
  generalize orderBy OutboxRow.sequence (table.rows.filter OutboxRow.undispatched) = rows
    at hcandidate hsorted hout ⊢
  rw [← List.take_append_drop limit rows, List.mem_append] at hcandidate
  rw [← List.take_append_drop limit rows, List.pairwise_append] at hsorted
  rcases hcandidate with htake | hdrop
  · exact absurd htake hout
  · refine ⟨?_, fun other hother => hsorted.2.2 other hother row hdrop⟩
    have hlong := List.length_pos_of_mem hdrop
    rw [List.length_drop] at hlong
    rw [List.length_take]
    omega

@[simp] theorem markDispatched_rows (outboxId : Uuid) :
    (markDispatched table outboxId now).rows =
      table.rows.map fun row => if row.outboxId = outboxId then row.marked now else row := by
  show updateRows _ _ _ = _
  simp only [updateRows, beq_iff_eq]

@[simp] theorem recordFailure_rows (outboxId : Uuid) :
    (recordFailure table outboxId now).2.rows =
      table.rows.map fun row => if row.outboxId = outboxId then row.failed now else row := by
  show updateRows _ _ _ = _
  simp only [updateRows, beq_iff_eq]

/-- On a row that is there, the count reported is one more than it was. -/
theorem recordFailure_attempts (now : Instant) (hrow : row ∈ table.rows) :
    (recordFailure table row.outboxId now).1 = some (row.attempts + 1) := by
  have hfailed : row.failed now ∈ (recordFailure table row.outboxId now).2.rows := by
    rw [recordFailure_rows]
    exact List.mem_map.mpr ⟨row, hrow, if_pos rfl⟩
  have hfound : (recordFailure table row.outboxId now).2.find row.outboxId =
      some (row.failed now) := Table.find_of_mem hfailed
  show ((recordFailure table row.outboxId now).2.find row.outboxId).map _ = _
  rw [hfound]
  rfl

end Spec

end Outbox

/-! ## What a row keeps -/

/-- Two states of one row: what the dispatcher publishes it by is fixed, the
attempts only grow, and a marker stays. -/
structure OutboxRow.Advances (before after : OutboxRow) : Prop where
  outboxId : after.outboxId = before.outboxId
  sequence : after.sequence = before.sequence
  kind : after.kind = before.kind
  payload : after.payload = before.payload
  attempts : before.attempts ≤ after.attempts
  marked : before.dispatchedAt.isSome → after.dispatchedAt.isSome

theorem OutboxRow.Advances.refl (row : OutboxRow) : row.Advances row :=
  ⟨rfl, rfl, rfl, rfl, Nat.le_refl _, id⟩

theorem OutboxRow.Advances.trans {a b c : OutboxRow} (hab : a.Advances b)
    (hbc : b.Advances c) : a.Advances c where
  outboxId := hbc.outboxId.trans hab.outboxId
  sequence := hbc.sequence.trans hab.sequence
  kind := hbc.kind.trans hab.kind
  payload := hbc.payload.trans hab.payload
  attempts := Nat.le_trans hab.attempts hbc.attempts
  marked := fun h => hbc.marked (hab.marked h)

theorem OutboxRow.advances_marked (now : Instant) (row : OutboxRow) :
    row.Advances (row.marked now) :=
  ⟨rfl, rfl, rfl, rfl, Nat.le_succ _, fun _ => rfl⟩

theorem OutboxRow.advances_failed (now : Instant) (row : OutboxRow) :
    row.Advances (row.failed now) :=
  ⟨rfl, rfl, rfl, rfl, Nat.le_succ _, id⟩

end Synthia
