import Mathlib.Logic.Function.Basic
import Synthia.Graph.State
import Synthia.Lib.Digest
import Synthia.Lib.Machine
import Synthia.Lib.Table
import Synthia.Messaging.Envelopes

/-!
# Idempotency boundary 2

`execution.idempotency.derive_key` hashes the organisation, the work item and the
operation, and puts a version in front. The graph's `execute` node derives its
own key, in the clear, from the work item and the catalogue identity.

The store behind the boundary is one table. `remember` updates a row that must
already be there, and `replay` answers `None` for a row without an outcome just
as for no row at all; `begin_effect` tells its caller to act on either.
-/

namespace Synthia

open Text

/-- `KEY_PREFIX`. -/
def keyVersion : List CodePoint := ofString "synthia-v1"

def deriveKey (sha256 : List CodePoint → List CodePoint) (tenant : TenantContext)
    (workItemId : WorkItemId) (operationId : OperationId) : List CodePoint :=
  keyVersion ++ 0x3A :: sha256 (tenant.tenantId.value.toText ++ 0x3A ::
    (workItemId.value.toText ++ 0x3A :: operationId.value.toText))

/-- `str(identity)`. -/
def OperationIdentity.text (identity : OperationIdentity) : String :=
  s!"{identity.catalogueId}@{identity.version}"

/-- `IdempotencyKey(f"{work_item_id}:{identity}")`. -/
def IdempotencyKey.text (key : IdempotencyKey) : List CodePoint :=
  key.workItemId.value.toText ++ 0x3A :: ofString key.identity.text

/-! ## The store -/

/-- An `idempotency_record` row. The outcome is opaque here: it is stored and given
back. -/
structure IdempotencyRecord where
  idempotencyKey : List CodePoint
  tenantId : TenantId
  operationId : OperationId
  outcome : Option String
  deriving DecidableEq

abbrev IdempotencyTable := Relational.Table IdempotencyRecord fun row => row.idempotencyKey

namespace IdempotencyStore

/-- The `WHERE` of `remember`. -/
def reserved (tenant : TenantContext) (key : List CodePoint) (operationId : OperationId)
    (row : IdempotencyRecord) : Bool :=
  row.tenantId == tenant.tenantId && row.idempotencyKey == key && row.operationId == operationId

def writeOutcome (outcome : String) :
    Relational.Change fun row : IdempotencyRecord => row.idempotencyKey where
  apply row := { row with outcome := some outcome }
  keeps_key _ := rfl

def remember (records : IdempotencyTable) (tenant : TenantContext) (key : List CodePoint)
    (operationId : OperationId) (outcome : String) : IdempotencyTable :=
  records.update (reserved tenant key operationId) (writeOutcome outcome)

def replay (records : IdempotencyTable) (tenant : TenantContext) (key : List CodePoint) :
    Option String :=
  (records.rows.find? fun row =>
    row.tenantId == tenant.tenantId && row.idempotencyKey == key).bind
      IdempotencyRecord.outcome

end IdempotencyStore

structure ReplayDecision where
  key : List CodePoint
  replayed : Bool
  outcome : Option String := none
  deriving DecidableEq

def ReplayDecision.shouldExecute (decision : ReplayDecision) : Bool := !decision.replayed

def beginEffect (records : IdempotencyTable) (tenant : TenantContext) (key : List CodePoint) :
    ReplayDecision :=
  match IdempotencyStore.replay records tenant key with
  | some previous => ⟨key, true, some previous⟩
  | none => ⟨key, false, none⟩

def completeEffect (records : IdempotencyTable) (tenant : TenantContext)
    (key : List CodePoint) (operationId : OperationId) (outcome : String) : IdempotencyTable :=
  IdempotencyStore.remember records tenant key operationId outcome

theorem IdempotencyStore.replay_eq_some {records : IdempotencyTable} {tenant : TenantContext}
    {key : List CodePoint} {outcome : String} :
    IdempotencyStore.replay records tenant key = some outcome ↔
      ∃ row ∈ records.rows, row.tenantId = tenant.tenantId ∧ row.idempotencyKey = key ∧
        row.outcome = some outcome := by
  unfold IdempotencyStore.replay
  rw [Option.bind_eq_some_iff]
  constructor
  · rintro ⟨row, hfound, houtcome⟩
    have hwhere := List.find?_some hfound
    rw [Bool.and_eq_true, beq_iff_eq, beq_iff_eq] at hwhere
    exact ⟨row, List.mem_of_find?_eq_some hfound, hwhere.1, hwhere.2, houtcome⟩
  · rintro ⟨row, hrow, htenant, hkey, houtcome⟩
    have hwhere : (row.tenantId == tenant.tenantId && row.idempotencyKey == key) = true := by
      rw [htenant, hkey, beq_self_eq_true, beq_self_eq_true]
      rfl
    cases hfound : records.rows.find? fun row =>
        row.tenantId == tenant.tenantId && row.idempotencyKey == key with
    | none => exact absurd hwhere (List.find?_eq_none.mp hfound row hrow)
    | some found =>
        have hother := List.find?_some hfound
        rw [Bool.and_eq_true, beq_iff_eq, beq_iff_eq] at hother
        refine ⟨found, rfl, ?_⟩
        rw [records.eq_of_key (List.mem_of_find?_eq_some hfound) hrow
          (hother.2.trans hkey.symm)]
        exact houtcome

theorem beginEffect_shouldExecute {records : IdempotencyTable} {tenant : TenantContext}
    {key : List CodePoint} :
    (beginEffect records tenant key).shouldExecute = true ↔
      IdempotencyStore.replay records tenant key = none := by
  unfold beginEffect
  cases IdempotencyStore.replay records tenant key <;> simp [ReplayDecision.shouldExecute]

end Synthia

/-!
## Attempts around the store

Any number of workers call `begin_effect` and `complete_effect` on any keys. The
read behind `begin_effect` opens its own session, so it sees what is committed.
The update behind `complete_effect` joins the caller's unit of work: it finds its
row when the statement runs, holds it, and is seen from the commit on. A worker
may crash at any point, and what it has not committed is gone: a key it was told to
act on is abandoned.

Nothing in the repository inserts a row of this table. Whatever does is an action
of its own here, which reserves a key that is not yet taken.
-/

namespace Synthia.Attempts

open Text

abbrev WorkerId := Nat

/-- An update in a unit of work that has not committed. `hit` says whether the
statement found its row. -/
structure PendingOutcome where
  tenant : TenantContext
  key : List CodePoint
  operationId : OperationId
  outcome : String
  hit : Bool

/-- Where a worker is: the effect it was told to perform, and its open update. -/
structure Worker where
  acting : Option (List CodePoint) := none
  pending : Option PendingOutcome := none

/-- The store, the workers and what has happened. -/
structure World where
  records : IdempotencyTable := ⟨[], List.nodup_nil⟩
  workers : WorkerId → Worker := fun _ => {}
  /-- The row locks, by key. -/
  locks : List (WorkerId × List CodePoint) := []
  /-- The keys `begin_effect` told a caller to act on. -/
  told : List (List CodePoint) := []
  /-- The outcomes `complete_effect` recorded. -/
  recorded : List (List CodePoint × String) := []
  /-- The keys a crash left without the outcome of what was done. -/
  abandoned : List (List CodePoint) := []

inductive Action where
  | reserve (tenant : TenantId) (key : List CodePoint) (operationId : OperationId)
  | begin (worker : WorkerId) (tenant : TenantContext) (key : List CodePoint)
  | complete (worker : WorkerId) (tenant : TenantContext) (key : List CodePoint)
      (operationId : OperationId) (outcome : String)
  | commit (worker : WorkerId)
  | crash (worker : WorkerId)

namespace World

def become (world : World) (worker : WorkerId) (next : Worker) : World :=
  { world with workers := Function.update world.workers worker next }

/-- The end of a worker's transaction, or of the worker. -/
def release (world : World) (worker : WorkerId) : World :=
  { world.become worker {} with locks := world.locks.filter fun lock => lock.1 != worker }

/-- Another worker's open update holds the row of this key. -/
def locked (world : World) (worker : WorkerId) (key : List CodePoint) : Bool :=
  world.locks.any fun lock => lock.1 != worker && lock.2 == key

/-- The `INSERT` of a reserved row; the primary key refuses a second one. -/
def reserve (world : World) (tenant : TenantId) (key : List CodePoint)
    (operationId : OperationId) : Option World :=
  if hfresh : key ∉ world.records.rows.map IdempotencyRecord.idempotencyKey then
    some { world with records := world.records.insert ⟨key, tenant, operationId, none⟩ hfresh }
  else
    none

/-- `begin_effect`, called by a worker that is not at anything else. -/
def begin (world : World) (worker : WorkerId) (tenant : TenantContext)
    (key : List CodePoint) : Option World :=
  if (world.workers worker).acting.isNone && (world.workers worker).pending.isNone then
    if (beginEffect world.records tenant key).shouldExecute then
      some { world.become worker { acting := some key } with told := world.told ++ [key] }
    else
      some world
  else
    none

/-- The statement of `complete_effect`. It waits while another transaction holds
the row it finds. -/
def complete (world : World) (worker : WorkerId) (tenant : TenantContext)
    (key : List CodePoint) (operationId : OperationId) (outcome : String) : Option World :=
  let hit := world.records.rows.any (IdempotencyStore.reserved tenant key operationId)
  if (world.workers worker).pending.isNone && !(hit && world.locked worker key) then
    some { world.become worker
        { world.workers worker with pending := some ⟨tenant, key, operationId, outcome, hit⟩ } with
      locks := if hit then (worker, key) :: world.locks else world.locks }
  else
    none

/-- The commit of a worker's unit of work, after which it is done. -/
def commit (world : World) (worker : WorkerId) : Option World :=
  match (world.workers worker).pending with
  | none => none
  | some pending =>
      if pending.hit then
        some { world.release worker with
          records := completeEffect world.records pending.tenant pending.key
            pending.operationId pending.outcome
          recorded := world.recorded ++ [(pending.key, pending.outcome)] }
      else
        some (world.release worker)

def crash (world : World) (worker : WorkerId) : World :=
  { world.release worker with
    abandoned := (world.workers worker).acting.toList ++ world.abandoned }

def step (world : World) : Action → Option World
  | .reserve tenant key operationId => world.reserve tenant key operationId
  | .begin worker tenant key => world.begin worker tenant key
  | .complete worker tenant key operationId outcome =>
      world.complete worker tenant key operationId outcome
  | .commit worker => world.commit worker
  | .crash worker => some (world.crash worker)

end World

end Synthia.Attempts
