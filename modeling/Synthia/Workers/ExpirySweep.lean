import Synthia.Persistence.WorkItems

/-!
# The expiry sweeper, and the processes it races

`sweep_expired` reads a batch of lapsed items and then transitions each at the
version it read. Nothing holds the rows in between: a claim, or another
sweeper, may get to any of them first. So the sweep is given twice. As a
function it is the loop the source runs when nothing interferes. As actions of
a `World` it is one read and then one write per candidate, each its own
statement, with the actions of any number of other processes between them.

Every action carries the clock of whoever issues it, so nothing relates one
process's time to another's, or to its own from one action to the next.
-/

namespace Synthia.ExpirySweep

open Relational

structure ExpirySweepResult where
  tenantId : TenantId
  expired : Nat
  contended : Nat
  deriving DecidableEq, Repr

/-- One candidate of the loop. -/
def sweepItem (tenant : TenantContext) (databaseNow : Instant)
    (acc : ExpirySweepResult × WorkItemTable) (item : WorkItemId × Int) :
    ExpirySweepResult × WorkItemTable :=
  let moved :=
    WorkItemRepository.transition acc.2 tenant item.1 .expired item.2 databaseNow
  if moved.1 then
    ({ acc.1 with expired := acc.1.expired + 1 }, moved.2)
  else
    ({ acc.1 with contended := acc.1.contended + 1 }, moved.2)

def sweepExpired (table : WorkItemTable) (tenant : TenantContext) (now : Instant)
    (limit : Nat) (databaseNow : Instant) : ExpirySweepResult × WorkItemTable :=
  (WorkItemRepository.listExpired table tenant now limit).foldl
    (sweepItem tenant databaseNow) (⟨tenant.tenantId, 0, 0⟩, table)

/-! ## Any number of claimers and sweepers -/

abbrev ProcessId := Nat

/-- What a sweeper has read and not forgotten: an item, the tenant it was read
for and the version it had. -/
structure Candidate where
  tenant : TenantContext
  workItemId : WorkItemId
  version : Int
  deriving DecidableEq

/-- A write that reported success. -/
inductive Effect where
  | claimed (workItemId : WorkItemId) (claimedBy : String)
  | expired (workItemId : WorkItemId)
  deriving DecidableEq, Repr

def Effect.workItemId : Effect → WorkItemId
  | .claimed workItemId _ => workItemId
  | .expired workItemId => workItemId

inductive Action where
  | claim (tenant : TenantContext) (workItemId : WorkItemId) (claimedBy : String)
      (now databaseNow : Instant)
  | listExpired (process : ProcessId) (tenant : TenantContext) (now : Instant)
      (limit : Nat)
  | expire (process : ProcessId) (candidate : Candidate) (databaseNow : Instant)

/-- The shared table, each sweeper's last read, and every success so far. -/
structure World where
  table : WorkItemTable
  pending : ProcessId → List Candidate
  history : List Effect

def World.start (table : WorkItemTable) : World := ⟨table, fun _ => [], []⟩

/-- The history grows by an effect when the statement reported a row. -/
def recordIf (won : Bool) (effect : Effect) (history : List Effect) : List Effect :=
  if won then history ++ [effect] else history

/-- One action of one process. A sweeper can only expire what it has read; it
may take its candidates in any order and try one again, which the loop of
`sweep_expired` does not use. -/
def World.step (world : World) : Action → World
  | .claim tenant workItemId claimedBy now databaseNow =>
      let result := WorkItemRepository.claim world.table tenant workItemId claimedBy now
        databaseNow
      { world with
        table := result.2
        history := recordIf result.1 (.claimed workItemId claimedBy) world.history }
  | .listExpired process tenant now limit =>
      let rows := WorkItemRepository.listExpired world.table tenant now limit
      { world with
        pending := Function.update world.pending process
          (rows.map fun row => ⟨tenant, row.1, row.2⟩) }
  | .expire process candidate databaseNow =>
      if candidate ∈ world.pending process then
        let result := WorkItemRepository.transition world.table candidate.tenant
          candidate.workItemId .expired candidate.version databaseNow
        { world with
          table := result.2
          history := recordIf result.1 (.expired candidate.workItemId) world.history }
      else
        world

/-- An interleaving: the actions of every process, in the order they happen. -/
def World.run (world : World) (actions : List Action) : World :=
  actions.foldl World.step world

@[simp] theorem World.run_nil (world : World) : world.run [] = world := rfl

@[simp] theorem World.run_cons (world : World) (action : Action)
    (actions : List Action) :
    world.run (action :: actions) = (world.step action).run actions := rfl

theorem World.step_claim (world : World) (tenant : TenantContext)
    (workItemId : WorkItemId) (claimedBy : String) (now databaseNow : Instant) :
    world.step (.claim tenant workItemId claimedBy now databaseNow) =
      let result := WorkItemRepository.claim world.table tenant workItemId claimedBy now
        databaseNow
      { world with
        table := result.2
        history := recordIf result.1 (.claimed workItemId claimedBy) world.history } := rfl

theorem World.step_expire {world : World} {process : ProcessId} {candidate : Candidate}
    (hheld : candidate ∈ world.pending process) (databaseNow : Instant) :
    world.step (.expire process candidate databaseNow) =
      let result := WorkItemRepository.transition world.table candidate.tenant
        candidate.workItemId .expired candidate.version databaseNow
      { world with
        table := result.2
        history := recordIf result.1 (.expired candidate.workItemId) world.history } :=
  if_pos hheld

theorem World.run_append (world : World) (before after : List Action) :
    world.run (before ++ after) = (world.run before).run after :=
  List.foldl_append

/-- The actions of one uninterrupted sweep. -/
def sweepActions (process : ProcessId) (table : WorkItemTable)
    (tenant : TenantContext) (now : Instant) (limit : Nat) (databaseNow : Instant) :
    List Action :=
  .listExpired process tenant now limit ::
    (WorkItemRepository.listExpired table tenant now limit).map fun item =>
      .expire process ⟨tenant, item.1, item.2⟩ databaseNow

end Synthia.ExpirySweep
