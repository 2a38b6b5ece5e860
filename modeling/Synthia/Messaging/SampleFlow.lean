import Synthia.Execution.Idempotency
import Synthia.Lib.Json
import Synthia.Lib.RowLock
import Synthia.Persistence.Audit
import Synthia.Persistence.WorkItems

/-!
# The inert sample flow

`messaging.sample_flow` and `execution.claim`, for any number of deliveries of one
trigger. A delivery is one unit of work around `execute_sample_flow`: it claims,
asks the idempotency store, acts, records and notifies, and what it returns is
reported once the unit of work has committed. It may crash between any two of
these, and its unit of work is then rolled back.

The claim and the record are statements of the delivery's own transaction. The
read behind `begin_effect` opens a session of its own and sees what is committed.
Only a delivery that has written the work item writes anything else, so the row
lock of the work item is the only one two deliveries can contend for.
-/

namespace Synthia.SampleFlow

open Text

abbrev DeliveryId := Nat

def sampleOperationId : List CodePoint := ofString "sample.round-trip"

def workloadPrincipal : String := "workload"

/-! ## What the flow is given and gives back -/

/-- The arguments the deliveries share, and each one's reading of the clock. -/
structure Trigger where
  tenant : TenantContext
  workItemId : WorkItemId
  operationId : OperationId
  requester : PrincipalId
  correlationId : List CodePoint
  /-- Whether the realtime channel is configured. -/
  notifications : Bool
  now : DeliveryId → Instant

structure ClaimOutcome where
  won : Bool
  claimedBy : String
  deriving DecidableEq, Repr

def ClaimOutcome.shouldStop (outcome : ClaimOutcome) : Bool := !outcome.won

structure SampleFlowResult where
  workItemId : List CodePoint
  executed : Bool
  replayed : Bool
  claimWon : Bool
  deriving DecidableEq, Repr

def SampleFlowResult.hadEffect (result : SampleFlowResult) : Bool :=
  result.executed && !result.replayed

inductive NotificationKind where
  | interruptPending
  | approvalDecided
  | workProgressed
  | workCompleted
  | workFailed
  | instructionReady
  | sessionTakenOver
  deriving DecidableEq, Repr

structure NotificationEnvelope where
  kind : NotificationKind
  occurredAt : Instant
  correlationId : List CodePoint
  sessionId : Option SessionId := none
  workItemId : Option WorkItemId := none
  deriving DecidableEq, Repr

/-- `_perform_inert_operation`. -/
def performInertOperation (workItemId : WorkItemId) (correlationId : List CodePoint) :
    Json.Value CodePoint :=
  .object [(ofString "operation", .string sampleOperationId),
    (ofString "workItemId", .string workItemId.value.toText),
    (ofString "correlationId", .string correlationId),
    (ofString "effect", .string (ofString "none"))]

/-- A document as its column holds it. -/
def stored (document : Json.Value CodePoint) : String :=
  String.ofList ((Json.dumps [] document).map fun c => Char.ofNat c.val)

/-! ## The statements -/

/-- The tables a delivery could reach. -/
structure Store where
  workItems : WorkItemTable
  records : IdempotencyTable
  audit : AuditTable

inductive Statement where
  | claim (now databaseNow : Instant)
  | remember (outcome : String)
  deriving DecidableEq, Repr

namespace Trigger

variable (sha256 : List CodePoint → List CodePoint) (trigger : Trigger)

def key : List CodePoint := deriveKey sha256 trigger.tenant trigger.workItemId trigger.operationId

/-- The store a statement leaves, and none where no row met its condition. -/
def execute (store : Store) : Statement → Option Store
  | .claim now databaseNow =>
      (wrote (WorkItemRepository.claim store.workItems trigger.tenant trigger.workItemId
        workloadPrincipal now databaseNow)).map fun workItems => { store with workItems }
  | .remember outcome =>
      if store.records.rows.any
          (IdempotencyStore.reserved trigger.tenant (trigger.key sha256) trigger.operationId) then
        some { store with
          records := completeEffect store.records trigger.tenant (trigger.key sha256)
            trigger.operationId outcome }
      else
        none

/-! ## The deliveries -/

end Trigger

/-- How far a delivery has come. -/
inductive Stage where
  | received
  | claimed
  | executing
  | performed (outcome : Json.Value CodePoint)
  | recorded
  | returned (result : SampleFlowResult)
  | finished

structure World where
  store : RowLock.World Store DeliveryId Statement
  stage : DeliveryId → Stage := fun _ => .received
  /-- The deliveries that performed the operation, in order. -/
  effects : List DeliveryId := []
  notified : List NotificationEnvelope := []
  /-- What deliveries reported, their unit of work committed. -/
  reports : List (DeliveryId × SampleFlowResult) := []

inductive Event where
  | claim (delivery : DeliveryId) (databaseNow : Instant)
  | begin (delivery : DeliveryId)
  | perform (delivery : DeliveryId)
  | complete (delivery : DeliveryId)
  | notify (delivery : DeliveryId)
  | commit (delivery : DeliveryId)
  | crash (delivery : DeliveryId)
  deriving DecidableEq, Repr

def Event.delivery : Event → DeliveryId
  | .claim delivery _ | .begin delivery | .perform delivery | .complete delivery
  | .notify delivery | .commit delivery | .crash delivery => delivery

/-- Before any delivery. -/
def start (store : Store) : World := { store := RowLock.start store }

namespace World

variable (sha256 : List CodePoint → List CodePoint) (trigger : Trigger)

def advance (world : World) (delivery : DeliveryId) (stage : Stage) : World :=
  { world with stage := Function.update world.stage delivery stage }

/-- `claim_for_execution`, and the return where it says to stop. -/
def claim (world : World) (delivery : DeliveryId) (databaseNow : Instant) : Option World :=
  match world.stage delivery with
  | .received =>
      let statement : Statement := .claim (trigger.now delivery) databaseNow
      let outcome : ClaimOutcome :=
        ⟨(trigger.execute sha256 (world.store.seenBy delivery) statement).isSome,
          workloadPrincipal⟩
      (RowLock.step (trigger.execute sha256) world.store (.call delivery statement)).map
        fun store => { world with store }.advance delivery
          (if outcome.shouldStop then
            .returned ⟨trigger.workItemId.value.toText, false, false, false⟩
          else
            .claimed)
  | _ => none

/-- `begin_effect`, and the return where it replays. -/
def begin (world : World) (delivery : DeliveryId) : Option World :=
  match world.stage delivery with
  | .claimed =>
      let decision := beginEffect world.store.committed.records trigger.tenant
        (trigger.key sha256)
      some (world.advance delivery
        (if !decision.shouldExecute then
          .returned ⟨trigger.workItemId.value.toText, false, true, true⟩
        else
          .executing))
  | _ => none

def perform (world : World) (delivery : DeliveryId) : Option World :=
  match world.stage delivery with
  | .executing =>
      some ({ world with effects := world.effects ++ [delivery] }.advance delivery
        (.performed (performInertOperation trigger.workItemId trigger.correlationId)))
  | _ => none

def complete (world : World) (delivery : DeliveryId) : Option World :=
  match world.stage delivery with
  | .performed outcome =>
      (RowLock.step (trigger.execute sha256) world.store
        (.call delivery (.remember (stored outcome)))).map
          fun store => { world with store }.advance delivery .recorded
  | _ => none

def notify (world : World) (delivery : DeliveryId) : Option World :=
  match world.stage delivery with
  | .recorded =>
      let envelope : NotificationEnvelope :=
        { kind := .workCompleted, occurredAt := trigger.now delivery,
          correlationId := trigger.correlationId, workItemId := some trigger.workItemId }
      some ({ world with
        notified := if trigger.notifications then world.notified ++ [envelope]
          else world.notified }.advance delivery
        (.returned ⟨trigger.workItemId.value.toText, true, false, true⟩))
  | _ => none

/-- The clean exit of the unit of work, which lets the result out. -/
def commit (world : World) (delivery : DeliveryId) : Option World :=
  match world.stage delivery with
  | .returned result =>
      (RowLock.step (trigger.execute sha256) world.store (.commit delivery)).map
        fun store => { world with store, reports := world.reports ++ [(delivery, result)] }.advance
          delivery .finished
  | _ => none

/-- The end of the process, or an exception. -/
def crash (world : World) (delivery : DeliveryId) : Option World :=
  (RowLock.step (trigger.execute sha256) world.store (.rollback delivery)).map
    fun store => { world with store }.advance delivery .finished

def step (world : World) : Event → Option World
  | .claim delivery databaseNow => world.claim sha256 trigger delivery databaseNow
  | .begin delivery => world.begin sha256 trigger delivery
  | .perform delivery => world.perform trigger delivery
  | .complete delivery => world.complete sha256 trigger delivery
  | .notify delivery => world.notify trigger delivery
  | .commit delivery => world.commit sha256 trigger delivery
  | .crash delivery => world.crash sha256 trigger delivery

end World

end Synthia.SampleFlow
