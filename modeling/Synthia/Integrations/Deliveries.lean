import Synthia.Integrations.Executor
import Synthia.Lib.Machine
import Mathlib.Logic.Function.Basic

/-!
# Deliveries of commands

Any number of deliveries of any commands, in any order and in step with one
another. A delivery reads what is committed when it reads. Its transaction is seen
from the commit on, and until it ends it holds the key it has inserted, so an
insert of the same key waits; the row it updates is its own job's. A commit may
take effect and its acknowledgement be lost. Any statement may raise, the invoker
may raise what the leg does not catch, and a process may go at any point. A
request that has left may take effect at the far side at any time after it has,
or not at all, whatever became of the delivery that sent it.

RagCore writes the job rows, and the rows around them are whatever they are when
they are read.
-/

namespace Synthia.Integrations

open Text

abbrev DeliveryId := Nat

/-- One delivery: the envelope it carried, if it carried one, and where it stands. -/
structure Delivery where
  received : Option MessageEnvelope
  stage : Stage

/-- One request to the far side. -/
structure Invocation where
  delivery : DeliveryId
  instruction : Instruction
  binding : ConnectorBinding
  key : Option (List CodePoint)
  correlationId : List CodePoint

/-- A delivery that was let through the access check, and under which policy. -/
structure Admission where
  delivery : DeliveryId
  operation : Operation
  policy : IdempotencyPolicy
  deriving DecidableEq

/-- The service's durable state, the deliveries, and what has happened. -/
structure World where
  jobs : JobTable := ⟨[], List.nodup_nil⟩
  executions : Relational.Table ExecutionRecord (fun row => row.idempotencyKey) :=
    ⟨[], List.nodup_nil⟩
  outbox : List OutboxMessage := []
  audit : List AuditEvent := []
  deliveries : DeliveryId → Option Delivery := fun _ => none
  /-- The keys that open transactions have inserted. -/
  locks : List (DeliveryId × List CodePoint) := []
  admitted : List Admission := []
  sent : List Invocation := []
  /-- The requests that took effect at the far side. -/
  effects : List Invocation := []
  /-- The transactions begun, and those of them that committed. -/
  begun : List Transaction := []
  committed : List Transaction := []

inductive Action where
  | dispatch (job : IntegrationJobRow) (parameters : String)
  | deliver (id : DeliveryId) (received : Option MessageEnvelope)
  | load (id : DeliveryId) (workItems : WorkItemTable) (tenants : List TenantMappingRow)
      (now : Instant)
  | evaluate (id : DeliveryId) (catalogue : CatalogueRepository) (registry : ConnectorRegistry)
  | lookUp (id : DeliveryId) (started : Instant)
  | send (id : DeliveryId)
  | answer (id : DeliveryId) (answer : ExecutionLeg.Answer)
  | record (id : DeliveryId) (completed : Instant) (executionId messageId auditId : Uuid)
  | statement (id : DeliveryId)
  | commit (id : DeliveryId) (acknowledged : Bool)
  | rollBack (id : DeliveryId)
  | raise (id : DeliveryId)
  | crash (id : DeliveryId)
  | land (request : Nat)

namespace World

def become (world : World) (id : DeliveryId) (delivery : Delivery) : World :=
  { world with deliveries := Function.update world.deliveries id (some delivery) }

/-- A command's delivery moves on. -/
def advance (world : World) (id : DeliveryId) (command : MessageEnvelope) (stage : Stage) :
    World :=
  world.become id ⟨some command, stage⟩

/-- The end of a delivery's transaction, if it has one open. -/
def release (world : World) (id : DeliveryId) : World :=
  { world with locks := world.locks.filter fun lock => lock.1 != id }

/-- Another delivery's open transaction has inserted this key. -/
def locked (world : World) (id : DeliveryId) (key : List CodePoint) : Bool :=
  world.locks.any fun lock => lock.1 != id && lock.2 == key

/-- RagCore's `INSERT` of a job row. -/
def dispatch (world : World) (job : IntegrationJobRow) (parameters : String) : Option World :=
  if hfresh : job.jobId ∉ world.jobs.rows.map fun row => row.jobId then
    some { world with jobs := world.jobs.insert { toIntegrationJobRow := job, parameters } hfresh }
  else
    none

def deliver (world : World) (id : DeliveryId) (received : Option MessageEnvelope) :
    Option World :=
  if (world.deliveries id).isNone then
    some (world.become id ⟨received, CommandConsumer.handle received⟩)
  else
    none

def load (world : World) (id : DeliveryId) (workItems : WorkItemTable)
    (tenants : List TenantMappingRow) (now : Instant) : Option World :=
  match world.deliveries id with
  | some ⟨some command, .commanded⟩ =>
      some (world.advance id command
        (ExecutionLeg.load world.jobs workItems tenants now command))
  | _ => none

/-- What is remembered of a stage the access check led to. -/
def admissionOf (id : DeliveryId) : Stage → List Admission
  | .admitted instruction binding =>
      [⟨id, instruction.operation, binding.idempotencyPolicy⟩]
  | _ => []

def evaluate (world : World) (id : DeliveryId) (catalogue : CatalogueRepository)
    (registry : ConnectorRegistry) : Option World :=
  match world.deliveries id with
  | some ⟨some command, .loaded instruction now⟩ =>
      let stage := ExecutionLeg.evaluate catalogue registry command instruction now
      some { world.advance id command stage with
        admitted := world.admitted ++ admissionOf id stage }
  | _ => none

def lookUp (sha256 : List CodePoint → List CodePoint) (world : World) (id : DeliveryId)
    (started : Instant) : Option World :=
  match world.deliveries id with
  | some ⟨some command, .admitted instruction binding⟩ =>
      some (world.advance id command
        (ExecutionLeg.lookUp sha256 world.executions.rows instruction binding started))
  | _ => none

/-- The invoker's request leaves. -/
def send (sha256 : List CodePoint → List CodePoint) (world : World) (id : DeliveryId) :
    Option World :=
  match world.deliveries id with
  | some ⟨some command, .cleared instruction binding started⟩ =>
      some { world.advance id command (.awaiting instruction binding started) with
        sent := world.sent ++
          [⟨id, instruction, binding, keyFor sha256 instruction binding,
            command.correlationId⟩] }
  | _ => none

/-- The invoker answers, with or without having sent anything. -/
def answer (sha256 : List CodePoint → List CodePoint) (world : World) (id : DeliveryId)
    (answer : ExecutionLeg.Answer) : Option World :=
  match world.deliveries id with
  | some ⟨some command, .cleared instruction binding started⟩
  | some ⟨some command, .awaiting instruction binding started⟩ =>
      some (world.advance id command
        (.concluded (ExecutionLeg.conclude sha256 command instruction binding started answer)))
  | _ => none

/-- `_record` is entered; no identifier is drawn twice. -/
def record (sha256 : List CodePoint → List CodePoint) (world : World) (id : DeliveryId)
    (completed : Instant) (executionId messageId auditId : Uuid) : Option World :=
  match world.deliveries id with
  | some ⟨some command, .concluded attempt⟩ =>
      if world.begun.all fun other => other.record.executionId != executionId &&
          other.messageId != messageId && other.auditId != auditId then
        let transaction := attempt.transaction sha256 completed executionId messageId auditId
        some { world.advance id command (.recording transaction [] writes) with
          begun := world.begun ++ [transaction] }
      else
        none
  | _ => none

/-- The next statement of the transaction. -/
def statement (world : World) (id : DeliveryId) : Option World :=
  match world.deliveries id with
  | some ⟨some command, .recording transaction written (write :: left)⟩ =>
      let key := transaction.record.idempotencyKey
      if write = .execution then
        if world.locked id key then
          none
        else if key ∈ world.executions.rows.map fun row => row.idempotencyKey then
          some (world.advance id command (.duplicate transaction))
        else
          some { world.advance id command (.recording transaction (written ++ [write]) left) with
            locks := (id, key) :: world.locks }
      else
        some (world.advance id command (.recording transaction (written ++ [write]) left))
  | _ => none

/-- What one statement wrote, made durable. -/
def write (transaction : Transaction) (world : World) : Write → Option World
  | .execution =>
      if hfresh : transaction.record.idempotencyKey ∉
          world.executions.rows.map fun row => row.idempotencyKey then
        some { world with executions := world.executions.insert transaction.record hfresh }
      else
        none
  | .announcement => some { world with outbox := world.outbox ++ [transaction.outboxMessage] }
  | .audit => some { world with audit := world.audit ++ [transaction.auditEvent] }
  | .result => do
      let jobs ← JobRepository.recordResult world.jobs transaction.record.jobId
        transaction.record.outcome transaction.record.verification
        transaction.record.executionId transaction.completed
      return { world with jobs }

def apply (world : World) (transaction : Transaction) (written : List Write) : Option World :=
  written.foldlM (write transaction) world

def commit (world : World) (id : DeliveryId) (acknowledged : Bool) : Option World :=
  match world.deliveries id with
  | some ⟨some command, .recording transaction written []⟩ => do
      let durable ← world.apply transaction written
      return { (durable.release id).advance id command
          (if acknowledged then
            .reported { executed := true, outcome := some transaction.record.outcome }
          else
            .raised) with
        committed := world.committed ++ [transaction] }
  | _ => none

def rollBack (world : World) (id : DeliveryId) : Option World :=
  match world.deliveries id with
  | some ⟨some command, .duplicate _⟩ =>
      some ((world.release id).advance id command
        (.reported { executed := false, outcome := none }))
  | _ => none

/-- The delivery ends where it stands. -/
def stop (world : World) (id : DeliveryId) (stage : Stage) : Option World :=
  match world.deliveries id with
  | some ⟨some command, current⟩ =>
      if current.running then some ((world.release id).advance id command stage) else none
  | _ => none

def land (world : World) (request : Nat) : Option World := do
  let invocation ← world.sent[request]?
  return { world with effects := world.effects ++ [invocation] }

def step (sha256 : List CodePoint → List CodePoint) (world : World) : Action → Option World
  | .dispatch job parameters => world.dispatch job parameters
  | .deliver id received => world.deliver id received
  | .load id workItems tenants now => world.load id workItems tenants now
  | .evaluate id catalogue registry => world.evaluate id catalogue registry
  | .lookUp id started => world.lookUp sha256 id started
  | .send id => world.send sha256 id
  | .answer id answer => world.answer sha256 id answer
  | .record id completed executionId messageId auditId =>
      world.record sha256 id completed executionId messageId auditId
  | .statement id => world.statement id
  | .commit id acknowledged => world.commit id acknowledged
  | .rollBack id => world.rollBack id
  | .raise id => world.stop id .raised
  | .crash id => world.stop id .lost
  | .land request => world.land request

end World

end Synthia.Integrations
