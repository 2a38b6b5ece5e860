import Synthia.Persistence.Outbox
import Synthia.Lib.Machine

/-!
# The outbox dispatcher

`dispatch_once`: one batch of undispatched rows, each rebuilt into an envelope,
published, and marked or counted as failed. Two places decide what one row can
do to the others. Rebuilding the envelope happens outside the `try`, so a row
that cannot be rebuilt raises out of the loop. So does a row given up on whose
correlation identifier is no text, because the report asks for its text.

A pass runs in one unit of work, as its tests run it and as both writes demand:
what it marks and counts is committed when it returns and rolled back when it
raises, while what the transport accepted stays accepted.

The pass is given twice. As a function it is the loop, left alone. As actions
of a `World` it is a read, then a publish and a write for each row, then a
commit, each its own step, with the steps of other dispatchers and of the
transactions that enqueue between them, and a crash possible before any.
-/

namespace Synthia.OutboxDispatch

open Relational Text

/-! ## Rebuilding an envelope -/

inductive EnvelopeError where
  | keyError (key : String)
  | typeError
  | attributeError
  | valueError
  deriving DecidableEq, Repr

/-- `payload[key]`. -/
def Payload.get (key : String) : Payload → Except EnvelopeError JsonMember
  | .object members =>
      match members.lookup key with
      | some value => .ok value
      | none => .error (.keyError key)
  | .falsy => .error (.keyError key)
  | .other => .error .typeError

/-- `UUID(value)`, for a value that came out of JSON. -/
def uuidOf : JsonMember → Except EnvelopeError Uuid
  | .null => .error .typeError
  | .other => .error .attributeError
  | .text value =>
      match Uuid.ofText value with
      | some uuid => .ok uuid
      | none => .error .valueError

def triggerKindOf (kind : String) : Except EnvelopeError TriggerKind :=
  match TriggerKind.ofValue kind with
  | some kind => .ok kind
  | none => .error .valueError

def envelopeFromRow (row : OutboxRow) : Except EnvelopeError Envelope :=
  match IntegrationMessageKind.ofValue row.kind with
  | some kind => do
      let jobId ← uuidOf (← Payload.get "jobId" row.payload)
      let correlationId ← Payload.get "correlationId" row.payload
      return .command ⟨⟨jobId⟩, correlationId, kind⟩
  | none => do
      let workItemId ← uuidOf (← Payload.get "workItemId" row.payload)
      let correlationId ← Payload.get "correlationId" row.payload
      let kind ← triggerKindOf row.kind
      return .trigger ⟨⟨workItemId⟩, correlationId, kind⟩

/-! ## One pass -/

structure DispatchResult where
  published : Nat
  failed : Nat
  undispatchable : Nat
  deriving DecidableEq, Repr

/-- What ends a pass early. -/
inductive Raised where
  | envelope (error : EnvelopeError)
  | noResultFound
  | correlationTypeError
  deriving DecidableEq, Repr

/-- Which counter a row went into. -/
inductive Verdict where
  | published
  | failed
  | undispatchable
  deriving DecidableEq, Repr

/-- The loop's variables, and a trace of it: the rows it got to, what the
transport accepted and which counter each row went into. -/
structure LoopState where
  table : OutboxTable
  result : DispatchResult := ⟨0, 0, 0⟩
  reports : List DeadLetterReport := []
  reached : List Uuid := []
  accepted : List (Uuid × Message) := []
  verdicts : List (Uuid × Verdict) := []

def LoopState.reach (state : LoopState) (row : OutboxRow) : LoopState :=
  { state with reached := state.reached ++ [row.outboxId] }

def LoopState.countPublished (state : LoopState) (row : OutboxRow) (message : Message)
    (table : OutboxTable) : LoopState :=
  { state with
    table := table
    result := { state.result with published := state.result.published + 1 }
    accepted := state.accepted ++ [(row.outboxId, message)]
    verdicts := state.verdicts ++ [(row.outboxId, .published)] }

def LoopState.countFailed (state : LoopState) (row : OutboxRow) (table : OutboxTable) :
    LoopState :=
  { state with
    table := table
    result := { state.result with failed := state.result.failed + 1 }
    verdicts := state.verdicts ++ [(row.outboxId, .failed)] }

def LoopState.countUndispatchable (state : LoopState) (row : OutboxRow)
    (table : OutboxTable) : LoopState :=
  { state with
    table := table
    result := { state.result with undispatchable := state.result.undispatchable + 1 }
    verdicts := state.verdicts ++ [(row.outboxId, .undispatchable)] }

/-- One iteration. `answers` is what the transport says to each row's message,
if it is asked. -/
def dispatchRow (policy : BackoffPolicy) (answers : Uuid → Bool) (now : Instant)
    (state : LoopState) (row : OutboxRow) : LoopState × Option Raised :=
  let state := state.reach row
  match envelopeFromRow row with
  | .error error => (state, some (.envelope error))
  | .ok envelope =>
      match publish envelope (answers row.outboxId) with
      | .ok message =>
          (state.countPublished row message
            (Outbox.markDispatched state.table row.outboxId now), none)
      | .error error =>
          match Outbox.recordFailure state.table row.outboxId now with
          | (none, _) => (state, some .noResultFound)
          | (some attempts, table) =>
              if policy.exhausted attempts then
                let state := state.countUndispatchable row table
                match correlationText envelope.correlationId with
                | none => (state, some .correlationTypeError)
                | some correlationId =>
                    ({ state with
                      reports := state.reports ++ [reportDeadLetter (subjectOf envelope)
                        correlationId envelope.kindValue attempts error] }, none)
              else
                (state.countFailed row table, none)

def dispatchRows (policy : BackoffPolicy) (answers : Uuid → Bool) (now : Instant) :
    LoopState → List OutboxRow → LoopState × Option Raised
  | state, [] => (state, none)
  | state, row :: rows =>
      match dispatchRow policy answers now state row with
      | (state, some raised) => (state, some raised)
      | (state, none) => dispatchRows policy answers now state rows

/-- What a pass leaves behind, in the database and outside it. -/
structure Outcome where
  committed : OutboxTable
  returned : Except Raised DispatchResult
  loop : LoopState

/-- `dispatch_once` inside its unit of work. -/
def dispatchOnce (policy : BackoffPolicy) (batchSize : Nat) (answers : Uuid → Bool)
    (now : Instant) (table : OutboxTable) : Outcome :=
  match dispatchRows policy answers now { table := table }
      (Outbox.undispatched table batchSize) with
  | (state, none) => ⟨state.table, .ok state.result, state⟩
  | (state, some raised) => ⟨table, .error raised, state⟩

/-! ## Passes one after another -/

/-- What a pass meets: the clock and the transport's answers. -/
structure Circumstances where
  now : Instant
  answers : Uuid → Bool

def dispatchPasses (policy : BackoffPolicy) (batchSize : Nat) (table : OutboxTable)
    (passes : List Circumstances) : OutboxTable :=
  passes.foldl (fun table pass =>
    (dispatchOnce policy batchSize pass.answers pass.now table).committed) table

/-! ## Any number of dispatchers -/

abbrev DispatcherId := Nat

/-- A write of a pass, not committed yet. -/
inductive Write where
  | markDispatched (outboxId : Uuid)
  | recordFailure (outboxId : Uuid)
  deriving DecidableEq, Repr

def Write.outboxId : Write → Uuid
  | .markDispatched outboxId => outboxId
  | .recordFailure outboxId => outboxId

def Write.commit (now : Instant) (table : OutboxTable) : Write → OutboxTable
  | .markDispatched outboxId => Outbox.markDispatched table outboxId now
  | .recordFailure outboxId => (Outbox.recordFailure table outboxId now).2

/-- An open pass: its transaction's clock, the rows left to do and the writes
made. -/
structure Pass where
  now : Instant
  todo : List OutboxRow
  writes : List Write
  deriving DecidableEq

inductive Dispatcher where
  | idle
  | looping (pass : Pass)
  /-- `publish` has returned or raised, and nothing is written yet. -/
  | answered (pass : Pass) (row : OutboxRow) (answer : Except PublishError Message)

/-- A call of `publish` and how it ended. -/
structure Publication where
  dispatcher : DispatcherId
  outboxId : Uuid
  answer : Except PublishError Message

structure World where
  table : OutboxTable
  /-- Inserted by transactions still open, and so visible to no read. -/
  uncommitted : List OutboxRow
  nextSequence : Nat
  dispatchers : DispatcherId → Dispatcher
  /-- Who holds a row's lock: from its write to the end of that transaction. -/
  locks : Uuid → Option DispatcherId
  history : List Publication

/-- An empty outbox. Nothing is running, and nothing has been published. -/
def World.start : World where
  table := ⟨[], List.nodup_nil⟩
  uncommitted := []
  nextSequence := 1
  dispatchers := fun _ => .idle
  locks := fun _ => none
  history := []

inductive Action where
  /-- Open a unit of work and read the batch. -/
  | begin (dispatcher : DispatcherId) (now : Instant)
  /-- Take the next row, and publish it if it can be rebuilt. -/
  | attempt (dispatcher : DispatcherId) (accepts : Bool)
  /-- Mark the row just published, or count its failure. -/
  | write (dispatcher : DispatcherId)
  | commit (dispatcher : DispatcherId)
  | crash (dispatcher : DispatcherId)
  /-- A transaction elsewhere inserts a row, and later ends. -/
  | insert (outboxId : Uuid) (tenantId : TenantId) (kind : String) (payload : Payload)
      (now : Instant)
  | commitInsert (outboxId : Uuid)
  | rollBackInsert (outboxId : Uuid)

def World.become (world : World) (dispatcher : DispatcherId) (state : Dispatcher) : World :=
  { world with dispatchers := Function.update world.dispatchers dispatcher state }

/-- The end of a dispatcher's transaction, whichever way it ended. -/
def World.release (world : World) (dispatcher : DispatcherId) : World :=
  { world.become dispatcher .idle with
    locks := fun outboxId =>
      if world.locks outboxId = some dispatcher then none else world.locks outboxId }

@[simp] theorem World.become_self (world : World) (dispatcher : DispatcherId)
    (state : Dispatcher) : (world.become dispatcher state).dispatchers dispatcher = state :=
  Function.update_self _ _ _

@[simp] theorem World.release_self (world : World) (dispatcher : DispatcherId) :
    (world.release dispatcher).dispatchers dispatcher = .idle :=
  Function.update_self _ _ _

def World.log (world : World) (publication : Publication) : World :=
  { world with history := world.history ++ [publication] }

def World.lock (world : World) (dispatcher : DispatcherId) (outboxId : Uuid) : World :=
  { world with locks := Function.update world.locks outboxId (some dispatcher) }

/-- Take the next row. One that cannot be rebuilt ends the pass. -/
def World.attempt (world : World) (dispatcher : DispatcherId) (accepts : Bool) :
    Option World :=
  match world.dispatchers dispatcher with
  | .looping ⟨now, row :: rows, writes⟩ =>
      match envelopeFromRow row with
      | .error _ => some (world.release dispatcher)
      | .ok envelope =>
          let answer := publish envelope accepts
          some ((world.log ⟨dispatcher, row.outboxId, answer⟩).become dispatcher
            (.answered ⟨now, rows, writes⟩ row answer))
  | _ => none

/-- Whether giving the row up raises: it is at its last attempt, and the report
cannot be written. -/
def givingUpRaises (policy : BackoffPolicy) (row : OutboxRow) (attempts : Nat) : Bool :=
  policy.exhausted attempts &&
    match envelopeFromRow row with
    | .ok envelope => (correlationText envelope.correlationId).isNone
    | .error _ => true

/-- The write that follows a publish. It waits for the row's lock. -/
def World.write (policy : BackoffPolicy) (world : World) (dispatcher : DispatcherId) :
    Option World :=
  match world.dispatchers dispatcher with
  | .answered pass row answer =>
      if world.locks row.outboxId = none ∨ world.locks row.outboxId = some dispatcher then
        let locked := world.lock dispatcher row.outboxId
        match answer with
        | .ok _ =>
            some (locked.become dispatcher (.looping
              { pass with writes := pass.writes ++ [.markDispatched row.outboxId] }))
        | .error _ =>
            match (Outbox.recordFailure world.table row.outboxId pass.now).1 with
            | none => some (world.release dispatcher)
            | some attempts =>
                if givingUpRaises policy row attempts then
                  some (world.release dispatcher)
                else
                  some (locked.become dispatcher (.looping
                    { pass with writes := pass.writes ++ [.recordFailure row.outboxId] }))
      else
        none
  | _ => none

/-- Whether the step would end its pass with an exception of the pass's own. -/
def World.raises (policy : BackoffPolicy) (world : World) : Action → Bool
  | .attempt dispatcher _ =>
      match world.dispatchers dispatcher with
      | .looping ⟨_, row :: _, _⟩ =>
          match envelopeFromRow row with
          | .error _ => true
          | .ok _ => false
      | _ => false
  | .write dispatcher =>
      match world.dispatchers dispatcher with
      | .answered pass row (.error _) =>
          match (Outbox.recordFailure world.table row.outboxId pass.now).1 with
          | none => true
          | some attempts => givingUpRaises policy row attempts
      | _ => false
  | _ => false

def World.commit (world : World) (dispatcher : DispatcherId) : Option World :=
  match world.dispatchers dispatcher with
  | .looping ⟨now, [], writes⟩ =>
      some { world.release dispatcher with
        table := writes.foldl (Write.commit now) world.table }
  | _ => none

def World.crash (world : World) (dispatcher : DispatcherId) : Option World :=
  match world.dispatchers dispatcher with
  | .idle => none
  | _ => some (world.release dispatcher)

/-- An identifier is fresh among the rows that are and those that may yet be. -/
def World.fresh (world : World) (outboxId : Uuid) : Prop :=
  outboxId ∉ world.table.rows.map OutboxRow.outboxId ∧
    outboxId ∉ world.uncommitted.map OutboxRow.outboxId

instance (world : World) (outboxId : Uuid) : Decidable (world.fresh outboxId) :=
  inferInstanceAs (Decidable (_ ∧ _))

def World.insert (world : World) (outboxId : Uuid) (tenantId : TenantId) (kind : String)
    (payload : Payload) (now : Instant) : Option World :=
  if world.fresh outboxId then
    some { world with
      uncommitted := world.uncommitted ++
        [Outbox.inserted outboxId tenantId kind payload world.nextSequence now]
      nextSequence := world.nextSequence + 1 }
  else
    none

def World.commitInsert (world : World) (outboxId : Uuid) : Option World :=
  match world.uncommitted.find? fun row => row.outboxId == outboxId with
  | none => none
  | some row =>
      if hfresh : row.outboxId ∉ world.table.rows.map OutboxRow.outboxId then
        some { world with
          table := world.table.insert row hfresh
          uncommitted := world.uncommitted.erase row }
      else
        none

def World.rollBackInsert (world : World) (outboxId : Uuid) : Option World :=
  match world.uncommitted.find? fun row => row.outboxId == outboxId with
  | none => none
  | some row => some { world with uncommitted := world.uncommitted.erase row }

def World.step (policy : BackoffPolicy) (batchSize : Nat) (world : World) :
    Action → Option World
  | .begin dispatcher now =>
      match world.dispatchers dispatcher with
      | .idle => some (world.become dispatcher
          (.looping ⟨now, Outbox.undispatched world.table batchSize, []⟩))
      | _ => none
  | .attempt dispatcher accepts => world.attempt dispatcher accepts
  | .write dispatcher => world.write policy dispatcher
  | .commit dispatcher => world.commit dispatcher
  | .crash dispatcher => world.crash dispatcher
  | .insert outboxId tenantId kind payload now =>
      world.insert outboxId tenantId kind payload now
  | .commitInsert outboxId => world.commitInsert outboxId
  | .rollBackInsert outboxId => world.rollBackInsert outboxId

end Synthia.OutboxDispatch
