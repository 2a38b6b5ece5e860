import Mathlib.Logic.Function.Basic
import Synthia.Lib.Machine
import Synthia.Lib.Table
import Synthia.Domain.Vocabulary

/-!
# Ingestion runs

`workers.ingestion_run` and the state it records. A run is opened as running and closed
by one `UPDATE` that selects by organisation, identifier and version. The state it closes
as must be terminal; the state it closes from is not asked.

Any number of workers read a row's version and close with what they read. The clock of a
statement is the database's and nothing is assumed of it.
-/

namespace Synthia.Ingestion

open Relational

inductive IngestionRunState where
  | running
  | completed
  | failed
  deriving DecidableEq, Repr

namespace IngestionRunState

def value : IngestionRunState → String
  | .running => "running"
  | .completed => "completed"
  | .failed => "failed"

def isTerminal : IngestionRunState → Bool
  | .completed | .failed => true
  | .running => false

end IngestionRunState

structure IngestionRunId where
  value : Uuid
  deriving DecidableEq, Repr

/-- An `ingestion_run` row. -/
structure IngestionRunRow where
  runId : IngestionRunId
  tenantId : TenantId
  source : String
  watermark : Option String
  documentCount : Int
  state : IngestionRunState
  startedAt : Instant
  completedAt : Option Instant
  createdAt : Instant
  updatedAt : Instant
  version : Int
  deriving DecidableEq, Repr

abbrev IngestionRunTable := Table IngestionRunRow fun row => row.runId

/-- What leaves `close_run` other than an answer: its own refusal, or whatever the
database raised in place of carrying the statement out. -/
inductive CloseRunError where
  | valueError (message : String)
  | database
  deriving DecidableEq, Repr

/-- The row `open_run` inserts, with the defaults of the columns it does not name. -/
def openedRow (runId : IngestionRunId) (tenant : TenantContext) (source : String)
    (watermark : Option String) (now : Instant) : IngestionRunRow where
  runId := runId
  tenantId := tenant.tenantId
  source := source
  watermark := watermark
  documentCount := 0
  state := .running
  startedAt := now
  completedAt := none
  createdAt := now
  updatedAt := now
  version := 1

/-- `open_run`. The identifier is `uuid4`'s; one already there is refused by the key. -/
def openRun (runs : IngestionRunTable) (runId : IngestionRunId) (tenant : TenantContext)
    (source : String) (watermark : Option String) (now : Instant) :
    Option IngestionRunTable :=
  if hfresh : runId ∉ runs.rows.map fun row => row.runId then
    some (runs.insert (openedRow runId tenant source watermark now) hfresh)
  else
    none

/-- The row a worker means: whose it is, which, and the version it read. -/
structure ReadRow where
  tenant : TenantContext
  runId : IngestionRunId
  version : Int
  deriving DecidableEq, Repr

/-- The `WHERE` of the statement. -/
def ReadRow.selects (read : ReadRow) (row : IngestionRunRow) : Bool :=
  row.tenantId == read.tenant.tenantId && row.runId == read.runId &&
    row.version == read.version

/-- The values a call closes with. -/
structure Closing where
  state : IngestionRunState
  watermark : Option String
  documentCount : Int
  deriving DecidableEq, Repr

/-- The `SET` of the statement. -/
def Closing.values (closing : Closing) (now : Instant) :
    Change fun row : IngestionRunRow => row.runId where
  apply row :=
    { row with
      state := closing.state
      watermark := closing.watermark
      documentCount := closing.documentCount
      completedAt := some now
      updatedAt := now
      version := row.version + 1 }
  keeps_key _ := rfl

/-- `close_run`. A statement the database raises on has changed nothing. -/
def closeRun (runs : IngestionRunTable) (read : ReadRow) (closing : Closing) (now : Instant)
    (raises : Bool) : Except CloseRunError (Bool × IngestionRunTable) :=
  if !closing.state.isTerminal then
    .error (.valueError
      ("a run cannot close as '" ++ closing.state.value ++ "'; it is not a terminal state"))
  else if raises then
    .error .database
  else
    .ok (rowsAffected read.selects runs.rows == 1,
      runs.update read.selects (closing.values now))

/-! ## Workers -/

abbrev WorkerId := Nat

/-- The table, and what each worker has read and not yet closed with. -/
structure World where
  runs : IngestionRunTable := ⟨[], List.nodup_nil⟩
  held : WorkerId → Option ReadRow := fun _ => none

inductive Action where
  | openRun (runId : IngestionRunId) (tenant : TenantContext) (source : String)
      (watermark : Option String) (now : Instant)
  | read (worker : WorkerId) (tenant : TenantContext) (runId : IngestionRunId)
  | close (worker : WorkerId) (closing : Closing) (now : Instant) (raises : Bool)
  deriving DecidableEq, Repr

/-- The version a worker finds, in its own organisation. -/
def readRow (runs : IngestionRunTable) (tenant : TenantContext) (runId : IngestionRunId) :
    Option ReadRow :=
  (runs.rows.find? fun row => row.tenantId == tenant.tenantId && row.runId == runId).map
    fun row => ⟨tenant, runId, row.version⟩

/-- A call that raised leaves the table it found. -/
def closed (runs : IngestionRunTable)
    (result : Except CloseRunError (Bool × IngestionRunTable)) : IngestionRunTable :=
  match result with
  | .ok written => written.2
  | .error _ => runs

/-- A worker reads before every call: what it read serves for one. -/
def World.step (world : World) : Action → Option World
  | .openRun runId tenant source watermark now =>
      (openRun world.runs runId tenant source watermark now).map fun runs =>
        { world with runs }
  | .read worker tenant runId =>
      some { world with
        held := Function.update world.held worker (readRow world.runs tenant runId) }
  | .close worker closing now raises =>
      (world.held worker).map fun read =>
        { runs := closed world.runs (closeRun world.runs read closing now raises)
          held := Function.update world.held worker none }

end Synthia.Ingestion
