import Synthia.Lib.Machine

/-!
# The unit of work

The session in force is a context variable. A unit of work opens a session of its own, puts
it in force and keeps the token the variable hands back; on the way out it commits or rolls
back, closes, and resets the variable to what the token says was there before. Repositories
write through the session in force and are refused where there is none.

Every call on a session can raise, from the database or from a cancellation, and whether it
raised says nothing of whether the database carried it out: an answer can be lost, a
cancelled statement can have been executed. The two are free of each other here.

A session that was closed can still be used: it begins a transaction that no one commits.
-/

namespace Synthia.Engine

abbrev AsyncSession := Nat

/-- A call on a session: whether the database carried it out, and whether it raised. -/
structure Awaited where
  carriedOut : Bool
  raises : Bool
  deriving DecidableEq, Repr

/-- What leaves a call or a body: the refusal of `current_session`, or anything else, a
cancellation included. -/
inductive Raised where
  | noUnitOfWork
  | fault
  deriving DecidableEq, Repr

abbrev Ended := Except Raised Unit

/-- A write, and the place it has among the writes of the program. -/
structure Write (Row : Type) where
  number : Nat
  row : Row
  deriving DecidableEq, Repr

/-! ## The database -/

/-- Writes made in a transaction still open, and writes committed. -/
structure Transactions (Row : Type) where
  pending : List (AsyncSession × Write Row)
  durable : List (Write Row)
  deriving DecidableEq, Repr

namespace Transactions

variable {Row : Type}

/-- What a session has written and not committed. -/
def written (database : Transactions Row) (session : AsyncSession) : List (Write Row) :=
  (database.pending.filter fun entry => entry.1 == session).map Prod.snd

/-- The transaction of a session is over. -/
def release (database : Transactions Row) (session : AsyncSession) : Transactions Row :=
  { database with pending := database.pending.filter fun entry => entry.1 != session }

def execute (database : Transactions Row) (session : AsyncSession) (write : Write Row)
    (call : Awaited) : Transactions Row :=
  if call.carriedOut then
    { database with pending := (session, write) :: database.pending }
  else database

def commit (database : Transactions Row) (session : AsyncSession) (call : Awaited) :
    Transactions Row :=
  if call.carriedOut then
    { database.release session with
      durable := database.written session ++ database.durable }
  else database

def rollback (database : Transactions Row) (session : AsyncSession) (call : Awaited) :
    Transactions Row :=
  if call.carriedOut then database.release session else database

/-- Closing ends a transaction that is still open by rolling it back. -/
def close (database : Transactions Row) (session : AsyncSession) (call : Awaited) :
    Transactions Row :=
  if call.carriedOut then database.release session else database

end Transactions

/-! ## Units -/

/-- An open unit of work: `_session`, and the value its `_token` restores. -/
structure UnitOfWork where
  session : AsyncSession
  token : Option AsyncSession
  deriving DecidableEq, Repr

/-- A write the database carried out, and the innermost unit of work open then. -/
structure Made (Row : Type) where
  write : Write Row
  unit : Option AsyncSession
  deriving DecidableEq, Repr

/-- `current` is the context variable, and `units` the units open, innermost first. What was
made, where, and which units committed a body that left without an exception is recorded as
it happens. -/
structure UnitWorld (Row : Type) where
  current : Option AsyncSession
  created : Nat
  units : List UnitOfWork
  database : Transactions Row
  made : List (Made Row)
  written : Nat
  succeeded : List AsyncSession
  ended : Ended
  deriving DecidableEq

/-- How the calls of `__aexit__` go, and how the body was left. -/
structure Leaving where
  body : Ended
  commit : Awaited
  rollback : Awaited
  close : Awaited

inductive UnitEvent (Row : Type) where
  | enter (begins : Awaited)
  | write (row : Row) (execute : Awaited)
  | leave (leaving : Leaving)

/-- The exception of a call that raised. -/
def Awaited.ended (call : Awaited) : Ended :=
  if call.raises then .error .fault else .ok ()

/-- The body was left without an exception, and its commit was carried out. -/
def Leaving.succeeds (leaving : Leaving) : Bool :=
  match leaving.body with
  | .ok () => leaving.commit.carriedOut
  | .error _ => false

/-- What `__aexit__` raises: the last exception, in the order its calls are made. -/
def Leaving.ended (leaving : Leaving) : Ended :=
  if leaving.close.raises then .error .fault
  else
    match leaving.body with
    | .ok () => leaving.commit.ended
    | .error raised => if leaving.rollback.raises then .error .fault else .error raised

/-- The `try` of `__aexit__`. -/
def Transactions.settle {Row : Type} (database : Transactions Row) (session : AsyncSession)
    (leaving : Leaving) : Transactions Row :=
  match leaving.body with
  | .ok () => database.commit session leaving.commit
  | .error _ => database.rollback session leaving.rollback

namespace UnitWorld

variable {Row : Type}

def initial : UnitWorld Row :=
  { current := none
    created := 0
    units := []
    database := ⟨[], []⟩
    made := []
    written := 0
    succeeded := []
    ended := .ok () }

def currentSession (world : UnitWorld Row) : Except Raised AsyncSession :=
  match world.current with
  | none => .error .noUnitOfWork
  | some session => .ok session

/-- The session of the innermost unit open. -/
def innermost (world : UnitWorld Row) : Option AsyncSession :=
  world.units.head?.map UnitOfWork.session

/-- `__aenter__`. Where `begin` raises nothing was put in force, and there is no unit to
leave. -/
def aenter (world : UnitWorld Row) (begins : Awaited) : UnitWorld Row :=
  let session := world.created
  let opened := { world with created := world.created + 1, ended := begins.ended }
  if begins.raises then opened
  else
    { opened with
      current := some session
      units := ⟨session, world.current⟩ :: world.units }

/-- A repository write, `Outbox.enqueue` like any other: through the session in force, or
refused. -/
def write (world : UnitWorld Row) (row : Row) (execute : Awaited) : UnitWorld Row :=
  match world.currentSession with
  | .error refusal => { world with ended := .error refusal }
  | .ok session =>
      let written : Write Row := ⟨world.written, row⟩
      { world with
        database := world.database.execute session written execute
        made := if execute.carriedOut then ⟨written, world.innermost⟩ :: world.made else world.made
        written := world.written + 1
        ended := execute.ended }

/-- `__aexit__`, of the innermost unit. The `finally` runs however the commit or the rollback
went; within it, the reset comes after the close. -/
def aexit (world : UnitWorld Row) (unit : UnitOfWork) (outer : List UnitOfWork)
    (leaving : Leaving) : UnitWorld Row :=
  let left :=
    { world with
      units := outer
      database :=
        (world.database.settle unit.session leaving).close unit.session leaving.close
      succeeded :=
        if leaving.succeeds then unit.session :: world.succeeded else world.succeeded
      ended := leaving.ended }
  if leaving.close.raises then left else { left with current := unit.token }

/-- Leaving is for a unit that is open. -/
def step (world : UnitWorld Row) : UnitEvent Row → Option (UnitWorld Row)
  | .enter begins => some (world.aenter begins)
  | .write row execute => some (world.write row execute)
  | .leave leaving =>
      match world.units with
      | [] => none
      | unit :: outer => some (world.aexit unit outer leaving)

end UnitWorld

end Synthia.Engine
