import Synthia.ReadModels.Views
import Synthia.Lib.Keyset
import Mathlib.Data.List.Lex
import Mathlib.Data.Prod.Lex
import Mathlib.Order.WithBot

/-!
# Keyset paging

`Synthia.Persistence.Paging` and the sort keys the modules declare. A sort key
bundles an ordering, a strict comparison against an anchor and a rendering of its
value; the three are written apart, and only running them against one database says
whether they fit.

The database is a parameter as far as it is a choice: the collation its texts are
compared by, and whether an equality whose constant is null is rendered as `IS NULL`
or as a comparison with null, which is never true. Nulls sort last, and first when
the order is reversed.
-/

namespace Synthia

open Text Relational

inductive KeysetDirection where
  | ascending
  | descending
  deriving DecidableEq, Repr

structure KeysetAnchor where
  sortValue : List CodePoint
  id : Uuid
  deriving DecidableEq

structure KeysetSlice (Row : Type) where
  rows : List Row
  next : Option KeysetAnchor

inductive PagingError where
  | format
  | overflow
  | invalidOperation
  | argumentOutOfRange
  deriving DecidableEq, Repr

/-! ## Column types -/

/-- The CLR types of the columns something is sorted or told apart by. -/
inductive ClrType where
  | dateTimeOffset
  | nullableDateTimeOffset
  | string
  | guid
  | sessionState
  | tenantStatus
  deriving DecidableEq, Repr

/-- A value of an enumeration is its number, which need not be a member's. -/
def ClrType.Value : ClrType → Type
  | .dateTimeOffset => DateTimeOffset
  | .nullableDateTimeOffset => Option DateTimeOffset
  | .string => List CodePoint
  | .guid => Uuid
  | .sessionState => Int
  | .tenantStatus => Int

def ClrType.isEnum : ClrType → Bool
  | .sessionState | .tenantStatus => true
  | _ => false

/-- The members of an enumeration, each with its number. -/
def ClrType.members : ClrType → List (Int × String)
  | .sessionState =>
      [(0, "Unknown"), (1, "Conversational"), (2, "Resolving"), (3, "AwaitingUser"),
        (4, "AwaitingConsent"), (5, "AwaitingApproval"), (6, "StaffControlled"),
        (7, "Resolved"), (8, "Escalated"), (9, "ClosedDeclined")]
  | .tenantStatus => [(0, "Unknown"), (1, "Active"), (2, "Suspended"), (3, "Offboarded")]
  | _ => []

/-- The number of the member a row's state was read as. -/
def sessionStateNumber : SessionState → Int
  | .conversational => 1
  | .resolving => 2
  | .awaitingUser => 3
  | .awaitingConsent => 4
  | .awaitingApproval => 5
  | .staffControlled => 6
  | .resolved => 7
  | .escalated => 8
  | .closedDeclined => 9

def tenantStatusNumber : TenantStatus → Int
  | .active => 1
  | .suspended => 2
  | .offboarded => 3

def ClrType.isNull : (type : ClrType) → type.Value → Bool
  | .nullableDateTimeOffset, value => Option.isNone (α := DateTimeOffset) value
  | .dateTimeOffset, _ | .string, _ | .guid, _ | .sessionState, _ | .tenantStatus, _ => false

/-! ## What an enumeration is stored as -/

/-- `SnakeCaseNaming.ToSnakeCase`; the members' names are ASCII. -/
def toSnakeCase (pascalCase : String) : List CodePoint :=
  (pascalCase.toList.zipIdx.map fun (character, index) =>
    if index > 0 && character.isUpper then ofString s!"_{character.toLower}"
    else ofString s!"{character.toLower}").flatten

/-- The text an enumeration's converter stores: a number no member has is written as it
is. -/
def storedText (type : ClrType) (value : Int) : List CodePoint :=
  match type.members.find? fun member => member.1 == value with
  | some member => toSnakeCase member.2
  | none => ofString (toString value)

/-! ## The database -/

structure Database where
  collation : LinearOrder (List CodePoint)
  nullIsNull : Bool

/-- What a column is ordered by. -/
def Database.Rank (_db : Database) : ClrType → Type
  | .dateTimeOffset => Nat
  | .nullableDateTimeOffset => WithTop Nat
  | .string => List CodePoint
  | .guid => Nat
  | .sessionState => List CodePoint
  | .tenantStatus => List CodePoint

instance (db : Database) : (type : ClrType) → LinearOrder (db.Rank type)
  | .dateTimeOffset => inferInstanceAs (LinearOrder Nat)
  | .nullableDateTimeOffset => inferInstanceAs (LinearOrder (WithTop Nat))
  | .string => db.collation
  | .guid => inferInstanceAs (LinearOrder Nat)
  | .sessionState => db.collation
  | .tenantStatus => db.collation

def Database.rank (db : Database) : (type : ClrType) → type.Value → db.Rank type
  | .dateTimeOffset, value => DateTimeOffset.ticks value
  | .nullableDateTimeOffset, value => Option.map DateTimeOffset.ticks value
  | .string, value => value
  | .guid, value => BitVec.toNat value
  | .sessionState, value => storedText .sessionState value
  | .tenantStatus, value => storedText .tenantStatus value

/-- `left > right`, or `left < right` in a descending scan, with neither side null. -/
def Database.beyond (db : Database) (type : ClrType) (direction : KeysetDirection)
    (left right : type.Value) : Bool :=
  !type.isNull left && !type.isNull right &&
    match direction with
    | .ascending => decide (db.rank type right < db.rank type left)
    | .descending => decide (db.rank type left < db.rank type right)

/-- `left = right`. -/
def Database.equal (db : Database) (type : ClrType) (left right : type.Value) : Bool :=
  if type.isNull left || type.isNull right then
    db.nullIsNull && type.isNull left && type.isNull right
  else
    decide (db.rank type left = db.rank type right)

/-! ## Values in a cursor -/

namespace KeysetValues

/-- The round-trip format, `O`. -/
def render (value : DateTimeOffset) : List CodePoint :=
  Calendar.secondsText (value.ticks / 10000000) ++
    0x2E :: (Calendar.pad 7 (value.ticks % 10000000) ++ ofString "+00:00")

/-- The offset a text ends in, in minutes. A text without one is read in the host's
zone, which is UTC. One digit of hours is read as well as two, and of the minutes any
two; only the offset they come to has a bound. -/
def readOffset (text : List CodePoint) : Option Int :=
  match text with
  | [] => some 0
  | [0x5A] => some 0
  | sign :: rest => do
      let (hours, rest) ← (Calendar.readPad 2 rest).or (Calendar.readPad 1 rest)
      let rest ← Calendar.expect 0x3A rest
      let (minutes, rest) ← Calendar.readPad 2 rest
      let offset : Nat := 60 * hours + minutes
      if rest ≠ [] ∨ 840 < offset then none
      else if sign = 0x2B then some offset
      else if sign = 0x2D then some (-offset)
      else none

def ofLocalTicks (ticks : Int) : Option DateTimeOffset :=
  if h : 0 ≤ ticks ∧ ticks.toNat < tickLimit then some ⟨ticks.toNat, h.2⟩ else none

def readTimestamp (value : List CodePoint) : Option DateTimeOffset := do
  let (seconds, text) ← Calendar.readSeconds value
  let text ← Calendar.expect 0x2E text
  let (fraction, text) ← Calendar.readPad 7 text
  let offset ← readOffset text
  ofLocalTicks (seconds * 10000000 + fraction - offset * 600000000)

def parseTimestamp (value : List CodePoint) : Except PagingError DateTimeOffset :=
  match readTimestamp value with
  | some timestamp => .ok timestamp
  | none => .error .format

def renderNullable : Option DateTimeOffset → List CodePoint
  | none => []
  | some value => render value

def parseNullableTimestamp (value : List CodePoint) :
    Except PagingError (Option DateTimeOffset) :=
  if value.isEmpty then .ok none else (parseTimestamp value).map some

def renderText (value : List CodePoint) : List CodePoint := value

def parseText (value : List CodePoint) : Except PagingError (List CodePoint) := .ok value

def renderEnum (value : Int) : List CodePoint := ofString (toString value)

/-- The white space `int.Parse` passes over. -/
def isNumericSpace (c : CodePoint) : Bool := c == 0x20 || (0x09 ≤ c.val && c.val ≤ 0x0D)

def readDigits (digits : List CodePoint) : Option Nat :=
  if digits.isEmpty then none else Calendar.digitsValue digits

/-- Null characters at the end of a number are passed over. -/
def dropTrailingNulls (text : List CodePoint) : List CodePoint := text.rdropWhile (· == 0)

/-- `int.Parse`, in the integer style. -/
def parseInt32 (value : List CodePoint) : Except PagingError Int :=
  let text := (dropTrailingNulls (value.dropWhile isNumericSpace)).rdropWhile isNumericSpace
  let number : Option Int := match text with
    | 0x2D :: digits => (readDigits digits).map fun n => -(n : Int)
    | 0x2B :: digits => (readDigits digits).map fun n => (n : Int)
    | digits => (readDigits digits).map fun n => (n : Int)
  match number with
  | none => .error .format
  | some n => if -2 ^ 31 ≤ n ∧ n < 2 ^ 31 then .ok n else .error .overflow

/-- `Enum.ToObject` takes any number. -/
def parseEnum (value : List CodePoint) : Except PagingError Int := parseInt32 value

end KeysetValues

/-! ## Sort keys -/

structure KeysetSortKey (Row : Type) where
  field : String
  type : ClrType
  selector : Row → type.Value
  identity : Row → Uuid
  render : type.Value → List CodePoint
  parse : List CodePoint → Except PagingError type.Value

namespace KeysetSortKey

variable {Row : Type} (db : Database) (key : KeysetSortKey Row)

/-- Where `ORDER BY key, id` puts a row. -/
def position (row : Row) : db.Rank key.type ×ₗ Nat :=
  toLex (db.rank key.type (key.selector row), (key.identity row).toNat)

def order (source : List Row) : KeysetDirection → List Row
  | .ascending => orderBy (key.position db) source
  | .descending => orderByDesc (key.position db) source

/-- An operator is looked up when the expression is built, so a type without one fails
before there is a query. A text is compared through `string.Compare`. -/
def compare (type : ClrType) (direction : KeysetDirection) :
    Except PagingError (type.Value → type.Value → Bool) :=
  if type.isEnum then .error .invalidOperation else .ok (db.beyond type direction)

def after (source : List Row) (direction : KeysetDirection) (anchor : KeysetAnchor) :
    Except PagingError (List Row) := do
  let lastKey ← key.parse anchor.sortValue
  let keyBeyond ← compare db key.type direction
  let idBeyond ← compare db .guid direction
  return source.filter fun row =>
    keyBeyond (key.selector row) lastKey ||
      (db.equal key.type (key.selector row) lastKey && idBeyond (key.identity row) anchor.id)

def anchorOf (row : Row) : KeysetAnchor := ⟨key.render (key.selector row), key.identity row⟩

/-- The source as it is, or what is after the anchor where there is one. -/
def resumed (source : List Row) (direction : KeysetDirection) :
    Option KeysetAnchor → Except PagingError (List Row)
  | none => .ok source
  | some anchor => key.after db source direction anchor

end KeysetSortKey

/-- A page out of what the query found, which is one row more where there is one. -/
def KeysetSortKey.slice {Row : Type} (sortKey : KeysetSortKey Row) (limit : Nat)
    (rows : List Row) : Except PagingError (KeysetSlice Row) :=
  if rows.length ≤ limit then .ok ⟨rows, none⟩
  else
    match (rows.take limit).getLast? with
    | none => .error .argumentOutOfRange
    | some last => .ok ⟨rows.take limit, some (sortKey.anchorOf last)⟩

/-- `KeysetQuery.TakeAsync`. Every caller has clamped the limit to 200, so that `limit + 1`
is an `int` again. -/
def takeAsync {Row : Type} (db : Database) (source : List Row) (sortKey : KeysetSortKey Row)
    (direction : KeysetDirection) (anchor : Option KeysetAnchor) (limit : Nat) :
    Except PagingError (KeysetSlice Row) :=
  if limit < 1 then .error .argumentOutOfRange
  else do
    let query ← sortKey.resumed db source direction anchor
    sortKey.slice limit ((sortKey.order db query direction).take (limit + 1))

/-- Reading on from a continuation until there is none: the collection as it is at each
request, the rows of all pages, and whether the last of them had no continuation. -/
def follow {Row : Type} (db : Database) (sortKey : KeysetSortKey Row)
    (direction : KeysetDirection) (limit : Nat) :
    Option KeysetAnchor → List (List Row) → Except PagingError (List Row × Bool)
  | _, [] => .ok ([], false)
  | anchor, source :: later => do
      let slice ← takeAsync db source sortKey direction anchor limit
      match slice.next with
      | none => return (slice.rows, true)
      | some next =>
          let rest ← follow db sortKey direction limit (some next) later
          return (slice.rows ++ rest.1, rest.2)

/-! ## The whitelisted fields -/

namespace SessionSortKeys

def summaries : List (KeysetSortKey PublishedViews.SessionSummaryRow) :=
  [⟨"createdAt", .dateTimeOffset, (·.createdAt), (·.sessionId), KeysetValues.render,
      KeysetValues.parseTimestamp⟩,
    ⟨"updatedAt", .dateTimeOffset, (·.updatedAt), (·.sessionId), KeysetValues.render,
      KeysetValues.parseTimestamp⟩,
    ⟨"state", .sessionState, fun row => sessionStateNumber row.state, (·.sessionId),
      KeysetValues.renderEnum, KeysetValues.parseEnum⟩]

def messages : List (KeysetSortKey PublishedViews.SessionMessageRow) :=
  [⟨"createdAt", .dateTimeOffset, (·.createdAt), (·.messageId), KeysetValues.render,
      KeysetValues.parseTimestamp⟩]

end SessionSortKeys

namespace ApprovalSortKeys

def queue : List (KeysetSortKey PublishedViews.ApprovalQueueRow) :=
  [⟨"createdAt", .dateTimeOffset, (·.createdAt), (·.approvalId), KeysetValues.render,
      KeysetValues.parseTimestamp⟩,
    ⟨"expiresAt", .nullableDateTimeOffset, (·.expiresAt), (·.approvalId),
      KeysetValues.renderNullable, KeysetValues.parseNullableTimestamp⟩]

def unexecuted : List (KeysetSortKey PublishedViews.ApprovalUnexecutedRow) :=
  [⟨"decidedAt", .dateTimeOffset, (·.decidedAt), (·.approvalId), KeysetValues.render,
      KeysetValues.parseTimestamp⟩,
    ⟨"expiresAt", .nullableDateTimeOffset, (·.expiresAt), (·.approvalId),
      KeysetValues.renderNullable, KeysetValues.parseNullableTimestamp⟩]

end ApprovalSortKeys

def AuditSortKeys.events : List (KeysetSortKey PublishedViews.AuditEventRow) :=
  [⟨"occurredAt", .dateTimeOffset, (·.occurredAt), (·.auditId), KeysetValues.render,
      KeysetValues.parseTimestamp⟩]

def TenantSortKeys.tenants : List (KeysetSortKey PublishedViews.TenantRow) :=
  [⟨"displayName", .string, (·.displayName), (·.tenantId), KeysetValues.renderText,
      KeysetValues.parseText⟩,
    ⟨"status", .tenantStatus, fun row => tenantStatusNumber row.status, (·.tenantId),
      KeysetValues.renderEnum, KeysetValues.parseEnum⟩]

/-- Every field a listing may be sorted by, with the rows it sorts. -/
def sortKeys : List (Σ Row : Type, KeysetSortKey Row) :=
  SessionSortKeys.summaries.map (⟨_, ·⟩) ++ SessionSortKeys.messages.map (⟨_, ·⟩) ++
    ApprovalSortKeys.queue.map (⟨_, ·⟩) ++ ApprovalSortKeys.unexecuted.map (⟨_, ·⟩) ++
    AuditSortKeys.events.map (⟨_, ·⟩) ++ TenantSortKeys.tenants.map (⟨_, ·⟩)

end Synthia
