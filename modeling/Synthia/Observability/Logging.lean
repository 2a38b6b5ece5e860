import Synthia.Lib.Json
import Synthia.Lib.Regex

/-!
# Structured logging

What stands between a log record and the sink. A filter screens the template and each
argument that is text against the shapes a credential takes, one at a time and before
anything formats them; arguments of other types are left alone. A formatter publishes a
fixed set of fields, of which it screens one more, the formatted traceback.

A match that holds an equals sign is taken to have captured its key. The DSN shape captures
nothing, so a DSN with an equals sign in it raises. Which characters beyond ASCII are word
characters is the interpreter's Unicode database, and a parameter.
-/

namespace Synthia.Observability

open Text Regex

/-- `[A-Za-z0-9_]` -/
def asciiWord (c : CodePoint) : Bool :=
  (0x30 ≤ c.val && c.val ≤ 0x39) || (0x41 ≤ c.val && c.val ≤ 0x5A) || c.val == 0x5F ||
    (0x61 ≤ c.val && c.val ≤ 0x7A)

/-- `\w`: exactly Python's within ASCII, and beyond it whatever the database says, so long
as no space is one and the letters that `(?i)` takes for ASCII letters are. -/
structure WordClass where
  isWord : CodePoint → Bool
  ascii : ∀ c : CodePoint, c.val < 0x80 → isWord c = asciiWord c
  folded : ∀ c : CodePoint, c.val = 0x130 ∨ c.val = 0x131 ∨ c.val = 0x17F ∨ c.val = 0x212A →
    isWord c = true
  spaced : ∀ c : CodePoint, isSpace c = true → isWord c = false

/-- The character an ASCII letter is compared as under `(?i)`. Four letters beyond ASCII are
taken for one: two that lower-case to it, and two of the engine's own list. -/
def fold (c : CodePoint) : CodePoint :=
  if 0x41 ≤ c.val ∧ c.val ≤ 0x5A then Fin.ofNat 0x110000 (c.val + 0x20)
  else if c.val = 0x130 ∨ c.val = 0x131 then 0x69
  else if c.val = 0x17F then 0x73
  else if c.val = 0x212A then 0x6B
  else c

def equals : CodePoint := 0x3D

/-- `REDACTED` -/
def redacted : List CodePoint := ofString "<redacted>"

/-! ## The shapes -/

/-- A word under `(?i)`. -/
def caseless (word : String) : Expr CodePoint := .literal fold (ofString word)

/-- A word as it is spelled. -/
def spelled (word : String) : Expr CodePoint := .literal id (ofString word)

def oneOf (characters : String) : Expr CodePoint := .one fun c => (ofString characters).contains c

/-- `[^\s…]` -/
def noneOf (characters : String) (c : CodePoint) : Bool :=
  !isSpace c && !(ofString characters).contains c

/-- `[A-Za-z0-9_-]` -/
def urlSafe (c : CodePoint) : Bool :=
  (0x41 ≤ c.val && c.val ≤ 0x5A) || (0x61 ≤ c.val && c.val ≤ 0x7A) ||
    (0x30 ≤ c.val && c.val ≤ 0x39) || (ofString "_-").contains c

/-- `[A-Za-z0-9._~+/=-]` under `(?i)`. -/
def tokenCharacter (c : CodePoint) : Bool :=
  (0x61 ≤ (fold c).val && (fold c).val ≤ 0x7A) || (0x30 ≤ c.val && c.val ≤ 0x39) ||
    (ofString "._~+/=-").contains c

/-- A bearer token in any rendering of an Authorization header. -/
def bearer : Shape CodePoint where
  group := some (.either (caseless "bearer") (caseless "basic"))
  rest := .seq (.many 1 isSpace) (.many 8 tokenCharacter)

/-- A JWT, wherever it appears. -/
def jwt : Shape CodePoint where
  group := none
  rest := .seq (spelled "eyJ") (.seq (.many 8 urlSafe) (.seq (oneOf ".")
    (.seq (.many 8 urlSafe) (.seq (oneOf ".") (.many 0 urlSafe)))))

/-- A key, an equals sign, and what runs up to a space or one of the characters that end
it. -/
def assigned (key : Expr CodePoint) (ended : String) : Shape CodePoint where
  group := some key
  rest := .seq (oneOf "=") (.many 1 (noneOf ended))

def connectionKey : Expr CodePoint :=
  .either (caseless "sharedaccesskey") (.either (caseless "sharedaccesssignature")
    (.either (caseless "accountkey") (caseless "accesskey")))

/-- Credential-bearing connection-string tokens. -/
def connectionString : Shape CodePoint := assigned connectionKey ";\"'"

def parameterKey : Expr CodePoint :=
  .either (.seq (caseless "api") (.seq (.optional (oneOf "-_")) (caseless "key")))
    (.either (.seq (caseless "client") (.seq (.optional (oneOf "-_")) (caseless "secret")))
      (.either (caseless "password") (caseless "sig")))

/-- A key-looking query parameter or assignment. -/
def parameter : Shape CodePoint := assigned parameterKey "&;\"'"

/-- A PostgreSQL DSN carrying an embedded password. -/
def dsn (words : WordClass) : Shape CodePoint where
  group := none
  rest := .seq (caseless "postgres") (.seq (.optional (caseless "ql"))
    (.seq (.optional (.seq (oneOf "+") (.many 1 words.isWord))) (.seq (spelled "://")
      (.seq (.many 1 (noneOf ":/@\"'")) (.seq (oneOf ":")
        (.seq (.many 1 (noneOf "@\"'")) (oneOf "@")))))))

def sensitivePatterns (words : WordClass) : List (Shape CodePoint) :=
  [bearer, jwt, connectionString, parameter, dsn words]

/-! ## Redacting -/

/-- `match.group(1)` of a pattern that has no group. -/
inductive IndexError where
  | noSuchGroup
  deriving DecidableEq, Repr

/-- What is written for a match. -/
def replacement (found : Match CodePoint) : Except IndexError (List CodePoint) :=
  if found.text.contains equals then
    match found.group with
    | some group => .ok (group ++ equals :: redacted)
    | none => .error .noSuchGroup
  else
    match found.group with
    | some group => .ok (group ++ 0x20 :: redacted)
    | none => .ok redacted

def redact (words : WordClass) (text : List CodePoint) : Except IndexError (List CodePoint) :=
  (sensitivePatterns words).foldlM (fun text pattern => pattern.sub words.isWord replacement text)
    text

/-! ## Records -/

/-- An object: a string, or anything else with the text it renders as. -/
inductive LogValue where
  | text (content : List CodePoint)
  | other (rendering : List CodePoint)
  deriving DecidableEq

/-- `record.args`. A mapping that is not a `dict` is gone through like a tuple, which takes
its keys. -/
inductive LogArguments where
  | none
  | tuple (values : List LogValue)
  | dict (entries : List (LogValue × LogValue))
  | mapping (entries : List (LogValue × LogValue))
  deriving DecidableEq

/-- What of a record the handler reads. `traceback` is the exception it carries, formatted. -/
structure LogRecord where
  levelname : List CodePoint
  name : List CodePoint
  msg : LogValue
  args : LogArguments
  traceback : Option (List CodePoint)
  deriving DecidableEq

def LogValue.rendering : LogValue → List CodePoint
  | text content => content
  | other rendering => rendering

/-- Arguments that are falsy. -/
def LogArguments.isEmpty : LogArguments → Bool
  | none => true
  | tuple values => values.isEmpty
  | dict entries => entries.isEmpty
  | mapping entries => entries.isEmpty

/-- `LogRecord.getMessage`, where `interpolate` is the `%` of strings. -/
def LogRecord.getMessage (interpolate : List CodePoint → LogArguments → Option (List CodePoint))
    (record : LogRecord) : Option (List CodePoint) :=
  if record.args.isEmpty then some record.msg.rendering
  else interpolate record.msg.rendering record.args

/-- `_redact_value` -/
def redactValue (words : WordClass) : LogValue → Except IndexError LogValue
  | .text content => (redact words content).map .text
  | .other rendering => .ok (.other rendering)

namespace RedactingFilter

/-- The arguments, redacted. Empty ones are falsy and stay what they are. -/
def arguments (words : WordClass) : LogArguments → Except IndexError LogArguments
  | .none => .ok .none
  | .tuple values => (values.mapM (redactValue words)).map .tuple
  | .dict entries =>
      (entries.mapM fun entry => (redactValue words entry.2).map fun value => (entry.1, value)).map
        .dict
  | .mapping [] => .ok (.mapping [])
  | .mapping entries => (entries.mapM fun entry => redactValue words entry.1).map .tuple

def filter (words : WordClass) (record : LogRecord) : Except IndexError LogRecord := do
  let msg ← redactValue words record.msg
  let args ← arguments words record.args
  return { record with msg, args }

end RedactingFilter

/-! ## Formatting -/

/-- What the formatter reads besides the record. -/
structure LogContext where
  timestamp : List CodePoint
  correlationId : List CodePoint
  tenantId : Option (List CodePoint)
  traceId : List CodePoint
  spanId : List CodePoint

/-- The fields of `LOGGED_FIELDS` a record carries. -/
structure LogPayload where
  timestamp : List CodePoint
  level : List CodePoint
  logger : List CodePoint
  message : List CodePoint
  correlationId : List CodePoint
  tenantId : Option (List CodePoint)
  traceId : Option (List CodePoint)
  spanId : Option (List CodePoint)
  exception : Option (List CodePoint)
  deriving DecidableEq

/-- The strings a payload puts into the object that is emitted. -/
def LogPayload.strings (payload : LogPayload) : List (List CodePoint) :=
  [payload.timestamp, payload.level, payload.logger, payload.message, payload.correlationId] ++
    [payload.tenantId, payload.traceId, payload.spanId, payload.exception].flatMap
      Option.toList

/-- Why a record is not formatted: its message does not interpolate, or its traceback does
not redact. -/
inductive FormatError where
  | message
  | index (raised : IndexError)
  deriving DecidableEq

namespace JsonFormatter

def message (interpolate : List CodePoint → LogArguments → Option (List CodePoint))
    (record : LogRecord) : Except FormatError (List CodePoint) :=
  match record.getMessage interpolate with
  | some message => .ok message
  | none => .error .message

/-- The traceback, formatted and then redacted. -/
def exception (words : WordClass) (record : LogRecord) :
    Except FormatError (Option (List CodePoint)) :=
  match record.traceback with
  | some traceback => ((redact words traceback).map some).mapError .index
  | none => .ok none

/-- `JsonFormatter.format`, up to the rendering of the object. -/
def format (words : WordClass)
    (interpolate : List CodePoint → LogArguments → Option (List CodePoint))
    (context : LogContext) (record : LogRecord) : Except FormatError LogPayload := do
  let message ← message interpolate record
  let exception ← exception words record
  return {
    timestamp := context.timestamp
    level := record.levelname
    logger := record.name
    message
    correlationId := context.correlationId
    tenantId := context.tenantId
    traceId := if context.traceId.isEmpty then none else some context.traceId
    spanId := if context.traceId.isEmpty then none else some context.spanId
    exception }

end JsonFormatter

/-! ## Emitting

The one service serialises an object. The other fills a template. -/

/-- `LOGGED_FIELDS`, with what a payload has for each. -/
def LogPayload.fields (payload : LogPayload) : List (String × Option (List CodePoint)) :=
  [("timestamp", payload.timestamp), ("level", payload.level), ("logger", payload.logger),
    ("message", payload.message), ("correlation_id", payload.correlationId),
    ("tenant_id", payload.tenantId), ("trace_id", payload.traceId),
    ("span_id", payload.spanId), ("exception", payload.exception)]

/-- The fields that are there, in their order. -/
def LogPayload.entries (payload : LogPayload) : List (List CodePoint × List CodePoint) :=
  payload.fields.filterMap fun field => field.2.map fun value => (ofString field.1, value)

def LogPayload.line (payload : LogPayload) : List CodePoint :=
  Json.dumps [0x20] (Json.flat (payload.entries.map fun entry => (entry.1, some entry.2)))

namespace Integrations

/-- The name a service reports under, which is put into the template. A `%` in it would be
one of the template's own. -/
structure ServiceName where
  text : List CodePoint
  literal : 0x25 ∉ text

/-- `%(asctime)s`: digits, and what stands between them. -/
structure AscTime where
  text : List CodePoint
  digits : text ⊆ ofString "0123456789-: ,"

/-- A record as the handler has it. `correlationId` is what a call put there itself. -/
structure Record extends LogRecord where
  asctime : AscTime
  correlationId : Option (List CodePoint)
  stackInfo : List CodePoint

/-- `CorrelationFilter.filter`. None of the fields it scrubs is one of the template's. -/
def Record.correlated (record : Record) (bound : List CodePoint) : List CodePoint :=
  record.correlationId.getD bound

/-- What the template names, and what a record has for it. -/
def entries (service : ServiceName) (bound : List CodePoint) (record : Record)
    (message : List CodePoint) : List (List CodePoint × List CodePoint) :=
  [(ofString "time", record.asctime.text), (ofString "level", record.levelname),
    (ofString "logger", record.name), (ofString "service", service.text),
    (ofString "correlationId", record.correlated bound), (ofString "message", message)]

/-- `formatMessage` -/
def formatMessage (service : ServiceName) (bound : List CodePoint) (record : Record)
    (message : List CodePoint) : List CodePoint :=
  ofString "\x7b\"time\":\"" ++ record.asctime.text ++
    ofString "\",\"level\":\"" ++ record.levelname ++
    ofString "\",\"logger\":\"" ++ record.name ++
    ofString "\",\"service\":\"" ++ service.text ++
    ofString "\",\"correlationId\":\"" ++ record.correlated bound ++
    ofString "\",\"message\":\"" ++ message ++ ofString "\"\x7d"

/-- Text behind a line, on a line of its own. -/
def onNewLine (text more : List CodePoint) : List CodePoint :=
  if more.isEmpty then text
  else if text.getLast? = some 0x0A then text ++ more
  else text ++ 0x0A :: more

/-- `logging.Formatter.format`; `none` where the message does not interpolate, of which the
handler emits nothing. -/
def format (interpolate : List CodePoint → LogArguments → Option (List CodePoint))
    (service : ServiceName) (bound : List CodePoint) (record : Record) :
    Option (List CodePoint) :=
  (record.getMessage interpolate).map fun message =>
    onNewLine (onNewLine (formatMessage service bound record message)
      (record.traceback.getD [])) record.stackInfo

end Integrations

end Synthia.Observability
