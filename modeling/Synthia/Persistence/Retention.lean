import Synthia.Domain.SessionState

/-!
# Retention windows

`persistence.retention`. Every class has a window: the organisation's, where its
override is a positive whole number of days, and the platform's otherwise. Chat
content is the class whose clock starts at a terminal state, so its expiry is
computed on the way into one and is `None` on every other move.

An override may be larger than a duration or a date can be. Python raises then,
and so does this.
-/

namespace Synthia

inductive RetentionClass where
  | chatContent
  | audit
  | graphCheckpoint
  | work
  deriving DecidableEq, Repr

def RetentionClass.value : RetentionClass → String
  | .chatContent => "chat_content"
  | .audit => "audit"
  | .graphCheckpoint => "graph_checkpoint"
  | .work => "work"

/-- A `timedelta`, in microseconds. -/
abbrev Duration := Int

def days (count : Int) : Duration := count * 86400000000

/-- `PLATFORM_DEFAULTS`. -/
def platformDefaults : RetentionClass → Duration
  | .chatContent => days 90
  | .audit => days (365 * 7)
  | .graphCheckpoint => days 30
  | .work => days (365 * 7)

/-- A member of the overrides document, by what `isinstance` tells apart. -/
inductive OverrideValue where
  | int (value : Int)
  | bool (value : Bool)
  | other
  deriving DecidableEq, Repr

/-- `tenant_mapping.retention_overrides`. -/
abbrev RetentionOverrides := Option (List (String × OverrideValue))

structure RetentionWindow where
  retentionClass : RetentionClass
  duration : Duration
  isOverride : Bool
  deriving DecidableEq, Repr

/-- What date arithmetic raises outside its range. -/
inductive DateError where
  | overflow
  deriving DecidableEq, Repr

/-- The most days a `timedelta` holds. -/
def maxDays : Int := 999999999

/-- `datetime.max` in UTC. -/
def maxInstant : Instant := 253402300799999999

/-- `timedelta(days=…)`. -/
def timedelta (count : Int) : Except DateError Duration :=
  if count > maxDays then .error .overflow else .ok (days count)

/-- `datetime + timedelta`. -/
def addDuration (instant : Instant) (duration : Duration) : Except DateError Instant :=
  if instant + duration > maxInstant then .error .overflow else .ok (instant + duration)

/-- `overrides.get(retention_class.value)`, where it is a usable number of days. -/
def overrideDays (retentionClass : RetentionClass) (overrides : RetentionOverrides) :
    Option Int :=
  match (overrides.getD []).lookup retentionClass.value with
  | some (.int raw) => if raw ≤ 0 then none else some raw
  | some (.bool _) | some .other | none => none

def windowFor (retentionClass : RetentionClass) (overrides : RetentionOverrides) :
    Except DateError RetentionWindow :=
  match overrideDays retentionClass overrides with
  | none => .ok ⟨retentionClass, platformDefaults retentionClass, false⟩
  | some raw => do
      let duration ← timedelta raw
      return ⟨retentionClass, duration, true⟩

def contentExpiryFor (state : SessionState) (terminalAt : Instant)
    (overrides : RetentionOverrides) : Except DateError (Option Instant) :=
  if !state.isTerminal then
    .ok none
  else do
    let window ← windowFor .chatContent overrides
    let expiresAt ← addDuration terminalAt window.duration
    return some expiresAt

def auditRetainUntil (occurredAt : Instant) (overrides : RetentionOverrides) :
    Except DateError Instant := do
  let window ← windowFor .audit overrides
  addDuration occurredAt window.duration

/-! ## The column

Nothing checks what is written into the JSONB column, so the functions are given
whatever document stands there. They read it as a dictionary, and any document that
is false counts as none. -/

/-- A JSONB document as Python holds it. Of a float only the truth is asked. -/
inductive StoredJson where
  | null
  | bool (value : Bool)
  | int (value : Int)
  | float (truth : Bool)
  | text (value : String)
  | array (items : List StoredJson)
  | object (members : List (String × StoredJson))

inductive RetentionError where
  | attributeError
  | overflowError
  deriving DecidableEq, Repr

namespace StoredJson

/-- `bool(overrides)`. -/
def truth : StoredJson → Bool
  | .null => false
  | .bool value => value
  | .int value => value != 0
  | .float truth => truth
  | .text value => value != ""
  | .array items => !items.isEmpty
  | .object members => !members.isEmpty

def overrideValue : StoredJson → OverrideValue
  | .int value => .int value
  | .bool value => .bool value
  | .null | .float _ | .text _ | .array _ | .object _ => .other

/-- The dictionary `overrides.get` finds. A true document of another kind has no `get`. -/
def overrides (column : StoredJson) : Except RetentionError RetentionOverrides :=
  if !column.truth then
    .ok none
  else
    match column with
    | .object members => .ok (some (members.map fun entry => (entry.1, entry.2.overrideValue)))
    | _ => .error .attributeError

def raising {α : Type} (result : Except DateError α) : Except RetentionError α :=
  result.mapError fun _ => .overflowError

def windowFor (retentionClass : RetentionClass) (column : StoredJson) :
    Except RetentionError RetentionWindow := do
  let overrides ← column.overrides
  raising (Synthia.windowFor retentionClass overrides)

/-- The state is asked first: on a move that ends nothing the document is not read. -/
def contentExpiryFor (state : SessionState) (terminalAt : Instant) (column : StoredJson) :
    Except RetentionError (Option Instant) :=
  if !state.isTerminal then
    .ok none
  else do
    let overrides ← column.overrides
    raising (Synthia.contentExpiryFor state terminalAt overrides)

def auditRetainUntil (occurredAt : Instant) (column : StoredJson) :
    Except RetentionError Instant := do
  let overrides ← column.overrides
  raising (Synthia.auditRetainUntil occurredAt overrides)

end StoredJson

/-! ## Every window is a window -/

/-- Whatever is configured, a window that resolves is positive. -/
theorem windowFor_pos {retentionClass : RetentionClass} {overrides : RetentionOverrides}
    {window : RetentionWindow} (h : windowFor retentionClass overrides = .ok window) :
    0 < window.duration := by
  unfold windowFor at h
  cases hraw : overrideDays retentionClass overrides with
  | none =>
      rw [hraw] at h
      injection h with h
      subst h
      cases retentionClass <;> decide
  | some raw =>
      rw [hraw] at h
      have hpos : 0 < raw := by
        unfold overrideDays at hraw
        split at hraw
        · split at hraw
          · cases hraw
          · injection hraw with hraw
            omega
        · cases hraw
        · cases hraw
        · cases hraw
      unfold timedelta at h
      dsimp only at h
      split at h
      · cases h
      · injection h with h
        subst h
        show 0 < raw * 86400000000
        omega

/-- An expiry is computed for the terminal states and for no other. -/
theorem contentExpiryFor_cases {state : SessionState} {terminalAt : Instant}
    {overrides : RetentionOverrides} {expiresAt : Option Instant}
    (h : contentExpiryFor state terminalAt overrides = .ok expiresAt) :
    (state.isTerminal = false ∧ expiresAt = none) ∨
      ∃ window, state.isTerminal = true ∧ windowFor .chatContent overrides = .ok window ∧
        expiresAt = some (terminalAt + window.duration) := by
  unfold contentExpiryFor at h
  cases hterminal : state.isTerminal with
  | false =>
      rw [hterminal] at h
      injection h with h
      exact Or.inl ⟨rfl, h.symm⟩
  | true =>
      rw [hterminal] at h
      cases hwindow : windowFor .chatContent overrides with
      | error e =>
          rw [hwindow] at h
          cases h
      | ok window =>
          rw [hwindow] at h
          change (addDuration terminalAt window.duration >>= fun expiresAt =>
            pure (some expiresAt)) = _ at h
          unfold addDuration at h
          split at h
          · cases h
          · injection h with h
            exact Or.inr ⟨window, rfl, rfl, h.symm⟩

end Synthia
