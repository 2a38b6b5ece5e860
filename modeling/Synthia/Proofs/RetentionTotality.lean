import Synthia.Persistence.Retention

/-!
# When retention resolves

An override that is no positive whole number of days yields to the platform's default,
whatever its type. What is left can still raise in three places: `overrides.get` on a
document that is true and no object, `timedelta` on more days than a duration holds,
and the addition on an instant whose window runs past the last date.

Each of the three is read off its own function. Whether everything resolves is then a
condition on the document and the instant alone.
-/

namespace Synthia

/-- The positive whole number of days the document holds for the class. -/
def StoredJson.usableDays (retentionClass : RetentionClass) : StoredJson → Option Int
  | .object members =>
      match members.lookup retentionClass.value with
      | some (.int count) => if 0 < count then some count else none
      | _ => none
  | _ => none

/-- What applies to the class: the days the document holds, or the default. -/
def StoredJson.configured (retentionClass : RetentionClass) (column : StoredJson) : Duration :=
  match column.usableDays retentionClass with
  | some count => days count
  | none => platformDefaults retentionClass

theorem platformDefaults_pos (retentionClass : RetentionClass) :
    0 < platformDefaults retentionClass := by
  cases retentionClass <;> decide

theorem StoredJson.usableDays_pos {retentionClass : RetentionClass} {column : StoredJson}
    {count : Int} (h : column.usableDays retentionClass = some count) : 0 < count := by
  unfold usableDays at h
  split at h
  · split at h
    · split at h
      · next hpos =>
          injection h with h
          exact h ▸ hpos
      · cases h
    · cases h
  · cases h

theorem StoredJson.configured_pos (retentionClass : RetentionClass) (column : StoredJson) :
    0 < column.configured retentionClass := by
  unfold configured
  cases h : column.usableDays retentionClass with
  | none => exact platformDefaults_pos retentionClass
  | some count =>
      have hpos := usableDays_pos h
      show 0 < count * 86400000000
      omega

/-! ## The document -/

/-- Nothing, or an object. -/
def StoredJson.Readable (column : StoredJson) : Prop :=
  column.truth = false ∨ ∃ members, column = .object members

theorem lookup_map_overrideValue (name : String) (members : List (String × StoredJson)) :
    (members.map fun entry => (entry.1, entry.2.overrideValue)).lookup name =
      (members.lookup name).map StoredJson.overrideValue := by
  induction members with
  | nil => rfl
  | cons entry members ih =>
      rw [List.map_cons, List.lookup_cons, List.lookup_cons, ih]
      cases name == entry.1 <;> rfl

/-- A document that is read gives the days it holds, whichever way it counts as none. -/
theorem StoredJson.overrides_of_readable {column : StoredJson} (h : column.Readable) :
    ∃ overrides, column.overrides = .ok overrides ∧
      ∀ retentionClass, overrideDays retentionClass overrides =
        column.usableDays retentionClass := by
  unfold StoredJson.overrides
  cases htruth : column.truth with
  | false =>
      refine ⟨none, rfl, fun retentionClass => ?_⟩
      cases column with
      | object members =>
          cases members with
          | nil => rfl
          | cons entry members => cases htruth
      | null => rfl
      | bool value => rfl
      | int value => rfl
      | float truth => rfl
      | text value => rfl
      | array items => rfl
  | true =>
      rcases h with hfalse | ⟨members, rfl⟩
      · rw [htruth] at hfalse
        cases hfalse
      · refine ⟨_, rfl, fun retentionClass => ?_⟩
        unfold overrideDays usableDays
        rw [Option.getD_some, lookup_map_overrideValue]
        dsimp only
        cases members.lookup retentionClass.value with
        | none => rfl
        | some item =>
            cases item with
            | int count =>
                dsimp only [Option.map_some, overrideValue]
                split
                · next hle => rw [if_neg (by omega)]
                · next hpos => rw [if_pos (by omega)]
            | null => rfl
            | bool value => rfl
            | float truth => rfl
            | text value => rfl
            | array items => rfl
            | object inner => rfl

theorem StoredJson.overrides_of_not_readable {column : StoredJson} (h : ¬ column.Readable) :
    column.overrides = .error .attributeError := by
  unfold StoredJson.overrides
  cases htruth : column.truth with
  | false => exact absurd (Or.inl htruth) h
  | true =>
      cases column with
      | object members => exact absurd (Or.inr ⟨members, rfl⟩) h
      | null => rfl
      | bool value => rfl
      | int value => rfl
      | float truth => rfl
      | text value => rfl
      | array items => rfl

/-! ## The window -/

/-- The days the document holds for the class are days a duration holds. -/
def StoredJson.Fits (retentionClass : RetentionClass) (column : StoredJson) : Prop :=
  ∀ count, column.usableDays retentionClass = some count → count ≤ maxDays

/-- The window a readable document resolves to. -/
def StoredJson.window (retentionClass : RetentionClass) (column : StoredJson) :
    RetentionWindow :=
  ⟨retentionClass, column.configured retentionClass,
    (column.usableDays retentionClass).isSome⟩

theorem windowFor_of_fits {retentionClass : RetentionClass} {column : StoredJson}
    {overrides : RetentionOverrides}
    (hdays : overrideDays retentionClass overrides = column.usableDays retentionClass)
    (hfits : column.Fits retentionClass) :
    windowFor retentionClass overrides = .ok (column.window retentionClass) := by
  unfold windowFor StoredJson.window StoredJson.configured
  rw [hdays]
  cases husable : column.usableDays retentionClass with
  | none => rfl
  | some count =>
      have hle : ¬ count > maxDays := not_lt.mpr (hfits count husable)
      dsimp only
      unfold timedelta
      rw [if_neg hle]
      rfl

theorem windowFor_of_not_fits {retentionClass : RetentionClass} {column : StoredJson}
    {overrides : RetentionOverrides}
    (hdays : overrideDays retentionClass overrides = column.usableDays retentionClass)
    (hfits : ¬ column.Fits retentionClass) :
    windowFor retentionClass overrides = .error .overflow := by
  unfold StoredJson.Fits at hfits
  push Not at hfits
  obtain ⟨count, husable, hgt⟩ := hfits
  unfold windowFor
  rw [hdays, husable]
  dsimp only
  unfold timedelta
  rw [if_pos hgt]
  rfl

/-- Where the window resolves, and to what. -/
theorem StoredJson.windowFor_eq_ok_iff {retentionClass : RetentionClass} {column : StoredJson}
    {window : RetentionWindow} : column.windowFor retentionClass = .ok window ↔
      column.Readable ∧ column.Fits retentionClass ∧ window = column.window retentionClass := by
  unfold StoredJson.windowFor
  by_cases hread : column.Readable
  · obtain ⟨overrides, hoverrides, hdays⟩ := overrides_of_readable hread
    rw [hoverrides]
    by_cases hfits : column.Fits retentionClass
    · have hwindow := windowFor_of_fits (hdays retentionClass) hfits
      show raising (Synthia.windowFor retentionClass overrides) = _ ↔ _
      rw [hwindow]
      constructor
      · intro h
        injection h with h
        exact ⟨hread, hfits, h.symm⟩
      · rintro ⟨_, _, rfl⟩
        rfl
    · have hwindow := windowFor_of_not_fits (hdays retentionClass) hfits
      show raising (Synthia.windowFor retentionClass overrides) = _ ↔ _
      rw [hwindow]
      constructor
      · intro h
        cases h
      · exact fun h => absurd h.2.1 hfits
  · rw [overrides_of_not_readable hread]
    constructor
    · intro h
      cases h
    · exact fun h => absurd h.1 hread

/-! ## The instants -/

theorem addDuration_eq_ok_iff {instant result : Instant} {duration : Duration} :
    addDuration instant duration = .ok result ↔
      instant + duration ≤ maxInstant ∧ result = instant + duration := by
  unfold addDuration
  split
  · next hgt =>
      constructor
      · intro h
        cases h
      · exact fun h => absurd h.1 (not_le.mpr hgt)
  · next hle =>
      constructor
      · intro h
        injection h with h
        exact ⟨not_lt.mp hle, h.symm⟩
      · rintro ⟨_, rfl⟩
        rfl

/-- Both instants are one addition behind the window. -/
theorem StoredJson.auditRetainUntil_eq (occurredAt : Instant) (column : StoredJson) :
    column.auditRetainUntil occurredAt =
      (column.windowFor .audit >>= fun window =>
        raising (addDuration occurredAt window.duration)) := by
  unfold StoredJson.auditRetainUntil StoredJson.windowFor
  cases column.overrides with
  | error e => rfl
  | ok overrides =>
      show raising (Synthia.auditRetainUntil occurredAt overrides) =
        (raising (Synthia.windowFor .audit overrides) >>= _)
      unfold Synthia.auditRetainUntil
      cases Synthia.windowFor .audit overrides <;> rfl

theorem StoredJson.contentExpiryFor_eq {state : SessionState} (h : state.isTerminal = true)
    (terminalAt : Instant) (column : StoredJson) :
    column.contentExpiryFor state terminalAt =
      (column.windowFor .chatContent >>= fun window =>
        raising (some <$> addDuration terminalAt window.duration)) := by
  unfold StoredJson.contentExpiryFor StoredJson.windowFor
  rw [if_neg (by rw [h]; decide)]
  cases column.overrides with
  | error e => rfl
  | ok overrides =>
      show raising (Synthia.contentExpiryFor state terminalAt overrides) =
        (raising (Synthia.windowFor .chatContent overrides) >>= _)
      unfold Synthia.contentExpiryFor
      rw [if_neg (by rw [h]; decide)]
      cases Synthia.windowFor .chatContent overrides with
      | error e => rfl
      | ok window =>
          show raising (addDuration terminalAt window.duration >>= fun expiresAt =>
              pure (some expiresAt)) =
            raising (some <$> addDuration terminalAt window.duration)
          cases addDuration terminalAt window.duration <;> rfl

theorem StoredJson.auditRetainUntil_eq_ok_iff {occurredAt result : Instant}
    {column : StoredJson} : column.auditRetainUntil occurredAt = .ok result ↔
      column.Readable ∧ column.Fits .audit ∧
        occurredAt + column.configured .audit ≤ maxInstant ∧
        result = occurredAt + column.configured .audit := by
  rw [auditRetainUntil_eq]
  constructor
  · intro h
    cases hwindow : column.windowFor .audit with
    | error e =>
        rw [hwindow] at h
        cases h
    | ok window =>
        obtain ⟨hread, hfits, rfl⟩ := windowFor_eq_ok_iff.mp hwindow
        rw [hwindow] at h
        cases hsum : addDuration occurredAt (column.window .audit).duration with
        | error e =>
            change raising (addDuration occurredAt (column.window .audit).duration) = _ at h
            rw [hsum] at h
            cases h
        | ok sum =>
            change raising (addDuration occurredAt (column.window .audit).duration) = _ at h
            rw [hsum] at h
            injection h with h
            exact ⟨hread, hfits, h ▸ addDuration_eq_ok_iff.mp hsum⟩
  · rintro ⟨hread, hfits, hle, rfl⟩
    rw [windowFor_eq_ok_iff.mpr ⟨hread, hfits, rfl⟩]
    show raising (addDuration occurredAt (column.configured .audit)) = _
    rw [addDuration_eq_ok_iff.mpr ⟨hle, rfl⟩]
    rfl

theorem StoredJson.contentExpiryFor_eq_ok_iff {state : SessionState}
    (hstate : state.isTerminal = true) {terminalAt : Instant} {result : Option Instant}
    {column : StoredJson} : column.contentExpiryFor state terminalAt = .ok result ↔
      column.Readable ∧ column.Fits .chatContent ∧
        terminalAt + column.configured .chatContent ≤ maxInstant ∧
        result = some (terminalAt + column.configured .chatContent) := by
  rw [contentExpiryFor_eq hstate]
  constructor
  · intro h
    cases hwindow : column.windowFor .chatContent with
    | error e =>
        rw [hwindow] at h
        cases h
    | ok window =>
        obtain ⟨hread, hfits, rfl⟩ := windowFor_eq_ok_iff.mp hwindow
        rw [hwindow] at h
        change raising (some <$> addDuration terminalAt (column.configured .chatContent)) = _ at h
        cases hsum : addDuration terminalAt (column.configured .chatContent) with
        | error e =>
            rw [hsum] at h
            cases h
        | ok sum =>
            rw [hsum] at h
            injection h with h
            obtain ⟨hle, rfl⟩ := addDuration_eq_ok_iff.mp hsum
            exact ⟨hread, hfits, hle, h.symm⟩
  · rintro ⟨hread, hfits, hle, rfl⟩
    rw [windowFor_eq_ok_iff.mpr ⟨hread, hfits, rfl⟩]
    show raising (some <$> addDuration terminalAt (column.configured .chatContent)) = _
    rw [addDuration_eq_ok_iff.mpr ⟨hle, rfl⟩]
    rfl

/-! ## Totality -/

/-- What the functions promise of a document and an instant: each returns, no window
is empty, and a class without usable days keeps its default. -/
structure RetentionTotal (column : StoredJson) (instant : Instant) : Prop where
  window : ∀ retentionClass, ∃ window, column.windowFor retentionClass = .ok window ∧
    0 < window.duration ∧
    (column.usableDays retentionClass = none →
      window = ⟨retentionClass, platformDefaults retentionClass, false⟩)
  expiry : ∀ state, ∃ expiresAt, column.contentExpiryFor state instant = .ok expiresAt ∧
    ∀ at', expiresAt = some at' → instant < at'
  retainUntil : ∃ until', column.auditRetainUntil instant = .ok until' ∧ instant < until'

/-- The document is none or an object, its days are days a duration holds, and neither
window runs past the last date. -/
structure RetentionInRange (column : StoredJson) (instant : Instant) : Prop where
  readable : column.Readable
  fits : ∀ retentionClass, column.Fits retentionClass
  content : instant + column.configured .chatContent ≤ maxInstant
  audit : instant + column.configured .audit ≤ maxInstant

/-- Retention resolves on exactly the documents and instants in range. -/
theorem retention_total_iff (column : StoredJson) (instant : Instant) :
    RetentionTotal column instant ↔ RetentionInRange column instant := by
  constructor
  · intro h
    obtain ⟨until', huntil, _⟩ := h.retainUntil
    obtain ⟨hread, _, haudit, _⟩ := StoredJson.auditRetainUntil_eq_ok_iff.mp huntil
    obtain ⟨expiresAt, hexpiry, _⟩ := h.expiry .resolved
    obtain ⟨_, _, hcontent, _⟩ := (StoredJson.contentExpiryFor_eq_ok_iff rfl).mp hexpiry
    refine ⟨hread, fun retentionClass => ?_, hcontent, haudit⟩
    obtain ⟨window, hwindow, _⟩ := h.window retentionClass
    exact (StoredJson.windowFor_eq_ok_iff.mp hwindow).2.1
  · intro h
    refine ⟨fun retentionClass => ?_, fun state => ?_, ?_⟩
    · refine ⟨column.window retentionClass,
        StoredJson.windowFor_eq_ok_iff.mpr ⟨h.readable, h.fits retentionClass, rfl⟩,
        column.configured_pos retentionClass, fun hnone => ?_⟩
      unfold StoredJson.window StoredJson.configured
      rw [hnone]
      rfl
    · cases hstate : state.isTerminal with
      | false =>
          refine ⟨none, ?_, fun at' hat => by cases hat⟩
          unfold StoredJson.contentExpiryFor
          rw [hstate]
          rfl
      | true =>
          refine ⟨_, (StoredJson.contentExpiryFor_eq_ok_iff hstate).mpr
            ⟨h.readable, h.fits .chatContent, h.content, rfl⟩, fun at' hat => ?_⟩
          injection hat with hat
          exact hat ▸ Int.lt_add_of_pos_right instant (column.configured_pos .chatContent)
    · exact ⟨_, StoredJson.auditRetainUntil_eq_ok_iff.mpr
        ⟨h.readable, h.fits .audit, h.audit, rfl⟩,
        Int.lt_add_of_pos_right instant (column.configured_pos .audit)⟩

/-- A thousand million days, as an organisation may configure them. -/
theorem long_override_raises :
    ¬ ∀ column instant, RetentionTotal column instant := by
  intro h
  obtain ⟨window, hwindow, _⟩ :=
    (h (.object [("chat_content", .int 1000000000)]) 0).window .chatContent
  obtain ⟨_, hfits, _⟩ := StoredJson.windowFor_eq_ok_iff.mp hwindow
  exact absurd (hfits 1000000000 rfl) (by decide)

end Synthia
