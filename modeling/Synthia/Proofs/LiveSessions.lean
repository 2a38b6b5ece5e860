import Synthia.Lib.Machine
import Synthia.Persistence.Views
import Synthia.ReadModels.Sessions

/-!
# Which sessions the live list shows

Three places hold a part of what live means. The state machine says it of the state.
The read model says it of `closed_at`. The view says it of the content's expiry, by
hiding what is past it. The repository writes the state and the expiry, and nothing
writes `closed_at`, so the read model's condition is met by every row and what is left
is the view's.

A list that agrees with the states at every instant from now on is therefore a list of
rows whose expiry is in the past where the state is terminal, and absent where it is
not. That is an invariant of exactly those runs whose every transition leaves its row
so; and since an expiry once written is never taken back, it also keeps a session that
ended from being listed again.
-/

namespace Synthia

open Relational

/-! ## Histories of sessions -/

inductive SessionStatement where
  | create (sessionId : SessionId) (tenantId : TenantId) (requesterOid : PrincipalId)
      (caseReference : Option String)
  | transition (tenant : TenantContext) (sessionId : SessionId) (state : SessionState)
      (expectedVersion : Int) (contentExpiresAt : Option Instant)
  deriving DecidableEq

/-- A statement, and how long after the one before it. -/
structure SessionCall where
  after : Nat
  statement : SessionStatement
  deriving DecidableEq

structure SessionHistory where
  sessions : SessionRecordTable
  clock : Instant

namespace SessionHistory

/-- No session yet. -/
def start : SessionHistory := ⟨⟨[], List.nodup_nil⟩, 0⟩

/-- An `INSERT` under an identifier in use raises and writes nothing. -/
def create (sessions : SessionRecordTable) (row : SessionRecord) : SessionRecordTable :=
  if hfresh : row.sessionId ∈ sessions.rows.map fun row => row.sessionId then sessions
  else sessions.insert row hfresh

def execute (sessions : SessionRecordTable) (now : Instant) :
    SessionStatement → SessionRecordTable
  | .create sessionId tenantId requesterOid caseReference =>
      create sessions (.created sessionId tenantId requesterOid caseReference now)
  | .transition tenant sessionId state expectedVersion contentExpiresAt =>
      (sessions.transition tenant sessionId state expectedVersion contentExpiresAt now).2

def step (history : SessionHistory) (call : SessionCall) : Option SessionHistory :=
  some ⟨execute history.sessions (history.clock + call.after) call.statement,
    history.clock + call.after⟩

end SessionHistory

/-! ## What the staff read model pages over -/

/-- The rows under `ListLiveAsync` without filters, in the context of the staff audience. -/
def liveRows (others : ReadDatabase) (sessions : SessionRecordTable) (now : Instant) :
    List PublishedViews.SessionSummaryRow :=
  SessionReadModel.liveQuery none none (SynthiaReadContext.sessionSummaries
    ⟨{ others with sessionSummaries := vwSessionSummaryV1 sessions now }, .operatorWide⟩).answer

/-- The list is the sessions whose state is not terminal, whenever it is read next. -/
def SessionHistory.LiveListExact (history : SessionHistory) : Prop :=
  ∀ others now, history.clock ≤ now →
    liveRows others history.sessions now =
      (history.sessions.rows.filter fun row => !row.state.isTerminal).map SessionRecord.summary

/-- Along the calls the list is exact, and a session that ended is not listed again. -/
def LiveListKept (calls : List SessionCall) : Prop :=
  (∀ before after history, calls = before ++ after →
    Machine.run SessionHistory.step .start before = some history → history.LiveListExact) ∧
  ∀ before between after earlier later, calls = before ++ (between ++ after) →
    Machine.run SessionHistory.step .start before = some earlier →
    Machine.run SessionHistory.step earlier between = some later →
    ∀ session ∈ earlier.sessions.rows, session.state.isTerminal = true →
      ∀ others now, later.clock ≤ now →
        ∀ row ∈ liveRows others later.sessions now, row.sessionId ≠ session.sessionId.value

/-- The expiry is past where the state is terminal, and absent where it is not. -/
def StampFits (now : Instant) (state : SessionState) (contentExpiresAt : Option Instant) :
    Prop :=
  if state.isTerminal then ∃ expiresAt, contentExpiresAt = some expiresAt ∧ expiresAt ≤ now
  else contentExpiresAt = none

/-- A transition that finds its row leaves on it an expiry that fits its state. -/
def SessionCall.Fits (history : SessionHistory) (call : SessionCall) : Prop :=
  match call.statement with
  | .create _ _ _ _ => True
  | .transition tenant sessionId state expectedVersion contentExpiresAt =>
      ∀ row ∈ history.sessions.rows, row.scopedTo tenant sessionId = true →
        row.version = expectedVersion →
        StampFits (history.clock + call.after) state (contentExpiresAt.or row.contentExpiresAt)

theorem stampFits_terminal {now : Instant} {state : SessionState}
    {contentExpiresAt : Option Instant} (h : state.isTerminal = true) :
    StampFits now state contentExpiresAt ↔
      ∃ expiresAt, contentExpiresAt = some expiresAt ∧ expiresAt ≤ now := by
  rw [StampFits, if_pos h]

theorem stampFits_live {now : Instant} {state : SessionState}
    {contentExpiresAt : Option Instant} (h : state.isTerminal = false) :
    StampFits now state contentExpiresAt ↔ contentExpiresAt = none := by
  rw [StampFits, if_neg (by rw [h]; exact Bool.false_ne_true)]

theorem StampFits.later {now later : Instant} {state : SessionState}
    {contentExpiresAt : Option Instant} (h : StampFits now state contentExpiresAt)
    (hle : now ≤ later) : StampFits later state contentExpiresAt := by
  cases hstate : state.isTerminal with
  | true =>
      rw [stampFits_terminal hstate] at h ⊢
      obtain ⟨expiresAt, hsome, hpast⟩ := h
      exact ⟨expiresAt, hsome, hpast.trans hle⟩
  | false =>
      rw [stampFits_live hstate] at h ⊢
      exact h

/-! ## The list and the stamps -/

section Rows

variable {sessions : SessionRecordTable} {now : Instant} {row : SessionRecord}

/-- The staff audience's filter lets every row through. -/
theorem sessionSummaries_operatorWide (database : ReadDatabase) :
    (SynthiaReadContext.sessionSummaries ⟨database, .operatorWide⟩).answer =
      database.sessionSummaries.rows := by
  show database.sessionSummaries.rows.filter _ = _
  refine List.filter_eq_self.mpr fun row _ => ?_
  exact Bool.or_true _

theorem liveRows_eq (others : ReadDatabase) :
    liveRows others sessions now =
      ((sessions.rows.filter fun row => row.retained now).map SessionRecord.summary).filter
        fun row => row.closedAt.isNone := by
  unfold liveRows
  rw [sessionSummaries_operatorWide]
  rfl

/-- A row's summary is listed when the row is open and kept by the view. -/
theorem summary_mem_liveRows (others : ReadDatabase) (hrow : row ∈ sessions.rows) :
    row.summary ∈ liveRows others sessions now ↔
      row.retained now = true ∧ row.closedAt = none := by
  rw [liveRows_eq, List.mem_filter]
  constructor
  · intro h
    obtain ⟨hmem, hopen⟩ := h
    obtain ⟨found, hfound, hsummary⟩ := List.mem_map.mp hmem
    obtain ⟨hfound, hretained⟩ := List.mem_filter.mp hfound
    have hid : found.sessionId = row.sessionId :=
      congrArg SessionId.mk (congrArg PublishedViews.SessionSummaryRow.sessionId hsummary)
    rw [sessions.eq_of_key hfound hrow hid] at hretained
    refine ⟨hretained, ?_⟩
    rwa [SessionRecord.summary, Option.isNone_map, Option.isNone_iff_eq_none] at hopen
  · intro h
    obtain ⟨hretained, hopen⟩ := h
    refine ⟨List.mem_map.mpr ⟨row, List.mem_filter.mpr ⟨hrow, hretained⟩, rfl⟩, ?_⟩
    rw [SessionRecord.summary, hopen]
    rfl

end Rows

/-- Nothing closes a session, and its expiry fits its state. -/
structure SessionHistory.Stamped (history : SessionHistory) : Prop where
  unclosed : ∀ row ∈ history.sessions.rows, row.closedAt = none
  fits : ∀ row ∈ history.sessions.rows,
    StampFits history.clock row.state row.contentExpiresAt

theorem SessionRecord.retained_of_fits {clock now : Instant} {row : SessionRecord}
    (h : StampFits clock row.state row.contentExpiresAt) (hle : clock ≤ now) :
    row.retained now = !row.state.isTerminal := by
  cases hstate : row.state.isTerminal with
  | true =>
      obtain ⟨expiresAt, hsome, hpast⟩ := (stampFits_terminal hstate).mp h
      rw [ChatSessionRow.retained, hsome, Option.all_some]
      exact decide_eq_false (not_lt.mpr (hpast.trans hle))
  | false =>
      rw [ChatSessionRow.retained, (stampFits_live hstate).mp h]
      rfl

/-- A row that is shown exactly while it is live, at every instant from the clock on,
has an expiry that fits. -/
theorem SessionRecord.fits_of_retained {clock : Instant} {row : SessionRecord}
    (h : ∀ now, clock ≤ now → row.retained now = !row.state.isTerminal) :
    StampFits clock row.state row.contentExpiresAt := by
  cases hstate : row.state.isTerminal with
  | true =>
      rw [stampFits_terminal hstate]
      have hhidden := h clock le_rfl
      rw [hstate, ChatSessionRow.retained, Bool.not_true, Option.all_eq_false] at hhidden
      obtain ⟨expiresAt, hsome, hpast⟩ := hhidden
      exact ⟨expiresAt, hsome, not_lt.mp (of_decide_eq_false hpast)⟩
  | false =>
      rw [stampFits_live hstate]
      cases hstamp : row.contentExpiresAt with
      | none => rfl
      | some expiresAt =>
          -- the view hides the row once the expiry is past, and it is still live then
          have hshown := h (max clock expiresAt) (le_max_left _ _)
          rw [hstate, ChatSessionRow.retained, hstamp, Option.all_some, Bool.not_false,
            decide_eq_true_eq] at hshown
          exact absurd (le_max_right clock expiresAt) (not_le.mpr hshown)

namespace SessionHistory

variable {history : SessionHistory}

theorem Stamped.liveListExact (h : history.Stamped) : history.LiveListExact := by
  intro others now hle
  rw [liveRows_eq]
  have hkept : (history.sessions.rows.filter fun row => row.retained now) =
      history.sessions.rows.filter fun row => !row.state.isTerminal := by
    refine List.filter_congr fun row hrow => ?_
    exact SessionRecord.retained_of_fits (h.fits row hrow) hle
  rw [hkept, List.filter_eq_self]
  intro summary hsummary
  obtain ⟨row, hrow, rfl⟩ := List.mem_map.mp hsummary
  rw [SessionRecord.summary, h.unclosed row (List.mem_filter.mp hrow).1]
  rfl

theorem stamped_of_liveListExact (hopen : ∀ row ∈ history.sessions.rows, row.closedAt = none)
    (others : ReadDatabase) (h : history.LiveListExact) : history.Stamped := by
  refine ⟨hopen, fun row hrow => SessionRecord.fits_of_retained fun now hle => ?_⟩
  rw [Bool.eq_iff_iff]
  have hlisted : row.summary ∈ liveRows others history.sessions now ↔
      row.retained now = true ∧ row.closedAt = none := summary_mem_liveRows others hrow
  rw [h others now hle] at hlisted
  constructor
  · intro hretained
    obtain ⟨found, hfound, hsummary⟩ := List.mem_map.mp (hlisted.mpr ⟨hretained, hopen row hrow⟩)
    obtain ⟨hfound, hlive⟩ := List.mem_filter.mp hfound
    have hid : found.sessionId = row.sessionId :=
      congrArg SessionId.mk (congrArg PublishedViews.SessionSummaryRow.sessionId hsummary)
    rwa [history.sessions.eq_of_key hfound hrow hid] at hlive
  · intro hlive
    exact (hlisted.mp (List.mem_map.mpr ⟨row, List.mem_filter.mpr ⟨hrow, hlive⟩, rfl⟩)).1

/-! ## One call -/

/-- What a call leaves: a row that was there, a new one, or the moved one. -/
theorem mem_execute {now : Instant} {statement : SessionStatement} {row : SessionRecord}
    (h : row ∈ (execute history.sessions now statement).rows) :
    row ∈ history.sessions.rows ∨
    (∃ sessionId tenantId requesterOid caseReference,
      row = .created sessionId tenantId requesterOid caseReference now) ∨
    ∃ tenant sessionId state expectedVersion contentExpiresAt,
      statement = .transition tenant sessionId state expectedVersion contentExpiresAt ∧
      ∃ old ∈ history.sessions.rows, old.scopedTo tenant sessionId = true ∧
        old.version = expectedVersion ∧
        row = ((SessionRecord.movedTo state contentExpiresAt).managed now).apply old := by
  cases statement with
  | create sessionId tenantId requesterOid caseReference =>
      rw [execute, create] at h
      split at h
      · exact Or.inl h
      · rcases List.mem_append.mp h with hold | hnew
        · exact Or.inl hold
        · exact Or.inr (Or.inl ⟨sessionId, tenantId, requesterOid, caseReference,
            List.mem_singleton.mp hnew⟩)
  | transition tenant sessionId state expectedVersion contentExpiresAt =>
      obtain ⟨old, hold, hrow⟩ := mem_guardedUpdate.mp h
      split at hrow
      · next hhit =>
          rw [Bool.and_eq_true, beq_iff_eq] at hhit
          exact Or.inr (Or.inr ⟨tenant, sessionId, state, expectedVersion, contentExpiresAt,
            rfl, old, hold, hhit.1, hhit.2, hrow⟩)
      · rw [hrow]
        exact Or.inl hold

theorem unclosed_step {call : SessionCall} {next : SessionHistory}
    (h : ∀ row ∈ history.sessions.rows, row.closedAt = none)
    (hnext : history.step call = some next) :
    ∀ row ∈ next.sessions.rows, row.closedAt = none := by
  injection hnext with hnext
  subst hnext
  intro row hrow
  rcases mem_execute hrow with hold | ⟨_, _, _, _, rfl⟩ | ⟨_, _, _, _, _, _, old, hold, _, _, rfl⟩
  · exact h row hold
  · rfl
  · exact h old hold

theorem Stamped.step {call : SessionCall} {next : SessionHistory} (h : history.Stamped)
    (hfits : call.Fits history) (hnext : history.step call = some next) : next.Stamped := by
  refine ⟨unclosed_step h.unclosed hnext, ?_⟩
  injection hnext with hnext
  subst hnext
  intro row hrow
  rcases mem_execute hrow with
    hold | ⟨_, _, _, _, rfl⟩ |
      ⟨tenant, sessionId, state, expectedVersion, contentExpiresAt, hcall, old, hold, hscoped,
        hversion, rfl⟩
  · exact (h.fits row hold).later (Int.le_add_of_nonneg_right (Int.natCast_nonneg _))
  · rfl
  · rw [SessionCall.Fits, hcall] at hfits
    exact hfits old hold hscoped hversion

/-- A call the history remains stamped after is one that fits. -/
theorem fits_of_stamped {call : SessionCall} {next : SessionHistory}
    (h : next.Stamped) (hnext : history.step call = some next) : call.Fits history := by
  injection hnext with hnext
  subst hnext
  obtain ⟨after, statement⟩ := call
  cases statement with
  | create sessionId tenantId requesterOid caseReference => trivial
  | transition tenant sessionId state expectedVersion contentExpiresAt =>
      intro row hrow hscoped hversion
      refine h.fits (((SessionRecord.movedTo state contentExpiresAt).managed
        (history.clock + after)).apply row) (mem_guardedUpdate.mpr ⟨row, hrow, ?_⟩)
      rw [if_pos]
      rw [Bool.and_eq_true, beq_iff_eq]
      exact ⟨hscoped, hversion⟩

/-- The session was there and has ended. -/
def Ended (sessionId : SessionId) (history : SessionHistory) : Prop :=
  ∃ row ∈ history.sessions.rows, row.sessionId = sessionId ∧ row.state.isTerminal = true

/-- An expiry once written stays, so a call that fits does not move an ended session to
a state that is not terminal. -/
theorem Ended.step {sessionId : SessionId} {call : SessionCall} {next : SessionHistory}
    (h : Ended sessionId history) (hstamped : history.Stamped) (hfits : call.Fits history)
    (hnext : history.step call = some next) : Ended sessionId next := by
  injection hnext with hnext
  subst hnext
  obtain ⟨row, hrow, hid, hterminal⟩ := h
  obtain ⟨after, statement⟩ := call
  cases statement with
  | create sessionId tenantId requesterOid caseReference =>
      refine ⟨row, ?_, hid, hterminal⟩
      show row ∈ (create _ _).rows
      unfold create
      split
      · exact hrow
      · exact List.mem_append_left _ hrow
  | transition tenant target state expectedVersion contentExpiresAt =>
      refine ⟨_, mem_guardedUpdate.mpr ⟨row, hrow, rfl⟩, ?_⟩
      split
      · next hhit =>
          rw [Bool.and_eq_true, beq_iff_eq] at hhit
          refine ⟨hid, ?_⟩
          have hleft := hfits row hrow hhit.1 hhit.2
          obtain ⟨expiresAt, hsome, _⟩ := (stampFits_terminal hterminal).mp (hstamped.fits row hrow)
          show state.isTerminal = true
          rw [hsome] at hleft
          cases hstate : state.isTerminal with
          | true => rfl
          | false =>
              rw [stampFits_live hstate] at hleft
              cases contentExpiresAt with
              | none => cases hleft
              | some given => cases hleft
      · exact ⟨hid, hterminal⟩

theorem Stamped.start : SessionHistory.start.Stamped :=
  ⟨fun _ h => absurd h List.not_mem_nil, fun _ h => absurd h List.not_mem_nil⟩

theorem Stamped.run {calls : List SessionCall} {last : SessionHistory} (h : history.Stamped)
    (hrun : Machine.run SessionHistory.step history calls = some last)
    (hgood : Machine.Along SessionHistory.step (fun history call => call.Fits history) history
      calls) : last.Stamped :=
  Machine.invariant_along (fun _ _ _ hinv hfits hnext => hinv.step hfits hnext) h hrun hgood

theorem unclosed_run {calls : List SessionCall} {last : SessionHistory}
    (h : ∀ row ∈ history.sessions.rows, row.closedAt = none)
    (hrun : Machine.run SessionHistory.step history calls = some last) :
    ∀ row ∈ last.sessions.rows, row.closedAt = none :=
  Machine.invariant_run (fun _ _ _ hinv hnext => unclosed_step hinv hnext) h hrun

theorem Ended.run {sessionId : SessionId} {calls : List SessionCall} {last : SessionHistory}
    (h : Ended sessionId history) (hstamped : history.Stamped)
    (hrun : Machine.run SessionHistory.step history calls = some last)
    (hgood : Machine.Along SessionHistory.step (fun history call => call.Fits history) history
      calls) : Ended sessionId last := by
  have hstep : ∀ current call next, current.Stamped ∧ Ended sessionId current →
      call.Fits current → SessionHistory.step current call = some next →
      next.Stamped ∧ Ended sessionId next :=
    fun _ _ _ hinv hfits hnext => ⟨hinv.1.step hfits hnext, hinv.2.step hinv.1 hfits hnext⟩
  exact (Machine.invariant_along hstep ⟨hstamped, h⟩ hrun hgood).2

end SessionHistory

/-! ## Whole histories -/

/-- Views with nothing in them. -/
def ReadDatabase.empty : ReadDatabase where
  sessionSummaries := ⟨[], List.nodup_nil⟩
  sessionMessages := ⟨[], List.nodup_nil⟩
  sessionSteps := ⟨[], List.nodup_nil⟩
  messageFeedback := ⟨[], List.nodup_nil⟩
  tenants := ⟨[], List.nodup_nil⟩

/-- **The live list.** It shows the sessions that have not ended, along a history and for
as long as nothing more happens, exactly in the histories whose every transition into a
terminal state leaves an expiry already past, and whose every other transition leaves
none. -/
theorem live_list_kept_iff (calls : List SessionCall) :
    LiveListKept calls ↔
      Machine.Along SessionHistory.step (fun history call => call.Fits history) .start calls := by
  constructor
  · intro h
    refine Machine.along_of_forall fun before call after middle hsplit hrun => ?_
    have hnext : ∃ next, middle.step call = some next := ⟨_, rfl⟩
    obtain ⟨next, hnext⟩ := hnext
    have hreached : Machine.run SessionHistory.step .start (before ++ [call]) = some next :=
      Machine.run_append.mpr ⟨middle, hrun, Machine.run_cons.mpr ⟨next, hnext, rfl⟩⟩
    have hexact := h.1 (before ++ [call]) after next (by simpa using hsplit) hreached
    have hopen := SessionHistory.unclosed_run
      (fun _ hrow => absurd hrow List.not_mem_nil) hreached
    exact SessionHistory.fits_of_stamped
      (SessionHistory.stamped_of_liveListExact hopen .empty hexact) hnext
  · intro hgood
    constructor
    · intro before after history hsplit hrun
      rw [hsplit] at hgood
      exact (SessionHistory.Stamped.start.run hrun (Machine.along_before hgood)).liveListExact
    · intro before between after earlier later hsplit hfirst hsecond session hsession
        hterminal others now hle row hrow hid
      rw [hsplit, ← List.append_assoc] at hgood
      have hreached := Machine.along_before hgood
      have hearlier := SessionHistory.Stamped.start.run hfirst (Machine.along_before hreached)
      have hlater := SessionHistory.Stamped.start.run
        (Machine.run_append.mpr ⟨earlier, hfirst, hsecond⟩) hreached
      obtain ⟨ended, hended, hsame, hstate⟩ :=
        SessionHistory.Ended.run ⟨session, hsession, rfl, hterminal⟩ hearlier hsecond
          (Machine.along_after hreached hfirst)
      -- the row listed is a live session's, and there is only one under the identifier
      rw [hlater.liveListExact others now hle] at hrow
      obtain ⟨listed, hlisted, rfl⟩ := List.mem_map.mp hrow
      obtain ⟨hlisted, hlive⟩ := List.mem_filter.mp hlisted
      have hkey : listed.sessionId = ended.sessionId :=
        (congrArg SessionId.mk hid).trans hsame.symm
      rw [later.sessions.eq_of_key hlisted hended hkey, hstate] at hlive
      cases hlive

namespace SampleSession

def tenant : TenantContext := ⟨⟨1⟩, ⟨2⟩, .active, .endUserIdentity⟩

/-- A session is opened and resolved, its content to be kept for ninety days. -/
def calls : List SessionCall :=
  [⟨0, .create ⟨7⟩ ⟨1⟩ ⟨5⟩ none⟩,
    ⟨60000000, .transition tenant ⟨7⟩ .resolved 1 (some 7776000000000)⟩]

/-- It is listed as live all the same. -/
theorem resolved_session_listed : ¬ LiveListKept calls := by
  intro h
  have hnot := h.2 calls [] [] _ _ rfl rfl rfl
    ⟨⟨⟨7⟩, ⟨1⟩, ⟨5⟩, .resolved, some 7776000000000, 0, 2, 60000000⟩, none, none⟩
    (by decide) rfl .empty 60000000 le_rfl
    ⟨7, 1, 5, .resolved, none, .ofInstant 0, .ofInstant 60000000, none⟩
    (by rw [liveRows_eq]; exact List.mem_singleton.mpr rfl)
  exact hnot rfl

end SampleSession

end Synthia
