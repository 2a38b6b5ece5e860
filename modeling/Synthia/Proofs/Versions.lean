import Synthia.Lib.RowLock
import Synthia.Persistence.Sessions
import Synthia.Persistence.WorkItems

/-!
# No lost update

Every update of a versioned row goes through one of two helpers, and both add one
to its version. A guarded update also names the version its caller read, however
long ago that was, and wins only on it.

A run of any number of transactions is serial, so it is enough to follow the calls
that won one after the other: each starts at the version the one before it left.
That is the whole content of the theorem. The version counts the calls that won,
and a call that won had read the version its predecessor produced; one that had
read anything older lost, and a call that lost wrote nothing.
-/

namespace Synthia

open Relational

section Rows

variable {ρ κ : Type} {key : ρ → κ} [Versioned ρ key] {k : κ}

/-- A call on the row, where it reports a row. -/
def RowCall.act (table : Table ρ key) (call : RowCall ρ key k) : Option (Table ρ key) :=
  wrote (call.execute table)

variable [DecidableEq κ] {table last : Table ρ key} {row : ρ}

/-- One call: the version it was made with, and the version it leaves. -/
theorem RowCall.act_versions {call : RowCall ρ key k} (hrow : table.find k = some row)
    (hact : call.act table = some last) :
    (∃ written, last.find k = some written ∧
        Versioned.version key written = Versioned.version key row + 1) ∧
      ∀ expected, call.expectedVersion = some expected →
        expected = Versioned.version key row := by
  obtain ⟨hwon, rfl⟩ := wrote_eq_some.mp hact
  obtain ⟨found, written, hfound, hwritten, hversion, hexpected⟩ := RowCall.execute_won hwon
  rw [hrow] at hfound
  injection hfound with hfound
  subst hfound
  exact ⟨⟨written, hwritten, hversion⟩, hexpected⟩

/-- One call after the other: the version counts them. -/
theorem run_versions {calls : List (RowCall ρ key k)} (hrow : table.find k = some row)
    (hrun : Machine.run (fun table call => RowCall.act table call) table calls = some last) :
    ∃ written, last.find k = some written ∧
      Versioned.version key written = Versioned.version key row + calls.length := by
  induction calls generalizing table row with
  | nil =>
      injection hrun with hrun
      subst hrun
      exact ⟨row, hrow, by simp⟩
  | cons call calls ih =>
      obtain ⟨next, hact, hrest⟩ := Machine.run_cons.mp hrun
      obtain ⟨⟨written, hwritten, hversion⟩, _⟩ := RowCall.act_versions hrow hact
      obtain ⟨final, hfinal, hcount⟩ := ih hwritten hrest
      refine ⟨final, hfinal, ?_⟩
      rw [hcount, hversion, List.length_cons]
      push_cast
      omega

/-- A call between others was made with the version the ones before it left. -/
theorem run_expected {before after : List (RowCall ρ key k)} {call : RowCall ρ key k}
    {expected : Int} (hrow : table.find k = some row)
    (hrun : Machine.run (fun table call => RowCall.act table call) table
      (before ++ call :: after) = some last)
    (hexpected : call.expectedVersion = some expected) :
    expected = Versioned.version key row + before.length := by
  obtain ⟨middle, hbefore, hrest⟩ := Machine.run_append.mp hrun
  obtain ⟨next, hact, _⟩ := Machine.run_cons.mp hrest
  obtain ⟨found, hfound, hversion⟩ := run_versions hrow hbefore
  rw [(RowCall.act_versions hfound hact).2 expected hexpected, hversion]

end Rows

/-! ## The callers -/

theorem ChatSessionRow.scopedTo_pins {tenant : TenantContext} {sessionId : SessionId}
    (row : ChatSessionRow) (hrow : row.scopedTo tenant sessionId = true) :
    row.sessionId = sessionId :=
  (ChatSessionRow.scopedTo_iff.mp hrow).2

theorem WorkItemRow.scopedTo_pins {tenant : TenantContext} {workItemId : WorkItemId}
    (row : WorkItemRow) (hrow : row.scopedTo tenant workItemId = true) :
    row.workItemId = workItemId :=
  (WorkItemRow.scopedTo_iff.mp hrow).2

theorem WorkItemRow.claimable_pins {tenant : TenantContext} {workItemId : WorkItemId}
    {now : Instant} (row : WorkItemRow)
    (hrow : (row.scopedTo tenant workItemId && row.claimable now) = true) :
    row.workItemId = workItemId := by
  rw [Bool.and_eq_true] at hrow
  exact row.scopedTo_pins hrow.1

/-- `SessionRepository.transition`, as a call on its session's row. -/
def SessionRepository.transitionCall (tenant : TenantContext) (sessionId : SessionId)
    (state : SessionState) (expectedVersion : Int) (contentExpiresAt : Option Instant)
    (databaseNow : Instant) : RowCall ChatSessionRow ChatSessionRow.sessionId sessionId :=
  .guarded ⟨ChatSessionRow.scopedTo tenant sessionId, expectedVersion⟩
    ChatSessionRow.scopedTo_pins (ChatSessionRow.movedTo state contentExpiresAt) databaseNow

theorem SessionRepository.transitionCall_execute (table : SessionTable) (tenant : TenantContext)
    (sessionId : SessionId) (state : SessionState) (expectedVersion : Int)
    (contentExpiresAt : Option Instant) (databaseNow : Instant) :
    (transitionCall tenant sessionId state expectedVersion contentExpiresAt databaseNow).execute
        table =
      transition table tenant sessionId state expectedVersion contentExpiresAt databaseNow :=
  rfl

/-- `WorkItemRepository.transition`, as a call on its work item's row. -/
def WorkItemRepository.transitionCall (tenant : TenantContext) (workItemId : WorkItemId)
    (state : WorkItemState) (expectedVersion : Int) (databaseNow : Instant) :
    RowCall WorkItemRow WorkItemRow.workItemId workItemId :=
  .guarded ⟨WorkItemRow.scopedTo tenant workItemId, expectedVersion⟩
    WorkItemRow.scopedTo_pins (WorkItemRow.movedTo state) databaseNow

theorem WorkItemRepository.transitionCall_execute (table : WorkItemTable)
    (tenant : TenantContext) (workItemId : WorkItemId) (state : WorkItemState)
    (expectedVersion : Int) (databaseNow : Instant) :
    (transitionCall tenant workItemId state expectedVersion databaseNow).execute table =
      transition table tenant workItemId state expectedVersion databaseNow :=
  rfl

/-- The claim of a work item writes the same row. -/
def WorkItemRepository.claimCall (tenant : TenantContext) (workItemId : WorkItemId)
    (claimedBy : String) (now databaseNow : Instant) :
    RowCall WorkItemRow WorkItemRow.workItemId workItemId :=
  .claim (fun row => row.scopedTo tenant workItemId && row.claimable now)
    WorkItemRow.claimable_pins (WorkItemRow.takenBy claimedBy now) databaseNow

theorem WorkItemRepository.claimCall_execute (table : WorkItemTable) (tenant : TenantContext)
    (workItemId : WorkItemId) (claimedBy : String) (now databaseNow : Instant) :
    (claimCall tenant workItemId claimedBy now databaseNow).execute table =
      claim table tenant workItemId claimedBy now databaseNow :=
  rfl

/-- **No lost update.** Take a row of a versioned table and any interleaving of
the transactions of any number of readers and writers, whose calls may carry any
version and any changes. The row's version is the first one plus the number of
calls that won, of all that stand and of those that committed. A guarded call that
won had named the version left by the calls that won before it. A call that
answered false left the table it saw, the committed row and the pending one as
they were; and where the error for a stale version is raised, nothing was
written. -/
theorem no_lost_update {ρ κ : Type} {key : ρ → κ} [Versioned ρ key] [DecidableEq κ] {k : κ}
    {table : Table ρ key} {row : ρ} (hrow : table.find k = some row)
    {events : List (RowLock.Event TransactionId (RowCall ρ key k))}
    {world : RowLock.World (Table ρ key) TransactionId (RowCall ρ key k)}
    (hrun : Machine.run (RowLock.step RowCall.act) (RowLock.start table) events = some world) :
    (∃ current, world.current.find k = some current ∧
      Versioned.version key current =
        Versioned.version key row + world.calls.countP RowLock.Call.won) ∧
    (∃ committed, world.committed.find k = some committed ∧
      Versioned.version key committed =
        Versioned.version key row + world.settled.countP RowLock.Call.won) ∧
    (∀ before call after, world.calls = before ++ call :: after → call.won = true →
      ∀ expected, call.attempt.expectedVersion = some expected →
        expected = Versioned.version key row + before.countP RowLock.Call.won) ∧
    (∀ transaction attempt next,
      RowLock.step RowCall.act world (.call transaction attempt) = some next →
      next.opened = world.opened ++ [⟨transaction, attempt, false⟩] →
      (attempt.execute (world.seenBy transaction)).2 = world.seenBy transaction ∧
        next.committed = world.committed ∧ next.holder = world.holder) ∧
    ∀ (name : String) (version : Table ρ key) (target : VersionedRow ρ)
      (changes : Changes ρ key) (now : Instant) (error : ConcurrencyConflictError),
      (∀ r, target.identity r = true → key r = k) →
      (requireGuardedUpdate name version target changes now).1 = .error error →
      (requireGuardedUpdate name version target changes now).2 = version := by
  have hserial := RowLock.serial_run hrun
  refine ⟨?_, ?_, ?_, ?_, ?_⟩
  · rw [← RowLock.wins_length]
    exact run_versions hrow hserial.replays
  · rw [← RowLock.wins_length]
    exact run_versions hrow hserial.settles
  · intro before call after hcalls hwon expected hexpected
    have hreplays := hserial.replays
    rw [hcalls, RowLock.wins_split hwon] at hreplays
    rw [← RowLock.wins_length]
    exact run_expected hrow hreplays hexpected
  · intro transaction attempt next hstep hlost
    refine ⟨?_, RowLock.call_lost hstep hlost⟩
    rcases RowLock.call_cases (RowLock.step_cases hstep).2 with ⟨hrefused, _⟩ | ⟨_, _, _, hnext⟩
    · exact RowCall.execute_lost (wrote_eq_none.mp hrefused)
    · rw [hnext] at hlost
      injection List.append_cancel_left hlost with hanswer
      injection hanswer with _ _ hwon
      cases hwon
  · intro name version target changes now error hpins hraised
    exact (requireGuardedUpdate_raises hpins hraised).2

/-! ### Two writers on one read -/

def supportTenant : TenantContext := ⟨⟨1⟩, ⟨1⟩, .active, .endUserIdentity⟩

def openSession : ChatSessionRow := ⟨⟨2⟩, ⟨1⟩, ⟨7⟩, .conversational, none, 0, 1, 0⟩

def openSessions : SessionTable := ⟨[openSession], List.nodup_singleton _⟩

/-- Two moves of one session, both made with the version 1. -/
def racingMoves : List (RowLock.Event TransactionId
    (RowCall ChatSessionRow ChatSessionRow.sessionId ⟨2⟩)) :=
  [.read 1, .read 2,
    .call 1 (SessionRepository.transitionCall supportTenant ⟨2⟩ .resolving 1 none 10),
    .commit 1,
    .call 2 (SessionRepository.transitionCall supportTenant ⟨2⟩ .staffControlled 1 none 11),
    .commit 2]

/-- One of them is counted. -/
theorem racing_moves_count_one :
    ∃ world, Machine.run (RowLock.step RowCall.act) (RowLock.start openSessions) racingMoves =
        some world ∧
      ∃ current, world.current.find ⟨2⟩ = some current ∧ current.version = 1 + 1 := by
  refine ⟨_, rfl, ?_⟩
  have hfound : openSessions.find ⟨2⟩ = some openSession := by decide
  exact (no_lost_update hfound (show Machine.run (RowLock.step RowCall.act)
    (RowLock.start openSessions) racingMoves = some _ from rfl)).1

end Synthia
