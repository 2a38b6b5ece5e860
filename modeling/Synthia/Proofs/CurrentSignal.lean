import Mathlib.Data.List.Induction
import Synthia.Persistence.Feedback

/-!
# One current signal

Any number of givers record and withdraw, in transactions that interleave as they like.
The row of a giver on a message is the work of that giver's calls on that message alone,
one after the other in the order of the commits. So what stands is what the last of
them left that wrote.

A record by the owner of the message writes. A withdrawal writes where its transaction
sees a signal. One that runs while the first record is not committed sees none, returns,
and the record stands when it commits, whichever of the two commits last.
-/

namespace Synthia

open Relational RowLock

/-- A `feedback` table in use, row by row. -/
abbrev FeedbackStore (τ : Type) := Rows (MessageId × PrincipalId) (Option SignalRow) τ FeedbackCall

namespace FeedbackStore

variable {τ : Type} [DecidableEq τ]

def step (messages : MessageTable) (sessions : SessionTable) (store : FeedbackStore τ)
    (event : Event τ FeedbackCall) : Option (FeedbackStore τ) :=
  Rows.step (FeedbackCall.act messages sessions) FeedbackCall.giver store event

def start : FeedbackStore τ := Rows.start fun _ => none

/-- The run of any calls, from a table without signals. -/
def Reaches (messages : MessageTable) (sessions : SessionTable)
    (events : List (Event τ FeedbackCall)) (store : FeedbackStore τ) : Prop :=
  Machine.run (step messages sessions) start events = some store

omit [DecidableEq τ] in
/-- A row that is there for everyone to see. -/
def Stands (store : FeedbackStore τ) (row : SignalRow) : Prop :=
  ∃ giver, (store.row giver).committed = some row

end FeedbackStore

/-- The message is one the agent sent, in a session that the giver owns in the tenant of
the signal. -/
def SignalRow.Owned (messages : MessageTable) (sessions : SessionTable) (row : SignalRow) :
    Prop :=
  ∃ message ∈ messages.rows, ∃ session ∈ sessions.rows,
    message.messageId = row.messageId ∧ message.senderKind = .agent ∧
      message.tenantId = row.tenantId ∧ message.sessionId = row.sessionId ∧
        session.sessionId = row.sessionId ∧ session.tenantId = row.tenantId ∧
          session.requesterOid = row.givenByOid

namespace FeedbackCall

/-- The signal a call is to leave. -/
def leaves : FeedbackCall → Option FeedbackSignal
  | .record _ _ _ signal _ => some signal
  | .withdraw _ _ _ => none

/-- What is left by calls made one after the other. -/
def lastSignal (calls : List FeedbackCall) : Option FeedbackSignal :=
  calls.getLast?.bind leaves

/-- Whether a call has anything to write, with the row its transaction sees. -/
def writes (messages : MessageTable) (sessions : SessionTable) (seen : Option SignalRow)
    (call : FeedbackCall) : Bool :=
  (call.owned messages sessions).isSome &&
    match call with
    | .record _ _ _ _ _ => true
    | .withdraw _ _ _ => seen.isSome

end FeedbackCall

/-! ## One call -/

section Calls

open FeedbackRepository

variable {messages : MessageTable} {sessions : SessionTable} {call : FeedbackCall}
  {found written : Option SignalRow} {giver : MessageId × PrincipalId}

theorem ownedMessage_some {tenant : TenantContext} {messageId : MessageId}
    {givenBy : PrincipalId} {message : AuthoredMessage}
    (h : ownedMessage messages sessions tenant messageId givenBy = some message) :
    message ∈ messages.rows ∧ message.tenantId = tenant.tenantId ∧
      message.messageId = messageId ∧ message.senderKind = .agent ∧
        ∃ session ∈ sessions.rows, session.tenantId = tenant.tenantId ∧
          session.sessionId = message.sessionId ∧ session.requesterOid = givenBy := by
  obtain ⟨hfound, hsession⟩ := Option.filter_eq_some_iff.mp h
  obtain ⟨session, hsession⟩ := Option.isSome_iff_exists.mp hsession
  have hmessage := List.find?_some hfound
  have hrequested := List.find?_some hsession
  simp only [agentAuthored, Bool.and_eq_true, beq_iff_eq] at hmessage
  simp only [requestedBy, Bool.and_eq_true, beq_iff_eq] at hrequested
  exact ⟨List.mem_of_find?_eq_some hfound, hmessage.1.1, hmessage.1.2, hmessage.2, session,
    List.mem_of_find?_eq_some hsession, hrequested.1.1, hrequested.1.2, hrequested.2⟩

/-- The row belongs where it is, and to a giver who may have one. -/
def Held (messages : MessageTable) (sessions : SessionTable) (giver : MessageId × PrincipalId)
    (found : Option SignalRow) : Prop :=
  ∀ row, found = some row → row.giver = giver ∧ row.Owned messages sessions

theorem act_held (hheld : Held messages sessions giver found) (hgiver : call.giver = giver)
    (hact : call.act messages sessions found = some written) :
    Held messages sessions giver written := by
  intro row hrow
  subst hrow
  cases call with
  | withdraw tenant messageId givenBy =>
      obtain ⟨_, _, hact⟩ := Option.bind_eq_some_iff.mp hact
      split at hact
      · cases hact
      · cases hact
  | record tenant messageId givenBy signal feedbackId =>
      obtain ⟨message, howned, hact⟩ := Option.map_eq_some_iff.mp hact
      injection hact with hact
      subst hact
      cases found with
      | some old => exact hheld old rfl
      | none =>
          obtain ⟨hmessage, htenant, hid, hagent, session, hsession, hin, hof, hby⟩ :=
            ownedMessage_some howned
          exact ⟨hgiver, message, hmessage, session, hsession, hid, hagent, htenant, rfl, hof,
            hin, hby⟩

theorem act_signal (hact : call.act messages sessions found = some written) :
    written.map SignalRow.signal = call.leaves := by
  cases call with
  | withdraw tenant messageId givenBy =>
      obtain ⟨_, _, hact⟩ := Option.bind_eq_some_iff.mp hact
      split at hact
      · injection hact with hact
        rw [← hact]
        rfl
      · cases hact
  | record tenant messageId givenBy signal feedbackId =>
      obtain ⟨message, _, hact⟩ := Option.map_eq_some_iff.mp hact
      rw [← hact]
      cases found <;> rfl

/-- A row of the giver's on an owned message is the tenant's. -/
theorem held_withdrawn {tenant : TenantContext} {messageId : MessageId} {givenBy : PrincipalId}
    {message : AuthoredMessage} {row : SignalRow}
    (hheld : Held messages sessions (messageId, givenBy) (some row))
    (howned : ownedMessage messages sessions tenant messageId givenBy = some message) :
    withdrawn tenant messageId givenBy row = true := by
  obtain ⟨hgiver, other, hother, _, _, hsame, _, hin, _⟩ := hheld row rfl
  obtain ⟨hmessage, htenant, hid, _⟩ := ownedMessage_some howned
  have hrow : row.messageId = messageId := congrArg Prod.fst hgiver
  have hone : other = message :=
    messages.eq_of_key hother hmessage (hsame.trans (hrow.trans hid.symm))
  unfold withdrawn
  rw [givenFor_iff.mpr hgiver, Bool.and_true, beq_iff_eq, ← hin, hone, htenant]

/-- A call writes where it has something to write. -/
theorem act_isSome (hheld : Held messages sessions call.giver found) :
    (call.act messages sessions found).isSome = call.writes messages sessions found := by
  cases call with
  | record tenant messageId givenBy signal feedbackId =>
      simp [FeedbackCall.act, FeedbackCall.writes, FeedbackCall.owned]
  | withdraw tenant messageId givenBy =>
      simp only [FeedbackCall.act, FeedbackCall.writes, FeedbackCall.owned]
      cases howned : ownedMessage messages sessions tenant messageId givenBy with
      | none => rfl
      | some message =>
          cases found with
          | none => rfl
          | some row =>
              rw [Option.bind_some, Option.any_some, held_withdrawn hheld howned]
              rfl

end Calls

/-! ## One call after the other -/

section Runs

variable {messages : MessageTable} {sessions : SessionTable} {giver : MessageId × PrincipalId}
  {calls : List FeedbackCall} {found last : Option SignalRow}

theorem run_held (hheld : Held messages sessions giver found)
    (hcalls : ∀ call ∈ calls, call.giver = giver)
    (hrun : Machine.run (FeedbackCall.act messages sessions) found calls = some last) :
    Held messages sessions giver last := by
  refine Machine.invariant_along (fun _ _ _ hheld hgiver hact => act_held hheld hgiver hact) hheld
    hrun (Machine.along_of_forall ?_)
  intro before call after middle hsplit _
  exact hcalls call (hsplit ▸ List.mem_append_right before List.mem_cons_self)

theorem run_lastSignal
    (hrun : Machine.run (FeedbackCall.act messages sessions) none calls = some last) :
    last.map SignalRow.signal = FeedbackCall.lastSignal calls := by
  induction calls using List.reverseRecOn with
  | nil =>
      injection hrun with hrun
      subst hrun
      rfl
  | append_singleton before call _ =>
      obtain ⟨middle, _, hlast⟩ := Machine.run_append.mp hrun
      obtain ⟨next, hact, hnext⟩ := Machine.run_cons.mp hlast
      injection hnext with hnext
      subst hnext
      unfold FeedbackCall.lastSignal
      rw [List.getLast?_concat, Option.bind_some]
      exact act_signal hact

end Runs

/-! ## Calls side by side -/

section Interleaved

variable {τ : Type} [DecidableEq τ] {messages : MessageTable} {sessions : SessionTable}
  {events : List (Event τ FeedbackCall)} {store next : FeedbackStore τ}
  {giver : MessageId × PrincipalId} {row : SignalRow}

theorem reaches_held (h : FeedbackStore.Reaches messages sessions events store)
    (giver : MessageId × PrincipalId) :
    Held messages sessions giver (store.row giver).committed ∧
      Held messages sessions giver (store.row giver).current := by
  have hserial := Rows.serial_run h giver
  have hfiled := Rows.filed_run h giver
  have hnone : Held messages sessions giver none := fun _ hrow => nomatch hrow
  constructor
  · refine run_held hnone (fun call hcall => ?_) hserial.settles
    obtain ⟨made, hmade, _, rfl⟩ := mem_wins.mp hcall
    exact hfiled made (List.mem_append_left _ hmade)
  · refine run_held hnone (fun call hcall => ?_) hserial.replays
    obtain ⟨made, hmade, _, rfl⟩ := mem_wins.mp hcall
    exact hfiled made hmade

/-- What a statement sees is committed or its own. -/
theorem reaches_seen (h : FeedbackStore.Reaches messages sessions events store)
    (giver : MessageId × PrincipalId) (transaction : τ) :
    Held messages sessions giver ((store.row giver).seenBy transaction) := by
  obtain ⟨hcommitted, hcurrent⟩ := reaches_held h giver
  unfold World.current at hcurrent
  unfold World.seenBy
  split
  · next holder pending hholder =>
      rw [hholder] at hcurrent
      split
      · exact hcurrent
      · exact hcommitted
  · exact hcommitted

theorem stands_row (h : FeedbackStore.Reaches messages sessions events store)
    (hstands : store.Stands row) :
    (store.row row.giver).committed = some row ∧ row.Owned messages sessions := by
  obtain ⟨giver, hrow⟩ := hstands
  obtain ⟨rfl, howned⟩ := (reaches_held h giver).1 row hrow
  exact ⟨hrow, howned⟩

/-- A call of an interleaving: it names one row, and its answer follows from the row its
transaction sees. -/
theorem call_written {transaction : τ} {call : FeedbackCall}
    (h : FeedbackStore.Reaches messages sessions events store)
    (hstep : store.step messages sessions (.call transaction call) = some next) :
    (next.row call.giver).opened = (store.row call.giver).opened ++
      [⟨transaction, call, call.writes messages sessions
        ((store.row call.giver).seenBy transaction)⟩] := by
  have hseen := Rows.step_seenAt (Rows.agree_run h) hstep call.giver
  rw [Rows.seenAt_own] at hseen
  rw [← act_isSome (reaches_seen h call.giver transaction)]
  rcases call_cases (step_cases hseen).2 with ⟨hrefused, hnext⟩ | ⟨written, hwritten, hfree, hnext⟩
  · rw [hnext, hrefused]
    rfl
  · rw [hnext, World.seenBy_free hfree, hwritten]
    rfl

/-- One signal for a giver on a message, left by the last of the giver's calls that wrote,
and on nothing but the giver's own message. -/
structure OneCurrentSignal (messages : MessageTable) (sessions : SessionTable)
    (store : FeedbackStore τ) : Prop where
  one : ∀ first second, store.Stands first → store.Stands second →
    first.giver = second.giver → first = second
  current : ∀ giver, (store.row giver).committed.map SignalRow.signal =
    FeedbackCall.lastSignal (wins (store.row giver).settled)
  owned : ∀ row, store.Stands row → row.Owned messages sessions

/-- What one more step does: a call is put down as writing or not by what its transaction
sees of its own row, touches no other, and takes effect on that row when its transaction
commits. -/
structure OwnSignal (messages : MessageTable) (sessions : SessionTable)
    (store next : FeedbackStore τ) (event : Event τ FeedbackCall) : Prop where
  answered : ∀ transaction call, event = .call transaction call →
    (next.row call.giver).opened = (store.row call.giver).opened ++
      [⟨transaction, call, call.writes messages sessions
        ((store.row call.giver).seenBy transaction)⟩]
  elsewhere : ∀ transaction call, event = .call transaction call →
    ∀ giver, giver ≠ call.giver → next.row giver = store.row giver
  changed : ∀ giver, (next.row giver).committed ≠ (store.row giver).committed →
    ∃ transaction, event = .commit transaction ∧
      ∃ made ∈ (store.row giver).opened,
        made.transaction = transaction ∧ made.won = true ∧ made.attempt.giver = giver

theorem OwnSignal.of_step {event : Event τ FeedbackCall}
    (h : FeedbackStore.Reaches messages sessions events store)
    (hstep : store.step messages sessions event = some next) :
    OwnSignal messages sessions store next event where
  answered := by
    intro transaction call hevent
    exact call_written h (hevent ▸ hstep)
  elsewhere := by
    intro transaction call hevent giver hgiver
    exact Rows.call_elsewhere (hevent ▸ hstep) hgiver
  changed := by
    intro giver hchanged
    have hseen := Rows.step_seenAt (Rows.agree_run h) hstep giver
    obtain ⟨transaction, hcommit, made, hmade, hown, hwon⟩ :=
      (Rows.serial_run h giver).committed_changed hseen hchanged
    exact ⟨transaction, Rows.seenAt_commit hcommit, made, hmade, hown, hwon,
      Rows.filed_run h giver made (List.mem_append_right _ hmade)⟩

/-- **One current signal.** Let any number of givers in any tenants record and withdraw,
in transactions that interleave in any way. At every moment there is at most one signal of
a giver on a message: that of the giver's last record committed that no withdrawal follows
which wrote. A withdrawal of the owner's writes where its transaction sees a signal. Every
signal is on a message that the agent sent in a session of its tenant that its giver owns,
and no call ever changes another giver's. -/
theorem one_current_signal (h : FeedbackStore.Reaches messages sessions events store) :
    OneCurrentSignal messages sessions store ∧
      ∀ event next, store.step messages sessions event = some next →
        OwnSignal messages sessions store next event where
  left :=
    { one := by
        intro first second hfirst hsecond hgiver
        have hrow := (stands_row h hfirst).1
        rw [hgiver, (stands_row h hsecond).1] at hrow
        injection hrow with hrow
        exact hrow.symm
      current := fun giver => run_lastSignal (Rows.serial_run h giver).settles
      owned := fun row hstands => (stands_row h hstands).2 }
  right := fun _ _ hstep => OwnSignal.of_step h hstep

end Interleaved

namespace CurrentSignal

def tenant : TenantContext := ⟨⟨1⟩, ⟨1⟩, .active, .endUserIdentity⟩

def messages : MessageTable := ⟨[⟨⟨⟨2⟩, ⟨3⟩, ⟨1⟩⟩, .agent⟩], by decide⟩

def sessions : SessionTable := ⟨[⟨⟨3⟩, ⟨1⟩, ⟨4⟩, .conversational, none, 0, 1, 0⟩], by decide⟩

/-- A record, and a withdrawal that runs before its commit. -/
def crossing : List (Event Nat FeedbackCall) :=
  [.call 1 (.record tenant ⟨2⟩ ⟨4⟩ .positive 5), .call 2 (.withdraw tenant ⟨2⟩ ⟨4⟩),
    .commit 1, .commit 2]

end CurrentSignal

open CurrentSignal in
theorem one_current_signal_crossing :
    ∃ store, FeedbackStore.Reaches messages sessions crossing store ∧
      OneCurrentSignal messages sessions store ∧
        ∀ event next, store.step messages sessions event = some next →
          OwnSignal messages sessions store next event :=
  have hrun : FeedbackStore.Reaches messages sessions crossing _ := rfl
  ⟨_, hrun, one_current_signal hrun⟩

open CurrentSignal in
/-- A withdrawal that commits after the record need not take its signal away. -/
theorem withdrawal_crossed : ¬ ∀ (messages : MessageTable) (sessions : SessionTable)
    (events : List (Event Nat FeedbackCall)) (store : FeedbackStore Nat),
    FeedbackStore.Reaches messages sessions events store → ∀ giver,
      (store.row giver).committed.map SignalRow.signal =
        FeedbackCall.lastSignal (((store.row giver).settled.map Call.attempt).filter
          fun call => (call.owned messages sessions).isSome) := by
  intro hall
  have hrow := hall messages sessions crossing _ rfl (⟨2⟩, ⟨4⟩)
  revert hrow
  decide

end Synthia
