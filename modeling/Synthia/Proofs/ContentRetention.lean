import Synthia.Workers.RetentionSweep

/-!
# How long chat content is kept

The expiry of a session's content is computed in one module, written by another
and acted on by a sweep, and three facts tie them together. The expiry is `None`
for every move but one into a terminal state. No move leaves a terminal state, so
a stamp is written once and never carried over to a live session. And a move wins
only on the version its caller read, at which the session was still in the state
the state machine was asked about.

So at any point of any run a session is stamped exactly when its state is
terminal, with the instant it entered that state plus the window then in force;
and the sweep, which looks at nothing but the stamp, removes what is past it.
-/

namespace Synthia.RetentionSweep

open Relational

/-- The last move of a session that won. -/
def lastEntered (entered : List Entered) (sessionId : SessionId) : Option Entered :=
  (entered.filter fun entry => entry.sessionId == sessionId).getLast?

/-- The move entered the row's state, and the row is stamped with the window the
overrides of that moment gave. -/
structure Entered.Stamps (entry : Entered) (row : ChatSessionRow) : Prop where
  state : entry.state = row.state
  expires : ∃ window, windowFor .chatContent entry.overrides = .ok window ∧
    row.contentExpiresAt = some (entry.enteredAt + window.duration)

/-- A live session has no stamp, and an ended one its last move's. -/
def Stamped (entered : List Entered) (row : ChatSessionRow) : Prop :=
  (row.state.isTerminal = false ∧ row.contentExpiresAt = none) ∨
    (row.state.isTerminal = true ∧
      ∃ entry, lastEntered entered row.sessionId = some entry ∧ entry.Stamps row)

/-- What holds at every point of a run. -/
structure World.Kept (world : World) : Prop where
  stamped : ∀ row ∈ world.store.sessions.rows, Stamped world.entered row
  /-- A row still at the version a caller read is in the state it read. -/
  reads : ∀ caller read, world.reads caller = some read →
    ∀ row ∈ world.store.sessions.rows, row.sessionId = read.sessionId →
      read.version ≤ row.version ∧ (read.version = row.version → read.state = row.state)

/-! ## A move -/

theorem lastEntered_own (entered : List Entered) (entry : Entered) :
    lastEntered (entered ++ [entry]) entry.sessionId = some entry := by
  unfold lastEntered
  rw [List.filter_append, List.filter_cons_of_pos (by simp), List.filter_nil,
    List.getLast?_append]
  rfl

theorem lastEntered_other {entered : List Entered} {entry : Entered} {sessionId : SessionId}
    (h : sessionId ≠ entry.sessionId) :
    lastEntered (entered ++ [entry]) sessionId = lastEntered entered sessionId := by
  unfold lastEntered
  rw [List.filter_append, List.filter_cons_of_neg (by simpa using Ne.symm h), List.filter_nil,
    List.append_nil]

theorem Stamped.later {entered : List Entered} {entry : Entered} {row : ChatSessionRow}
    (h : Stamped entered row) (hother : row.sessionId ≠ entry.sessionId) :
    Stamped (entered ++ [entry]) row := by
  rcases h with hlive | ⟨hterminal, last, hlast, hstamps⟩
  · exact Or.inl hlive
  · exact Or.inr ⟨hterminal, last, by rw [lastEntered_other hother, hlast], hstamps⟩

/-- A caller that gets as far as the repository asks for a legal move, with the
expiry of the state it moves to. -/
theorem plan_eq_some {read : SessionRead} {requested state : SessionState} {now : Instant}
    {overrides : RetentionOverrides} {contentExpiresAt : Option Instant}
    (h : plan read requested now overrides = some (state, contentExpiresAt)) :
    canTransition read.state state = true ∧
      contentExpiryFor state now overrides = .ok contentExpiresAt := by
  unfold plan transition at h
  cases hlegal : canTransition read.state requested with
  | false =>
      rw [hlegal] at h
      cases h
  | true =>
      rw [hlegal, if_pos rfl] at h
      dsimp only at h
      cases hexpiry : contentExpiryFor requested now overrides with
      | error e =>
          rw [hexpiry] at h
          cases h
      | ok expires =>
          rw [hexpiry] at h
          injection h with h
          injection h with hstate hexpires
          subst hstate hexpires
          exact ⟨hlegal, hexpiry⟩

/-- The row a winning move leaves is stamped by it. -/
theorem stamped_moved {old : ChatSessionRow} {entered : List Entered} {state : SessionState}
    {now databaseNow : Instant} {overrides : RetentionOverrides}
    {contentExpiresAt : Option Instant} (hold : Stamped entered old)
    (hlegal : canTransition old.state state = true)
    (hexpiry : contentExpiryFor state now overrides = .ok contentExpiresAt) :
    Stamped (entered ++ [⟨old.sessionId, state, now, overrides⟩])
      (((ChatSessionRow.movedTo state contentExpiresAt).managed databaseNow).apply old) := by
  -- a move out of the old state shows it was live, and so not stamped
  have hlive : old.contentExpiresAt = none := by
    rcases hold with ⟨_, hnone⟩ | ⟨hterminal, _⟩
    · exact hnone
    · rw [isTerminal_iff.mp hterminal state] at hlegal
      cases hlegal
  have hstamp : (((ChatSessionRow.movedTo state contentExpiresAt).managed databaseNow).apply
      old).contentExpiresAt = contentExpiresAt := by
    show contentExpiresAt.or old.contentExpiresAt = contentExpiresAt
    rw [hlive, Option.or_none]
  rcases contentExpiryFor_cases hexpiry with ⟨hstate, hnone⟩ | ⟨window, hstate, hwindow, hsome⟩
  · exact Or.inl ⟨hstate, hstamp.trans hnone⟩
  · exact Or.inr ⟨hstate, _, lastEntered_own entered ⟨old.sessionId, state, now, overrides⟩,
      rfl, window, hwindow, hstamp.trans hsome⟩

section Step

variable {world next : World} {caller : CallerId} {tenant : TenantContext}

theorem World.Kept.read (h : world.Kept) (caller : CallerId) (tenant : TenantContext)
    (sessionId : SessionId) : (world.read caller tenant sessionId).Kept := by
  refine ⟨h.stamped, ?_⟩
  intro other read hread row hrow hid
  by_cases hother : other = caller
  · subst hother
    unfold World.read at hread
    dsimp only at hread
    rw [Function.update_self] at hread
    obtain ⟨found, hfound, rfl⟩ := Option.map_eq_some_iff.mp hread
    -- what was read is the row itself
    rw [world.store.sessions.eq_of_key hrow (List.mem_of_find?_eq_some hfound) hid]
    exact ⟨le_rfl, fun _ => rfl⟩
  · unfold World.read at hread
    dsimp only at hread
    rw [Function.update_of_ne hother] at hread
    exact h.reads other read hread row hrow hid

/-- A move that lost, or stopped before the repository, leaves the sessions alone. -/
theorem World.move_cases {requested : SessionState} {now databaseNow : Instant}
    {overrides : RetentionOverrides}
    (hmove : world.move caller tenant requested now overrides databaseNow = some next) :
    next = world ∨
      ∃ read state contentExpiresAt, world.reads caller = some read ∧
        canTransition read.state state = true ∧
        contentExpiryFor state now overrides = .ok contentExpiresAt ∧
        (SessionRepository.transition world.store.sessions tenant read.sessionId state
          read.version contentExpiresAt databaseNow).1 = true ∧
        next = { world with
          store := { world.store with
            sessions := (SessionRepository.transition world.store.sessions tenant
              read.sessionId state read.version contentExpiresAt databaseNow).2 }
          entered := world.entered ++ [⟨read.sessionId, state, now, overrides⟩] } := by
  unfold World.move at hmove
  cases hread : world.reads caller with
  | none =>
      rw [hread] at hmove
      cases hmove
  | some read =>
      rw [hread] at hmove
      dsimp only at hmove
      cases hplan : plan read requested now overrides with
      | none =>
          rw [hplan] at hmove
          injection hmove with hmove
          exact Or.inl hmove.symm
      | some planned =>
          obtain ⟨state, contentExpiresAt⟩ := planned
          rw [hplan] at hmove
          injection hmove with hmove
          obtain ⟨hlegal, hexpiry⟩ := plan_eq_some hplan
          cases hwon : (SessionRepository.transition world.store.sessions tenant
              read.sessionId state read.version contentExpiresAt databaseNow).1 with
          | false =>
              refine Or.inl ?_
              rw [hwon, if_neg Bool.false_ne_true] at hmove
              have hsame : (SessionRepository.transition world.store.sessions tenant
                  read.sessionId state read.version contentExpiresAt databaseNow).2 =
                  world.store.sessions :=
                guardedUpdate_lost (k := read.sessionId)
                  (fun row hrow => (ChatSessionRow.scopedTo_iff.mp hrow).2) hwon
              rw [← hmove, hsame]
          | true =>
              refine Or.inr ⟨read, state, contentExpiresAt, rfl, hlegal, hexpiry, hwon, ?_⟩
              rw [hwon, if_pos rfl] at hmove
              exact hmove.symm

theorem World.Kept.move (h : world.Kept) {requested : SessionState}
    {now databaseNow : Instant} {overrides : RetentionOverrides}
    (hmove : world.move caller tenant requested now overrides databaseNow = some next) :
    next.Kept := by
  rcases World.move_cases hmove with rfl | ⟨read, state, contentExpiresAt, hread, hlegal,
    hexpiry, hwon, rfl⟩
  · exact h
  · obtain ⟨hit, hhit, hscoped, hversion⟩ := SessionRepository.transition_won.mp hwon
    have hhitId : hit.sessionId = read.sessionId := (ChatSessionRow.scopedTo_iff.mp hscoped).2
    have hhitState : read.state = hit.state :=
      (h.reads caller read hread hit hhit hhitId).2 hversion.symm
    constructor
    · intro row hrow
      obtain ⟨old, hold, hrow⟩ := SessionRepository.mem_transition.mp hrow
      by_cases hid : old.sessionId = read.sessionId
      · -- the row the move was about
        obtain rfl : old = hit :=
          world.store.sessions.eq_of_key hold hhit (hid.trans hhitId.symm)
        rw [if_pos (by rw [hscoped, hversion, beq_self_eq_true]; rfl)] at hrow
        rw [hrow]
        show Stamped (world.entered ++ [⟨read.sessionId, state, now, overrides⟩]) _
        rw [← hhitId]
        exact stamped_moved (h.stamped old hold) (hhitState ▸ hlegal) hexpiry
      · rw [if_neg (by
          rw [Bool.and_eq_true, ChatSessionRow.scopedTo_iff]
          exact fun hboth => hid hboth.1.2)] at hrow
        rw [hrow]
        exact (h.stamped old hold).later hid
    · intro other otherRead hotherRead row hrow hid
      obtain ⟨old, hold, hrow⟩ := SessionRepository.mem_transition.mp hrow
      split at hrow
      · rw [hrow] at hid ⊢
        obtain ⟨hle, _⟩ := h.reads other otherRead hotherRead old hold hid
        show otherRead.version ≤ old.version + 1 ∧ (otherRead.version = old.version + 1 → _)
        refine ⟨by omega, ?_⟩
        intro hsame
        omega
      · rw [hrow] at hid ⊢
        exact h.reads other otherRead hotherRead old hold hid

theorem World.Kept.sweep (h : world.Kept) (tenant : TenantContext) (now : Instant) :
    ({ world with store := (sweepChatContent world.store tenant now).2 } : World).Kept := by
  constructor
  · intro row hrow
    exact h.stamped row (Table.mem_delete.mp hrow).1
  · intro other read hread row hrow hid
    exact h.reads other read hread row (Table.mem_delete.mp hrow).1 hid

theorem World.Kept.step {action : Action} (h : world.Kept)
    (hstep : world.step action = some next) : next.Kept := by
  cases action with
  | read caller tenant sessionId =>
      injection hstep with hstep
      subst hstep
      exact h.read caller tenant sessionId
  | move caller tenant requested now overrides databaseNow => exact h.move hstep
  | sweep tenant now =>
      injection hstep with hstep
      subst hstep
      exact h.sweep tenant now

end Step

/-! ## A sweep -/

/-- The session is the tenant's, in a terminal state, and the window that was in
force when it entered that state has run out. -/
def World.Ended (world : World) (tenant : TenantContext) (now : Instant)
    (sessionId : SessionId) : Prop :=
  ∃ row ∈ world.store.sessions.rows, row.sessionId = sessionId ∧
    row.tenantId = tenant.tenantId ∧ row.state.isTerminal = true ∧
    ∃ entry window, lastEntered world.entered sessionId = some entry ∧
      entry.state = row.state ∧ windowFor .chatContent entry.overrides = .ok window ∧
      entry.enteredAt + window.duration ≤ now

section Sweep

variable {world : World} {tenant : TenantContext} {now : Instant}

/-- What the sweep looks at is a stamp, and a stamp is an ended session's. -/
theorem World.Kept.ended (h : world.Kept) {row : ChatSessionRow}
    (hrow : row ∈ world.store.sessions.rows) (hpast : pastWindow tenant now row = true) :
    world.Ended tenant now row.sessionId := by
  obtain ⟨htenant, expiresAt, hexpires, hnow⟩ := pastWindow_iff.mp hpast
  rcases h.stamped row hrow with ⟨_, hnone⟩ | ⟨hterminal, entry, hentry, hstamps⟩
  · rw [hnone] at hexpires
    cases hexpires
  · obtain ⟨window, hwindow, hstamp⟩ := hstamps.expires
    rw [hstamp] at hexpires
    injection hexpires with hexpires
    exact ⟨row, hrow, rfl, htenant, hterminal, entry, window, hentry, hstamps.state, hwindow,
      hexpires ▸ hnow⟩

theorem World.Kept.gone (h : world.Kept) {sessionId : SessionId}
    (hgone : sessionGone world.store tenant now sessionId = true) :
    world.Ended tenant now sessionId := by
  obtain ⟨row, hrow, hpast, rfl⟩ := sessionGone_iff.mp hgone
  exact h.ended hrow hpast

/-- A row a filter drops is one it was told to drop. -/
theorem dropped {ρ : Type} (gone : ρ → Bool) {rows : List ρ} {row : ρ} (hrow : row ∈ rows)
    (hdropped : row ∉ rows.filter fun row => !gone row) : gone row = true := by
  rw [← Bool.not_eq_false]
  intro hkept
  exact hdropped (List.mem_filter.mpr ⟨hrow, by rw [hkept]; rfl⟩)

/-- Nothing but the tables of a conversation is touched, on any action. -/
theorem World.step_elsewhere {next : World} {action : Action}
    (hstep : world.step action = some next) :
    next.store.workItems = world.store.workItems ∧ next.store.audit = world.store.audit := by
  cases action with
  | read caller tenant sessionId =>
      injection hstep with hstep
      subst hstep
      exact ⟨rfl, rfl⟩
  | move caller tenant requested now overrides databaseNow =>
      rcases World.move_cases hstep with rfl | ⟨_, _, _, _, _, _, _, rfl⟩
      · exact ⟨rfl, rfl⟩
      · exact ⟨rfl, rfl⟩
  | sweep tenant now =>
      injection hstep with hstep
      subst hstep
      exact ⟨rfl, rfl⟩

end Sweep

/-- **Chat content is kept exactly as long as it must be.** Start from sessions that
are live and unstamped, and let any number of callers read and move them and any
number of sweeps run, in any order and with any overrides. A session is stamped
exactly when its state is terminal, with the instant of the move into that state
plus the window then in force. The next sweep, whenever it comes, removes only
sessions that have ended and whose window has run out, with their messages, steps
and feedback, and no work item or audit event changes. -/
theorem content_kept {store : ContentStore}
    (hlive : ∀ row ∈ store.sessions.rows,
      row.state.isTerminal = false ∧ row.contentExpiresAt = none)
    {actions : List Action} {world : World}
    (hrun : Machine.run World.step ({ store } : World) actions = some world) :
    (∀ row ∈ world.store.sessions.rows,
      (row.contentExpiresAt.isSome = true ↔ row.state.isTerminal = true) ∧
      (row.state.isTerminal = true → ∃ entry window,
        lastEntered world.entered row.sessionId = some entry ∧ entry.state = row.state ∧
        windowFor .chatContent entry.overrides = .ok window ∧
        row.contentExpiresAt = some (entry.enteredAt + window.duration))) ∧
    (∀ tenant now,
      (∀ row ∈ world.store.sessions.rows,
        row ∉ (sweepChatContent world.store tenant now).2.sessions.rows →
        world.Ended tenant now row.sessionId) ∧
      (∀ message ∈ world.store.messages,
        message ∉ (sweepChatContent world.store tenant now).2.messages →
        world.Ended tenant now message.sessionId) ∧
      (∀ step ∈ world.store.steps,
        step ∉ (sweepChatContent world.store tenant now).2.steps →
        world.Ended tenant now step.sessionId) ∧
      (∀ entry ∈ world.store.feedback,
        entry ∉ (sweepChatContent world.store tenant now).2.feedback →
        world.Ended tenant now entry.sessionId ∨
          ∃ message ∈ world.store.messages, message.messageId = entry.messageId ∧
            world.Ended tenant now message.sessionId) ∧
      (sweepChatContent world.store tenant now).2.workItems = world.store.workItems ∧
      (sweepChatContent world.store tenant now).2.audit = world.store.audit) ∧
    world.store.workItems = store.workItems ∧ world.store.audit = store.audit := by
  have hstart : ({ store } : World).Kept := by
    refine ⟨fun row hrow => Or.inl (hlive row hrow), ?_⟩
    intro caller read hread
    cases hread
  have hkept : world.Kept :=
    Machine.invariant_run (fun _ _ _ hbefore hstep => hbefore.step hstep) hstart hrun
  have helsewhere : world.store.workItems = store.workItems ∧
      world.store.audit = store.audit :=
    @Machine.invariant_run _ _ World.step
      (fun later => later.store.workItems = store.workItems ∧ later.store.audit = store.audit)
      (fun _ _ _ hbefore hstep =>
        ⟨(World.step_elsewhere hstep).1.trans hbefore.1,
          (World.step_elsewhere hstep).2.trans hbefore.2⟩) _ _ _ ⟨rfl, rfl⟩ hrun
  refine ⟨?_, ?_, helsewhere⟩
  · intro row hrow
    rcases hkept.stamped row hrow with ⟨hstate, hnone⟩ | ⟨hstate, entry, hentry, hstamps⟩
    · rw [hstate, hnone]
      exact ⟨by simp, fun hterminal => by cases hterminal⟩
    · obtain ⟨window, hwindow, hexpires⟩ := hstamps.expires
      rw [hstate, hexpires]
      exact ⟨by simp, fun _ => ⟨entry, window, hentry, hstamps.state, hwindow, rfl⟩⟩
  · intro tenant now
    refine ⟨?_, ?_, ?_, ?_, rfl, rfl⟩
    · intro row hrow hremoved
      exact hkept.ended hrow (dropped _ hrow hremoved)
    · intro message hmessage hremoved
      exact hkept.gone (dropped (fun message : MessageRow =>
        sessionGone world.store tenant now message.sessionId) hmessage hremoved)
    · intro step hstep hremoved
      exact hkept.gone (dropped (fun step : SessionStepRow =>
        sessionGone world.store tenant now step.sessionId) hstep hremoved)
    · intro entry hentry hremoved
      have hgone := dropped (fun entry : FeedbackRow =>
        sessionGone world.store tenant now entry.sessionId ||
          messageGone world.store tenant now entry.messageId) hentry hremoved
      rw [Bool.or_eq_true] at hgone
      rcases hgone with hsession | hmessage
      · exact Or.inl (hkept.gone hsession)
      · obtain ⟨message, hmessage, hid, hsession⟩ := messageGone_iff.mp hmessage
        exact Or.inr ⟨message, hmessage, hid, hkept.gone hsession⟩

/-! ### One conversation, to its end -/

def printerTenant : TenantContext := ⟨⟨1⟩, ⟨1⟩, .active, .endUserIdentity⟩

def printerSession : ChatSessionRow := ⟨⟨2⟩, ⟨1⟩, ⟨7⟩, .resolving, none, 0, 1, 0⟩

def printerStore : ContentStore where
  sessions := ⟨[printerSession], List.nodup_singleton _⟩
  messages := [⟨⟨3⟩, ⟨2⟩, ⟨1⟩⟩]

/-- A day's retention, swept before it has run out. -/
def printerRun : List Action :=
  [.read 0 printerTenant ⟨2⟩,
    .move 0 printerTenant .resolved 10 (some [("chat_content", .int 1)]) 10,
    .sweep printerTenant 100]

/-- The session is still there, resolved, and stamped with the day behind its move. -/
theorem printer_session_stamped :
    ∃ world, Machine.run World.step ({ store := printerStore } : World) printerRun =
        some world ∧
      world.store.sessions.rows = [{ printerSession with
        state := .resolved, contentExpiresAt := some (10 + days 1),
        version := 2, updatedAt := 10 }] ∧
      SessionState.resolved.isTerminal = true ∧
      ∀ row ∈ world.store.sessions.rows,
        (row.contentExpiresAt.isSome = true ↔ row.state.isTerminal = true) := by
  have hended : (Machine.run World.step ({ store := printerStore } : World) printerRun).map
      (fun world => world.store.sessions.rows) = some [{ printerSession with
        state := .resolved, contentExpiresAt := some (10 + days 1),
        version := 2, updatedAt := 10 }] := by
    decide +kernel
  obtain ⟨world, hrun, hrows⟩ := Option.map_eq_some_iff.mp hended
  refine ⟨world, hrun, hrows, rfl, ?_⟩
  intro row hrow
  exact ((content_kept (show ∀ row ∈ printerStore.sessions.rows,
    row.state.isTerminal = false ∧ row.contentExpiresAt = none by decide) hrun).1 row hrow).1

end Synthia.RetentionSweep
