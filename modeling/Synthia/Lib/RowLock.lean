import Mathlib.Data.List.Basic
import Mathlib.Logic.Function.Basic
import Synthia.Lib.Machine

/-!
# Conditional updates of one row

Transactions that update one row under a condition, at the isolation level Read
Committed. A statement evaluates its condition on the newest committed version,
or on the version its own transaction has pending. Where the condition fails the
statement touches nothing and says so. Where it holds, the statement takes the
row's lock, and what it wrote is pending until its transaction ends. While another
transaction holds the lock a statement that would write waits, and evaluates its
condition again on what the other left; so a waiting statement takes no step, and
each statement that returns has its answer and its effect at one step.

The rule of this module is that any run is serial. The calls that wrote, taken in
the order of the commits and then of the open transaction, replay one after the
other from the first version to the current one. A rollback takes its calls with
it, answers included: what a transaction was told is void when it does not commit.
-/

namespace RowLock

variable {σ τ α : Type*}

/-- A call that returned: its transaction, what it tried, and whether it wrote. -/
structure Call (τ α : Type*) where
  transaction : τ
  attempt : α
  won : Bool
  deriving DecidableEq

structure World (σ τ α : Type*) where
  committed : σ
  /-- The transaction holding the row, with the version it has pending. -/
  holder : Option (τ × σ) := none
  ended : List τ := []
  /-- The calls of committed transactions, in the order of the commits. -/
  settled : List (Call τ α) := []
  /-- The calls of transactions that are still open. -/
  opened : List (Call τ α) := []

inductive Event (τ α : Type*) where
  | read (transaction : τ)
  | call (transaction : τ) (attempt : α)
  | commit (transaction : τ)
  | rollback (transaction : τ)
  deriving DecidableEq

namespace World

/-- The newest version, committed or not. -/
def current (world : World σ τ α) : σ :=
  match world.holder with
  | some (_, pending) => pending
  | none => world.committed

/-- Every call whose transaction has not been rolled back. -/
def calls (world : World σ τ α) : List (Call τ α) := world.settled ++ world.opened

variable [DecidableEq τ]

/-- The version a transaction's own statements see. -/
def seenBy (world : World σ τ α) (transaction : τ) : σ :=
  match world.holder with
  | some (holder, pending) => if holder = transaction then pending else world.committed
  | none => world.committed

/-- No other transaction holds the row. -/
def freeFor (world : World σ τ α) (transaction : τ) : Bool :=
  match world.holder with
  | some (holder, _) => decide (holder = transaction)
  | none => true

/-- A statement that returns. -/
def call (act : σ → α → Option σ) (world : World σ τ α) (transaction : τ) (attempt : α) :
    Option (World σ τ α) :=
  match act (world.seenBy transaction) attempt with
  | none => some { world with opened := world.opened ++ [⟨transaction, attempt, false⟩] }
  | some next =>
      if world.freeFor transaction then
        some { world with
          holder := some (transaction, next)
          opened := world.opened ++ [⟨transaction, attempt, true⟩] }
      else
        none

/-- The calls of one transaction, and the others. -/
def callsOf (world : World σ τ α) (transaction : τ) : List (Call τ α) :=
  world.opened.filter fun call => decide (call.transaction = transaction)

def callsElsewhere (world : World σ τ α) (transaction : τ) : List (Call τ α) :=
  world.opened.filter fun call => decide (call.transaction ≠ transaction)

def commit (world : World σ τ α) (transaction : τ) : World σ τ α where
  committed := world.seenBy transaction
  holder := world.holder.filter fun held => decide (held.1 ≠ transaction)
  ended := transaction :: world.ended
  settled := world.settled ++ world.callsOf transaction
  opened := world.callsElsewhere transaction

def rollback (world : World σ τ α) (transaction : τ) : World σ τ α where
  committed := world.committed
  holder := world.holder.filter fun held => decide (held.1 ≠ transaction)
  ended := transaction :: world.ended
  settled := world.settled
  opened := world.callsElsewhere transaction

def transactionOf : Event τ α → τ
  | .read transaction | .call transaction _ | .commit transaction | .rollback transaction =>
      transaction

end World

/-- One event. A transaction that has ended takes no part in any. -/
def step [DecidableEq τ] (act : σ → α → Option σ) (world : World σ τ α)
    (event : Event τ α) : Option (World σ τ α) :=
  if World.transactionOf event ∈ world.ended then
    none
  else
    match event with
    | .read _ => some world
    | .call transaction attempt => world.call act transaction attempt
    | .commit transaction => some (world.commit transaction)
    | .rollback transaction => some (world.rollback transaction)

/-- Before any call. -/
def start (initial : σ) : World σ τ α := { committed := initial }

/-! ## The calls that wrote -/

/-- What the calls that wrote had tried, in order. -/
def wins (calls : List (Call τ α)) : List α := (calls.filter Call.won).map Call.attempt

theorem wins_append (before after : List (Call τ α)) :
    wins (before ++ after) = wins before ++ wins after := by
  unfold wins
  rw [List.filter_append, List.map_append]

theorem wins_split {before after : List (Call τ α)} {call : Call τ α} (hwon : call.won = true) :
    wins (before ++ call :: after) = wins before ++ call.attempt :: wins after := by
  rw [wins_append]
  congr 1
  unfold wins
  rw [List.filter_cons_of_pos hwon, List.map_cons]

theorem mem_wins {calls : List (Call τ α)} {attempt : α} :
    attempt ∈ wins calls ↔
      ∃ call ∈ calls, call.won = true ∧ call.attempt = attempt := by
  unfold wins
  simp only [List.mem_map, List.mem_filter, and_assoc]

theorem wins_length (calls : List (Call τ α)) : (wins calls).length = calls.countP Call.won := by
  unfold wins
  rw [List.length_map, List.countP_eq_length_filter]

/-- Keeping every call that wrote keeps what was written. -/
theorem wins_filter_all {keep : Call τ α → Bool} {calls : List (Call τ α)}
    (h : ∀ call ∈ calls, call.won = true → keep call = true) :
    wins (calls.filter keep) = wins calls := by
  unfold wins
  rw [List.filter_filter]
  congr 1
  apply List.filter_congr
  intro call hcall
  cases hwon : call.won with
  | false => rfl
  | true => rw [h call hcall hwon]; rfl

theorem wins_filter_none {keep : Call τ α → Bool} {calls : List (Call τ α)}
    (h : ∀ call ∈ calls, call.won = true → keep call = false) :
    wins (calls.filter keep) = [] := by
  unfold wins
  rw [List.filter_filter, List.map_eq_nil_iff, List.filter_eq_nil_iff]
  intro call hcall hboth
  rw [Bool.and_eq_true] at hboth
  rw [h call hcall hboth.1] at hboth
  cases hboth.2

/-! ## What each event does to the row -/

section Steps

variable [DecidableEq τ] {act : σ → α → Option σ} {world next : World σ τ α} {transaction : τ}
  {attempt : α}

theorem World.seenBy_holder {pending : σ} (h : world.holder = some (transaction, pending)) :
    world.seenBy transaction = pending := by
  unfold World.seenBy
  rw [h]
  exact if_pos rfl

theorem World.seenBy_other (h : ∀ pending, world.holder ≠ some (transaction, pending)) :
    world.seenBy transaction = world.committed := by
  unfold World.seenBy
  cases hholder : world.holder with
  | none => rfl
  | some held =>
      obtain ⟨holder, pending⟩ := held
      refine if_neg ?_
      intro hsame
      rw [hsame] at hholder
      exact h pending hholder

/-- A transaction that may write sees the newest version. -/
theorem World.seenBy_free (h : world.freeFor transaction = true) :
    world.seenBy transaction = world.current := by
  unfold World.freeFor at h
  unfold World.seenBy World.current
  cases hholder : world.holder with
  | none => rfl
  | some held =>
      rw [hholder] at h
      exact if_pos (of_decide_eq_true h)

theorem World.holder_free (h : world.freeFor transaction = true) {held : τ × σ}
    (hholder : world.holder = some held) : held.1 = transaction := by
  unfold World.freeFor at h
  rw [hholder] at h
  exact of_decide_eq_true h

theorem step_cases {event : Event τ α} (h : step act world event = some next) :
    World.transactionOf event ∉ world.ended ∧
      match event with
      | .read _ => next = world
      | .call transaction attempt => world.call act transaction attempt = some next
      | .commit transaction => next = world.commit transaction
      | .rollback transaction => next = world.rollback transaction := by
  unfold step at h
  split at h
  · cases h
  · next hopen =>
      refine ⟨hopen, ?_⟩
      cases event with
      | read transaction =>
          injection h with h
          exact h.symm
      | call transaction attempt => exact h
      | commit transaction =>
          injection h with h
          exact h.symm
      | rollback transaction =>
          injection h with h
          exact h.symm

/-- A call that returns either found its condition false and touched nothing, or
wrote on the newest version. -/
theorem call_cases (h : world.call act transaction attempt = some next) :
    (act (world.seenBy transaction) attempt = none ∧
        next = { world with opened := world.opened ++ [⟨transaction, attempt, false⟩] }) ∨
      ∃ written, act world.current attempt = some written ∧
        world.freeFor transaction = true ∧
        next = { world with
          holder := some (transaction, written)
          opened := world.opened ++ [⟨transaction, attempt, true⟩] } := by
  unfold World.call at h
  split at h
  · next hrefused =>
      injection h with h
      exact Or.inl ⟨hrefused, h.symm⟩
  · next written hwritten =>
      split at h
      · next hfree =>
          injection h with h
          rw [World.seenBy_free hfree] at hwritten
          exact Or.inr ⟨written, hwritten, hfree, h.symm⟩
      · cases h

/-- A call that answered false left every version as it was. -/
theorem call_lost (h : step act world (.call transaction attempt) = some next)
    (hlost : next.opened = world.opened ++ [⟨transaction, attempt, false⟩]) :
    next.committed = world.committed ∧ next.holder = world.holder := by
  rcases call_cases (step_cases h).2 with ⟨_, rfl⟩ | ⟨written, _, _, rfl⟩
  · exact ⟨rfl, rfl⟩
  · injection List.append_cancel_left hlost with hanswer
    injection hanswer with _ _ hwon
    cases hwon

theorem call_opened (h : step act world (.call transaction attempt) = some next) :
    ∃ won, next.opened = world.opened ++ [⟨transaction, attempt, won⟩] := by
  rcases call_cases (step_cases h).2 with ⟨_, rfl⟩ | ⟨_, _, _, rfl⟩
  · exact ⟨false, rfl⟩
  · exact ⟨true, rfl⟩

theorem commit_settled (h : step act world (.commit transaction) = some next) {call : Call τ α}
    (hcall : call ∈ world.opened) (hown : call.transaction = transaction) :
    call ∈ next.settled := by
  rw [(step_cases h).2]
  exact List.mem_append_right _ (List.mem_filter.mpr ⟨hcall, decide_eq_true hown⟩)

/-! What the events of one transaction leave to the others. -/

theorem opened_kept {event : Event τ α} (h : step act world event = some next) {call : Call τ α}
    (hcall : call ∈ world.opened) (hother : call.transaction ≠ World.transactionOf event) :
    call ∈ next.opened := by
  obtain ⟨_, hevent⟩ := step_cases h
  cases event with
  | read transaction => exact hevent ▸ hcall
  | call transaction attempt =>
      rcases call_cases hevent with ⟨_, rfl⟩ | ⟨_, _, _, rfl⟩
      · exact List.mem_append_left _ hcall
      · exact List.mem_append_left _ hcall
  | commit transaction =>
      rw [hevent]
      exact List.mem_filter.mpr ⟨hcall, decide_eq_true hother⟩
  | rollback transaction =>
      rw [hevent]
      exact List.mem_filter.mpr ⟨hcall, decide_eq_true hother⟩

theorem settled_kept {event : Event τ α} (h : step act world event = some next)
    {call : Call τ α} (hcall : call ∈ world.settled) : call ∈ next.settled := by
  obtain ⟨_, hevent⟩ := step_cases h
  cases event with
  | read transaction => exact hevent ▸ hcall
  | call transaction attempt =>
      rcases call_cases hevent with ⟨_, rfl⟩ | ⟨_, _, _, rfl⟩
      · exact hcall
      · exact hcall
  | commit transaction =>
      rw [hevent]
      exact List.mem_append_left _ hcall
  | rollback transaction =>
      rw [hevent]
      exact hcall

/-- A call that stands was made before, or is the one made now. -/
theorem step_calls {event : Event τ α} (h : step act world event = some next) {call : Call τ α}
    (hcall : call ∈ next.calls) :
    call ∈ world.calls ∨ event = .call call.transaction call.attempt := by
  obtain ⟨_, hevent⟩ := step_cases h
  cases event with
  | read transaction => exact .inl (hevent ▸ hcall)
  | call transaction attempt =>
      have hboth : ∃ won, next.calls = world.calls ++ [⟨transaction, attempt, won⟩] := by
        rcases call_cases hevent with ⟨_, rfl⟩ | ⟨_, _, _, rfl⟩
        · exact ⟨false, (List.append_assoc _ _ _).symm⟩
        · exact ⟨true, (List.append_assoc _ _ _).symm⟩
      obtain ⟨won, hcalls⟩ := hboth
      rw [hcalls, List.mem_append, List.mem_singleton] at hcall
      rcases hcall with hbefore | rfl
      · exact .inl hbefore
      · exact .inr rfl
  | commit transaction =>
      rw [hevent] at hcall
      rcases List.mem_append.mp hcall with hsettled | hopened
      · rcases List.mem_append.mp hsettled with hbefore | hown
        · exact .inl (List.mem_append_left _ hbefore)
        · exact .inl (List.mem_append_right _ (List.mem_filter.mp hown).1)
      · exact .inl (List.mem_append_right _ (List.mem_filter.mp hopened).1)
  | rollback transaction =>
      rw [hevent] at hcall
      rcases List.mem_append.mp hcall with hsettled | hopened
      · exact .inl (List.mem_append_left _ hsettled)
      · exact .inl (List.mem_append_right _ (List.mem_filter.mp hopened).1)

theorem holder_before {event : Event τ α} (h : step act world event = some next) {other : τ}
    {pending : σ} (hother : other ≠ World.transactionOf event)
    (hheld : next.holder = some (other, pending)) : world.holder = some (other, pending) := by
  obtain ⟨_, hevent⟩ := step_cases h
  cases event with
  | read transaction => exact hevent ▸ hheld
  | call transaction attempt =>
      rcases call_cases hevent with ⟨_, rfl⟩ | ⟨_, _, _, rfl⟩
      · exact hheld
      · injection hheld with hheld
        injection hheld with hsame _
        exact absurd hsame.symm hother
  | commit transaction =>
      rw [hevent] at hheld
      exact (Option.filter_eq_some_iff.mp hheld).1
  | rollback transaction =>
      rw [hevent] at hheld
      exact (Option.filter_eq_some_iff.mp hheld).1

end Steps

/-! ## Every run is serial -/

/-- The calls that wrote replay one after the other. -/
structure Serial (act : σ → α → Option σ) (initial : σ) (world : World σ τ α) : Prop where
  settles : Machine.run act initial (wins world.settled) = some world.committed
  pends : Machine.run act world.committed (wins world.opened) = some world.current
  /-- Only the holder has written and not committed. -/
  holds : ∀ call ∈ world.opened, call.won = true →
    ∃ pending, world.holder = some (call.transaction, pending)

theorem serial_start {act : σ → α → Option σ} {initial : σ} :
    Serial act initial (start initial : World σ τ α) where
  settles := rfl
  pends := rfl
  holds := fun _ hcall => absurd hcall List.not_mem_nil

/-- All the calls that stand replay to the newest version. -/
theorem Serial.replays {act : σ → α → Option σ} {initial : σ} {world : World σ τ α}
    (h : Serial act initial world) :
    Machine.run act initial (wins world.calls) = some world.current := by
  unfold World.calls
  rw [wins_append, Machine.run_append]
  exact ⟨world.committed, h.settles, h.pends⟩

section Serial

variable [DecidableEq τ] {act : σ → α → Option σ} {initial : σ} {world next : World σ τ α}
  {transaction : τ} {attempt : α}

/-- All that was written and not committed is the holder's. -/
theorem Serial.wins_holder {pending : σ} (h : Serial act initial world)
    (hholder : world.holder = some (transaction, pending)) :
    wins (world.callsOf transaction) = wins world.opened ∧
      wins (world.callsElsewhere transaction) = [] := by
  have howner : ∀ call ∈ world.opened, call.won = true → call.transaction = transaction := by
    intro call hcall hwon
    obtain ⟨other, hother⟩ := h.holds call hcall hwon
    rw [hholder] at hother
    injection hother with hother
    injection hother with hother
    exact hother.symm
  constructor
  · exact wins_filter_all fun call hcall hwon => decide_eq_true (howner call hcall hwon)
  · refine wins_filter_none fun call hcall hwon => ?_
    exact decide_eq_false fun hother => hother (howner call hcall hwon)

theorem Serial.wins_other (h : Serial act initial world)
    (hholder : ∀ pending, world.holder ≠ some (transaction, pending)) :
    wins (world.callsOf transaction) = [] ∧
      wins (world.callsElsewhere transaction) = wins world.opened := by
  have howner : ∀ call ∈ world.opened, call.won = true → call.transaction ≠ transaction := by
    intro call hcall hwon hsame
    obtain ⟨pending, hpending⟩ := h.holds call hcall hwon
    rw [hsame] at hpending
    exact hholder pending hpending
  constructor
  · exact wins_filter_none fun call hcall hwon => decide_eq_false (howner call hcall hwon)
  · exact wins_filter_all fun call hcall hwon => decide_eq_true (howner call hcall hwon)

theorem Serial.call (h : Serial act initial world)
    (hcall : world.call act transaction attempt = some next) : Serial act initial next := by
  rcases call_cases hcall with ⟨_, rfl⟩ | ⟨written, hwritten, hfree, rfl⟩
  · refine ⟨h.settles, ?_, ?_⟩
    · show Machine.run act world.committed (wins (world.opened ++ [_])) = some world.current
      rw [wins_append]
      exact (List.append_nil (wins world.opened)).symm ▸ h.pends
    · intro call hmem hwon
      rcases List.mem_append.mp hmem with hbefore | hnew
      · exact h.holds call hbefore hwon
      · rw [List.mem_singleton.mp hnew] at hwon
        cases hwon
  · refine ⟨h.settles, ?_, ?_⟩
    · show Machine.run act world.committed (wins (world.opened ++ [_])) = some written
      rw [wins_append, Machine.run_append]
      exact ⟨world.current, h.pends, Machine.run_cons.mpr ⟨written, hwritten, rfl⟩⟩
    · intro call hmem hwon
      rcases List.mem_append.mp hmem with hbefore | hnew
      · obtain ⟨pending, hpending⟩ := h.holds call hbefore hwon
        have hsame : call.transaction = transaction := World.holder_free hfree hpending
        rw [hsame]
        exact ⟨written, rfl⟩
      · rw [List.mem_singleton.mp hnew]
        exact ⟨written, rfl⟩

/-- What is left of the open calls when a transaction ends. -/
theorem Serial.ends (h : Serial act initial world) {call : Call τ α}
    (hcall : call ∈ world.callsElsewhere transaction) (hwon : call.won = true) :
    ∃ pending, (world.holder.filter fun held => decide (held.1 ≠ transaction)) =
      some (call.transaction, pending) := by
  unfold World.callsElsewhere at hcall
  rw [List.mem_filter, decide_eq_true_eq] at hcall
  obtain ⟨pending, hpending⟩ := h.holds call hcall.1 hwon
  refine ⟨pending, ?_⟩
  rw [hpending]
  exact Option.filter_eq_some_iff.mpr ⟨rfl, decide_eq_true hcall.2⟩

theorem holder_kept (hholder : ∀ pending, world.holder ≠ some (transaction, pending)) :
    (world.holder.filter fun held => decide (held.1 ≠ transaction)) = world.holder := by
  cases hheld : world.holder with
  | none => rfl
  | some held =>
      obtain ⟨holder, pending⟩ := held
      refine Option.filter_eq_some_iff.mpr ⟨rfl, decide_eq_true ?_⟩
      intro hsame
      exact hholder pending (hheld.trans (by rw [show holder = transaction from hsame]))

theorem holder_dropped {pending : σ} (hholder : world.holder = some (transaction, pending)) :
    (world.holder.filter fun held => decide (held.1 ≠ transaction)) = none := by
  rw [hholder]
  exact Option.filter_eq_none_iff.mpr fun held hheld => by
    rw [← Option.some.inj hheld]
    simp

/-- A transaction that has written nothing ends without a trace in the versions. -/
theorem ends_untouched {event : Event τ α} (h : RowLock.step act world event = some next)
    (hevent : event = .commit transaction ∨ event = .rollback transaction)
    (hholder : ∀ pending, world.holder ≠ some (transaction, pending)) :
    next.committed = world.committed ∧ next.holder = world.holder := by
  rcases hevent with rfl | rfl
  · rw [(step_cases h).2]
    exact ⟨World.seenBy_other hholder, holder_kept hholder⟩
  · rw [(step_cases h).2]
    exact ⟨rfl, holder_kept hholder⟩

theorem Serial.commit (h : Serial act initial world) (transaction : τ) :
    Serial act initial (world.commit transaction) := by
  refine ⟨?_, ?_, fun call hcall hwon => h.ends hcall hwon⟩
  · show Machine.run act initial (wins (world.settled ++ world.callsOf transaction)) =
      some (world.seenBy transaction)
    rw [wins_append, Machine.run_append]
    refine ⟨world.committed, h.settles, ?_⟩
    by_cases hholder : ∃ pending, world.holder = some (transaction, pending)
    · obtain ⟨pending, hpending⟩ := hholder
      rw [(h.wins_holder hpending).1, World.seenBy_holder hpending, h.pends, World.current,
        hpending]
    · have hother := not_exists.mp hholder
      rw [(h.wins_other hother).1, World.seenBy_other hother]
      rfl
  · show Machine.run act (world.seenBy transaction)
      (wins (world.callsElsewhere transaction)) = some (world.commit transaction).current
    by_cases hholder : ∃ pending, world.holder = some (transaction, pending)
    · obtain ⟨pending, hpending⟩ := hholder
      rw [(h.wins_holder hpending).2, World.current, World.commit]
      dsimp only
      rw [holder_dropped hpending]
      rfl
    · have hother := not_exists.mp hholder
      rw [(h.wins_other hother).2, World.seenBy_other hother, h.pends, World.current,
        World.current, World.commit]
      dsimp only
      rw [holder_kept hother, World.seenBy_other hother]

theorem Serial.rollback (h : Serial act initial world) (transaction : τ) :
    Serial act initial (world.rollback transaction) := by
  refine ⟨h.settles, ?_, fun call hcall hwon => h.ends hcall hwon⟩
  show Machine.run act world.committed (wins (world.callsElsewhere transaction)) =
    some (world.rollback transaction).current
  by_cases hholder : ∃ pending, world.holder = some (transaction, pending)
  · obtain ⟨pending, hpending⟩ := hholder
    rw [(h.wins_holder hpending).2, World.current, World.rollback]
    dsimp only
    rw [holder_dropped hpending]
    rfl
  · have hother := not_exists.mp hholder
    rw [(h.wins_other hother).2, h.pends, World.current, World.current, World.rollback]
    dsimp only
    rw [holder_kept hother]

theorem Serial.step {event : Event τ α} (h : Serial act initial world)
    (hstep : RowLock.step act world event = some next) : Serial act initial next := by
  obtain ⟨_, hevent⟩ := step_cases hstep
  cases event with
  | read transaction => exact hevent ▸ h
  | call transaction attempt => exact h.call hevent
  | commit transaction => exact hevent ▸ h.commit transaction
  | rollback transaction => exact hevent ▸ h.rollback transaction

/-- The committed version changes only where a transaction that wrote commits. -/
theorem Serial.committed_changed {event : Event τ α} (h : Serial act initial world)
    (hstep : RowLock.step act world event = some next)
    (hchanged : next.committed ≠ world.committed) :
    ∃ transaction, event = .commit transaction ∧
      ∃ call ∈ world.opened, call.transaction = transaction ∧ call.won = true := by
  obtain ⟨_, hevent⟩ := step_cases hstep
  cases event with
  | read transaction => exact absurd (congrArg World.committed hevent) hchanged
  | call transaction attempt =>
      rcases call_cases hevent with ⟨_, rfl⟩ | ⟨_, _, _, rfl⟩
      · exact absurd rfl hchanged
      · exact absurd rfl hchanged
  | rollback transaction => exact absurd (congrArg World.committed hevent) hchanged
  | commit transaction =>
      refine ⟨transaction, rfl, ?_⟩
      have hheld : ∃ pending, world.holder = some (transaction, pending) := by
        by_contra hother
        exact hchanged (ends_untouched hstep (.inl rfl) (not_exists.mp hother)).1
      obtain ⟨pending, hpending⟩ := hheld
      -- With nothing won the pending version would be the committed one.
      have hwon : wins world.opened ≠ [] := by
        intro hnil
        have hpends := h.pends
        rw [hnil, World.current, hpending] at hpends
        injection hpends with hpends
        rw [hevent] at hchanged
        exact hchanged ((World.seenBy_holder hpending).trans hpends.symm)
      obtain ⟨attempt, hattempt⟩ := List.exists_mem_of_ne_nil _ hwon
      obtain ⟨call, hcall, hwins, _⟩ := mem_wins.mp hattempt
      refine ⟨call, hcall, ?_, hwins⟩
      obtain ⟨other, hother⟩ := h.holds call hcall hwins
      rw [hpending] at hother
      injection hother with hother
      injection hother with hother _
      exact hother.symm

/-- **Serial execution.** -/
theorem serial_run {events : List (Event τ α)}
    (hrun : Machine.run (RowLock.step act) (start initial) events = some world) :
    Serial act initial world :=
  Machine.invariant_run (fun _ _ _ hserial hstep => hserial.step hstep) serial_start hrun

end Serial

/-! ## Calls of which the first one wins

After one of them has written, none of them writes again. -/

section First

variable {act : σ → α → Option σ} {initial : σ} {world next : World σ τ α}

/-- Calls of one kind of which the first one wins, among others that leave that be. -/
theorem Serial.at_most_one_of (h : Serial act initial world) {closed : σ → Prop}
    {kind : α → Bool}
    (hcloses : ∀ version attempt written, kind attempt = true →
      act version attempt = some written → closed written)
    (hlasts : ∀ version attempt written, closed version → act version attempt = some written →
      closed written)
    (hrefuses : ∀ version attempt, closed version → kind attempt = true →
      act version attempt = none) :
    (wins world.calls).countP kind ≤ 1 :=
  (Machine.run_countP_le_one hcloses hlasts hrefuses h.replays).1

theorem Serial.same_winner (h : Serial act initial world) {closed : σ → Prop}
    {kind : α → Bool}
    (hcloses : ∀ version attempt written, kind attempt = true →
      act version attempt = some written → closed written)
    (hlasts : ∀ version attempt written, closed version → act version attempt = some written →
      closed written)
    (hrefuses : ∀ version attempt, closed version → kind attempt = true →
      act version attempt = none)
    {first second : Call τ α} (hfirst : first ∈ world.calls) (hsecond : second ∈ world.calls)
    (hfirstWon : first.won = true) (hsecondWon : second.won = true)
    (hfirstKind : kind first.attempt = true) (hsecondKind : kind second.attempt = true) :
    first = second := by
  have hone := h.at_most_one_of hcloses hlasts hrefuses
  unfold wins at hone
  rw [List.countP_map, List.countP_filter, List.countP_eq_length_filter] at hone
  have hmem : ∀ call ∈ world.calls, call.won = true → kind call.attempt = true →
      call ∈ world.calls.filter fun call => (kind ∘ Call.attempt) call && call.won := by
    intro call hcall hwon hkind
    refine List.mem_filter.mpr ⟨hcall, ?_⟩
    rw [Bool.and_eq_true]
    exact ⟨hkind, hwon⟩
  have hfirst := hmem first hfirst hfirstWon hfirstKind
  have hsecond := hmem second hsecond hsecondWon hsecondKind
  match hwinners : world.calls.filter fun call => (kind ∘ Call.attempt) call && call.won with
  | [] => exact absurd (hwinners ▸ hfirst) List.not_mem_nil
  | [only] =>
      rw [hwinners] at hfirst hsecond
      rw [List.mem_singleton.mp hfirst, List.mem_singleton.mp hsecond]
  | _ :: _ :: _ =>
      rw [hwinners, List.length_cons, List.length_cons] at hone
      omega

theorem Serial.at_most_one (h : Serial act initial world)
    (hcloses : ∀ version attempt written, act version attempt = some written →
      ∀ other, act written other = none) :
    (wins world.calls).length ≤ 1 := by
  have hall := @Serial.at_most_one_of _ _ _ act initial world h
    (fun version => ∀ other, act version other = none) (fun _ => true)
    (fun version attempt written _ hwritten => hcloses version attempt written hwritten)
    (fun version attempt written _ hwritten => hcloses version attempt written hwritten)
    (fun _ attempt hclosed _ => hclosed attempt)
  rwa [List.countP_true] at hall

/-- The newest version is what the call that wrote made of the first. -/
theorem Serial.won_by (h : Serial act initial world)
    (hcloses : ∀ version attempt written, act version attempt = some written →
      ∀ other, act written other = none)
    {call : Call τ α} (hcall : call ∈ world.calls) (hwon : call.won = true) :
    act initial call.attempt = some world.current := by
  have hmem : call.attempt ∈ wins world.calls := mem_wins.mpr ⟨call, hcall, hwon, rfl⟩
  have hone := h.at_most_one hcloses
  have hreplays := h.replays
  match hwins : wins world.calls with
  | [] => exact absurd (hwins ▸ hmem) List.not_mem_nil
  | [only] =>
      rw [hwins] at hmem hreplays
      rw [List.mem_singleton.mp hmem]
      obtain ⟨written, hwritten, hrest⟩ := Machine.run_cons.mp hreplays
      injection hrest with hrest
      rw [hwritten, hrest]
  | _ :: _ :: _ =>
      rw [hwins, List.length_cons, List.length_cons] at hone
      omega

/-- Where the one that wrote has committed, nothing is pending. -/
theorem Serial.settled_by (h : Serial act initial world)
    (hcloses : ∀ version attempt written, act version attempt = some written →
      ∀ other, act written other = none)
    {call : Call τ α} (hcall : call ∈ world.settled) (hwon : call.won = true) :
    world.current = world.committed := by
  have hmem : call.attempt ∈ wins world.settled := mem_wins.mpr ⟨call, hcall, hwon, rfl⟩
  have hone := h.at_most_one hcloses
  have hpends := h.pends
  rw [World.calls, wins_append, List.length_append] at hone
  have hpos := List.length_pos_of_mem hmem
  rw [List.eq_nil_of_length_eq_zero (by omega : (wins world.opened).length = 0)] at hpends
  injection hpends with hpends
  exact hpends.symm

/-- On a row none of them writes to, none has written. -/
theorem Serial.closed (h : Serial act initial world)
    (hclosed : ∀ attempt, act world.committed attempt = none) :
    world.current = world.committed := by
  have hpends := h.pends
  match hwins : wins world.opened with
  | [] =>
      rw [hwins] at hpends
      injection hpends with hpends
      exact hpends.symm
  | first :: _ =>
      rw [hwins] at hpends
      obtain ⟨written, hwritten, _⟩ := Machine.run_cons.mp hpends
      rw [hclosed first] at hwritten
      cases hwritten

variable [DecidableEq τ]

theorem World.seenBy_cases (world : World σ τ α) (transaction : τ) :
    world.seenBy transaction = world.committed ∨
      world.seenBy transaction = world.current := by
  unfold World.seenBy World.current
  cases world.holder with
  | none => exact Or.inl rfl
  | some held =>
      obtain ⟨holder, pending⟩ := held
      dsimp only
      split
      · exact Or.inr rfl
      · exact Or.inl rfl

/-- Once a version that none of them writes to is committed, no event moves it. -/
theorem Serial.final {event : Event τ α} (h : Serial act initial world)
    (hclosed : ∀ attempt, act world.committed attempt = none)
    (hstep : RowLock.step act world event = some next) :
    next.committed = world.committed := by
  obtain ⟨_, hevent⟩ := step_cases hstep
  cases event with
  | read transaction => rw [hevent]
  | call transaction attempt =>
      rcases call_cases hevent with ⟨_, rfl⟩ | ⟨_, _, _, rfl⟩
      · rfl
      · rfl
  | commit transaction =>
      rw [hevent]
      show world.seenBy transaction = world.committed
      rcases world.seenBy_cases transaction with hseen | hseen
      · exact hseen
      · rw [hseen, h.closed hclosed]
  | rollback transaction => rw [hevent]; rfl

theorem Serial.final_run {events : List (Event τ α)} (h : Serial act initial world)
    (hclosed : ∀ attempt, act world.committed attempt = none)
    (hrun : Machine.run (RowLock.step act) world events = some next) :
    next.committed = world.committed := by
  have hkept := @Machine.invariant_run _ _ (RowLock.step act)
    (fun later => Serial act initial later ∧ later.committed = world.committed)
    (fun state event after ⟨hserial, hsame⟩ hstep =>
      ⟨hserial.step hstep, (hserial.final (hsame ▸ hclosed) hstep).trans hsame⟩)
    world next events ⟨h, rfl⟩ hrun
  exact hkept.2

/-! ### Why a call was refused -/

/-- Refusals last: what a call was refused on is still refused. -/
structure Refused (act : σ → α → Option σ) (world : World σ τ α) : Prop where
  settled : ∀ call ∈ world.settled, call.won = false →
    act world.committed call.attempt = none
  opened : ∀ call ∈ world.opened, call.won = false →
    act (world.seenBy call.transaction) call.attempt = none

theorem refused_run (hlasts : ∀ version attempt written other,
      act version attempt = some written → act version other = none →
      act written other = none)
    {version last : σ} {attempts : List α} {other : α}
    (hrun : Machine.run act version attempts = some last)
    (hrefused : act version other = none) : act last other = none :=
  @Machine.invariant_run _ _ act (fun later => act later other = none)
    (fun _ _ _ hbefore hstep => hlasts _ _ _ _ hstep hbefore) _ _ _ hrefused hrun

theorem seenBy_wrote {transaction other : τ} {written : σ} {opened : List (Call τ α)}
    (hother : other ≠ transaction) (hfree : world.freeFor transaction = true) :
    ({ world with holder := some (transaction, written), opened } : World σ τ α).seenBy other =
      world.seenBy other := by
  have hnone : ∀ pending, world.holder ≠ some (other, pending) := by
    intro pending hholder
    exact hother (World.holder_free hfree hholder)
  rw [World.seenBy_other hnone]
  exact if_neg (Ne.symm hother)

theorem seenBy_rollback {transaction other : τ} (hother : other ≠ transaction) :
    (world.rollback transaction).seenBy other = world.seenBy other := by
  by_cases hholder : ∃ pending, world.holder = some (transaction, pending)
  · obtain ⟨pending, hpending⟩ := hholder
    unfold World.seenBy World.rollback
    dsimp only
    rw [holder_dropped hpending, hpending]
    exact (if_neg (Ne.symm hother)).symm
  · unfold World.seenBy World.rollback
    dsimp only
    rw [holder_kept (not_exists.mp hholder)]

/-- After a commit another transaction sees what it saw, or what was committed
over it. -/
theorem seenBy_commit {transaction other : τ} (hother : other ≠ transaction) :
    (world.commit transaction).seenBy other = world.seenBy other ∨
      (world.seenBy other = world.committed ∧
        (world.commit transaction).seenBy other = world.current) := by
  by_cases hholder : ∃ pending, world.holder = some (transaction, pending)
  · obtain ⟨pending, hpending⟩ := hholder
    refine Or.inr ⟨?_, ?_⟩
    · unfold World.seenBy
      rw [hpending]
      exact if_neg (Ne.symm hother)
    · rw [World.seenBy, World.commit]
      dsimp only
      rw [holder_dropped hpending, World.seenBy_holder hpending, World.current, hpending]
  · have hnone := not_exists.mp hholder
    refine Or.inl ?_
    rw [World.seenBy, World.commit]
    dsimp only
    rw [holder_kept hnone, World.seenBy_other hnone]
    rfl

theorem refused_start : Refused act (start initial : World σ τ α) where
  settled := fun _ hcall => absurd hcall List.not_mem_nil
  opened := fun _ hcall => absurd hcall List.not_mem_nil

theorem Refused.step {event : Event τ α} (h : Refused act world)
    (hserial : Serial act initial world)
    (hlasts : ∀ version attempt written other, act version attempt = some written →
      act version other = none → act written other = none)
    (hstep : RowLock.step act world event = some next) : Refused act next := by
  have hcurrent : ∀ attempt, act world.committed attempt = none →
      act world.current attempt = none :=
    fun _ hrefused => refused_run hlasts hserial.pends hrefused
  obtain ⟨_, hevent⟩ := step_cases hstep
  cases event with
  | read transaction => exact hevent ▸ h
  | call transaction attempt =>
      rcases call_cases hevent with ⟨hrefused, rfl⟩ | ⟨written, hwritten, hfree, rfl⟩
      · refine ⟨h.settled, ?_⟩
        intro call hmem hlost
        rcases List.mem_append.mp hmem with hbefore | hnew
        · exact h.opened call hbefore hlost
        · rw [List.mem_singleton.mp hnew]
          exact hrefused
      · refine ⟨h.settled, ?_⟩
        intro call hmem hlost
        rcases List.mem_append.mp hmem with hbefore | hnew
        · have hseen := h.opened call hbefore hlost
          by_cases hsame : call.transaction = transaction
          · rw [hsame, World.seenBy_free hfree] at hseen
            rw [hsame, World.seenBy_holder rfl]
            exact hlasts _ _ _ _ hwritten hseen
          · rw [seenBy_wrote hsame hfree]
            exact hseen
        · rw [List.mem_singleton.mp hnew] at hlost
          cases hlost
  | commit transaction =>
      rw [hevent]
      refine ⟨?_, ?_⟩
      · intro call hmem hlost
        show act (world.seenBy transaction) call.attempt = none
        rcases List.mem_append.mp hmem with hbefore | hown
        · rcases world.seenBy_cases transaction with hseen | hseen
          · rw [hseen]
            exact h.settled call hbefore hlost
          · rw [hseen]
            exact hcurrent _ (h.settled call hbefore hlost)
        · rw [World.callsOf, List.mem_filter, decide_eq_true_eq] at hown
          rw [← hown.2]
          exact h.opened call hown.1 hlost
      · intro call hmem hlost
        change call ∈ world.callsElsewhere transaction at hmem
        rw [World.callsElsewhere, List.mem_filter, decide_eq_true_eq] at hmem
        have hseen := h.opened call hmem.1 hlost
        rcases seenBy_commit hmem.2 with hsame | ⟨hbefore, hafter⟩
        · rw [hsame]
          exact hseen
        · rw [hbefore] at hseen
          rw [hafter]
          exact hcurrent _ hseen
  | rollback transaction =>
      rw [hevent]
      refine ⟨h.settled, ?_⟩
      intro call hmem hlost
      change call ∈ world.callsElsewhere transaction at hmem
      rw [World.callsElsewhere, List.mem_filter, decide_eq_true_eq] at hmem
      rw [seenBy_rollback hmem.2]
      exact h.opened call hmem.1 hlost

theorem refused_lasts {events : List (Event τ α)}
    (hlasts : ∀ version attempt written other, act version attempt = some written →
      act version other = none → act written other = none)
    (hrun : Machine.run (RowLock.step act) (start initial) events = some world) :
    Refused act world := by
  have hboth := @Machine.invariant_run _ _ (RowLock.step act)
    (fun later => Serial act initial later ∧ Refused act later)
    (fun state event after ⟨hserial, hrefused⟩ hstep =>
      ⟨hserial.step hstep, hrefused.step hserial hlasts hstep⟩)
    (start initial) world events ⟨serial_start, refused_start⟩ hrun
  exact hboth.2

/-- **Exactly one.** Where the first version accepts every call and a version that
one of them wrote accepts none, a run in which a call has returned has exactly one
that wrote. -/
theorem exactly_one {events : List (Event τ α)}
    (hopen : ∀ attempt, act initial attempt ≠ none)
    (hcloses : ∀ version attempt written, act version attempt = some written →
      ∀ other, act written other = none)
    (hrun : Machine.run (RowLock.step act) (start initial) events = some world)
    (hreturned : world.calls ≠ []) : world.calls.countP Call.won = 1 := by
  have hserial := serial_run hrun
  have hrefused := refused_lasts
    (fun _ _ _ other hwritten _ => hcloses _ _ _ hwritten other) hrun
  have hone := hserial.at_most_one hcloses
  rw [← wins_length]
  by_contra hnot
  have hnone : wins world.calls = [] := List.eq_nil_of_length_eq_zero (by omega)
  have hcurrent : world.current = initial := by
    have hreplays := hserial.replays
    rw [hnone] at hreplays
    injection hreplays with hreplays
    exact hreplays.symm
  have hcommitted : world.committed = initial := by
    have hsettles := hserial.settles
    rw [World.calls, wins_append] at hnone
    rw [(List.append_eq_nil_iff.mp hnone).1] at hsettles
    injection hsettles with hsettles
    exact hsettles.symm
  obtain ⟨call, hcall⟩ := List.exists_mem_of_ne_nil _ hreturned
  have hlost : call.won = false := by
    rw [← Bool.not_eq_true]
    intro hwon
    exact absurd (mem_wins.mpr ⟨call, hcall, hwon, rfl⟩) (hnone ▸ List.not_mem_nil)
  refine hopen call.attempt ?_
  rcases List.mem_append.mp hcall with hsettled | hopened
  · rw [← hcommitted]
    exact hrefused.settled call hsettled hlost
  · have hseen := hrefused.opened call hopened hlost
    rcases world.seenBy_cases call.transaction with h | h
    · rwa [h, hcommitted] at hseen
    · rwa [h, hcurrent] at hseen

end First

end RowLock

/-!
## Conditional updates of many rows

Transactions over a table, at Read Committed. A statement is about one row, which its
arguments name; a transaction ends for all rows at once. Seen at one row, the run of a
table is a run of that row: the statements about other rows are reads of it.

So what is known of every run of one row is known of every row of every run.
-/

namespace RowLock

variable {κ σ τ α : Type*}

structure Rows (κ σ τ α : Type*) where
  row : κ → World σ τ α
  ended : List τ := []

namespace Rows

/-- Before any call. -/
def start (initial : κ → σ) : Rows κ σ τ α := { row := fun key => RowLock.start (initial key) }

variable [DecidableEq κ] [DecidableEq τ]

/-- One event. A transaction that has ended takes no part in any. -/
def step (act : σ → α → Option σ) (keyOf : α → κ) (rows : Rows κ σ τ α) (event : Event τ α) :
    Option (Rows κ σ τ α) :=
  if World.transactionOf event ∈ rows.ended then none
  else
    match event with
    | .read _ => some rows
    | .call transaction attempt =>
        ((rows.row (keyOf attempt)).call act transaction attempt).map fun next =>
          { rows with row := Function.update rows.row (keyOf attempt) next }
    | .commit transaction =>
        some
          { row := fun key => (rows.row key).commit transaction
            ended := transaction :: rows.ended }
    | .rollback transaction =>
        some
          { row := fun key => (rows.row key).rollback transaction
            ended := transaction :: rows.ended }

omit [DecidableEq τ] in
/-- What an event is at one row. -/
def seenAt (keyOf : α → κ) (key : κ) : Event τ α → Event τ α
  | .call transaction attempt =>
      if keyOf attempt = key then .call transaction attempt else .read transaction
  | event => event

/-- All rows agree on which transactions have ended. -/
def Agree (rows : Rows κ σ τ α) : Prop := ∀ key, (rows.row key).ended = rows.ended

variable {act : σ → α → Option σ} {keyOf : α → κ} {rows next : Rows κ σ τ α}
  {event : Event τ α}

theorem call_ended {world after : World σ τ α} {transaction : τ} {attempt : α}
    (h : world.call act transaction attempt = some after) : after.ended = world.ended := by
  rcases call_cases h with ⟨_, rfl⟩ | ⟨_, _, _, rfl⟩ <;> rfl

theorem step_seenAt (hagree : rows.Agree) (h : step act keyOf rows event = some next)
    (key : κ) :
    RowLock.step act (rows.row key) (seenAt keyOf key event) = some (next.row key) := by
  unfold step at h
  split at h
  · cases h
  · next hopen =>
      rw [← hagree key] at hopen
      cases event with
      | read transaction =>
          cases h
          simp only [seenAt]
          exact if_neg hopen
      | call transaction attempt =>
          obtain ⟨after, hafter, rfl⟩ := Option.map_eq_some_iff.mp h
          by_cases hkey : keyOf attempt = key
          · subst hkey
            simp only [seenAt, if_true, Function.update_self]
            exact (if_neg hopen).trans hafter
          · simp only [seenAt, if_neg hkey, Function.update_of_ne (Ne.symm hkey)]
            exact if_neg hopen
      | commit transaction =>
          cases h
          simp only [seenAt]
          exact if_neg hopen
      | rollback transaction =>
          cases h
          simp only [seenAt]
          exact if_neg hopen

theorem Agree.step (hagree : rows.Agree) (h : Rows.step act keyOf rows event = some next) :
    next.Agree := by
  unfold Rows.step at h
  split at h
  · cases h
  · intro key
    cases event with
    | read transaction =>
        cases h
        exact hagree key
    | call transaction attempt =>
        obtain ⟨after, hafter, rfl⟩ := Option.map_eq_some_iff.mp h
        by_cases hkey : keyOf attempt = key
        · subst hkey
          simp only [Function.update_self]
          exact (call_ended hafter).trans (hagree _)
        · simp only [Function.update_of_ne (Ne.symm hkey)]
          exact hagree key
    | commit transaction =>
        cases h
        exact congrArg (transaction :: ·) (hagree key)
    | rollback transaction =>
        cases h
        exact congrArg (transaction :: ·) (hagree key)

/-- The run of a table, seen at one of its rows. -/
theorem run_seenAt {events : List (Event τ α)} (hagree : rows.Agree)
    (hrun : Machine.run (step act keyOf) rows events = some next) (key : κ) :
    Machine.run (RowLock.step act) (rows.row key) (events.map (seenAt keyOf key)) =
      some (next.row key) := by
  induction events generalizing rows with
  | nil =>
      rw [Machine.run, Option.some.injEq] at hrun
      rw [hrun]
      rfl
  | cons event events ih =>
      obtain ⟨middle, hstep, hrest⟩ := Machine.run_cons.mp hrun
      exact Machine.run_cons.mpr
        ⟨middle.row key, step_seenAt hagree hstep key, ih (hagree.step hstep) hrest⟩

theorem agree_run {initial : κ → σ} {events : List (Event τ α)}
    (hrun : Machine.run (step act keyOf) (start initial) events = some next) : next.Agree :=
  Machine.invariant_run (fun _ _ _ hagree hstep => hagree.step hstep) (fun _ => rfl) hrun

/-- A call touches the row it names. -/
theorem call_elsewhere {transaction : τ} {attempt : α}
    (h : step act keyOf rows (.call transaction attempt) = some next) {key : κ}
    (hkey : key ≠ keyOf attempt) : next.row key = rows.row key := by
  unfold step at h
  split at h
  · cases h
  · obtain ⟨after, _, rfl⟩ := Option.map_eq_some_iff.mp h
    exact Function.update_of_ne hkey _ _

/-- The calls kept with a row name that row. -/
def Filed (keyOf : α → κ) (rows : Rows κ σ τ α) : Prop :=
  ∀ key, ∀ call ∈ (rows.row key).calls, keyOf call.attempt = key

omit [DecidableEq τ] in
theorem seenAt_call {key : κ} {transaction : τ} {attempt : α}
    (h : seenAt keyOf key event = .call transaction attempt) : keyOf attempt = key := by
  cases event with
  | call first made =>
      by_cases hkey : keyOf made = key
      · rw [seenAt, if_pos hkey] at h
        injection h with _ hsame
        exact hsame ▸ hkey
      · rw [seenAt, if_neg hkey] at h
        cases h
  | read => cases h
  | commit => cases h
  | rollback => cases h

omit [DecidableEq τ] in
theorem seenAt_own {transaction : τ} {attempt : α} :
    seenAt keyOf (keyOf attempt) (.call transaction attempt) = .call transaction attempt :=
  if_pos rfl

omit [DecidableEq τ] in
theorem seenAt_commit {key : κ} {transaction : τ}
    (h : seenAt keyOf key event = .commit transaction) : event = .commit transaction := by
  cases event with
  | call first made =>
      by_cases hkey : keyOf made = key
      · rw [seenAt, if_pos hkey] at h
        cases h
      · rw [seenAt, if_neg hkey] at h
        cases h
  | read => cases h
  | commit => exact h
  | rollback => cases h

theorem filed_run {initial : κ → σ} {events : List (Event τ α)}
    (hrun : Machine.run (step act keyOf) (start initial) events = some next) :
    next.Filed keyOf := by
  have hkept : ∀ (rows : Rows κ σ τ α) (event : Event τ α) (next : Rows κ σ τ α),
      rows.Agree ∧ rows.Filed keyOf → step act keyOf rows event = some next →
        next.Agree ∧ next.Filed keyOf := by
    intro rows event next hinv hstep
    refine ⟨hinv.1.step hstep, fun key call hcall => ?_⟩
    rcases step_calls (step_seenAt hinv.1 hstep key) hcall with hbefore | hnew
    · exact hinv.2 key call hbefore
    · exact seenAt_call hnew
  have hstart : (start initial : Rows κ σ τ α).Agree ∧ (start initial : Rows κ σ τ α).Filed keyOf :=
    ⟨fun _ => rfl, fun _ _ hcall => absurd hcall List.not_mem_nil⟩
  exact (Machine.invariant_run hkept hstart hrun).2

/-- **Every row of a run is serial.** -/
theorem serial_run {initial : κ → σ} {events : List (Event τ α)}
    (hrun : Machine.run (step act keyOf) (start initial) events = some next) (key : κ) :
    Serial act (initial key) (next.row key) :=
  RowLock.serial_run (run_seenAt (fun _ => rfl) hrun key)

end Rows

end RowLock
