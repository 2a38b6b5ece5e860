import Synthia.Persistence.UnitOfWork

/-!
# A unit of work is one transaction

Three facts about the stack are kept by every step that does not leave a unit whose `close`
raises: the session in force is the innermost unit's, each token restores the session of the
unit around it, and no session is open twice. With them, what is pending on a session is
what was written with its unit innermost, so a commit makes exactly those writes durable.

`__aexit__` resets the variable after the close and not in a `finally` of its own. Where
`close` raises, the session in force stays that of a unit that is over: the next write is
not refused, and one inside an enclosing unit goes to a transaction no one commits.
-/

namespace Synthia.Engine

open Machine

variable {Row : Type}

/-! ## The calls on a session -/

namespace Transactions

variable {database : Transactions Row} {session : AsyncSession} {call : Awaited}

theorem mem_written {write : Write Row} :
    write ∈ database.written session ↔ (session, write) ∈ database.pending := by
  rw [written, List.mem_map]
  constructor
  · intro h
    obtain ⟨⟨owner, other⟩, hentry, hwrite⟩ := h
    obtain ⟨hpending, howner⟩ := List.mem_filter.mp hentry
    rw [← hwrite, ← beq_iff_eq.mp howner]
    exact hpending
  · intro h
    exact ⟨(session, write), List.mem_filter.mpr ⟨h, beq_self_eq_true session⟩, rfl⟩

theorem mem_release {entry : AsyncSession × Write Row} :
    entry ∈ (database.release session).pending ↔
      entry ∈ database.pending ∧ entry.1 ≠ session := by
  rw [release, List.mem_filter, bne_iff_ne]

theorem mem_rollback {entry : AsyncSession × Write Row} :
    entry ∈ (database.rollback session call).pending ↔
      entry ∈ database.pending ∧ (call.carriedOut = true → entry.1 ≠ session) := by
  rw [rollback]
  split
  · next hdone => rw [mem_release, forall_prop_of_true hdone]
  · next hdone => rw [forall_prop_of_false hdone, and_true]

theorem mem_close {entry : AsyncSession × Write Row} :
    entry ∈ (database.close session call).pending ↔
      entry ∈ database.pending ∧ (call.carriedOut = true → entry.1 ≠ session) :=
  mem_rollback

theorem mem_commit {entry : AsyncSession × Write Row} :
    entry ∈ (database.commit session call).pending ↔
      entry ∈ database.pending ∧ (call.carriedOut = true → entry.1 ≠ session) := by
  rw [commit]
  split
  · next hdone => exact mem_release.trans (by rw [forall_prop_of_true hdone])
  · next hdone => rw [forall_prop_of_false hdone, and_true]

theorem durable_rollback : (database.rollback session call).durable = database.durable := by
  rw [rollback]
  split
  · rfl
  · rfl

theorem durable_close : (database.close session call).durable = database.durable :=
  durable_rollback

theorem mem_durable_commit {write : Write Row} :
    write ∈ (database.commit session call).durable ↔
      write ∈ database.durable ∨
        call.carriedOut = true ∧ (session, write) ∈ database.pending := by
  rw [commit]
  split
  · next hdone =>
      rw [List.mem_append, mem_written, and_iff_right hdone, or_comm]
  · next hdone =>
      constructor
      · exact Or.inl
      · intro h
        rcases h with h | h
        · exact h
        · exact absurd h.1 hdone

variable {leaving : Leaving}

theorem mem_of_settle {entry : AsyncSession × Write Row}
    (h : entry ∈ (database.settle session leaving).pending) : entry ∈ database.pending := by
  rw [settle] at h
  split at h
  · exact (mem_commit.mp h).1
  · exact (mem_rollback.mp h).1

theorem mem_settle_of_ne {entry : AsyncSession × Write Row} (h : entry ∈ database.pending)
    (hother : entry.1 ≠ session) : entry ∈ (database.settle session leaving).pending := by
  rw [settle]
  split
  · exact mem_commit.mpr ⟨h, fun _ => hother⟩
  · exact mem_rollback.mpr ⟨h, fun _ => hother⟩

theorem mem_durable_settle {write : Write Row} :
    write ∈ (database.settle session leaving).durable ↔
      write ∈ database.durable ∨
        leaving.succeeds = true ∧ (session, write) ∈ database.pending := by
  rw [settle, Leaving.succeeds]
  split
  · exact mem_durable_commit
  · rw [durable_rollback]
    constructor
    · exact Or.inl
    · intro h
      rcases h with h | h
      · exact h
      · cases h.1

end Transactions

namespace UnitWorld

/-- What one step owes: a write is durable exactly if the unit innermost when it was made
succeeded, so that the writes of a unit are durable together; a write with no unit open is
refused and leaves no trace; and the session in force is the innermost unit's, or none. -/
structure OneTransaction (world : UnitWorld Row) (event : UnitEvent Row)
    (next : UnitWorld Row) : Prop where
  durable_iff : ∀ made ∈ next.made, made.write ∈ next.database.durable ↔
    ∃ unit, made.unit = some unit ∧ unit ∈ next.succeeded
  together : ∀ made ∈ next.made, ∀ other ∈ next.made, made.unit = other.unit →
    (made.write ∈ next.database.durable ↔ other.write ∈ next.database.durable)
  refused : ∀ row execute, event = .write row execute → world.units = [] →
    next = { world with ended := .error .noUnitOfWork }
  restored : next.current = next.innermost

/-- The event is not the end of a unit whose `close` raises. -/
def ClosesQuietly (world : UnitWorld Row) (event : UnitEvent Row) : Prop :=
  ∀ leaving, event = .leave leaving → world.units ≠ [] → leaving.close.raises = false

/-! ## The invariant -/

/-- Each token restores the session of the unit around it. -/
def Chained : List UnitOfWork → Prop
  | [] => True
  | unit :: outer => unit.token = outer.head?.map UnitOfWork.session ∧ Chained outer

structure Kept (world : UnitWorld Row) : Prop where
  current : world.current = world.innermost
  chained : Chained world.units
  distinct : (world.units.map UnitOfWork.session).Nodup
  created : ∀ unit ∈ world.units, unit.session < world.created
  succeeded : ∀ session ∈ world.succeeded, session < world.created
  unsettled : ∀ unit ∈ world.units, unit.session ∉ world.succeeded
  pending : ∀ session write, (session, write) ∈ world.database.pending →
    ⟨write, some session⟩ ∈ world.made
  durable : ∀ write ∈ world.database.durable, write.number < world.written
  numbered : ∀ made ∈ world.made, made.write.number < world.written
  once : ∀ made ∈ world.made, ∀ other ∈ world.made, made.write = other.write →
    made.unit = other.unit
  accounted : ∀ made ∈ world.made, ∃ session, made.unit = some session ∧
    session < world.created ∧
    (made.write ∈ world.database.durable ↔ session ∈ world.succeeded)
  waiting : ∀ made ∈ world.made, ∀ unit ∈ world.units, made.unit = some unit.session →
    (unit.session, made.write) ∈ world.database.pending

theorem kept_initial : (initial : UnitWorld Row).Kept where
  current := rfl
  chained := trivial
  distinct := List.nodup_nil
  created := by intro unit h; cases h
  succeeded := by intro session h; cases h
  unsettled := by intro unit h; cases h
  pending := by intro session write h; cases h
  durable := by intro write h; cases h
  numbered := by intro made h; cases h
  once := by intro made h; cases h
  accounted := by intro made h; cases h
  waiting := by intro made h; cases h

/-! ## Entering -/

section Enter

variable {world : UnitWorld Row} {begins : Awaited}

theorem aenter_raised (hraises : begins.raises = true) : world.aenter begins =
    { world with created := world.created + 1, ended := begins.ended } := by
  rw [aenter, if_pos hraises]

theorem aenter_begun (hraises : ¬ begins.raises = true) : world.aenter begins =
    { world with
      created := world.created + 1
      ended := begins.ended
      current := some world.created
      units := ⟨world.created, world.current⟩ :: world.units } := by
  rw [aenter, if_neg hraises]

theorem Kept.enter (hkept : world.Kept) : (world.aenter begins).Kept := by
  have haccounted : ∀ made ∈ world.made, ∃ session, made.unit = some session ∧
      session < world.created + 1 ∧
      (made.write ∈ world.database.durable ↔ session ∈ world.succeeded) := by
    intro made hmade
    obtain ⟨session, hunit, hlt, hdurable⟩ := hkept.accounted made hmade
    exact ⟨session, hunit, Nat.lt_succ_of_lt hlt, hdurable⟩
  by_cases hraises : begins.raises = true
  · rw [aenter_raised hraises]
    exact
      { current := hkept.current
        chained := hkept.chained
        distinct := hkept.distinct
        created := fun unit h => Nat.lt_succ_of_lt (hkept.created unit h)
        succeeded := fun session h => Nat.lt_succ_of_lt (hkept.succeeded session h)
        unsettled := hkept.unsettled
        pending := hkept.pending
        durable := hkept.durable
        numbered := hkept.numbered
        once := hkept.once
        accounted := haccounted
        waiting := hkept.waiting }
  · rw [aenter_begun hraises]
    -- the new session is none of those created before
    have hnew : world.created ∉ world.units.map UnitOfWork.session := by
      intro h
      obtain ⟨unit, hunit, hsession⟩ := List.mem_map.mp h
      have hlt := hkept.created unit hunit
      rw [hsession] at hlt
      exact Nat.lt_irrefl _ hlt
    exact
      { current := rfl
        chained := ⟨hkept.current, hkept.chained⟩
        distinct := List.nodup_cons.mpr ⟨hnew, hkept.distinct⟩
        created := by
          intro unit h
          rcases List.mem_cons.mp h with rfl | h
          · exact Nat.lt_succ_self _
          · exact Nat.lt_succ_of_lt (hkept.created unit h)
        succeeded := fun session h => Nat.lt_succ_of_lt (hkept.succeeded session h)
        unsettled := by
          intro unit h hsucceeded
          rcases List.mem_cons.mp h with rfl | h
          · exact Nat.lt_irrefl _ (hkept.succeeded _ hsucceeded)
          · exact hkept.unsettled unit h hsucceeded
        pending := hkept.pending
        durable := hkept.durable
        numbered := hkept.numbered
        once := hkept.once
        accounted := haccounted
        waiting := by
          intro made hmade unit h hunit
          rcases List.mem_cons.mp h with rfl | h
          · obtain ⟨session, hsession, hlt, _⟩ := hkept.accounted made hmade
            rw [hsession] at hunit
            injection hunit with hunit
            exact absurd hlt (by rw [hunit]; exact Nat.lt_irrefl _)
          · exact hkept.waiting made hmade unit h hunit }

end Enter

/-! ## Writing -/

section Write

variable {world : UnitWorld Row} {row : Row} {execute : Awaited}

theorem Kept.currentSession_eq (hkept : world.Kept) {unit : UnitOfWork}
    {outer : List UnitOfWork} (hunits : world.units = unit :: outer) :
    world.currentSession = .ok unit.session := by
  rw [currentSession, hkept.current, innermost, hunits]
  rfl

theorem write_refused (hkept : world.Kept) (hunits : world.units = []) :
    world.write row execute = { world with ended := .error .noUnitOfWork } := by
  rw [write, currentSession, hkept.current, innermost, hunits]
  rfl

theorem Kept.write (hkept : world.Kept) : (world.write row execute).Kept := by
  cases hunits : world.units with
  | nil =>
      rw [write_refused hkept hunits]
      exact ⟨hkept.current, hkept.chained, hkept.distinct, hkept.created, hkept.succeeded,
        hkept.unsettled, hkept.pending, hkept.durable, hkept.numbered, hkept.once,
        hkept.accounted, hkept.waiting⟩
  | cons unit outer =>
      have hopen : unit ∈ world.units := by
        rw [hunits]
        exact List.mem_cons_self
      have hinnermost : world.innermost = some unit.session := by
        rw [innermost, hunits]
        rfl
      rw [UnitWorld.write, hkept.currentSession_eq hunits]
      dsimp only
      by_cases hdone : execute.carriedOut = true
      · rw [Transactions.execute, if_pos hdone, if_pos hdone, hinnermost]
        -- its number is new, so it is no write made before
        have hfresh : ∀ made ∈ world.made, made.write ≠ ⟨world.written, row⟩ := by
          intro made hmade heq
          have hlt := hkept.numbered made hmade
          rw [heq] at hlt
          exact Nat.lt_irrefl _ hlt
        exact
          { current := hkept.current
            chained := hkept.chained
            distinct := hkept.distinct
            created := hkept.created
            succeeded := hkept.succeeded
            unsettled := hkept.unsettled
            pending := by
              intro session write h
              rcases List.mem_cons.mp h with heq | h
              · injection heq with hsession hwrite
                rw [hsession, hwrite]
                exact List.mem_cons_self
              · exact List.mem_cons_of_mem _ (hkept.pending session write h)
            durable := fun write h => Nat.lt_succ_of_lt (hkept.durable write h)
            numbered := by
              intro made h
              rcases List.mem_cons.mp h with rfl | h
              · exact Nat.lt_succ_self _
              · exact Nat.lt_succ_of_lt (hkept.numbered made h)
            once := by
              intro made hmade other hother heq
              rcases List.mem_cons.mp hmade with rfl | hmade
              · rcases List.mem_cons.mp hother with rfl | hother
                · rfl
                · exact absurd heq.symm (hfresh other hother)
              · rcases List.mem_cons.mp hother with rfl | hother
                · exact absurd heq (hfresh made hmade)
                · exact hkept.once made hmade other hother heq
            accounted := by
              intro made h
              rcases List.mem_cons.mp h with rfl | h
              · refine ⟨unit.session, rfl, hkept.created unit hopen, ?_⟩
                constructor
                · intro hdurable
                  exact absurd (hkept.durable _ hdurable) (Nat.lt_irrefl _)
                · intro hsucceeded
                  exact absurd hsucceeded (hkept.unsettled unit hopen)
              · exact hkept.accounted made h
            waiting := by
              intro made h inner hinner hunit
              rcases List.mem_cons.mp h with rfl | h
              · injection hunit with hunit
                rw [hunit]
                exact List.mem_cons_self
              · exact List.mem_cons_of_mem _ (hkept.waiting made h inner hinner hunit) }
      · rw [Transactions.execute, if_neg hdone, if_neg hdone]
        exact
          { current := hkept.current
            chained := hkept.chained
            distinct := hkept.distinct
            created := hkept.created
            succeeded := hkept.succeeded
            unsettled := hkept.unsettled
            pending := hkept.pending
            durable := fun write h => Nat.lt_succ_of_lt (hkept.durable write h)
            numbered := fun made h => Nat.lt_succ_of_lt (hkept.numbered made h)
            once := hkept.once
            accounted := hkept.accounted
            waiting := hkept.waiting }

end Write

/-! ## Leaving -/

section Leave

variable {world : UnitWorld Row} {unit : UnitOfWork} {outer : List UnitOfWork}
  {leaving : Leaving}

theorem aexit_raised (hraises : leaving.close.raises = true) :
    (world.aexit unit outer leaving).current = world.current := by
  rw [aexit, if_pos hraises]

theorem aexit_quiet (hquiet : leaving.close.raises = false) :
    world.aexit unit outer leaving =
      { world with
        current := unit.token
        units := outer
        database :=
          (world.database.settle unit.session leaving).close unit.session leaving.close
        succeeded :=
          if leaving.succeeds then unit.session :: world.succeeded else world.succeeded
        ended := leaving.ended } := by
  rw [aexit, hquiet]
  rfl

theorem units_aexit : (world.aexit unit outer leaving).units = outer := by
  rw [aexit]
  split
  · rfl
  · rfl

theorem mem_succeeded {session : AsyncSession} :
    session ∈ (if leaving.succeeds then unit.session :: world.succeeded
      else world.succeeded) ↔
      session ∈ world.succeeded ∨ leaving.succeeds = true ∧ session = unit.session := by
  split
  · next hsucceeds => rw [List.mem_cons, and_iff_right hsucceeds, or_comm]
  · next hfails =>
      constructor
      · exact Or.inl
      · intro h
        rcases h with h | h
        · exact h
        · exact absurd h.1 hfails

theorem Kept.leave (hkept : world.Kept) (hunits : world.units = unit :: outer)
    (hquiet : leaving.close.raises = false) : (world.aexit unit outer leaving).Kept := by
  have hopen : unit ∈ world.units := by
    rw [hunits]
    exact List.mem_cons_self
  have houter : ∀ other ∈ outer, other ∈ world.units := by
    intro other h
    rw [hunits]
    exact List.mem_cons_of_mem _ h
  have hchained := hkept.chained
  have hdistinct := hkept.distinct
  rw [hunits] at hchained hdistinct
  rw [List.map_cons, List.nodup_cons] at hdistinct
  have hother : ∀ other ∈ outer, other.session ≠ unit.session := by
    intro other h heq
    exact hdistinct.1 (heq ▸ List.mem_map_of_mem h)
  rw [aexit_quiet hquiet]
  exact
    { current := hchained.1
      chained := hchained.2
      distinct := hdistinct.2
      created := fun other h => hkept.created other (houter other h)
      succeeded := by
        intro session h
        rcases mem_succeeded.mp h with h | ⟨_, h⟩
        · exact hkept.succeeded session h
        · rw [h]
          exact hkept.created unit hopen
      unsettled := by
        intro other h hsucceeded
        rcases mem_succeeded.mp hsucceeded with hsucceeded | ⟨_, hsession⟩
        · exact hkept.unsettled other (houter other h) hsucceeded
        · exact hother other h hsession
      pending := fun session write h =>
        hkept.pending session write (Transactions.mem_of_settle (Transactions.mem_close.mp h).1)
      durable := by
        intro write h
        rw [Transactions.durable_close, Transactions.mem_durable_settle] at h
        rcases h with h | ⟨_, h⟩
        · exact hkept.durable write h
        · exact hkept.numbered _ (hkept.pending _ write h)
      numbered := hkept.numbered
      once := hkept.once
      accounted := by
        intro made hmade
        obtain ⟨session, hunit, hlt, hdurable⟩ := hkept.accounted made hmade
        refine ⟨session, hunit, hlt, ?_⟩
        rw [Transactions.durable_close, Transactions.mem_durable_settle, mem_succeeded, hdurable]
        -- what the unit has pending is what was made with it innermost
        have hwhose : (unit.session, made.write) ∈ world.database.pending ↔
            session = unit.session := by
          constructor
          · intro h
            have hsame := hkept.once _ (hkept.pending _ _ h) made hmade rfl
            rw [hunit] at hsame
            exact (Option.some.inj hsame).symm
          · intro h
            rw [h] at hunit
            exact hkept.waiting made hmade unit hopen hunit
        rw [hwhose]
      waiting := by
        intro made hmade other h hunit
        have hpending := hkept.waiting made hmade other (houter other h) hunit
        exact Transactions.mem_close.mpr
          ⟨Transactions.mem_settle_of_ne hpending (hother other h), fun _ => hother other h⟩ }

end Leave

/-! ## Every step, and every run -/

section Step

variable {world next : UnitWorld Row} {event : UnitEvent Row}

theorem Kept.step (hkept : world.Kept) (hquiet : world.ClosesQuietly event)
    (hstep : world.step event = some next) : next.Kept := by
  cases event with
  | enter begins =>
      injection hstep with hstep
      rw [← hstep]
      exact hkept.enter
  | write row execute =>
      injection hstep with hstep
      rw [← hstep]
      exact hkept.write
  | leave leaving =>
      unfold UnitWorld.step at hstep
      cases hunits : world.units with
      | nil =>
          rw [hunits] at hstep
          cases hstep
      | cons unit outer =>
          rw [hunits] at hstep
          injection hstep with hstep
          rw [← hstep]
          have hopen : world.units ≠ [] := by
            rw [hunits]
            exact List.cons_ne_nil unit outer
          exact hkept.leave hunits (hquiet leaving rfl hopen)

theorem Kept.oneTransaction (hkept : world.Kept) (hnext : next.Kept)
    (hstep : world.step event = some next) : OneTransaction world event next where
  durable_iff := by
    intro made hmade
    obtain ⟨session, hunit, _, hdurable⟩ := hnext.accounted made hmade
    rw [hdurable]
    constructor
    · intro h
      exact ⟨session, hunit, h⟩
    · intro h
      obtain ⟨unit, hsame, hsucceeded⟩ := h
      rw [hunit] at hsame
      rw [Option.some.inj hsame]
      exact hsucceeded
  together := by
    intro made hmade other hother hsame
    obtain ⟨session, hunit, _, hdurable⟩ := hnext.accounted made hmade
    obtain ⟨session', hunit', _, hdurable'⟩ := hnext.accounted other hother
    rw [hunit, hunit'] at hsame
    rw [hdurable, hdurable', Option.some.inj hsame]
  refused := by
    intro row execute hevent hunits
    rw [hevent] at hstep
    injection hstep with hstep
    rw [← hstep]
    exact write_refused hkept hunits
  restored := hnext.current

/-- Where a close raises, the unit that is over is still the one in force. -/
theorem Kept.displaced (hkept : world.Kept) {leaving : Leaving} {unit : UnitOfWork}
    {outer : List UnitOfWork} (hunits : world.units = unit :: outer)
    (hraises : leaving.close.raises = true) :
    (world.aexit unit outer leaving).current ≠ (world.aexit unit outer leaving).innermost := by
  rw [aexit_raised hraises, hkept.current, innermost, innermost, hunits, units_aexit]
  have hdistinct := hkept.distinct
  rw [hunits] at hdistinct
  cases outer with
  | nil =>
      intro h
      cases h
  | cons second rest =>
      intro h
      have hsession : unit.session = second.session := Option.some.inj h
      apply (List.nodup_cons.mp hdistinct).1
      rw [hsession]
      exact List.mem_cons_self

theorem Kept.step_iff (hkept : world.Kept) :
    (∀ next, world.step event = some next → OneTransaction world event next) ↔
      world.ClosesQuietly event := by
  constructor
  · intro hone leaving hevent hopen
    rw [← Bool.not_eq_true]
    intro hraises
    obtain ⟨unit, outer, hunits⟩ := List.exists_cons_of_ne_nil hopen
    have hstep : world.step event = some (world.aexit unit outer leaving) := by
      rw [hevent, UnitWorld.step, hunits]
    exact hkept.displaced hunits hraises (hone _ hstep).restored
  · intro hquiet next hstep
    exact hkept.oneTransaction (hkept.step hquiet hstep) hstep

end Step

/-- Whatever the program, and wherever it is interrupted, its units of work are
transactions exactly as long as no unit is left by a `close` that raises. -/
theorem one_transaction_iff (events : List (UnitEvent Row)) :
    Along step (fun world event => ∀ next, world.step event = some next →
      OneTransaction world event next) initial events ↔
    Along step ClosesQuietly initial events :=
  along_iff (fun _ _ hkept => hkept.step_iff)
    (fun _ _ _ hkept hquiet hstep => hkept.step hquiet hstep) kept_initial events

end UnitWorld

/-! ## A close that is cancelled -/

namespace SampleUnit

open UnitWorld

inductive Change where
  | verdict
  | trigger
  deriving DecidableEq

def returns : Awaited := ⟨true, false⟩

/-- Carried out, and then cancelled. -/
def cancelled : Awaited := ⟨true, true⟩

def leavingBy (close : Awaited) : Leaving := ⟨.ok (), returns, returns, close⟩

def before : List (UnitEvent Change) := [.enter returns, .enter returns]

/-- The enclosing unit catches the cancellation, records a verdict, and commits. -/
def nested : List (UnitEvent Change) :=
  before ++ .leave (leavingBy cancelled) ::
    [.write .verdict returns, .leave (leavingBy returns)]

/-- The next request of the same task enqueues a trigger. -/
def alone : List (UnitEvent Change) :=
  [.enter returns, .leave (leavingBy cancelled), .write .trigger returns]

/-- The verdict is lost by a unit that succeeded, and the trigger is taken with no unit
open. -/
theorem writes_displaced :
    (run step initial nested).map (fun last =>
        (last.made, last.succeeded, last.database.durable)) =
      some ([⟨⟨0, .verdict⟩, some 0⟩], [0, 1], []) ∧
    (run step initial alone).map (fun last => (last.units, last.made, last.ended)) =
      some ([], [⟨⟨0, .trigger⟩, none⟩], .ok ()) ∧
    ¬ Along step (fun world event => ∀ next, world.step event = some next →
      OneTransaction world event next) initial nested := by
  refine ⟨by decide, by decide, ?_⟩
  intro h
  have hrun : run step initial before = some ((initial.aenter returns).aenter returns) := rfl
  have hleft := along_at h hrun
  exact absurd (hleft _ rfl).restored (by decide)

end SampleUnit

end Synthia.Engine
