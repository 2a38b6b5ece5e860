import Synthia.Workers.IngestionRun

/-!
# Closed ingestion runs

A terminal run never advances again: so the state says. The statement that closes a run
selects by version alone, and a worker that reads a closed row reads a version that is
still good. What keeps a closed run closed is therefore which calls are made: none may
find a closed row at the version it carries, unless it writes what stands there already.

One direction is an invariant along the run, that every row closed at some point is there
later with what it recorded. For the other, the first call that finds a closed row and
writes anything else changes it at that step.
-/

namespace Synthia.Ingestion

open Relational

/-- What a run ended with: its status, its count and when it finished. -/
def IngestionRunRow.outcome (row : IngestionRunRow) :
    IngestionRunState × Int × Option Instant :=
  (row.state, row.documentCount, row.completedAt)

/-- Every run closed in the first table is in the second as it was closed. -/
def StaysClosed (runs later : IngestionRunTable) : Prop :=
  ∀ row ∈ runs.rows, row.state.isTerminal = true →
    ∃ kept ∈ later.rows, kept.runId = row.runId ∧ kept.outcome = row.outcome

/-- What a call writes over the outcome of the row it finds. -/
def Closing.outcome (closing : Closing) (now : Instant) :
    IngestionRunState × Int × Option Instant :=
  (closing.state, closing.documentCount, some now)

/-- The call finds no closed row at the version it carries, or leaves its outcome as it
stands. A call that raises finds none. -/
def World.sparesClosed (world : World) : Action → Bool
  | .close worker closing now raises =>
      !closing.state.isTerminal || raises ||
        match world.held worker with
        | some read => world.runs.rows.all fun row =>
            !(read.selects row && row.state.isTerminal) || row.outcome == closing.outcome now
        | none => true
  | .openRun .. | .read .. => true

/-! ## One call -/

/-- Where the statement is carried out, the table is the update of what was found. -/
theorem closed_closeRun {runs : IngestionRunTable} {read : ReadRow} {closing : Closing}
    {now : Instant} {raises : Bool} :
    closed runs (closeRun runs read closing now raises) =
      if closing.state.isTerminal && !raises then
        runs.update read.selects (closing.values now)
      else runs := by
  unfold closeRun
  cases closing.state.isTerminal with
  | false => rfl
  | true => cases raises <;> rfl

theorem Closing.outcome_values (closing : Closing) (now : Instant) (row : IngestionRunRow) :
    ((closing.values now).apply row).outcome = closing.outcome now :=
  rfl

theorem World.step_close {world next : World} {worker : WorkerId} {closing : Closing}
    {now : Instant} {raises : Bool}
    (h : world.step (.close worker closing now raises) = some next) :
    ∃ read, world.held worker = some read ∧
      next.runs = closed world.runs (closeRun world.runs read closing now raises) := by
  obtain ⟨read, hread, hnext⟩ := Option.map_eq_some_iff.mp h
  exact ⟨read, hread, hnext ▸ rfl⟩

/-- Opening a run and reading one leave every row where it is. -/
theorem World.mem_step_of_not_close {world next : World} {action : Action}
    (hnot : ∀ worker closing now raises, action ≠ .close worker closing now raises)
    (h : world.step action = some next) {row : IngestionRunRow}
    (hrow : row ∈ world.runs.rows) : row ∈ next.runs.rows := by
  cases action with
  | openRun runId tenant source watermark now =>
      obtain ⟨runs, hopened, hnext⟩ := Option.map_eq_some_iff.mp h
      rw [← hnext]
      unfold openRun at hopened
      split at hopened
      · injection hopened with hopened
        rw [← hopened]
        exact List.mem_append_left _ hrow
      · cases hopened
  | read worker tenant runId =>
      injection h with h
      rw [← h]
      exact hrow
  | close worker closing now raises => exact absurd rfl (hnot worker closing now raises)

/-- A row closed before a sparing step keeps its outcome through it. -/
theorem World.step_spares {world next : World} {action : Action}
    (hspares : world.sparesClosed action = true) (h : world.step action = some next)
    {row : IngestionRunRow} (hrow : row ∈ world.runs.rows)
    (hterminal : row.state.isTerminal = true) :
    ∃ kept ∈ next.runs.rows, kept.runId = row.runId ∧ kept.outcome = row.outcome := by
  cases action with
  | close worker closing now raises =>
      obtain ⟨read, hread, hruns⟩ := World.step_close h
      rw [hruns, closed_closeRun]
      split
      · next hcarried =>
          rw [Bool.and_eq_true, Bool.not_eq_true'] at hcarried
          dsimp only [World.sparesClosed] at hspares
          rw [hcarried.1, hcarried.2, hread] at hspares
          have hone := List.all_eq_true.mp hspares row hrow
          rw [hterminal, Bool.and_true] at hone
          refine ⟨_, mem_updateRows.mpr ⟨row, hrow, rfl⟩, ?_⟩
          cases hselects : read.selects row with
          | false => exact ⟨rfl, rfl⟩
          | true =>
              rw [hselects] at hone
              exact ⟨rfl, (closing.outcome_values now row).trans (beq_iff_eq.mp hone).symm⟩
      · exact ⟨row, hrow, rfl, rfl⟩
  | openRun runId tenant source watermark now =>
      exact ⟨row, World.mem_step_of_not_close (fun _ _ _ _ heq => by cases heq) h hrow, rfl, rfl⟩
  | read worker tenant runId =>
      exact ⟨row, World.mem_step_of_not_close (fun _ _ _ _ heq => by cases heq) h hrow, rfl, rfl⟩

/-- A step that spares none leaves some closed run with another outcome. -/
theorem World.step_reopens {world next : World} {action : Action}
    (hspares : ¬ world.sparesClosed action = true) (h : world.step action = some next) :
    ¬ StaysClosed world.runs next.runs := by
  intro hstays
  cases action with
  | openRun runId tenant source watermark now => exact hspares rfl
  | read worker tenant runId => exact hspares rfl
  | close worker closing now raises =>
      obtain ⟨read, hread, hruns⟩ := World.step_close h
      dsimp only [World.sparesClosed] at hspares
      rw [hread, Bool.or_eq_true, Bool.or_eq_true, not_or, not_or, Bool.not_eq_true',
        Bool.not_eq_false, Bool.not_eq_true, List.all_eq_true] at hspares
      obtain ⟨⟨hterminal, hraises⟩, hfound⟩ := hspares
      push Not at hfound
      obtain ⟨row, hrow, hhit⟩ := hfound
      rw [Ne, Bool.or_eq_true, not_or, Bool.not_eq_true', Bool.not_eq_false, Bool.and_eq_true,
        beq_iff_eq] at hhit
      obtain ⟨⟨hselects, hclosed⟩, hother⟩ := hhit
      obtain ⟨kept, hkept, hsame, houtcome⟩ := hstays row hrow hclosed
      have hwritten : (closing.values now).apply row ∈ next.runs.rows := by
        rw [hruns, closed_closeRun, hterminal, hraises]
        refine mem_updateRows.mpr ⟨row, hrow, ?_⟩
        rw [if_pos hselects]
      have heq := next.runs.eq_of_key hkept hwritten hsame
      rw [heq, closing.outcome_values now row] at houtcome
      exact hother houtcome.symm

/-! ## The run -/

/-- Over the whole run: a run once closed is found with its outcome ever after. -/
def ClosedForGood (actions : List Action) : Prop :=
  ∀ before between after, actions = before ++ (between ++ after) →
    ∀ middle later, Machine.run World.step {} before = some middle →
      Machine.run World.step middle between = some later → StaysClosed middle.runs later.runs

/-- Closed runs stay closed if and only if every call spares those it finds. -/
theorem closed_for_good_iff {actions : List Action} {last : World}
    (hrun : Machine.run World.step {} actions = some last) :
    ClosedForGood actions ↔
      Machine.Along World.step (fun world action => world.sparesClosed action = true) {}
        actions := by
  constructor
  · intro h
    refine Machine.along_of_forall ?_
    rintro before action after middle rfl hbefore
    by_contra hspares
    obtain ⟨reached, hreached, hrest⟩ := Machine.run_append.mp hrun
    rw [hbefore] at hreached
    injection hreached with hreached
    subst hreached
    obtain ⟨next, hnext, _⟩ := Machine.run_cons.mp hrest
    have honly : Machine.run World.step middle [action] = some next :=
      Machine.run_cons.mpr ⟨next, hnext, rfl⟩
    exact World.step_reopens hspares hnext
      (h before [action] after rfl middle next hbefore honly)
  · intro hgood before between after hsplit middle later hbefore hbetween row hrow hterminal
    subst hsplit
    have halong := Machine.along_before (Machine.along_after hgood hbefore)
    have hstep : ∀ world action next,
        (∃ kept ∈ world.runs.rows, kept.runId = row.runId ∧ kept.outcome = row.outcome) →
        world.sparesClosed action = true → World.step world action = some next →
        ∃ kept ∈ next.runs.rows, kept.runId = row.runId ∧ kept.outcome = row.outcome := by
      rintro world action next ⟨kept, hkept, hid, houtcome⟩ hspares hnext
      have hclosed : kept.state.isTerminal = true := by
        have hstate : kept.state = row.state := congrArg Prod.fst houtcome
        rw [hstate]
        exact hterminal
      obtain ⟨again, hagain, hid', houtcome'⟩ := World.step_spares hspares hnext hkept hclosed
      exact ⟨again, hagain, hid'.trans hid, houtcome'.trans houtcome⟩
    exact Machine.invariant_along hstep ⟨row, hrow, rfl, rfl⟩ hbetween halong

/-! ### Two workers, at once and one after the other -/

def contoso : TenantContext := ⟨⟨1⟩, ⟨1⟩, .active, .workItem⟩

def opened : List Action := [.openRun ⟨7⟩ contoso "sharepoint" none 0]

def completing : Action := .close 1 ⟨.completed, some "2026-09-16", 12⟩ 10 false

def failing : Action := .close 2 ⟨.failed, none, 0⟩ 20 false

/-- Both read before either writes: the second finds another version. -/
def atOnce : List Action :=
  opened ++ [.read 1 contoso ⟨7⟩, .read 2 contoso ⟨7⟩, completing, failing]

theorem atOnce_runs : (Machine.run World.step {} atOnce).isSome = true := by
  decide +kernel

theorem atOnce_closed : ClosedForGood atOnce :=
  (closed_for_good_iff (Option.some_get atOnce_runs).symm).mpr (by decide +kernel)

/-- The second reads when the first has closed. -/
def lateWriter : List Action :=
  opened ++ ([.read 1 contoso ⟨7⟩, completing] ++ [.read 2 contoso ⟨7⟩, failing])

theorem closing_runs :
    (Machine.run World.step {} (opened ++ [.read 1 contoso ⟨7⟩, completing])).isSome = true := by
  decide +kernel

theorem failing_runs : (Machine.run World.step
    ((Machine.run World.step {} (opened ++ [.read 1 contoso ⟨7⟩, completing])).get closing_runs)
    [.read 2 contoso ⟨7⟩, failing]).isSome = true := by
  decide +kernel

theorem late_writer_reopens : ¬ ClosedForGood lateWriter := by
  intro h
  have hstays := h (opened ++ [.read 1 contoso ⟨7⟩, completing])
    [.read 2 contoso ⟨7⟩, failing] [] rfl _ _
    (Option.some_get closing_runs).symm (Option.some_get failing_runs).symm
  unfold StaysClosed at hstays
  revert hstays
  decide +kernel

end Synthia.Ingestion
