import Synthia.Lib.Machine
import Synthia.Persistence.Views

/-!
# What the rollup counts

A day is published for what is created or requested on it, and its figures are chosen by
what is created or decided on it. Two published days of an organisation never overlap,
because each is the day of one instant; so an instant is in exactly one window if its day
is published and in none otherwise. Summed over the windows, a figure is therefore the
number of what it counts whose own instant lies on a published day.

For sessions that is all of them: a session's creation publishes its day. A decision
publishes nothing, and neither does a message.
-/

namespace Synthia

open Relational

namespace ReportingStore

variable {store : ReportingStore} {tenantId : TenantId} {start instant : Instant}

/-- Something of the organisation happened on the day that publishes it. -/
def ActiveDay (store : ReportingStore) (tenantId : TenantId) (day : Instant) : Prop :=
  (∃ row ∈ store.sessions.rows, row.tenantId = tenantId ∧ truncDay row.createdAt = day) ∨
    ∃ row ∈ store.approvals.rows, row.tenantId = tenantId ∧ truncDay row.requestedAt = day

/-- The days published for an organisation. -/
def openDays (store : ReportingStore) (tenantId : TenantId) : List Instant :=
  (store.windows.filter fun window => window.1 == tenantId).map Prod.snd

/-! ## Days -/

theorem days_one_pos : 0 < days 1 := by decide

theorem mem_windows {window : TenantId × Instant} :
    window ∈ store.windows ↔ store.ActiveDay window.1 window.2 := by
  obtain ⟨tenantId, day⟩ := window
  simp only [windows, List.mem_dedup, List.mem_append, List.mem_map, Prod.mk.injEq, ActiveDay]

theorem mem_openDays : start ∈ store.openDays tenantId ↔ store.ActiveDay tenantId start := by
  rw [openDays, List.mem_map]
  constructor
  · intro h
    obtain ⟨window, hwindow, hstart⟩ := h
    obtain ⟨hmem, htenant⟩ := List.mem_filter.mp hwindow
    rw [← hstart, ← eq_of_beq htenant]
    exact mem_windows.mp hmem
  · intro h
    exact ⟨(tenantId, start), List.mem_filter.mpr ⟨mem_windows.mpr h, beq_self_eq_true _⟩, rfl⟩

/-- A published day is a day's start. -/
theorem ActiveDay.truncDay_eq (h : store.ActiveDay tenantId start) : truncDay start = start := by
  rcases h with ⟨row, _, _, hday⟩ | ⟨row, _, _, hday⟩
  · rw [← hday]
    exact windowStart_windowStart days_one_pos _
  · rw [← hday]
    exact windowStart_windowStart days_one_pos _

theorem openDays_nodup : (store.openDays tenantId).Nodup := by
  refine List.Nodup.map_on ?_ ((List.nodup_dedup _).filter _)
  intro a ha b hb h
  obtain ⟨_, ha⟩ := List.mem_filter.mp ha
  obtain ⟨_, hb⟩ := List.mem_filter.mp hb
  exact Prod.ext ((eq_of_beq ha).trans (eq_of_beq hb).symm) h

theorem inDay_iff (h : truncDay start = start) :
    inDay start instant = true ↔ truncDay instant = start := by
  rw [inDay, Bool.and_eq_true, decide_eq_true_eq, decide_eq_true_eq]
  exact mem_window_iff days_one_pos h

theorem inDay_eq (h : start ∈ store.openDays tenantId) :
    inDay start instant = (truncDay instant == start) := by
  rw [Bool.eq_iff_iff, inDay_iff (mem_openDays.mp h).truncDay_eq, beq_iff_eq]

/-- The rows of an organisation, a day at a time. -/
theorem rollupOf_eq :
    store.rollupOf tenantId =
      (store.openDays tenantId).map fun start => store.rollupRow (tenantId, start) := by
  rw [rollupOf, vwDashboardRollupV1, List.filter_map, openDays, List.map_map]
  refine List.map_congr_left fun window hwindow => ?_
  obtain ⟨_, htenant⟩ := List.mem_filter.mp hwindow
  have hsame : window.1 = tenantId := eq_of_beq htenant
  rw [Function.comp_apply, ← hsame]

/-- An instant is in one window exactly when its day is published. -/
theorem countP_covers_eq_one :
    ((store.rollupOf tenantId).countP fun row => row.covers instant) = 1 ↔
      store.ActiveDay tenantId (truncDay instant) := by
  rw [rollupOf_eq, List.countP_map, ← mem_openDays, ← countP_bucket_eq_one openDays_nodup]
  refine iff_of_eq (congrArg (· = 1) (List.countP_congr fun day hday => ?_))
  show inDay day instant = true ↔ _
  rw [inDay_eq hday, beq_iff_eq, beq_iff_eq, eq_comm]

/-- Summed over the windows, a count by an instant is a count of what lies on a
published day. -/
theorem sum_over_days {ρ : Type} (rows : List ρ) (pred : ρ → Bool)
    (instantOf : ρ → Option Instant) :
    ((store.openDays tenantId).map fun start =>
        rows.countP fun row => pred row && (instantOf row).any (inDay start)).sum =
      rows.countP fun row => pred row && (instantOf row).any fun instant =>
        decide (truncDay instant ∈ store.openDays tenantId) := by
  have hdays : (store.openDays tenantId).Nodup := openDays_nodup
  have hbucket := sum_countP_bucket hdays
    (fun row => truncDay ((instantOf row).getD 0))
    (fun row => pred row && (instantOf row).isSome) rows
  calc ((store.openDays tenantId).map fun start =>
        rows.countP fun row => pred row && (instantOf row).any (inDay start)).sum
      = ((store.openDays tenantId).map fun start => rows.countP fun row =>
          (pred row && (instantOf row).isSome) &&
            truncDay ((instantOf row).getD 0) == start).sum := by
        congr 1
        refine List.map_congr_left fun start hstart => ?_
        refine List.countP_congr fun row _ => ?_
        cases instantOf row with
        | none => simp
        | some instant => simp [inDay_eq hstart]
    _ = _ := hbucket
    _ = _ := by
        refine List.countP_congr fun row _ => ?_
        cases instantOf row with
        | none => simp
        | some instant => simp

/-! ## Every figure once -/

/-- The approvals of an organisation that were granted and whose work was not executed. -/
def approvedUnexecuted (store : ReportingStore) (tenantId : TenantId) (approval : ApprovalRow) :
    Bool :=
  approval.tenantId == tenantId && approval.verdict == some .approved &&
    store.workItems.rows.any fun work => worksOn approval work && work.state != .executed

/-- The windows of an organisation do not overlap, everything falls in one of them, and
the figures add up. -/
structure CountsOnce (store : ReportingStore) (tenantId : TenantId) : Prop where
  disjoint : (store.rollupOf tenantId).Pairwise fun a b =>
    ∀ instant, ¬ (a.covers instant = true ∧ b.covers instant = true)
  sessions : ∀ row ∈ store.sessions.rows, row.tenantId = tenantId →
    ((store.rollupOf tenantId).countP fun window => window.covers row.createdAt) = 1
  decisions : ∀ row ∈ store.approvals.rows, row.tenantId = tenantId →
    ∀ decidedAt, row.decidedAt = some decidedAt →
      ((store.rollupOf tenantId).countP fun window => window.covers decidedAt) = 1
  messages : ∀ row ∈ store.messages.rows, row.tenantId = tenantId → row.senderKind = .agent →
    ((store.rollupOf tenantId).countP fun window => window.covers row.createdAt) = 1
  sessionTotal : ((store.rollupOf tenantId).map RollupRow.sessionCount).sum =
    store.sessions.rows.countP fun row => row.tenantId == tenantId
  approvalTotal : ((store.rollupOf tenantId).map RollupRow.approvalCount).sum =
    store.approvals.rows.countP fun row => row.tenantId == tenantId && row.decidedAt.isSome
  unexecutedTotal : ((store.rollupOf tenantId).map RollupRow.unexecutedApprovalCount).sum =
    store.approvals.rows.countP (store.approvedUnexecuted tenantId)

theorem rollup_disjoint : (store.rollupOf tenantId).Pairwise fun a b =>
    ∀ instant, ¬ (a.covers instant = true ∧ b.covers instant = true) := by
  rw [rollupOf_eq, List.pairwise_map]
  refine List.Pairwise.imp_of_mem ?_ openDays_nodup
  intro a b ha hb hne instant h
  obtain ⟨hin_a, hin_b⟩ := h
  rw [inDay_iff (mem_openDays.mp ha).truncDay_eq |>.mp hin_a |>.symm] at hne
  exact hne (inDay_iff (mem_openDays.mp hb).truncDay_eq |>.mp hin_b)

theorem sum_sessionCount :
    ((store.rollupOf tenantId).map RollupRow.sessionCount).sum =
      store.sessions.rows.countP fun row => row.tenantId == tenantId := by
  rw [rollupOf_eq, List.map_map]
  refine (sum_over_days store.sessions.rows (fun row => row.tenantId == tenantId)
    (fun row => some row.createdAt)).trans (List.countP_congr fun row hrow => ?_)
  rw [Option.any_some, Bool.and_eq_true, decide_eq_true_eq, beq_iff_eq, mem_openDays]
  exact and_iff_left_of_imp fun htenant => Or.inl ⟨row, hrow, htenant, rfl⟩

/-- The day of every decision is published. -/
def DecisionsOnActiveDays (store : ReportingStore) (tenantId : TenantId) : Prop :=
  ∀ row ∈ store.approvals.rows, row.tenantId = tenantId →
    ∀ decidedAt, row.decidedAt = some decidedAt →
      store.ActiveDay tenantId (truncDay decidedAt)

/-- The day of every agent message is published. -/
def MessagesOnActiveDays (store : ReportingStore) (tenantId : TenantId) : Prop :=
  ∀ row ∈ store.messages.rows, row.tenantId = tenantId → row.senderKind = .agent →
    store.ActiveDay tenantId (truncDay row.createdAt)

theorem DecisionsOnActiveDays.any_eq (h : store.DecisionsOnActiveDays tenantId)
    {row : ApprovalRow} (hrow : row ∈ store.approvals.rows) (htenant : row.tenantId = tenantId) :
    (row.decidedAt.any fun instant => decide (truncDay instant ∈ store.openDays tenantId)) =
      row.decidedAt.isSome := by
  cases hdecided : row.decidedAt with
  | none => rfl
  | some decidedAt =>
      rw [Option.any_some, Option.isSome_some, decide_eq_true_eq, mem_openDays]
      exact h row hrow htenant decidedAt hdecided

theorem sum_approvalCount (h : store.DecisionsOnActiveDays tenantId) :
    ((store.rollupOf tenantId).map RollupRow.approvalCount).sum =
      store.approvals.rows.countP fun row =>
        row.tenantId == tenantId && row.decidedAt.isSome := by
  rw [rollupOf_eq, List.map_map]
  refine (sum_over_days store.approvals.rows (fun row => row.tenantId == tenantId)
    ApprovalRow.decidedAt).trans (List.countP_congr fun row hrow => ?_)
  rw [Bool.and_eq_true, Bool.and_eq_true, beq_iff_eq]
  exact and_congr_right fun htenant => by rw [h.any_eq hrow htenant]

/-- A row of the join is of an approval in the table. -/
theorem mem_innerJoin_left {pair : ApprovalRow × WorkItemRow}
    (h : pair ∈ innerJoin worksOn store.approvals.rows store.workItems.rows) :
    pair.1 ∈ store.approvals.rows := by
  obtain ⟨row, hrow, hpair⟩ := List.mem_flatMap.mp h
  obtain ⟨work, _, hsame⟩ := List.mem_map.mp hpair
  rw [← hsame]
  exact hrow

/-- An approval joins one work item or none. -/
theorem worksOn_one (approval : ApprovalRow) :
    store.workItems.rows.filter (worksOn approval) = [] ∨
      ∃ work, store.workItems.rows.filter (worksOn approval) = [work] := by
  have hpins : ∀ work, worksOn approval work = true → work.workItemId = approval.workItemId := by
    intro work h
    rw [worksOn, Bool.and_eq_true] at h
    exact eq_of_beq h.1
  exact filter_pinned store.workItems.unique hpins

theorem sum_unexecutedApprovalCount (h : store.DecisionsOnActiveDays tenantId) :
    ((store.rollupOf tenantId).map RollupRow.unexecutedApprovalCount).sum =
      store.approvals.rows.countP (store.approvedUnexecuted tenantId) := by
  let granted : ApprovalRow × WorkItemRow → Bool := fun pair =>
    (pair.1.tenantId == tenantId && pair.1.verdict == some .approved) &&
      pair.2.state != .executed
  have hsum := @sum_over_days store tenantId _
    (innerJoin worksOn store.approvals.rows store.workItems.rows) granted
    fun pair => pair.1.decidedAt
  rw [rollupOf_eq, List.map_map]
  calc _ = _ := by
        congr 1
        refine List.map_congr_left fun start _ => List.countP_congr fun pair _ => ?_
        simp only [granted, Bool.and_eq_true, decidedIn]
        exact and_right_comm
    _ = _ := hsum
    _ = (innerJoin worksOn store.approvals.rows store.workItems.rows).countP granted := by
        refine List.countP_congr fun pair hpair => ?_
        rw [Bool.and_eq_true]
        refine and_iff_left_of_imp fun hgranted => ?_
        simp only [granted, Bool.and_eq_true, beq_iff_eq] at hgranted
        obtain ⟨⟨htenant, hverdict⟩, _⟩ := hgranted
        rw [h.any_eq (mem_innerJoin_left hpair) htenant]
        -- a verdict comes with its instant
        have hnamed := pair.1.decisionNamed.1
        rw [hverdict] at hnamed
        rwa [Option.isNone_some, Option.isNone_eq_false_iff] at hnamed
    _ = _ := by
        rw [countP_innerJoin worksOn_one]
        refine List.countP_congr fun row _ => ?_
        simp only [granted, approvedUnexecuted, List.any_eq_true, List.mem_filter,
          Bool.and_eq_true]
        constructor
        · intro h
          obtain ⟨work, ⟨hwork, hon⟩, hgranted, hstate⟩ := h
          exact ⟨hgranted, work, hwork, hon, hstate⟩
        · intro h
          obtain ⟨hgranted, work, hwork, hon, hstate⟩ := h
          exact ⟨work, ⟨hwork, hon⟩, hgranted, hstate⟩

/-- **The rollup counts everything once** exactly for the organisations each of whose
decisions and agent messages falls on a day on which it also had a session created or an
approval requested. -/
theorem rollup_counts_once_iff (store : ReportingStore) (tenantId : TenantId) :
    store.CountsOnce tenantId ↔
      store.DecisionsOnActiveDays tenantId ∧ store.MessagesOnActiveDays tenantId := by
  constructor
  · intro h
    constructor
    · intro row hrow htenant decidedAt hdecided
      exact countP_covers_eq_one.mp (h.decisions row hrow htenant decidedAt hdecided)
    · intro row hrow htenant hagent
      exact countP_covers_eq_one.mp (h.messages row hrow htenant hagent)
  · intro h
    obtain ⟨hdecisions, hmessages⟩ := h
    exact
      { disjoint := rollup_disjoint
        sessions := fun row hrow htenant =>
          countP_covers_eq_one.mpr (Or.inl ⟨row, hrow, htenant, rfl⟩)
        decisions := fun row hrow htenant decidedAt hdecided =>
          countP_covers_eq_one.mpr (hdecisions row hrow htenant decidedAt hdecided)
        messages := fun row hrow htenant hagent =>
          countP_covers_eq_one.mpr (hmessages row hrow htenant hagent)
        sessionTotal := sum_sessionCount
        approvalTotal := sum_approvalCount hdecisions
        unexecutedTotal := sum_unexecutedApprovalCount hdecisions }

end ReportingStore

namespace SampleReport

/-- Granted a minute after the midnight that followed its request. -/
def approval : ApprovalRow where
  approvalId := ⟨1⟩
  tenantId := ⟨1⟩
  workItemId := ⟨2⟩
  requestedAt := 86340000000
  decidedAt := some 86460000000
  decidedByOid := some ⟨5⟩
  decidedByRoles := some ["technician"]
  verdict := some .approved
  expiresAt := some 87360000000
  version := 2
  updatedAt := 86460000000
  decisionNamed := ⟨rfl, rfl⟩

def session : ChatSessionRow :=
  ⟨⟨7⟩, ⟨1⟩, ⟨6⟩, .awaitingApproval, none, 86280000000, 1, 86280000000⟩

def store : ReportingStore where
  sessions := ⟨[session], List.nodup_singleton _⟩
  approvals := ⟨⟨[approval], List.nodup_singleton _⟩, List.nodup_singleton _⟩

/-- The day it was decided on is not published, and its decision is counted nowhere. -/
theorem decision_not_counted : ¬ store.CountsOnce ⟨1⟩ := by
  intro h
  rcases ReportingStore.countP_covers_eq_one.mp
    (h.decisions approval (List.mem_singleton.mpr rfl) rfl _ rfl) with
    ⟨row, hrow, _, hday⟩ | ⟨row, hrow, _, hday⟩
  · rw [List.mem_singleton.mp hrow] at hday
    exact absurd hday (by decide)
  · rw [List.mem_singleton.mp hrow] at hday
    exact absurd hday (by decide)

end SampleReport

end Synthia

/-!
## What the content sweep does to the rollup

The view keeps nothing. It counts again whatever the tables hold, and the sweep takes
rows from three of the tables it counts: sessions, their messages and the signals on
them. Approvals and work items stay, and so do their figures and the days the requests
publish.

A session taken from a day that has ended is one fewer in that day's window, or takes the
window with it. Where none is, the window is still there with its three counts, and its
rate is the same exactly when what is left of the agent messages and their signals has
the proportion that all of them had.
-/

namespace Synthia

open Relational

/-- A run of `sweep_chat_content`. -/
structure ContentSweep where
  tenant : TenantContext
  now : Instant
  deriving DecidableEq

namespace ReportingStore

variable {store : ReportingStore} {sweep : ContentSweep}

def sweepStep (store : ReportingStore) (sweep : ContentSweep) : Option ReportingStore :=
  some (store.sweepChatContent sweep.tenant sweep.now)

/-- Between any two points, the windows that had ended before each sweep in between have
the rows they had. -/
def ReportingKept (store : ReportingStore) (sweeps : List ContentSweep) : Prop :=
  ∀ before between after earlier later, sweeps = before ++ (between ++ after) →
    Machine.run sweepStep store before = some earlier →
    Machine.run sweepStep earlier between = some later →
    ∀ row : RollupRow, (∀ sweep ∈ between, row.windowEnd ≤ sweep.now) →
      (row ∈ earlier.vwDashboardRollupV1 ↔ row ∈ later.vwDashboardRollupV1)

/-- What a sweep leaves of the rows the rate of a window is taken over. -/
def ratedAfter (store : ReportingStore) (sweep : ContentSweep) (tenantId : TenantId)
    (start : Instant) : List (MessageRecord × Option SignalRow) :=
  rated
    (store.messages.rows.filter fun message =>
      !store.swept sweep.tenant sweep.now message.sessionId)
    (store.feedback.rows.filter fun signal => !store.signalSwept sweep.tenant sweep.now signal)
    tenantId start

/-- The sweep takes no session created on a day that has ended, and from each day that
has, published, it takes agent messages and signals in the proportion they are in. -/
structure Spares (store : ReportingStore) (sweep : ContentSweep) : Prop where
  sessions : ∀ row ∈ store.sessions.rows,
    RetentionSweep.pastWindow sweep.tenant sweep.now row = true →
      sweep.now < truncDay row.createdAt + days 1
  rates : ∀ tenantId start, store.ActiveDay tenantId start → start + days 1 ≤ sweep.now →
    signals (store.ratedAfter sweep tenantId start) *
        (rated store.messages.rows store.feedback.rows tenantId start).length =
      signals (rated store.messages.rows store.feedback.rows tenantId start) *
        (store.ratedAfter sweep tenantId start).length ∧
    ((store.ratedAfter sweep tenantId start).length = 0 →
      signals (rated store.messages.rows store.feedback.rows tenantId start) = 0)

/-! ### One sweep -/

theorem mem_vwDashboardRollupV1 {row : RollupRow} :
    row ∈ store.vwDashboardRollupV1 ↔
      store.ActiveDay row.tenantId row.windowStart ∧
        row = store.rollupRow (row.tenantId, row.windowStart) := by
  rw [vwDashboardRollupV1, List.mem_map]
  constructor
  · intro h
    obtain ⟨window, hwindow, rfl⟩ := h
    exact ⟨mem_windows.mp hwindow, rfl⟩
  · intro h
    exact ⟨_, mem_windows.mpr h.1, h.2.symm⟩

/-- The rate of a window is a matter of proportion. -/
theorem feedbackRate_sweep_iff (tenantId : TenantId) (start : Instant) :
    ((store.sweepChatContent sweep.tenant sweep.now).rollupRow (tenantId, start)).feedbackRate =
        (store.rollupRow (tenantId, start)).feedbackRate ↔
      signals (store.ratedAfter sweep tenantId start) *
          (rated store.messages.rows store.feedback.rows tenantId start).length =
        signals (rated store.messages.rows store.feedback.rows tenantId start) *
          (store.ratedAfter sweep tenantId start).length ∧
      ((store.ratedAfter sweep tenantId start).length = 0 →
        signals (rated store.messages.rows store.feedback.rows tenantId start) = 0) := by
  refine ratio_eq_ratio_iff List.countP_le_length List.countP_le_length ?_
  show (leftJoin _ (List.filter _ (List.filter _ _)) _).length ≤ _
  rw [List.filter_comm]
  exact length_leftJoin_filter_le _ _ _ _ _

/-- The sessions of a day are as many after a sweep as before exactly when it takes none
of them. -/
theorem sessionCount_sweep_iff (tenantId : TenantId) (start : Instant) :
    ((store.sweepChatContent sweep.tenant sweep.now).rollupRow (tenantId, start)).sessionCount =
        (store.rollupRow (tenantId, start)).sessionCount ↔
      ∀ row ∈ store.sessions.rows, row.tenantId = tenantId →
        inDay start row.createdAt = true →
          RetentionSweep.pastWindow sweep.tenant sweep.now row = false := by
  show (store.sessions.rows.filter _).countP _ = store.sessions.rows.countP _ ↔ _
  rw [countP_filter_eq_iff]
  refine forall₂_congr fun row _ => ?_
  rw [Bool.and_eq_true, beq_iff_eq, Bool.not_eq_true', and_imp]

/-- A sweep publishes no day that was not. -/
theorem ActiveDay.of_sweep {tenantId : TenantId} {start : Instant}
    (h : (store.sweepChatContent sweep.tenant sweep.now).ActiveDay tenantId start) :
    store.ActiveDay tenantId start := by
  rcases h with ⟨row, hrow, htenant, hday⟩ | hrequested
  · exact Or.inl ⟨row, (Table.mem_delete.mp hrow).1, htenant, hday⟩
  · exact Or.inr hrequested

/-- A day that has ended is published after a sweep that spares it, with the row it had. -/
theorem Spares.ended {tenantId : TenantId} {start : Instant} (h : store.Spares sweep)
    (hactive : store.ActiveDay tenantId start) (hended : start + days 1 ≤ sweep.now) :
    (store.sweepChatContent sweep.tenant sweep.now).ActiveDay tenantId start ∧
      (store.sweepChatContent sweep.tenant sweep.now).rollupRow (tenantId, start) =
        store.rollupRow (tenantId, start) := by
  have hstays : ∀ row ∈ store.sessions.rows, truncDay row.createdAt = start →
      RetentionSweep.pastWindow sweep.tenant sweep.now row = false := by
    intro row hrow hday
    rw [← Bool.not_eq_true]
    intro hpast
    have hlate := h.sessions row hrow hpast
    rw [hday] at hlate
    exact absurd hended (not_le.mpr hlate)
  constructor
  · rcases hactive with ⟨row, hrow, htenant, hday⟩ | hrequested
    · exact Or.inl ⟨row, Table.mem_delete.mpr ⟨hrow, hstays row hrow hday⟩, htenant, hday⟩
    · exact Or.inr hrequested
  · refine RollupRow.ext rfl rfl rfl ?_ rfl rfl ?_
    · refine (sessionCount_sweep_iff tenantId start).mpr fun row hrow _ hin => ?_
      exact hstays row hrow ((inDay_iff hactive.truncDay_eq).mp hin)
    · exact (feedbackRate_sweep_iff tenantId start).mpr (h.rates tenantId start hactive hended)

/-- A window that has ended and whose row is there after the sweep kept its figures. -/
theorem rollupRow_of_mem {tenantId : TenantId} {start : Instant}
    (hactive : store.ActiveDay tenantId start)
    (hmem : store.rollupRow (tenantId, start) ∈ store.vwDashboardRollupV1 →
      store.rollupRow (tenantId, start) ∈
        (store.sweepChatContent sweep.tenant sweep.now).vwDashboardRollupV1) :
    (store.sweepChatContent sweep.tenant sweep.now).rollupRow (tenantId, start) =
      store.rollupRow (tenantId, start) := by
  have hkept := hmem (mem_vwDashboardRollupV1.mpr ⟨hactive, rfl⟩)
  exact (mem_vwDashboardRollupV1.mp hkept).2.symm

/-- One sweep keeps the rows of the windows that have ended exactly when it spares them. -/
theorem spares_iff :
    store.Spares sweep ↔
      ∀ row : RollupRow, row.windowEnd ≤ sweep.now →
        (row ∈ store.vwDashboardRollupV1 ↔
          row ∈ (store.sweepChatContent sweep.tenant sweep.now).vwDashboardRollupV1) := by
  constructor
  · intro h row hended
    rw [mem_vwDashboardRollupV1, mem_vwDashboardRollupV1]
    constructor
    · intro hrow
      obtain ⟨hactive, hrow⟩ := hrow
      rw [hrow] at hended
      obtain ⟨hafter, hsame⟩ := h.ended hactive hended
      exact ⟨hafter, hrow.trans hsame.symm⟩
    · intro hrow
      obtain ⟨hafter, hrow⟩ := hrow
      rw [hrow] at hended
      have hactive := hafter.of_sweep
      exact ⟨hactive, hrow.trans (h.ended hactive hended).2⟩
  · intro h
    constructor
    · intro row hrow hpast
      by_contra hended
      have hactive : store.ActiveDay row.tenantId (truncDay row.createdAt) :=
        Or.inl ⟨row, hrow, rfl, rfl⟩
      have hsame := rollupRow_of_mem hactive (h _ (not_lt.mp hended)).mp
      have hin := (inDay_iff hactive.truncDay_eq).mpr (rfl : truncDay row.createdAt = _)
      have hstays := (sessionCount_sweep_iff row.tenantId (truncDay row.createdAt)).mp
        (congrArg RollupRow.sessionCount hsame) row hrow rfl hin
      rw [hstays] at hpast
      cases hpast
    · intro tenantId start hactive hended
      have hsame := rollupRow_of_mem hactive (h _ hended).mp
      exact (feedbackRate_sweep_iff tenantId start).mp (congrArg RollupRow.feedbackRate hsame)

/-! ### Sweep after sweep -/

theorem kept_run {sweeps : List ContentSweep} {last : ReportingStore}
    (hrun : Machine.run sweepStep store sweeps = some last)
    (hgood : Machine.Along sweepStep Spares store sweeps) {row : RollupRow}
    (hended : ∀ sweep ∈ sweeps, row.windowEnd ≤ sweep.now) :
    row ∈ store.vwDashboardRollupV1 ↔ row ∈ last.vwDashboardRollupV1 := by
  induction sweeps generalizing store with
  | nil =>
      injection hrun with hrun
      rw [hrun]
  | cons sweep sweeps ih =>
      obtain ⟨next, hnext, hrest⟩ := Machine.run_cons.mp hrun
      obtain ⟨hspares, hlater⟩ := Machine.along_cons hgood hnext
      injection hnext with hnext
      have hfirst := spares_iff.mp hspares row (hended sweep List.mem_cons_self)
      rw [hnext] at hfirst
      exact hfirst.trans (ih hrest hlater fun sweep hsweep =>
        hended sweep (List.mem_cons_of_mem _ hsweep))

/-- **Reporting and retention.** A sequence of sweeps leaves every window that had ended as
it was, its figures included, exactly when each sweep takes no session created on a day
that has ended, and from each published one takes agent messages and signals in the
proportion they are in. -/
theorem reporting_kept_iff (store : ReportingStore) (sweeps : List ContentSweep) :
    ReportingKept store sweeps ↔ Machine.Along sweepStep Spares store sweeps := by
  constructor
  · intro h
    refine Machine.along_of_forall fun before sweep after middle hsplit hrun => ?_
    refine spares_iff.mpr fun row hended => ?_
    refine h before [sweep] after middle _ hsplit hrun rfl row ?_
    intro other hother
    rw [List.mem_singleton.mp hother]
    exact hended
  · intro hgood before between after earlier later hsplit hfirst hsecond row hended
    rw [hsplit] at hgood
    exact kept_run hsecond (Machine.along_before (Machine.along_after hgood hfirst)) hended

end ReportingStore

namespace SampleReport

def tenant : TenantContext := ⟨⟨1⟩, ⟨2⟩, .active, .platformObject⟩

/-- One session of the first day, resolved and past its window ninety days on. -/
def finished : ReportingStore where
  sessions := ⟨[⟨⟨7⟩, ⟨1⟩, ⟨6⟩, .resolved, some 7776060000000, 0, 2, 60000000⟩],
    List.nodup_singleton _⟩

/-- The sweep takes the session, and the first day with it. -/
theorem window_swept :
    ¬ ReportingStore.ReportingKept finished [⟨tenant, 7776060000000⟩] := by
  intro h
  have hsame := h [] [⟨tenant, 7776060000000⟩] [] finished _ rfl rfl rfl
    (finished.rollupRow (⟨1⟩, 0)) (by
      intro sweep hsweep
      rw [List.mem_singleton.mp hsweep]
      decide)
  have hbefore : finished.rollupRow (⟨1⟩, 0) ∈ finished.vwDashboardRollupV1 :=
    ReportingStore.mem_vwDashboardRollupV1.mpr
      ⟨Or.inl ⟨_, List.mem_singleton.mpr rfl, rfl, rfl⟩, rfl⟩
  rcases (ReportingStore.mem_vwDashboardRollupV1.mp (hsame.mp hbefore)).1 with
    ⟨row, hrow, _⟩ | ⟨row, hrow, _⟩
  · exact List.not_mem_nil (a := row) hrow
  · exact List.not_mem_nil (a := row) hrow

end SampleReport

end Synthia
