import Synthia.Workers.OutboxDispatch

/-!
# What a pass does to its rows

Everything a pass does to a row it finishes can be read off that row and the
transport's answer: whether it is marked or counted as failed, what was sent,
which counter it went into. `LoopState.Did` says so for any stretch of the loop,
and the two results are then about the rows that end the loop instead.

Independence is exact. A pass treats each of its rows as it would treat that row
alone if and only if none of them ends it or there are no others; a row that
cannot be rebuilt takes the marks of the rows before it along and leaves the
rows behind it unread.

The other result is about many passes. Selection is in sequence order and looks
at no attempt count, so a row waits for those ahead of it to be marked — or to
run out of attempts, but then they stay where they are. As long as no batch
holds a row that has, each pass takes an attempt from a row ahead, and the
attempts left there bound the wait.
-/

namespace Synthia.OutboxDispatch

open Relational Text

variable {policy : BackoffPolicy} {answers : Uuid → Bool} {now : Instant}

/-! ## One row -/

/-- The message a row is published as, if it can be. -/
def messageOf (row : OutboxRow) : Option Message :=
  match envelopeFromRow row with
  | .ok envelope => (buildMessage envelope).toOption
  | .error _ => none

/-- The message the transport takes for a row, given its answer. -/
def sentFor (row : OutboxRow) (accepts : Bool) : Option Message :=
  if accepts then messageOf row else none

/-- The row ends the pass that reaches it: it cannot be rebuilt, or it is at its
last attempt and cannot be reported. -/
def endsPass (policy : BackoffPolicy) (row : OutboxRow) : Bool :=
  match envelopeFromRow row with
  | .error _ => true
  | .ok _ => givingUpRaises policy row (row.attempts + 1)

/-- A row whose correlation identifier is text ends no pass once rebuilt. -/
theorem endsPass_of_text {row : OutboxRow} {envelope : Envelope} {text : List CodePoint}
    (hrow : envelopeFromRow row = .ok envelope)
    (htext : correlationText envelope.correlationId = some text) :
    endsPass policy row = false := by
  unfold endsPass givingUpRaises
  rw [hrow]
  simp [htext]

/-- A row as a pass that finishes leaves it. -/
def settled (answers : Uuid → Bool) (now : Instant) (row : OutboxRow) : OutboxRow :=
  if (sentFor row (answers row.outboxId)).isSome then row.marked now else row.failed now

def verdictOf (policy : BackoffPolicy) (answers : Uuid → Bool) (row : OutboxRow) : Verdict :=
  if (sentFor row (answers row.outboxId)).isSome then .published
  else if policy.exhausted (row.attempts + 1) then .undispatchable
  else .failed

def sentEntry (answers : Uuid → Bool) (row : OutboxRow) : List (Uuid × Message) :=
  (sentFor row (answers row.outboxId)).toList.map fun message => (row.outboxId, message)

theorem settled_advances (row : OutboxRow) : row.Advances (settled answers now row) := by
  unfold settled
  split
  · exact row.advances_marked now
  · exact row.advances_failed now

@[simp] theorem settled_outboxId (row : OutboxRow) :
    (settled answers now row).outboxId = row.outboxId :=
  (settled_advances row).outboxId

@[simp] theorem settled_attempts (row : OutboxRow) :
    (settled answers now row).attempts = row.attempts + 1 := by
  unfold settled
  split
  · rfl
  · rfl

theorem sentFor_of_publish {row : OutboxRow} {envelope : Envelope} (accepts : Bool)
    (hrow : envelopeFromRow row = .ok envelope) :
    sentFor row accepts = (publish envelope accepts).toOption := by
  unfold sentFor messageOf
  rw [hrow]
  cases hsent : publish envelope accepts with
  | ok message =>
      obtain ⟨hbuilt, haccepts⟩ := publish_eq_ok.mp hsent
      simp [hbuilt, haccepts, Except.toOption]
  | error raised =>
      cases hbuilt : buildMessage envelope with
      | error _ => simp [hbuilt, Except.toOption]
      | ok message =>
          cases accepts with
          | false => rfl
          | true =>
              rw [publish_eq_ok.mpr ⟨hbuilt, rfl⟩] at hsent
              cases hsent

/-- An envelope whose correlation identifier is no text is never accepted. -/
theorem publish_of_correlation_none {envelope : Envelope} {accepts : Bool}
    (h : correlationText envelope.correlationId = none) :
    publish envelope accepts = .error .typeError := by
  unfold publish buildMessage messageBody
  rw [h]
  rfl

/-! ## A stretch of the loop -/

/-- What the loop did between two of its states, having finished `rows`. -/
structure LoopState.Did (policy : BackoffPolicy) (answers : Uuid → Bool) (now : Instant)
    (before : LoopState) (rows : List OutboxRow) (after : LoopState) : Prop where
  table : after.table.rows = before.table.rows.map fun row =>
    if row.outboxId ∈ rows.map OutboxRow.outboxId then settled answers now row else row
  reached : after.reached = before.reached ++ rows.map OutboxRow.outboxId
  accepted : after.accepted = before.accepted ++ rows.flatMap (sentEntry answers)
  verdicts : after.verdicts =
    before.verdicts ++ rows.map fun row => (row.outboxId, verdictOf policy answers row)

theorem LoopState.Did.nil (state : LoopState) :
    LoopState.Did policy answers now state [] state where
  table := by simp
  reached := by simp
  accepted := by simp
  verdicts := by simp

theorem LoopState.Did.mem {before after : LoopState} {rows : List OutboxRow}
    (h : LoopState.Did policy answers now before rows after) {row : OutboxRow}
    (hrow : row ∈ before.table.rows) (hother : row.outboxId ∉ rows.map OutboxRow.outboxId) :
    row ∈ after.table.rows := by
  rw [h.table]
  exact List.mem_map.mpr ⟨row, hrow, if_neg hother⟩

theorem LoopState.Did.append {before middle after : LoopState} {rows more : List OutboxRow}
    (hfirst : LoopState.Did policy answers now before rows middle)
    (hthen : LoopState.Did policy answers now middle more after)
    (hdisjoint : ∀ id ∈ rows.map OutboxRow.outboxId, id ∉ more.map OutboxRow.outboxId) :
    LoopState.Did policy answers now before (rows ++ more) after where
  table := by
    rw [hthen.table, hfirst.table, List.map_map]
    apply List.map_congr_left
    intro row _
    simp only [Function.comp_apply, List.map_append, List.mem_append]
    by_cases hrows : row.outboxId ∈ rows.map OutboxRow.outboxId
    · simp only [hrows, if_true, true_or, settled_outboxId, hdisjoint _ hrows, if_false]
    · simp only [hrows, if_false, false_or]
  reached := by rw [hthen.reached, hfirst.reached, List.map_append, List.append_assoc]
  accepted := by rw [hthen.accepted, hfirst.accepted, List.flatMap_append, List.append_assoc]
  verdicts := by rw [hthen.verdicts, hfirst.verdicts, List.map_append, List.append_assoc]

/-- An update by a row's key is an update of that row. -/
theorem map_key_settled {table : OutboxTable} {row : OutboxRow} {change : OutboxRow → OutboxRow}
    (hrow : row ∈ table.rows) (hchange : change row = settled answers now row) :
    (table.rows.map fun other =>
        if other.outboxId = row.outboxId then change other else other) =
      table.rows.map fun other =>
        if other.outboxId ∈ [row].map OutboxRow.outboxId then settled answers now other
        else other := by
  apply List.map_congr_left
  intro other hother
  rw [List.map_singleton]
  simp only [List.mem_singleton]
  by_cases hkey : other.outboxId = row.outboxId
  · rw [if_pos hkey, if_pos hkey, table.eq_of_key hother hrow hkey, hchange]
  · rw [if_neg hkey, if_neg hkey]

theorem dispatchRow_published {state : LoopState} {row : OutboxRow} {envelope : Envelope}
    {message : Message} (hrow : envelopeFromRow row = .ok envelope)
    (hpublish : publish envelope (answers row.outboxId) = .ok message) :
    dispatchRow policy answers now state row =
      ((state.reach row).countPublished row message
        (Outbox.markDispatched state.table row.outboxId now), none) := by
  simp only [dispatchRow, hrow, hpublish]
  rfl

section

variable {state : LoopState} {row : OutboxRow} {envelope : Envelope} {error : PublishError}
  {attempts : Nat} {table : OutboxTable} (hrow : envelopeFromRow row = .ok envelope)
  (hpublish : publish envelope (answers row.outboxId) = .error error)
  (hrecord : Outbox.recordFailure state.table row.outboxId now = (some attempts, table))

include hrow hpublish hrecord

theorem dispatchRow_failed (hleft : policy.exhausted attempts = false) :
    dispatchRow policy answers now state row = ((state.reach row).countFailed row table, none) := by
  have hreach : (state.reach row).table = state.table := rfl
  simp only [dispatchRow, hrow, hpublish, hreach, hrecord, hleft, Bool.false_eq_true, if_false]

/-- The row given up on is reported, if its correlation identifier is text. -/
theorem dispatchRow_reported {correlationId : List CodePoint}
    (hspent : policy.exhausted attempts = true)
    (hcorrelation : correlationText envelope.correlationId = some correlationId) :
    dispatchRow policy answers now state row =
      ({ (state.reach row).countUndispatchable row table with
          reports := ((state.reach row).countUndispatchable row table).reports ++
            [reportDeadLetter (subjectOf envelope) correlationId envelope.kindValue attempts
              error] }, none) := by
  have hreach : (state.reach row).table = state.table := rfl
  simp only [dispatchRow, hrow, hpublish, hreach, hrecord, hspent, if_true, hcorrelation]

/-- If it is not, the report raises and the pass ends there. -/
theorem dispatchRow_unreported (hspent : policy.exhausted attempts = true)
    (hcorrelation : correlationText envelope.correlationId = none) :
    dispatchRow policy answers now state row =
      ((state.reach row).countUndispatchable row table, some .correlationTypeError) := by
  have hreach : (state.reach row).table = state.table := rfl
  simp only [dispatchRow, hrow, hpublish, hreach, hrecord, hspent, if_true, hcorrelation]

end

theorem dispatchRow_finishes (policy : BackoffPolicy) (answers : Uuid → Bool)
    (now : Instant) {state : LoopState} {row : OutboxRow} (hrow : row ∈ state.table.rows)
    (hends : endsPass policy row = false) :
    ∃ after, dispatchRow policy answers now state row = (after, none) ∧
      LoopState.Did policy answers now state [row] after := by
  unfold endsPass at hends
  cases henvelope : envelopeFromRow row with
  | error raised => simp [henvelope] at hends
  | ok envelope =>
      rw [henvelope] at hends
      simp only [givingUpRaises, henvelope, Bool.and_eq_false_iff] at hends
      have hsent := sentFor_of_publish (answers row.outboxId) henvelope
      cases hpublish : publish envelope (answers row.outboxId) with
      | ok message =>
          rw [hpublish] at hsent
          have hsome : sentFor row (answers row.outboxId) = some message := hsent
          refine ⟨_, dispatchRow_published henvelope hpublish, ?_⟩
          constructor
          · show (Outbox.markDispatched state.table row.outboxId now).rows = _
            rw [Outbox.markDispatched_rows]
            exact map_key_settled hrow (by simp [settled, hsome])
          · rfl
          · simp [LoopState.countPublished, LoopState.reach, sentEntry, hsome]
          · simp [LoopState.countPublished, LoopState.reach, verdictOf, hsome]
      | error raised =>
          rw [hpublish] at hsent
          have hnone : sentFor row (answers row.outboxId) = none := hsent
          have hrows : (Outbox.recordFailure state.table row.outboxId now).2.rows =
              state.table.rows.map fun other =>
                if other.outboxId ∈ [row].map OutboxRow.outboxId then
                  settled answers now other else other := by
            rw [Outbox.recordFailure_rows]
            exact map_key_settled hrow (by simp [settled, hnone])
          have hrecord : Outbox.recordFailure state.table row.outboxId now =
              (some (row.attempts + 1), _) :=
            Prod.ext (Outbox.recordFailure_attempts now hrow) rfl
          cases hexhausted : policy.exhausted (row.attempts + 1) with
          | false =>
              refine ⟨_, dispatchRow_failed henvelope hpublish hrecord hexhausted, hrows, rfl,
                ?_, ?_⟩
              · simp [LoopState.countFailed, LoopState.reach, sentEntry, hnone]
              · simp [LoopState.countFailed, LoopState.reach, verdictOf, hnone, hexhausted]
          | true =>
              rw [hexhausted] at hends
              cases hcorrelation : correlationText envelope.correlationId with
              | none => simp [hcorrelation] at hends
              | some correlationId =>
                  refine ⟨_, dispatchRow_reported henvelope hpublish hrecord hexhausted
                    hcorrelation, hrows, rfl, ?_, ?_⟩
                  · simp [LoopState.countUndispatchable, LoopState.reach, sentEntry, hnone]
                  · simp [LoopState.countUndispatchable, LoopState.reach, verdictOf, hnone,
                      hexhausted]

theorem dispatchRow_ends (answers : Uuid → Bool) (now : Instant) {state : LoopState}
    {row : OutboxRow} (hrow : row ∈ state.table.rows) (hends : endsPass policy row = true) :
    ∃ after raised, dispatchRow policy answers now state row = (after, some raised) ∧
      after.reached = state.reached ++ [row.outboxId] ∧
      after.accepted = state.accepted := by
  unfold endsPass at hends
  cases henvelope : envelopeFromRow row with
  | error raised =>
      refine ⟨state.reach row, .envelope raised, ?_, rfl, rfl⟩
      simp only [dispatchRow, henvelope]
  | ok envelope =>
      rw [henvelope] at hends
      simp only [givingUpRaises, henvelope, Bool.and_eq_true, Option.isNone_iff_eq_none]
        at hends
      obtain ⟨hexhausted, hcorrelation⟩ := hends
      refine ⟨(state.reach row).countUndispatchable row
        (Outbox.recordFailure state.table row.outboxId now).2, .correlationTypeError,
        ?_, rfl, rfl⟩
      exact dispatchRow_unreported henvelope (publish_of_correlation_none hcorrelation)
        (Prod.ext (Outbox.recordFailure_attempts now hrow) rfl) hexhausted hcorrelation

/-! ## The whole loop -/

/-- With no row to end it, the loop does them all. -/
theorem dispatchRows_finishes (policy : BackoffPolicy) (answers : Uuid → Bool)
    (now : Instant) {rows : List OutboxRow} {state : LoopState}
    (hrows : ∀ row ∈ rows, row ∈ state.table.rows)
    (hnodup : (rows.map OutboxRow.outboxId).Nodup)
    (hends : ∀ row ∈ rows, endsPass policy row = false) :
    ∃ after, dispatchRows policy answers now state rows = (after, none) ∧
      LoopState.Did policy answers now state rows after := by
  induction rows generalizing state with
  | nil => exact ⟨state, rfl, .nil state⟩
  | cons row rows ih =>
      rw [List.map_cons, List.nodup_cons] at hnodup
      obtain ⟨middle, hrow, hdid⟩ := dispatchRow_finishes policy answers now
        (hrows row List.mem_cons_self) (hends row List.mem_cons_self)
      have hleft : ∀ other ∈ rows, other ∈ middle.table.rows := by
        intro other hother
        apply hdid.mem (hrows other (List.mem_cons_of_mem _ hother))
        rw [List.map_singleton, List.mem_singleton]
        intro hsame
        exact hnodup.1 (List.mem_map.mpr ⟨other, hother, hsame⟩)
      obtain ⟨after, hrest, hdid_rest⟩ := ih hleft hnodup.2
        fun other hother => hends other (List.mem_cons_of_mem _ hother)
      refine ⟨after, ?_, ?_⟩
      · rw [dispatchRows, hrow]
        exact hrest
      · apply hdid.append hdid_rest
        intro id hid
        rw [List.map_singleton, List.mem_singleton] at hid
        rw [hid]
        exact hnodup.1

theorem dispatchRows_append {rows more : List OutboxRow} {state after : LoopState}
    (h : dispatchRows policy answers now state rows = (after, none)) :
    dispatchRows policy answers now state (rows ++ more) =
      dispatchRows policy answers now after more := by
  induction rows generalizing state with
  | nil =>
      rw [dispatchRows, Prod.mk.injEq] at h
      rw [List.nil_append, h.1]
  | cons row rows ih =>
      rw [List.cons_append, dispatchRows]
      rw [dispatchRows] at h
      cases hrow : dispatchRow policy answers now state row with
      | mk middle raised =>
          rw [hrow] at h
          cases raised with
          | none => exact ih h
          | some raised => cases h

/-- The first row to end the pass is the last one the loop gets to. -/
theorem dispatchRows_ends (answers : Uuid → Bool) (now : Instant)
    {rows more : List OutboxRow} {row : OutboxRow} {state : LoopState}
    (hrows : ∀ other ∈ rows ++ row :: more, other ∈ state.table.rows)
    (hnodup : ((rows ++ row :: more).map OutboxRow.outboxId).Nodup)
    (hfinish : ∀ other ∈ rows, endsPass policy other = false)
    (hends : endsPass policy row = true) :
    ∃ after raised,
      dispatchRows policy answers now state (rows ++ row :: more) = (after, some raised) ∧
      after.reached = state.reached ++ rows.map OutboxRow.outboxId ++ [row.outboxId] ∧
      after.accepted = state.accepted ++ rows.flatMap (sentEntry answers) := by
  rw [List.map_append, List.nodup_append] at hnodup
  have hrows_before : ∀ other ∈ rows, other ∈ state.table.rows :=
    fun other hother => hrows other (List.mem_append_left _ hother)
  obtain ⟨middle, hmiddle, hdid⟩ :=
    dispatchRows_finishes policy answers now hrows_before hnodup.1 hfinish
  have hrow : row ∈ middle.table.rows := by
    apply hdid.mem (hrows row (List.mem_append_right _ List.mem_cons_self))
    intro hearlier
    exact hnodup.2.2 _ hearlier _ (List.mem_map_of_mem List.mem_cons_self) rfl
  obtain ⟨after, raised, hlast, hreached, haccepted⟩ :=
    dispatchRow_ends answers now hrow hends
  refine ⟨after, raised, ?_, ?_, ?_⟩
  · rw [dispatchRows_append hmiddle, dispatchRows, hlast]
  · rw [hreached, hdid.reached]
  · rw [haccepted, hdid.accepted]

/-- The loop of a pass none of whose rows ends it. -/
theorem pass_finishes (answers : Uuid → Bool) (now : Instant) {table : OutboxTable}
    {batchSize : Nat}
    (hends : ∀ row ∈ Outbox.undispatched table batchSize, endsPass policy row = false) :
    ∃ after, dispatchRows policy answers now { table := table }
        (Outbox.undispatched table batchSize) = (after, none) ∧
      LoopState.Did policy answers now { table := table }
        (Outbox.undispatched table batchSize) after :=
  dispatchRows_finishes policy answers now
    (fun _ hother => (Outbox.mem_undispatched hother).1)
    (Outbox.undispatched_nodup table batchSize) hends

end Synthia.OutboxDispatch
