import Synthia.Proofs.Independence

/-!
# How long a row waits to be selected

The attempts left to the undispatched rows ahead of a row are a measure of its
wait: a pass that does not select it has a full batch of rows ahead, and takes
an attempt from each. So it is selected before that many passes are over, plus
one — provided no batch holds a row with no attempts left, for such a row costs
a place in the batch and pays nothing, and provided no row ends the pass, since
a pass rolled back pays nothing either.

Neither can be dropped, and the first is the one that matters: nothing takes an
exhausted row out of the batch, so it keeps its place at the head for good, and
is attempted again each time.
-/

namespace Synthia.OutboxDispatch

open Relational Text

variable {policy : BackoffPolicy} {batchSize : Nat} {table : OutboxTable} {row : OutboxRow}

/-! ## The measure -/

/-- The attempts a row has left. A dispatched row needs none. -/
def attemptsLeft (policy : BackoffPolicy) (row : OutboxRow) : Nat :=
  if row.dispatchedAt.isSome then 0 else (policy.ceiling - row.attempts).toNat

/-- Another row that comes no later in the sequence. -/
def isAhead (row other : OutboxRow) : Bool :=
  other.outboxId != row.outboxId && decide (other.sequence ≤ row.sequence)

def weightAhead (policy : BackoffPolicy) (row other : OutboxRow) : Nat :=
  if isAhead row other then attemptsLeft policy other else 0

/-- The attempts left to the rows ahead. -/
def attemptsAhead (policy : BackoffPolicy) (table : OutboxTable) (row : OutboxRow) : Nat :=
  (table.rows.map (weightAhead policy row)).sum

/-- How many undispatched rows with attempts left are ahead. -/
def unexhaustedAhead (policy : BackoffPolicy) (table : OutboxTable) (row : OutboxRow) :
    Nat :=
  table.rows.countP fun other =>
    isAhead row other && other.undispatched && !policy.exhausted other.attempts

theorem isAhead_iff {other : OutboxRow} :
    isAhead row other = true ↔
      other.outboxId ≠ row.outboxId ∧ other.sequence ≤ row.sequence := by
  rw [isAhead, Bool.and_eq_true, bne_iff_ne, decide_eq_true_iff]

theorem weightAhead_of_ahead {other : OutboxRow} (h : isAhead row other = true) :
    weightAhead policy row other = attemptsLeft policy other := by
  rw [weightAhead, if_pos h]

theorem weightAhead_of_behind {other : OutboxRow} (h : isAhead row other = false) :
    weightAhead policy row other = 0 := by
  rw [weightAhead, h, if_neg Bool.false_ne_true]

theorem attemptsLeft_of_free (hfree : row.dispatchedAt = none) :
    attemptsLeft policy row = (policy.ceiling - row.attempts).toNat := by
  rw [attemptsLeft, hfree]
  rfl

theorem attemptsLeft_of_dispatched (h : row.dispatchedAt.isSome = true) :
    attemptsLeft policy row = 0 := by
  rw [attemptsLeft, if_pos h]

/-- A row has attempts left while it waits below the ceiling. -/
theorem attemptsLeft_pos_iff :
    0 < attemptsLeft policy row ↔
      row.dispatchedAt = none ∧ policy.exhausted row.attempts = false := by
  rw [BackoffPolicy.exhausted_eq_false]
  cases hdispatched : row.dispatchedAt with
  | some instant =>
      rw [attemptsLeft_of_dispatched (by rw [hdispatched]; rfl)]
      constructor
      · intro h
        exact absurd h (Nat.lt_irrefl 0)
      · rintro ⟨h, _⟩
        cases h
  | none =>
      rw [attemptsLeft_of_free hdispatched]
      constructor
      · intro h
        exact ⟨rfl, by omega⟩
      · rintro ⟨_, h⟩
        omega

theorem attemptsAhead_le (policy : BackoffPolicy) (table : OutboxTable) (row : OutboxRow) :
    attemptsAhead policy table row ≤
      policy.ceiling.toNat * unexhaustedAhead policy table row := by
  unfold attemptsAhead unexhaustedAhead
  induction table.rows with
  | nil => simp
  | cons other rows ih =>
      have hone : weightAhead policy row other ≤ policy.ceiling.toNat *
          (if isAhead row other && other.undispatched && !policy.exhausted other.attempts
            then 1 else 0) := by
        cases hahead : isAhead row other with
        | false =>
            rw [weightAhead_of_behind hahead]
            exact Nat.zero_le _
        | true =>
            rw [weightAhead_of_ahead hahead]
            by_cases hleft : 0 < attemptsLeft policy other
            · obtain ⟨hfree, hexhausted⟩ := attemptsLeft_pos_iff.mp hleft
              rw [attemptsLeft_of_free hfree, hexhausted, OutboxRow.undispatched, hfree]
              simp
            · omega
      rw [List.map_cons, List.sum_cons, List.countP_cons, Nat.mul_add]
      omega

/-- A write on an undispatched row below the ceiling costs it an attempt. -/
theorem attemptsLeft_lt {after : OutboxRow} (hfree : row.dispatchedAt = none)
    (hleft : policy.exhausted row.attempts = false)
    (hwritten : row.attempts < after.attempts) :
    attemptsLeft policy after < attemptsLeft policy row := by
  rw [BackoffPolicy.exhausted_eq_false] at hleft
  rw [attemptsLeft_of_free hfree]
  cases hdispatched : after.dispatchedAt with
  | some instant =>
      rw [attemptsLeft_of_dispatched (by rw [hdispatched]; rfl)]
      omega
  | none =>
      rw [attemptsLeft_of_free hdispatched]
      omega

theorem attemptsLeft_le {after : OutboxRow} (h : row.Advances after) :
    attemptsLeft policy after ≤ attemptsLeft policy row := by
  have hattempts := h.attempts
  unfold attemptsLeft
  split
  · exact Nat.zero_le _
  · next hfree =>
      rw [if_neg (fun hmarked => hfree (h.marked hmarked))]
      omega

theorem isAhead_of_advances {other after : OutboxRow} (h : other.Advances after) :
    isAhead row after = isAhead row other := by
  rw [isAhead, isAhead, h.outboxId, h.sequence]

theorem weightAhead_le {other after : OutboxRow} (h : other.Advances after) :
    weightAhead policy row after ≤ weightAhead policy row other := by
  unfold weightAhead
  rw [isAhead_of_advances h]
  split
  · exact attemptsLeft_le h
  · exact Nat.le_refl 0

theorem weightAhead_lt {other after : OutboxRow} (h : other.Advances after)
    (hahead : isAhead row other = true)
    (hless : attemptsLeft policy after < attemptsLeft policy other) :
    weightAhead policy row after < weightAhead policy row other := by
  have hafter : isAhead row after = true := by
    rw [isAhead_of_advances h]
    exact hahead
  rw [weightAhead_of_ahead hafter, weightAhead_of_ahead hahead]
  exact hless

/-! ## A pass -/

/-- No row of the next batch is exhausted, and none ends the pass. -/
def CleanBatch (policy : BackoffPolicy) (batchSize : Nat) (table : OutboxTable) : Prop :=
  ∀ row ∈ Outbox.undispatched table batchSize,
    policy.exhausted row.attempts = false ∧ endsPass policy row = false

instance (policy : BackoffPolicy) (batchSize : Nat) (table : OutboxTable) :
    Decidable (CleanBatch policy batchSize table) :=
  inferInstanceAs (Decidable (∀ row ∈ Outbox.undispatched table batchSize, _ ∧ _))

theorem CleanBatch.finishes (h : CleanBatch policy batchSize table) :
    ∀ row ∈ Outbox.undispatched table batchSize, endsPass policy row = false :=
  fun row hrow => (h row hrow).2

/-- A pass that finishes settles every row of its batch and leaves the others. -/
theorem committed_of_finishes {answers : Uuid → Bool} {now : Instant}
    (hends : ∀ row ∈ Outbox.undispatched table batchSize, endsPass policy row = false) :
    (dispatchOnce policy batchSize answers now table).committed.rows =
      table.rows.map fun row =>
        if row.outboxId ∈ (Outbox.undispatched table batchSize).map OutboxRow.outboxId
        then settled answers now row else row := by
  obtain ⟨after, hloop, hdid⟩ := pass_finishes answers now hends
  unfold dispatchOnce
  rw [hloop]
  exact hdid.table

/-- A row left out of a clean batch stays as it is, and has fewer attempts ahead
of it afterwards. -/
theorem attemptsAhead_lt (answers : Uuid → Bool) (now : Instant) (hsize : 0 < batchSize)
    (hclean : CleanBatch policy batchSize table) (hrow : row ∈ table.rows)
    (hfree : row.dispatchedAt = none)
    (hout : row ∉ Outbox.undispatched table batchSize) :
    row ∈ (dispatchOnce policy batchSize answers now table).committed.rows ∧
      attemptsAhead policy (dispatchOnce policy batchSize answers now table).committed row <
        attemptsAhead policy table row := by
  obtain ⟨hfull, hahead⟩ := Outbox.crowded_out hrow hfree hout
  have hbatch : ∀ other ∈ Outbox.undispatched table batchSize,
      other.outboxId ≠ row.outboxId := by
    intro other hother hsame
    rw [table.eq_of_key (Outbox.mem_undispatched hother).1 hrow hsame] at hother
    exact hout hother
  have hkept : row.outboxId ∉
      (Outbox.undispatched table batchSize).map OutboxRow.outboxId := by
    intro hid
    obtain ⟨other, hother, hsame⟩ := List.mem_map.mp hid
    exact hbatch other hother hsame
  constructor
  · rw [committed_of_finishes hclean.finishes]
    exact List.mem_map.mpr ⟨row, hrow, if_neg hkept⟩
  · unfold attemptsAhead
    rw [committed_of_finishes hclean.finishes]
    apply sum_weight_map_lt
    · intro other _
      split
      · exact weightAhead_le (settled_advances other)
      · exact Nat.le_refl _
    · -- the batch is full, so there is a row in it; that one pays
      obtain ⟨first, hfirst⟩ := List.exists_mem_of_length_pos
        (l := Outbox.undispatched table batchSize) (by omega)
      obtain ⟨hfirst_row, hfirst_free⟩ := Outbox.mem_undispatched hfirst
      refine ⟨first, hfirst_row, ?_⟩
      rw [if_pos (List.mem_map_of_mem hfirst)]
      have hfirst_ahead : isAhead row first = true :=
        isAhead_iff.mpr ⟨hbatch first hfirst, hahead first hfirst⟩
      refine weightAhead_lt (settled_advances first) hfirst_ahead ?_
      refine attemptsLeft_lt hfirst_free (hclean first hfirst).1 ?_
      rw [settled_attempts]
      omega

theorem reached_of_finishes {answers : Uuid → Bool} {now : Instant}
    (hends : ∀ row ∈ Outbox.undispatched table batchSize, endsPass policy row = false) :
    (dispatchOnce policy batchSize answers now table).loop.reached =
      (Outbox.undispatched table batchSize).map OutboxRow.outboxId := by
  obtain ⟨after, hloop, hdid⟩ := pass_finishes answers now hends
  unfold dispatchOnce
  rw [hloop]
  exact hdid.reached

/-! ## Many passes -/

/-- The run lemma: a row is selected before the attempts ahead of it run out. -/
theorem selected_within {passes : List Circumstances} (hsize : 0 < batchSize)
    (hclean : ∀ k < passes.length, CleanBatch policy batchSize
      (dispatchPasses policy batchSize table (passes.take k)))
    (hrow : row ∈ table.rows) (hfree : row.dispatchedAt = none)
    (hlong : attemptsAhead policy table row < passes.length) :
    ∃ k ≤ attemptsAhead policy table row, row ∈ Outbox.undispatched
      (dispatchPasses policy batchSize table (passes.take k)) batchSize := by
  induction passes generalizing table with
  | nil => exact absurd hlong (Nat.not_lt_zero _)
  | cons pass passes ih =>
      by_cases hselected : row ∈ Outbox.undispatched table batchSize
      · exact ⟨0, Nat.zero_le _, hselected⟩
      · have hnow : CleanBatch policy batchSize table := hclean 0 (by simp)
        obtain ⟨hkept, hless⟩ :=
          attemptsAhead_lt pass.answers pass.now hsize hnow hrow hfree hselected
        rw [List.length_cons] at hlong hclean
        have hlater_clean : ∀ j < passes.length, CleanBatch policy batchSize
            (dispatchPasses policy batchSize
              (dispatchOnce policy batchSize pass.answers pass.now table).committed
              (passes.take j)) :=
          fun j hj => hclean (j + 1) (by omega)
        obtain ⟨k, hk, hlater⟩ := ih hlater_clean hkept (by omega)
        exact ⟨k + 1, by omega, hlater⟩

/-! ## The defect -/

/-- A row the transport never takes, and how often it has been tried. -/
structure IsDead (attempts : Nat) (row : OutboxRow) : Prop where
  outboxId : row.outboxId = 1
  sequence : row.sequence = 1
  kind : row.kind = "sample.flow"
  payload : row.payload = (triggerRow 1 1 0).payload
  free : row.dispatchedAt = none
  attempts : row.attempts = attempts

theorem IsDead.envelope {attempts : Nat} (h : IsDead attempts row) :
    envelopeFromRow row =
      .ok (.trigger ⟨⟨7⟩, .text (ofString "journey"), .sampleFlow⟩) := by
  have hbuilt : envelopeFromRow (triggerRow 1 1 0) =
      .ok (.trigger ⟨⟨7⟩, .text (ofString "journey"), .sampleFlow⟩) := by
    decide +kernel
  rw [← hbuilt]
  unfold envelopeFromRow
  rw [h.kind, h.payload]
  rfl

theorem IsDead.endsPass {attempts : Nat} (h : IsDead attempts row) :
    endsPass {} row = false :=
  endsPass_of_text h.envelope rfl

theorem IsDead.failed {attempts : Nat} {now : Instant} (h : IsDead attempts row) :
    IsDead (attempts + 1) (row.failed now) :=
  ⟨h.outboxId, h.sequence, h.kind, h.payload, h.free, congrArg (· + 1) h.attempts⟩

/-- At the head of a batch of one, the dead row is the batch. -/
theorem IsDead.batch {attempts : Nat} {dead : OutboxRow} (h : IsDead attempts dead)
    (htable : table.rows = [dead, triggerRow 2 2 0]) :
    Outbox.undispatched table 1 = [dead] := by
  have hfilter : table.rows.filter OutboxRow.undispatched = [dead, triggerRow 2 2 0] := by
    rw [htable]
    simp [OutboxRow.undispatched, h.free, triggerRow]
  have hfirst : dead.sequence ≤ (triggerRow 2 2 0).sequence := by
    rw [h.sequence]
    decide
  unfold Outbox.undispatched orderBy
  rw [hfilter]
  show List.take 1 (if dead.sequence ≤ (triggerRow 2 2 0).sequence then
    [dead, triggerRow 2 2 0] else _) = [dead]
  rw [if_pos hfirst]
  rfl

/-- What the transport says here: no to the dead row, yes to any other. -/
def refusesDead : Circumstances := ⟨0, fun outboxId => outboxId != 1⟩

theorem IsDead.pass {attempts : Nat} {dead : OutboxRow} (h : IsDead attempts dead)
    (htable : table.rows = [dead, triggerRow 2 2 0]) :
    (dispatchOnce {} 1 refusesDead.answers refusesDead.now table).committed.rows =
        [dead.failed 0, triggerRow 2 2 0] ∧
      (dispatchOnce {} 1 refusesDead.answers refusesDead.now table).loop.reached = [1] := by
  have hbatch := h.batch htable
  have hends : ∀ row ∈ Outbox.undispatched table 1, OutboxDispatch.endsPass {} row = false := by
    rw [hbatch]
    intro row hrow
    rw [List.mem_singleton.mp hrow]
    exact h.endsPass
  constructor
  · rw [committed_of_finishes hends, hbatch, htable]
    simp [h.outboxId, settled, sentFor, refusesDead, triggerRow]
  · rw [reached_of_finishes hends, hbatch, List.map_singleton, h.outboxId]

theorem IsDead.passes {attempts : Nat} {dead : OutboxRow} (passes : Nat)
    (h : IsDead attempts dead) (htable : table.rows = [dead, triggerRow 2 2 0]) :
    ∃ later, (dispatchPasses {} 1 table (List.replicate passes refusesDead)).rows =
      [later, triggerRow 2 2 0] ∧ IsDead (attempts + passes) later := by
  induction passes generalizing table dead attempts with
  | zero => exact ⟨dead, htable, h⟩
  | succ passes ih =>
      obtain ⟨later, hrows, hlater⟩ := ih h.failed (h.pass htable).1
      rw [show attempts + 1 + passes = attempts + (passes + 1) by omega] at hlater
      exact ⟨later, hrows, hlater⟩

/-- However many passes run, an exhausted row at the head holds a batch of one
and is attempted again by each of them, and the row behind it, which the
transport would take, is never selected. -/
theorem exhausted_row_holds_the_batch :
    let table : OutboxTable := ⟨[triggerRow 1 1 10, triggerRow 2 2 0], by decide⟩
    unexhaustedAhead {} table (triggerRow 2 2 0) = 0 ∧
    ∀ passes : Nat,
      let later := dispatchPasses {} 1 table (List.replicate passes refusesDead)
      (triggerRow 2 2 0 ∈ later.rows ∧ triggerRow 2 2 0 ∉ Outbox.undispatched later 1) ∧
      ∃ row ∈ later.rows, ({} : BackoffPolicy).exhausted row.attempts = true ∧
        (dispatchOnce {} 1 refusesDead.answers refusesDead.now later).loop.reached =
          [row.outboxId] := by
  refine ⟨by decide +kernel, ?_⟩
  intro passes
  have hstart : IsDead 10 (triggerRow 1 1 10) := ⟨rfl, rfl, rfl, rfl, rfl, rfl⟩
  have htable : (⟨[triggerRow 1 1 10, triggerRow 2 2 0], by decide⟩ : OutboxTable).rows =
      [triggerRow 1 1 10, triggerRow 2 2 0] := rfl
  obtain ⟨dead, hrows, hdead⟩ := hstart.passes passes htable
  refine ⟨⟨?_, ?_⟩, dead, ?_, ?_, ?_⟩
  · rw [hrows]
    exact List.mem_cons_of_mem _ List.mem_cons_self
  · rw [hdead.batch hrows, List.mem_singleton]
    intro hsame
    have hid := hdead.outboxId
    rw [← hsame] at hid
    exact absurd hid (by decide)
  · rw [hrows]
    exact List.mem_cons_self
  · rw [BackoffPolicy.exhausted, hdead.attempts, decide_eq_true_iff]
    show (10 : Int) ≤ _
    omega
  · rw [(hdead.pass hrows).2, hdead.outboxId]

/-- **No row starves.** While every batch is clean, no pass gets to a row whose
attempts have reached the ceiling, and every undispatched row is selected within
as many passes as the unexhausted rows ahead of it may be attempted, and one. -/
theorem no_row_starves (policy : BackoffPolicy) (batchSize : Nat) (table : OutboxTable)
    (passes : List Circumstances) (hsize : 0 < batchSize)
    (hclean : ∀ k < passes.length, CleanBatch policy batchSize
      (dispatchPasses policy batchSize table (passes.take k))) :
    (∀ k (hk : k < passes.length),
      let now := dispatchPasses policy batchSize table (passes.take k)
      ∀ outboxId ∈ (dispatchOnce policy batchSize passes[k].answers passes[k].now
          now).loop.reached,
        ∃ row ∈ now.rows, row.outboxId = outboxId ∧
          policy.exhausted row.attempts = false) ∧
    ∀ row ∈ table.rows, row.dispatchedAt = none →
      policy.ceiling.toNat * unexhaustedAhead policy table row < passes.length →
      ∃ k ≤ policy.ceiling.toNat * unexhaustedAhead policy table row,
        row ∈ Outbox.undispatched
          (dispatchPasses policy batchSize table (passes.take k)) batchSize := by
  constructor
  · intro k hk now outboxId hreached
    have hnow := hclean k hk
    rw [reached_of_finishes hnow.finishes] at hreached
    obtain ⟨row, hrow, hid⟩ := List.mem_map.mp hreached
    exact ⟨row, (Outbox.mem_undispatched hrow).1, hid, (hnow row hrow).1⟩
  · intro row hrow hfree hlong
    have hbound := attemptsAhead_le policy table row
    obtain ⟨k, hk, hselected⟩ := selected_within hsize hclean hrow hfree (by omega)
    exact ⟨k, Nat.le_trans hk hbound, hselected⟩

/-- Two rows, a ceiling of one and a transport that takes everything: the second
row is selected by the second pass. -/
theorem second_row_selected :
    let table : OutboxTable := ⟨[triggerRow 1 1 0, triggerRow 2 2 0], by decide⟩
    ∃ k ≤ 1, triggerRow 2 2 0 ∈ Outbox.undispatched
      (dispatchPasses ⟨1⟩ 1 table
        ((List.replicate 2 (⟨0, fun _ => true⟩ : Circumstances)).take k)) 1 := by
  have hclean : ∀ k < 2, CleanBatch ⟨1⟩ 1 (dispatchPasses ⟨1⟩ 1
      ⟨[triggerRow 1 1 0, triggerRow 2 2 0], by decide⟩
      ((List.replicate 2 (⟨0, fun _ => true⟩ : Circumstances)).take k)) := by
    decide +kernel
  exact (no_row_starves ⟨1⟩ 1 ⟨[triggerRow 1 1 0, triggerRow 2 2 0], by decide⟩
    (List.replicate 2 ⟨0, fun _ => true⟩) (by decide) hclean).2 (triggerRow 2 2 0)
    (by decide +kernel) rfl (by decide +kernel)

end Synthia.OutboxDispatch
