import Synthia.Proofs.Starvation

/-!
# The steps of an interleaving

What one step can do to the world, said once: `World.Change` has a case for each
way a step can go, with what had to hold before it and the world it leads to.
Two facts are read off it for every run. The history only grows, and every row
of the table is still there, published by the same kind and payload, its attempts
never fewer and its marker never taken off.
-/

namespace Synthia.OutboxDispatch

open Relational Text

variable {policy : BackoffPolicy} {batchSize : Nat}

inductive World.Change (policy : BackoffPolicy) (batchSize : Nat) (world : World) :
    Action → World → Prop where
  | begin {dispatcher now} (idle : world.dispatchers dispatcher = .idle) :
      world.Change policy batchSize (.begin dispatcher now)
        (world.become dispatcher
          (.looping ⟨now, Outbox.undispatched world.table batchSize, []⟩))
  | malformed {dispatcher accepts now row rows writes error}
      (looping : world.dispatchers dispatcher = .looping ⟨now, row :: rows, writes⟩)
      (raised : envelopeFromRow row = .error error) :
      world.Change policy batchSize (.attempt dispatcher accepts) (world.release dispatcher)
  | attempt {dispatcher accepts now row rows writes envelope}
      (looping : world.dispatchers dispatcher = .looping ⟨now, row :: rows, writes⟩)
      (rebuilt : envelopeFromRow row = .ok envelope) :
      world.Change policy batchSize (.attempt dispatcher accepts)
        ((world.log ⟨dispatcher, row.outboxId, publish envelope accepts⟩).become dispatcher
          (.answered ⟨now, rows, writes⟩ row (publish envelope accepts)))
  | mark {dispatcher pass row message}
      (answered : world.dispatchers dispatcher = .answered pass row (.ok message)) :
      world.Change policy batchSize (.write dispatcher)
        ((world.lock dispatcher row.outboxId).become dispatcher (.looping
          { pass with writes := pass.writes ++ [.markDispatched row.outboxId] }))
  | fail {dispatcher pass row error}
      (answered : world.dispatchers dispatcher = .answered pass row (.error error)) :
      world.Change policy batchSize (.write dispatcher)
        ((world.lock dispatcher row.outboxId).become dispatcher (.looping
          { pass with writes := pass.writes ++ [.recordFailure row.outboxId] }))
  | giveUp {dispatcher} (raises : world.raises policy (.write dispatcher) = true) :
      world.Change policy batchSize (.write dispatcher) (world.release dispatcher)
  | commit {dispatcher now writes}
      (looping : world.dispatchers dispatcher = .looping ⟨now, [], writes⟩) :
      world.Change policy batchSize (.commit dispatcher)
        { world.release dispatcher with
          table := writes.foldl (Write.commit now) world.table }
  | crash {dispatcher} : world.Change policy batchSize (.crash dispatcher)
      (world.release dispatcher)
  | insert {outboxId tenantId kind payload now} :
      world.Change policy batchSize (.insert outboxId tenantId kind payload now)
        { world with
          uncommitted := world.uncommitted ++
            [Outbox.inserted outboxId tenantId kind payload world.nextSequence now]
          nextSequence := world.nextSequence + 1 }
  | commitInsert {outboxId row} (held : row ∈ world.uncommitted)
      (fresh : row.outboxId ∉ world.table.rows.map OutboxRow.outboxId) :
      world.Change policy batchSize (.commitInsert outboxId)
        { world with
          table := world.table.insert row fresh
          uncommitted := world.uncommitted.erase row }
  | rollBackInsert {outboxId row} (held : row ∈ world.uncommitted) :
      world.Change policy batchSize (.rollBackInsert outboxId)
        { world with uncommitted := world.uncommitted.erase row }

theorem World.change_of_attempt {world next : World} {dispatcher : DispatcherId}
    {accepts : Bool} (h : world.attempt dispatcher accepts = some next) :
    world.Change policy batchSize (.attempt dispatcher accepts) next := by
  unfold World.attempt at h
  split at h
  · next now row rows writes hlooping =>
      split at h
      · next raised hraised =>
          injection h with h
          subst h
          exact .malformed hlooping hraised
      · next envelope hrebuilt =>
          injection h with h
          subst h
          exact .attempt hlooping hrebuilt
  · cases h

theorem World.change_of_write {world next : World} {dispatcher : DispatcherId}
    (h : world.write policy dispatcher = some next) :
    world.Change policy batchSize (.write dispatcher) next := by
  unfold World.write at h
  split at h
  · next pass row answer hanswered =>
      split at h
      · cases answer with
        | ok message =>
            injection h with h
            subst h
            exact .mark hanswered
        | error raised =>
            dsimp only at h
            split at h
            · next hgone =>
                injection h with h
                subst h
                exact .giveUp (by simp [World.raises, hanswered, hgone])
            · next attempts hattempts =>
              split at h
              · next hraises =>
                  injection h with h
                  subst h
                  exact .giveUp (by simp [World.raises, hanswered, hattempts, hraises])
              · injection h with h
                subst h
                exact .fail hanswered
      · cases h
  · cases h

theorem World.change_of_commitInsert {world next : World} {outboxId : Uuid}
    (h : world.commitInsert outboxId = some next) :
    world.Change policy batchSize (.commitInsert outboxId) next := by
  unfold World.commitInsert at h
  split at h
  · cases h
  · next row hfind =>
      split at h
      · next hfresh =>
          injection h with h
          subst h
          exact .commitInsert (List.mem_of_find?_eq_some hfind) hfresh
      · cases h

theorem World.change_of_rollBackInsert {world next : World} {outboxId : Uuid}
    (h : world.rollBackInsert outboxId = some next) :
    world.Change policy batchSize (.rollBackInsert outboxId) next := by
  unfold World.rollBackInsert at h
  split at h
  · cases h
  · next row hfind =>
      injection h with h
      subst h
      exact .rollBackInsert (List.mem_of_find?_eq_some hfind)

/-- Every step is one of the changes. -/
theorem World.step_change {world next : World} {action : Action}
    (h : world.step policy batchSize action = some next) :
    world.Change policy batchSize action next := by
  cases action with
  | begin dispatcher now =>
      unfold World.step at h
      dsimp only at h
      split at h
      · next hidle =>
          injection h with h
          subst h
          exact .begin hidle
      · cases h
  | attempt dispatcher accepts => exact World.change_of_attempt h
  | write dispatcher => exact World.change_of_write h
  | commit dispatcher =>
      unfold World.step World.commit at h
      dsimp only at h
      split at h
      · next now writes hlooping =>
          injection h with h
          subst h
          exact .commit hlooping
      · cases h
  | crash dispatcher =>
      unfold World.step World.crash at h
      dsimp only at h
      split at h
      · cases h
      · injection h with h
        subst h
        exact .crash
  | insert outboxId tenantId kind payload now =>
      unfold World.step World.insert at h
      dsimp only at h
      split at h
      · injection h with h
        subst h
        exact .insert
      · cases h
  | commitInsert outboxId => exact World.change_of_commitInsert h
  | rollBackInsert outboxId => exact World.change_of_rollBackInsert h

/-! ## The steps of a pass that nothing disturbs -/

section Forward

variable (policy : BackoffPolicy) (batchSize : Nat) {world : World}
  {dispatcher : DispatcherId}

theorem World.step_begin (now : Instant) (hidle : world.dispatchers dispatcher = .idle) :
    world.step policy batchSize (.begin dispatcher now) =
      some (world.become dispatcher
        (.looping ⟨now, Outbox.undispatched world.table batchSize, []⟩)) := by
  simp only [World.step, hidle]

theorem World.step_attempt {now : Instant} {row : OutboxRow} {rows : List OutboxRow}
    {writes : List Write} {envelope : Envelope} (accepts : Bool)
    (hlooping : world.dispatchers dispatcher = .looping ⟨now, row :: rows, writes⟩)
    (hrebuilt : envelopeFromRow row = .ok envelope) :
    world.step policy batchSize (.attempt dispatcher accepts) =
      some ((world.log ⟨dispatcher, row.outboxId, publish envelope accepts⟩).become
        dispatcher (.answered ⟨now, rows, writes⟩ row (publish envelope accepts))) := by
  simp only [World.step, World.attempt, hlooping, hrebuilt]

theorem World.step_mark {pass : Pass} {row : OutboxRow} {message : Message}
    (hanswered : world.dispatchers dispatcher = .answered pass row (.ok message))
    (hfree : world.locks row.outboxId = none) :
    world.step policy batchSize (.write dispatcher) =
      some ((world.lock dispatcher row.outboxId).become dispatcher (.looping
        { pass with writes := pass.writes ++ [.markDispatched row.outboxId] })) := by
  simp only [World.step, World.write, hanswered, hfree, true_or, if_true]

theorem World.step_fail {pass : Pass} {row : OutboxRow} {error : PublishError}
    {attempts : Nat}
    (hanswered : world.dispatchers dispatcher = .answered pass row (.error error))
    (hfree : world.locks row.outboxId = none)
    (hrecord : (Outbox.recordFailure world.table row.outboxId pass.now).1 = some attempts)
    (hreport : givingUpRaises policy row attempts = false) :
    world.step policy batchSize (.write dispatcher) =
      some ((world.lock dispatcher row.outboxId).become dispatcher (.looping
        { pass with writes := pass.writes ++ [.recordFailure row.outboxId] })) := by
  simp only [World.step, World.write, hanswered, hfree, true_or, if_true, hrecord, hreport,
    Bool.false_eq_true, if_false]

theorem World.step_commit {now : Instant} {writes : List Write}
    (hlooping : world.dispatchers dispatcher = .looping ⟨now, [], writes⟩) :
    world.step policy batchSize (.commit dispatcher) =
      some { world.release dispatcher with
        table := writes.foldl (Write.commit now) world.table } := by
  simp only [World.step, World.commit, hlooping]

end Forward

/-! ## A pass left alone -/

/-- The write that follows a row's publish. -/
def writeFor (row : OutboxRow) (accepts : Bool) : Write :=
  if (sentFor row accepts).isSome then .markDispatched row.outboxId
  else .recordFailure row.outboxId

/-- The actions of one uninterrupted pass over a batch. -/
def passActions (dispatcher : DispatcherId) (answers : Uuid → Bool) (now : Instant)
    (batch : List OutboxRow) : List Action :=
  .begin dispatcher now ::
    (batch.flatMap (fun row =>
      [.attempt dispatcher (answers row.outboxId), .write dispatcher]) ++
    [.commit dispatcher])

/-- One row of the loop: published and written, and its lock taken. -/
theorem World.run_row (batchSize : Nat) {world : World} {dispatcher : DispatcherId} {now : Instant}
    {row : OutboxRow} {rows : List OutboxRow} {writes : List Write} (accepts : Bool)
    (hlooping : world.dispatchers dispatcher = .looping ⟨now, row :: rows, writes⟩)
    (hrow : row ∈ world.table.rows) (hends : endsPass policy row = false)
    (hfree : world.locks row.outboxId = none) :
    ∃ next answer, Machine.run (World.step policy batchSize) world
        [.attempt dispatcher accepts, .write dispatcher] = some next ∧
      next.table = world.table ∧
      next.dispatchers dispatcher =
        .looping ⟨now, rows, writes ++ [writeFor row accepts]⟩ ∧
      next.locks = Function.update world.locks row.outboxId (some dispatcher) ∧
      next.history = world.history ++ [⟨dispatcher, row.outboxId, answer⟩] := by
  unfold endsPass at hends
  cases henvelope : envelopeFromRow row with
  | error raised => simp [henvelope] at hends
  | ok envelope =>
      rw [henvelope] at hends
      have hattempt := World.step_attempt policy batchSize accepts hlooping henvelope
      have hsent := sentFor_of_publish accepts henvelope
      have hanswered : ((world.log ⟨dispatcher, row.outboxId,
          publish envelope accepts⟩).become dispatcher (.answered ⟨now, rows, writes⟩ row
            (publish envelope accepts))).dispatchers dispatcher =
          .answered ⟨now, rows, writes⟩ row (publish envelope accepts) :=
        Function.update_self _ _ _
      cases hpublish : publish envelope accepts with
      | ok message =>
          rw [hpublish] at hattempt hanswered hsent
          have hwrite : writeFor row accepts = .markDispatched row.outboxId := by
            simp [writeFor, hsent, Except.toOption]
          refine ⟨_, .ok message, Machine.run_cons.mpr ⟨_, hattempt, Machine.run_cons.mpr
            ⟨_, World.step_mark policy batchSize hanswered hfree, rfl⟩⟩, rfl, ?_, rfl, rfl⟩
          rw [hwrite]
          exact Function.update_self _ _ _
      | error raised =>
          rw [hpublish] at hattempt hanswered hsent
          have hwrite : writeFor row accepts = .recordFailure row.outboxId := by
            simp [writeFor, hsent, Except.toOption]
          have hrecord := Outbox.recordFailure_attempts now hrow
          refine ⟨_, .error raised, Machine.run_cons.mpr ⟨_, hattempt, Machine.run_cons.mpr
            ⟨_, World.step_fail policy batchSize hanswered hfree hrecord hends, rfl⟩⟩, rfl, ?_, rfl,
            rfl⟩
          rw [hwrite]
          exact Function.update_self _ _ _

theorem World.run_rows (batchSize : Nat) {world : World} {dispatcher : DispatcherId} {now : Instant}
    {rows : List OutboxRow} {writes : List Write} (answers : Uuid → Bool)
    (hlooping : world.dispatchers dispatcher = .looping ⟨now, rows, writes⟩)
    (hrows : ∀ row ∈ rows, row ∈ world.table.rows)
    (hnodup : (rows.map OutboxRow.outboxId).Nodup)
    (hends : ∀ row ∈ rows, endsPass policy row = false)
    (hfree : ∀ row ∈ rows, world.locks row.outboxId = none) :
    ∃ next, Machine.run (World.step policy batchSize) world
        (rows.flatMap fun row =>
          [.attempt dispatcher (answers row.outboxId), .write dispatcher]) = some next ∧
      next.table = world.table ∧
      next.dispatchers dispatcher = .looping
        ⟨now, [], writes ++ rows.map fun row => writeFor row (answers row.outboxId)⟩ := by
  induction rows generalizing world writes with
  | nil => exact ⟨world, rfl, rfl, by rw [hlooping]; simp⟩
  | cons row rows ih =>
      rw [List.map_cons, List.nodup_cons] at hnodup
      obtain ⟨middle, answer, hrun, htable, hstate, hlocks, _⟩ :=
        World.run_row batchSize (answers row.outboxId) hlooping
          (hrows row List.mem_cons_self) (hends row List.mem_cons_self)
          (hfree row List.mem_cons_self)
      have hfree_rest : ∀ other ∈ rows, middle.locks other.outboxId = none := by
        intro other hother
        have hne : other.outboxId ≠ row.outboxId := by
          intro hsame
          exact hnodup.1 (hsame ▸ List.mem_map_of_mem hother)
        rw [hlocks, Function.update_of_ne hne]
        exact hfree other (List.mem_cons_of_mem _ hother)
      have hrows_rest : ∀ other ∈ rows, other ∈ middle.table.rows := by
        intro other hother
        rw [htable]
        exact hrows other (List.mem_cons_of_mem _ hother)
      obtain ⟨next, hrest, hnext_table, hnext_state⟩ := ih hstate hrows_rest hnodup.2
        (fun other hother => hends other (List.mem_cons_of_mem _ hother)) hfree_rest
      refine ⟨next, ?_, hnext_table.trans htable, ?_⟩
      · rw [List.flatMap_cons, Machine.run_append]
        exact ⟨middle, hrun, hrest⟩
      · rw [hnext_state, List.map_cons, List.append_assoc]
        rfl


/-! ## What a commit writes -/

/-- A write, on whatever row it meets. -/
def Write.applyTo (now : Instant) (row : OutboxRow) : Write → OutboxRow
  | .markDispatched outboxId => if row.outboxId = outboxId then row.marked now else row
  | .recordFailure outboxId => if row.outboxId = outboxId then row.failed now else row

theorem Write.commit_rows (now : Instant) (table : OutboxTable) (write : Write) :
    (write.commit now table).rows = table.rows.map fun row => write.applyTo now row := by
  cases write with
  | markDispatched outboxId => exact Outbox.markDispatched_rows outboxId
  | recordFailure outboxId => exact Outbox.recordFailure_rows outboxId

theorem commit_rows (now : Instant) (table : OutboxTable) (writes : List Write) :
    (writes.foldl (Write.commit now) table).rows =
      table.rows.map fun row => writes.foldl (Write.applyTo now) row := by
  induction writes generalizing table with
  | nil => exact (List.map_id _).symm
  | cons write writes ih =>
      rw [List.foldl_cons, ih, Write.commit_rows, List.map_map]
      rfl

theorem Write.applyTo_advances (now : Instant) (write : Write) (row : OutboxRow) :
    row.Advances (write.applyTo now row) := by
  cases write with
  | markDispatched outboxId =>
      show row.Advances (if row.outboxId = outboxId then row.marked now else row)
      split
      · exact row.advances_marked now
      · exact .refl row
  | recordFailure outboxId =>
      show row.Advances (if row.outboxId = outboxId then row.failed now else row)
      split
      · exact row.advances_failed now
      · exact .refl row

theorem writes_advance (now : Instant) (writes : List Write) (row : OutboxRow) :
    row.Advances (writes.foldl (Write.applyTo now) row) := by
  induction writes generalizing row with
  | nil => exact .refl row
  | cons write writes ih =>
      rw [List.foldl_cons]
      exact (write.applyTo_advances now row).trans (ih _)

/-- A row written counts an attempt, whichever write it was. -/
theorem attempts_lt_of_written {now : Instant} {writes : List Write} {row : OutboxRow}
    (h : row.outboxId ∈ writes.map Write.outboxId) :
    row.attempts < (writes.foldl (Write.applyTo now) row).attempts := by
  induction writes generalizing row with
  | nil => exact absurd h List.not_mem_nil
  | cons write writes ih =>
      rw [List.foldl_cons]
      have hadvance := write.applyTo_advances now row
      rw [List.map_cons, List.mem_cons] at h
      rcases h with hhead | htail
      · have hone : (write.applyTo now row).attempts = row.attempts + 1 := by
          cases write with
          | markDispatched outboxId => exact congrArg OutboxRow.attempts (if_pos hhead)
          | recordFailure outboxId => exact congrArg OutboxRow.attempts (if_pos hhead)
        have hrest := (writes_advance now writes (write.applyTo now row)).attempts
        omega
      · rw [← hadvance.outboxId] at htail
        exact Nat.lt_of_le_of_lt hadvance.attempts (ih htail)

/-- A commit marks only the rows it has a mark for. -/
theorem marked_of_writes {now : Instant} {writes : List Write} {row : OutboxRow}
    (h : (writes.foldl (Write.applyTo now) row).dispatchedAt.isSome) :
    row.dispatchedAt.isSome ∨ .markDispatched row.outboxId ∈ writes := by
  induction writes generalizing row with
  | nil => exact Or.inl h
  | cons write writes ih =>
      rw [List.foldl_cons] at h
      rcases ih h with hmarked | hlater
      · cases write with
        | markDispatched outboxId =>
            by_cases hid : row.outboxId = outboxId
            · rw [hid]
              exact Or.inr List.mem_cons_self
            · rw [Write.applyTo, if_neg hid] at hmarked
              exact Or.inl hmarked
        | recordFailure outboxId =>
            by_cases hid : row.outboxId = outboxId
            · rw [Write.applyTo, if_pos hid] at hmarked
              exact Or.inl hmarked
            · rw [Write.applyTo, if_neg hid] at hmarked
              exact Or.inl hmarked
      · rw [(write.applyTo_advances now row).outboxId] at hlater
        exact Or.inr (List.mem_cons_of_mem _ hlater)

/-- The writes of a batch settle its rows and touch no other. -/
theorem writes_settle {answers : Uuid → Bool} {now : Instant} {batch : List OutboxRow}
    {row : OutboxRow} (hnodup : (batch.map OutboxRow.outboxId).Nodup)
    (hsame : ∀ other ∈ batch, other.outboxId = row.outboxId → other = row) :
    (batch.map fun other => writeFor other (answers other.outboxId)).foldl
        (Write.applyTo now) row =
      if row.outboxId ∈ batch.map OutboxRow.outboxId then settled answers now row
      else row := by
  have hmiss : ∀ (rows : List OutboxRow) (target : OutboxRow),
      target.outboxId ∉ rows.map OutboxRow.outboxId →
      (rows.map fun other => writeFor other (answers other.outboxId)).foldl
        (Write.applyTo now) target = target := by
    intro rows target hout
    induction rows with
    | nil => rfl
    | cons other rows ih =>
        rw [List.map_cons, List.mem_cons, not_or] at hout
        rw [List.map_cons, List.foldl_cons]
        have hskip : (writeFor other (answers other.outboxId)).applyTo now target = target := by
          unfold writeFor
          split
          · exact if_neg hout.1
          · exact if_neg hout.1
        rw [hskip]
        exact ih hout.2
  induction batch with
  | nil => simp
  | cons other batch ih =>
      rw [List.map_cons, List.nodup_cons] at hnodup
      rw [List.map_cons, List.foldl_cons, List.map_cons]
      by_cases hhead : other.outboxId = row.outboxId
      · have heq := hsame other List.mem_cons_self hhead
        subst heq
        have hwritten : (writeFor other (answers other.outboxId)).applyTo now other =
            settled answers now other := by
          unfold writeFor settled
          split
          · exact if_pos rfl
          · exact if_pos rfl
        rw [hwritten, if_pos List.mem_cons_self]
        apply hmiss
        rw [settled_outboxId]
        exact hnodup.1
      · have hskip : (writeFor other (answers other.outboxId)).applyTo now row = row := by
          unfold writeFor
          split
          · exact if_neg fun h => hhead h.symm
          · exact if_neg fun h => hhead h.symm
        rw [hskip, ih hnodup.2 fun later hlater => hsame later (List.mem_cons_of_mem _ hlater)]
        have hin : row.outboxId ∈ other.outboxId :: batch.map OutboxRow.outboxId ↔
            row.outboxId ∈ batch.map OutboxRow.outboxId := by
          rw [List.mem_cons, or_iff_right fun h => hhead h.symm]
        simp only [hin]

/-- **The pass is one of these runs.** Undisturbed, the loop and its actions
commit the same rows. -/
theorem dispatchOnce_run {world : World} (dispatcher : DispatcherId) (answers : Uuid → Bool)
    (now : Instant) (hidle : world.dispatchers dispatcher = .idle)
    (hfree : ∀ outboxId, world.locks outboxId = none)
    (hends : ∀ row ∈ Outbox.undispatched world.table batchSize,
      endsPass policy row = false) :
    ∃ later, Machine.run (World.step policy batchSize) world
        (passActions dispatcher answers now (Outbox.undispatched world.table batchSize)) =
          some later ∧
      later.table.rows =
        (dispatchOnce policy batchSize answers now world.table).committed.rows := by
  have hnodup := Outbox.undispatched_nodup world.table batchSize
  have hmem : ∀ row ∈ Outbox.undispatched world.table batchSize, row ∈ world.table.rows :=
    fun _ hrow => (Outbox.mem_undispatched hrow).1
  have hopened : (world.become dispatcher
      (.looping ⟨now, Outbox.undispatched world.table batchSize, []⟩)).dispatchers dispatcher =
        .looping ⟨now, Outbox.undispatched world.table batchSize, []⟩ :=
    World.become_self _ _ _
  obtain ⟨done, hloop, htable, hstate⟩ := World.run_rows batchSize answers hopened hmem hnodup
    hends fun row _ => hfree row.outboxId
  have hcommit : Machine.run (World.step policy batchSize) done [.commit dispatcher] =
      some { done.release dispatcher with
        table := (([] : List Write) ++ (Outbox.undispatched world.table batchSize).map
          fun row => writeFor row (answers row.outboxId)).foldl (Write.commit now)
            done.table } :=
    Machine.run_cons.mpr ⟨_, World.step_commit policy batchSize hstate, rfl⟩
  have hpass := Machine.run_append.mpr ⟨done, hloop, hcommit⟩
  refine ⟨_, Machine.run_cons.mpr ⟨_, World.step_begin policy batchSize now hidle, hpass⟩, ?_⟩
  show (List.foldl (Write.commit now) done.table _).rows = _
  rw [commit_rows, htable, committed_of_finishes hends, List.nil_append]
  apply List.map_congr_left
  intro row hrow
  apply writes_settle hnodup
  intro other hother hid
  exact world.table.eq_of_key (hmem other hother) hrow hid

/-! ## What every run keeps -/

/-- Every row of the one table is a row of the other, as it was or further on. -/
def Keeps (before after : OutboxTable) : Prop :=
  ∀ row ∈ before.rows, ∃ now ∈ after.rows, row.Advances now

theorem Keeps.refl (table : OutboxTable) : Keeps table table :=
  fun row hrow => ⟨row, hrow, .refl row⟩

theorem Keeps.trans {a b c : OutboxTable} (hab : Keeps a b) (hbc : Keeps b c) :
    Keeps a c := by
  intro row hrow
  obtain ⟨middle, hmiddle, hfirst⟩ := hab row hrow
  obtain ⟨last, hlast, hthen⟩ := hbc middle hmiddle
  exact ⟨last, hlast, hfirst.trans hthen⟩

theorem keeps_commit (now : Instant) (table : OutboxTable) (writes : List Write) :
    Keeps table (writes.foldl (Write.commit now) table) := by
  intro row hrow
  refine ⟨writes.foldl (Write.applyTo now) row, ?_, writes_advance now writes row⟩
  rw [commit_rows]
  exact List.mem_map_of_mem hrow

theorem keeps_insert {table : OutboxTable} {row : OutboxRow}
    (hfresh : row.outboxId ∉ table.rows.map OutboxRow.outboxId) :
    Keeps table (table.insert row hfresh) := by
  intro old hold
  refine ⟨old, ?_, .refl old⟩
  show old ∈ table.rows ++ [row]
  exact List.mem_append_left _ hold

/-- How one world comes after another: rows are kept and the history grows. -/
structure World.Extends (before after : World) : Prop where
  keeps : Keeps before.table after.table
  grows : ∃ more, after.history = before.history ++ more

theorem World.extends_of_eq {before after : World} (htable : after.table = before.table)
    (hhistory : after.history = before.history) : before.Extends after := by
  refine ⟨?_, [], ?_⟩
  · rw [htable]
    exact .refl _
  · rw [hhistory, List.append_nil]

theorem World.Extends.trans {a b c : World} (hab : a.Extends b) (hbc : b.Extends c) :
    a.Extends c := by
  refine ⟨hab.keeps.trans hbc.keeps, ?_⟩
  obtain ⟨first, hfirst⟩ := hab.grows
  obtain ⟨then_, hthen⟩ := hbc.grows
  exact ⟨first ++ then_, by rw [hthen, hfirst, List.append_assoc]⟩

theorem World.Change.extends {world next : World} {action : Action}
    (h : world.Change policy batchSize action next) : world.Extends next := by
  cases h with
  | attempt => exact ⟨.refl _, _, rfl⟩
  | commit => exact ⟨keeps_commit _ _ _, [], (List.append_nil _).symm⟩
  | commitInsert held fresh => exact ⟨keeps_insert fresh, [], (List.append_nil _).symm⟩
  | begin | malformed | mark | fail | giveUp | crash | insert | rollBackInsert =>
      exact World.extends_of_eq rfl rfl

theorem World.run_extends {world later : World} {actions : List Action}
    (hrun : Machine.run (World.step policy batchSize) world actions = some later) :
    world.Extends later :=
  Machine.relation_run (fun _ => True) (fun _ _ _ _ _ => trivial)
    (fun _ => World.extends_of_eq rfl rfl) (fun _ _ _ => .trans)
    (fun _ _ _ _ hstep => (World.step_change hstep).extends) trivial hrun

end Synthia.OutboxDispatch
