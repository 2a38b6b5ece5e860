import Synthia.Proofs.Delivery

/-!
# A waiting row is published again

The passes a dispatcher opens and does not crash in are counted against the
attempts left ahead of a waiting row. The potential is that number, plus one
when the dispatcher owes nothing: an open pass owes when the waiting row is
still to be published in it, or when it holds a row ahead that has attempts
left, which its commit will take one of.

Opening a pass turns a debt of none into one, because a batch without exhausted
rows either has the waiting row in it or is full of rows ahead. A commit pays
out of the attempts. A crash forgives. And a commit of somebody else's that
takes the last attempt of the row owed pays as well.
-/

namespace Synthia.OutboxDispatch

open Relational

variable {policy : BackoffPolicy} {batchSize : Nat}

/-! ## Runs in which nothing goes wrong by itself -/

/-- Not dispatched, and not out of attempts. -/
def Waits (policy : BackoffPolicy) (row : OutboxRow) : Prop :=
  row.dispatchedAt = none ∧ policy.exhausted row.attempts = false

instance (policy : BackoffPolicy) (row : OutboxRow) : Decidable (Waits policy row) :=
  inferInstanceAs (Decidable (_ ∧ _))

/-- Whether the step reads a batch with an exhausted row in it. -/
def World.readsExhausted (policy : BackoffPolicy) (batchSize : Nat) (world : World) :
    Action → Bool
  | .begin _ _ =>
      (Outbox.undispatched world.table batchSize).any fun row =>
        policy.exhausted row.attempts
  | _ => false

/-- The step reads no exhausted row and ends no pass with an exception. -/
def Clean (policy : BackoffPolicy) (batchSize : Nat) (world : World) (action : Action) :
    Prop :=
  world.readsExhausted policy batchSize action = false ∧ world.raises policy action = false

instance (policy : BackoffPolicy) (batchSize : Nat) (world : World) (action : Action) :
    Decidable (Clean policy batchSize world action) :=
  inferInstanceAs (Decidable (_ ∧ _))

def Action.begins (dispatcher : DispatcherId) : Action → Bool
  | .begin other _ => other == dispatcher
  | _ => false

def Action.crashes (dispatcher : DispatcherId) : Action → Bool
  | .crash other => other == dispatcher
  | _ => false

/-! ## Sequence numbers -/

/-- Numbers are given out in increasing order. -/
structure World.Numbered (world : World) : Prop where
  table : ∀ row ∈ world.table.rows, row.sequence < world.nextSequence
  uncommitted : ∀ row ∈ world.uncommitted, row.sequence < world.nextSequence

theorem World.Numbered.step {world next : World} {action : Action} (h : world.Numbered)
    (hstep : world.step policy batchSize action = some next) : next.Numbered := by
  cases World.step_change hstep with
  | begin | malformed | attempt | mark | fail | giveUp | crash =>
      exact ⟨h.table, h.uncommitted⟩
  | @commit dispatcher now writes looping =>
      refine ⟨?_, h.uncommitted⟩
      intro row hrow
      have hrow : row ∈ world.table.rows.map fun old =>
          writes.foldl (Write.applyTo now) old := by
        rw [← commit_rows]
        exact hrow
      obtain ⟨old, hold, rfl⟩ := List.mem_map.mp hrow
      rw [(writes_advance now writes old).sequence]
      exact h.table old hold
  | insert =>
      refine ⟨fun row hrow => Nat.lt_succ_of_lt (h.table row hrow), ?_⟩
      intro row hrow
      rcases List.mem_append.mp hrow with hold | hnew
      · exact Nat.lt_succ_of_lt (h.uncommitted row hold)
      · rw [List.mem_singleton.mp hnew]
        exact Nat.lt_succ_self _
  | @commitInsert outboxId inserted held fresh =>
      refine ⟨?_, fun row hrow => h.uncommitted row (List.mem_of_mem_erase hrow)⟩
      intro row hrow
      have hrow : row ∈ world.table.rows ++ [inserted] := hrow
      rcases List.mem_append.mp hrow with hold | hnew
      · exact h.table row hold
      · rw [List.mem_singleton.mp hnew]
        exact h.uncommitted inserted held
  | rollBackInsert =>
      exact ⟨h.table, fun row hrow => h.uncommitted row (List.mem_of_mem_erase hrow)⟩

theorem World.numbered_run {world : World} {actions : List Action}
    (hrun : Machine.run (World.step policy batchSize) World.start actions = some world) :
    world.Numbered :=
  Machine.invariant_run (fun _ _ _ h hstep => h.step hstep)
    ⟨fun _ h => absurd h List.not_mem_nil, fun _ h => absurd h List.not_mem_nil⟩ hrun

/-! ## The potential -/

/-- The attempts left ahead of a row, in the table and in open transactions. -/
def World.attemptsAhead (policy : BackoffPolicy) (world : World) (row : OutboxRow) : Nat :=
  OutboxDispatch.attemptsAhead policy world.table row +
    (world.uncommitted.map (weightAhead policy row)).sum

/-- The rows of an open pass that it has not come to. -/
def Dispatcher.todo : Dispatcher → List OutboxRow
  | .idle => []
  | .looping pass => pass.todo
  | .answered pass _ _ => pass.todo

/-- The rows an open pass will have written when it commits. -/
def Dispatcher.pending (state : Dispatcher) : List Uuid :=
  state.rows.map OutboxRow.outboxId ++ state.writes.map Write.outboxId

/-- An open pass that will publish the row, or take an attempt from one ahead. -/
def World.Owes (policy : BackoffPolicy) (world : World) (row : OutboxRow)
    (dispatcher : DispatcherId) : Prop :=
  row.outboxId ∈ (world.dispatchers dispatcher).todo.map OutboxRow.outboxId ∨
    ∃ other ∈ world.table.rows, isAhead row other = true ∧ 0 < attemptsLeft policy other ∧
      other.outboxId ∈ (world.dispatchers dispatcher).pending

open Classical in
noncomputable def World.potential (policy : BackoffPolicy) (row : OutboxRow)
    (dispatcher : DispatcherId) (world : World) : Nat :=
  world.attemptsAhead policy row + if world.Owes policy row dispatcher then 0 else 1

variable {world next : World} {row : OutboxRow} {dispatcher : DispatcherId}

theorem World.potential_le :
    world.potential policy row dispatcher ≤ world.attemptsAhead policy row + 1 := by
  unfold World.potential
  split
  · omega
  · omega

theorem World.potential_of_owes (h : world.Owes policy row dispatcher) :
    world.potential policy row dispatcher = world.attemptsAhead policy row := by
  unfold World.potential
  rw [if_pos h, Nat.add_zero]

theorem World.potential_of_not_owes (h : ¬ world.Owes policy row dispatcher) :
    world.potential policy row dispatcher = world.attemptsAhead policy row + 1 := by
  unfold World.potential
  rw [if_neg h]

/-- A step that adds no attempts ahead, and settles a debt only by taking one. -/
theorem World.potential_mono
    (hle : next.attemptsAhead policy row ≤ world.attemptsAhead policy row)
    (howes : world.Owes policy row dispatcher → next.Owes policy row dispatcher ∨
      next.attemptsAhead policy row < world.attemptsAhead policy row) :
    next.potential policy row dispatcher ≤ world.potential policy row dispatcher := by
  by_cases hbefore : world.Owes policy row dispatcher
  · rw [World.potential_of_owes hbefore]
    rcases howes hbefore with hafter | hless
    · rw [World.potential_of_owes hafter]
      exact hle
    · exact Nat.le_trans World.potential_le hless
  · rw [World.potential_of_not_owes hbefore]
    exact Nat.le_trans World.potential_le (Nat.succ_le_succ hle)

theorem World.not_owes_idle (hidle : world.dispatchers dispatcher = .idle) :
    ¬ world.Owes policy row dispatcher := by
  unfold World.Owes
  rw [hidle]
  intro h
  rcases h with htodo | ⟨other, _, _, _, hpending⟩
  · exact absurd htodo List.not_mem_nil
  · exact absurd hpending List.not_mem_nil

/-- A debt stands while its pass and the table do. -/
theorem World.Owes.carry (h : world.Owes policy row dispatcher)
    (htable : ∀ other ∈ world.table.rows, other ∈ next.table.rows)
    (htodo : row.outboxId ∈ (world.dispatchers dispatcher).todo.map OutboxRow.outboxId →
      row.outboxId ∈ (next.dispatchers dispatcher).todo.map OutboxRow.outboxId)
    (hpending : ∀ outboxId ∈ (world.dispatchers dispatcher).pending,
      outboxId ∈ (next.dispatchers dispatcher).pending) :
    next.Owes policy row dispatcher := by
  rcases h with hrow | ⟨other, hother, hahead, hleft, hmem⟩
  · exact Or.inl (htodo hrow)
  · exact Or.inr ⟨other, htable other hother, hahead, hleft, hpending _ hmem⟩

/-- Opening a pass over a batch without exhausted rows incurs a debt. -/
theorem World.owes_begin {current : OutboxRow} (dispatcher : DispatcherId) (now : Instant)
    (hsize : 0 < batchSize) (hcurrent : current ∈ world.table.rows)
    (hadvance : row.Advances current)
    (hwaits : Waits policy current)
    (hfresh : ∀ other ∈ Outbox.undispatched world.table batchSize,
      policy.exhausted other.attempts = false) :
    (world.become dispatcher
      (.looping ⟨now, Outbox.undispatched world.table batchSize, []⟩)).Owes policy row
        dispatcher := by
  unfold World.Owes
  rw [World.become_self]
  by_cases hselected : current ∈ Outbox.undispatched world.table batchSize
  · left
    rw [← hadvance.outboxId]
    exact List.mem_map_of_mem hselected
  · right
    obtain ⟨hfull, hahead⟩ := Outbox.crowded_out hcurrent hwaits.1 hselected
    obtain ⟨first, hfirst⟩ := List.exists_mem_of_length_pos
      (l := Outbox.undispatched world.table batchSize) (by omega)
    obtain ⟨hrow, hfree⟩ := Outbox.mem_undispatched hfirst
    refine ⟨first, hrow, ?_, ?_, ?_⟩
    · rw [isAhead_iff, ← hadvance.sequence, ← hadvance.outboxId]
      refine ⟨?_, hahead first hfirst⟩
      intro hsame
      rw [world.table.eq_of_key hrow hcurrent hsame] at hfirst
      exact hselected hfirst
    · exact attemptsLeft_pos_iff.mpr ⟨hfree, hfresh first hfirst⟩
    · exact List.mem_append_left _ (List.mem_map_of_mem hfirst)

/-! ## Commits -/

theorem attemptsAhead_commit_le (policy : BackoffPolicy) (row : OutboxRow) (now : Instant)
    (writes : List Write) (table : OutboxTable) :
    OutboxDispatch.attemptsAhead policy (writes.foldl (Write.commit now) table) row ≤
      OutboxDispatch.attemptsAhead policy table row := by
  unfold OutboxDispatch.attemptsAhead
  rw [commit_rows]
  exact sum_weight_map_le fun other _ => weightAhead_le (writes_advance now writes other)

theorem attemptsAhead_commit_lt {now : Instant} {writes : List Write} {table : OutboxTable}
    {other : OutboxRow} (hother : other ∈ table.rows) (hahead : isAhead row other = true)
    (hless : attemptsLeft policy (writes.foldl (Write.applyTo now) other) <
      attemptsLeft policy other) :
    OutboxDispatch.attemptsAhead policy (writes.foldl (Write.commit now) table) row <
      OutboxDispatch.attemptsAhead policy table row := by
  unfold OutboxDispatch.attemptsAhead
  rw [commit_rows]
  apply sum_weight_map_lt
  · exact fun old _ => weightAhead_le (writes_advance now writes old)
  · exact ⟨other, hother, weightAhead_lt (writes_advance now writes other) hahead hless⟩

/-- A row with attempts left loses one to any write. -/
theorem attemptsLeft_written {now : Instant} {writes : List Write} {other : OutboxRow}
    (hleft : 0 < attemptsLeft policy other)
    (hwritten : other.outboxId ∈ writes.map Write.outboxId) :
    attemptsLeft policy (writes.foldl (Write.applyTo now) other) <
      attemptsLeft policy other := by
  obtain ⟨hfree, hexhausted⟩ := attemptsLeft_pos_iff.mp hleft
  exact attemptsLeft_lt hfree hexhausted (attempts_lt_of_written hwritten)

theorem World.potential_commit {committer : DispatcherId} {now : Instant}
    {writes : List Write}
    (hlooping : world.dispatchers committer = .looping ⟨now, [], writes⟩) :
    ({ world.release committer with
      table := writes.foldl (Write.commit now) world.table } : World).potential policy row
        dispatcher ≤ world.potential policy row dispatcher := by
  have hle := attemptsAhead_commit_le policy row now writes world.table
  apply World.potential_mono
  · show OutboxDispatch.attemptsAhead policy _ row + _ ≤
      OutboxDispatch.attemptsAhead policy world.table row + _
    exact Nat.add_le_add_right hle _
  · intro howes
    by_cases hself : dispatcher = committer
    · -- the dispatcher's own commit pays
      subst hself
      right
      unfold World.Owes at howes
      rw [hlooping] at howes
      rcases howes with htodo | ⟨other, hother, hahead, hleft, hpending⟩
      · exact absurd htodo List.not_mem_nil
      · exact Nat.add_lt_add_right
          (attemptsAhead_commit_lt hother hahead (attemptsLeft_written hleft hpending)) _
    · -- another's may take the last attempt of the row owed
      have hsame : ({ world.release committer with
          table := writes.foldl (Write.commit now) world.table } : World).dispatchers
            dispatcher = world.dispatchers dispatcher :=
        Function.update_of_ne hself _ _
      rcases howes with htodo | ⟨other, hother, hahead, hleft, hpending⟩
      · left
        left
        rw [hsame]
        exact htodo
      · by_cases hspent : 0 < attemptsLeft policy (writes.foldl (Write.applyTo now) other)
        · left
          right
          have hadvance := writes_advance now writes other
          refine ⟨writes.foldl (Write.applyTo now) other, ?_, ?_, hspent, ?_⟩
          · show _ ∈ (writes.foldl (Write.commit now) world.table).rows
            rw [commit_rows]
            exact List.mem_map_of_mem hother
          · rw [isAhead_of_advances hadvance]
            exact hahead
          · rw [hsame, hadvance.outboxId]
            exact hpending
        · right
          exact Nat.add_lt_add_right
            (attemptsAhead_commit_lt hother hahead (by omega)) _

/-! ## One step -/

/-- What a step of the run must meet for the potential to pay for it: the row
waited for is there and waiting, it is not published in the step, and the step is
clean. -/
structure Good (policy : BackoffPolicy) (batchSize : Nat) (row : OutboxRow) (world : World)
    (action : Action) : Prop where
  numbered : row.sequence < world.nextSequence
  waits : ∃ current ∈ world.table.rows, row.Advances current ∧ Waits policy current
  clean : Clean policy batchSize world action
  quiet : ∀ dispatcher accepts now head rows writes, action = .attempt dispatcher accepts →
    world.dispatchers dispatcher = .looping ⟨now, head :: rows, writes⟩ →
    head.outboxId ≠ row.outboxId

/-- A step of `actor` that leaves the table and the open transactions alone, and
its own debt as it was. -/
theorem World.potential_turn {actor : DispatcherId} {state : Dispatcher}
    (htable : next.table = world.table) (huncommitted : next.uncommitted = world.uncommitted)
    (hdispatchers : next.dispatchers = Function.update world.dispatchers actor state)
    (htodo : dispatcher = actor →
      row.outboxId ∈ (world.dispatchers actor).todo.map OutboxRow.outboxId →
      row.outboxId ∈ state.todo.map OutboxRow.outboxId)
    (hpending : dispatcher = actor → ∀ outboxId ∈ (world.dispatchers actor).pending,
      outboxId ∈ state.pending) :
    next.potential policy row dispatcher ≤ world.potential policy row dispatcher := by
  have hahead : next.attemptsAhead policy row = world.attemptsAhead policy row := by
    unfold World.attemptsAhead
    rw [htable, huncommitted]
  apply World.potential_mono (Nat.le_of_eq hahead)
  intro howes
  left
  by_cases hself : dispatcher = actor
  · have hstate : next.dispatchers dispatcher = state := by
      rw [hdispatchers, hself, Function.update_self]
    apply howes.carry
    · rw [htable]
      exact fun _ h => h
    · rw [hstate, hself]
      exact htodo hself
    · rw [hstate, hself]
      exact hpending hself
  · have hstate : next.dispatchers dispatcher = world.dispatchers dispatcher := by
      rw [hdispatchers, Function.update_of_ne hself]
    apply howes.carry
    · rw [htable]
      exact fun _ h => h
    · rw [hstate]
      exact id
    · rw [hstate]
      exact fun _ h => h

/-- Writing the row in hand keeps it pending. -/
theorem pending_write {pass : Pass} {answered : OutboxRow} {answer : Except PublishError Message}
    {write : Write} (hwrite : write.outboxId = answered.outboxId) :
    ∀ outboxId ∈ (Dispatcher.answered pass answered answer).pending,
      outboxId ∈ (Dispatcher.looping { pass with writes := pass.writes ++ [write] }).pending := by
  intro outboxId h
  simp only [Dispatcher.pending, Dispatcher.rows, Dispatcher.writes, List.map_cons,
    List.map_append, List.map_nil, List.mem_append, List.mem_cons, List.not_mem_nil,
    or_false, hwrite] at h ⊢
  rcases h with (hhead | htodo) | hwrites
  · exact Or.inr (Or.inr hhead)
  · exact Or.inl htodo
  · exact Or.inr (Or.inl hwrites)

/-- A pass that ends leaves a debt of one at most. -/
theorem World.potential_release (actor : DispatcherId) :
    (world.release actor).potential policy row dispatcher ≤
      world.potential policy row dispatcher + if actor = dispatcher then 1 else 0 := by
  by_cases hself : actor = dispatcher
  · rw [if_pos hself]
    have hle : (world.release actor).attemptsAhead policy row ≤
        world.potential policy row dispatcher := by
      unfold World.potential
      exact Nat.le_add_right _ _
    exact Nat.le_trans World.potential_le (Nat.succ_le_succ hle)
  · rw [if_neg hself, Nat.add_zero]
    refine World.potential_turn rfl rfl rfl ?_ ?_
    · exact fun h => absurd h.symm hself
    · exact fun h => absurd h.symm hself

/-- **The step lemma.** A good step pays for the pass it opens out of the
potential, or is a crash. -/
theorem World.potential_step {action : Action} (hsize : 0 < batchSize)
    (hgood : Good policy batchSize row world action)
    (hstep : world.step policy batchSize action = some next) :
    next.potential policy row dispatcher + (action.begins dispatcher).toNat ≤
      world.potential policy row dispatcher + (action.crashes dispatcher).toNat := by
  obtain ⟨hfresh, hraises⟩ := hgood.clean
  cases World.step_change hstep with
  | @begin actor now idle =>
      by_cases hself : actor = dispatcher
      · subst hself
        obtain ⟨current, hcurrent, hadvance, hwaits⟩ := hgood.waits
        have hbatch : ∀ other ∈ Outbox.undispatched world.table batchSize,
            policy.exhausted other.attempts = false := by
          simpa [World.readsExhausted] using hfresh
        have howes := World.owes_begin actor now hsize hcurrent hadvance hwaits hbatch
        rw [World.potential_of_owes howes,
          World.potential_of_not_owes (World.not_owes_idle idle)]
        simp only [Action.begins, Action.crashes, beq_self_eq_true, Bool.toNat_true,
          Bool.toNat_false]
        exact Nat.le_refl _
      · simp only [Action.begins, Action.crashes, beq_false_of_ne hself, Bool.toNat_false,
          Nat.add_zero]
        refine World.potential_turn rfl rfl rfl ?_ ?_
        · exact fun h => absurd h.symm hself
        · exact fun h => absurd h.symm hself
  | malformed looping raised =>
      simp [World.raises, looping, raised] at hraises
  | @attempt actor accepts now head rows writes envelope looping rebuilt =>
      have hhead := hgood.quiet actor accepts now head rows writes rfl looping
      refine World.potential_turn rfl rfl rfl ?_ ?_
      · intro _ hrow
        rw [looping] at hrow
        rcases List.mem_cons.mp hrow with hsame | hlater
        · exact absurd hsame.symm hhead
        · exact hlater
      · intro _ outboxId hmem
        rw [looping] at hmem
        exact hmem
  | mark answered =>
      refine World.potential_turn rfl rfl rfl ?_ ?_
      · rw [answered]
        exact fun _ h => h
      · rw [answered]
        exact fun _ => pending_write rfl
  | fail answered =>
      refine World.potential_turn rfl rfl rfl ?_ ?_
      · rw [answered]
        exact fun _ h => h
      · rw [answered]
        exact fun _ => pending_write rfl
  | giveUp raises =>
      rw [raises] at hraises
      exact Bool.noConfusion hraises
  | commit looping => exact World.potential_commit looping
  | @crash actor =>
      have hrelease := @World.potential_release policy world row dispatcher actor
      by_cases hself : actor = dispatcher
      · rw [if_pos hself] at hrelease
        simpa [Action.begins, Action.crashes, hself] using hrelease
      · rw [if_neg hself] at hrelease
        simpa [Action.begins, Action.crashes, beq_false_of_ne hself] using hrelease
  | @insert outboxId tenantId kind payload now =>
      -- the new row is behind the one waiting
      have hbehind : weightAhead policy row
          (Outbox.inserted outboxId tenantId kind payload world.nextSequence now) = 0 := by
        refine weightAhead_of_behind (Bool.eq_false_iff.mpr fun hahead => ?_)
        exact absurd (isAhead_iff.mp hahead).2 (Nat.not_le.mpr hgood.numbered)
      apply World.potential_mono
      · unfold World.attemptsAhead
        simp [hbehind]
      · intro howes
        exact Or.inl (howes.carry (fun _ h => h) id fun _ h => h)
  | @commitInsert outboxId inserted held fresh =>
      have hmoved := List.sum_map_erase (weightAhead policy row) held
      apply World.potential_mono
      · show ((world.table.rows ++ [inserted]).map (weightAhead policy row)).sum + _ ≤
          (world.table.rows.map (weightAhead policy row)).sum + _
        simp only [List.map_append, List.sum_append, List.map_singleton, List.sum_singleton]
        omega
      · intro howes
        exact Or.inl (howes.carry (fun _ h => List.mem_append_left _ h) id fun _ h => h)
  | rollBackInsert held =>
      have hdropped := List.sum_map_erase (weightAhead policy row) held
      apply World.potential_mono
      · unfold World.attemptsAhead
        dsimp only
        omega
      · intro howes
        exact Or.inl (howes.carry (fun _ h => h) id fun _ h => h)

/-! ## A run -/

theorem Waits.of_advances {current later : OutboxRow} (h : Waits policy later)
    (hadvance : current.Advances later) : Waits policy current := by
  have hattempts := hadvance.attempts
  obtain ⟨hfree, hleft⟩ := h
  constructor
  · rw [← Option.not_isSome_iff_eq_none]
    intro hmarked
    have hlater := hadvance.marked hmarked
    rw [hfree] at hlater
    exact Bool.noConfusion hlater
  · rw [BackoffPolicy.exhausted_eq_false] at hleft ⊢
    omega

/-- In a clean run at whose end a row still waits, and which has not published
it, every step was good. -/
theorem good_along {later : World} {actions : List Action} (hnumbered : world.Numbered)
    (hrow : row ∈ world.table.rows)
    (hrun : Machine.run (World.step policy batchSize) world actions = some later)
    (hclean : Machine.Along (World.step policy batchSize) (Clean policy batchSize) world
      actions)
    (hlast : ∃ after ∈ later.table.rows, row.Advances after ∧ Waits policy after)
    (hquiet : ∀ publication ∈ later.history.drop world.history.length,
      publication.outboxId ≠ row.outboxId) :
    Machine.Along (World.step policy batchSize) (Good policy batchSize row) world
      actions := by
  apply Machine.along_of_forall
  intro before action after middle hsplit hbefore
  rw [hsplit] at hrun hclean
  obtain ⟨middle', hmiddle, hafter⟩ := Machine.run_append.mp hrun
  rw [hbefore, Option.some.injEq] at hmiddle
  subst hmiddle
  have hnow := Machine.along_at hclean hbefore
  have hsofar := World.run_extends hbefore
  obtain ⟨current, hcurrent, hadvance⟩ := hsofar.keeps row hrow
  have hmiddle_numbered : middle.Numbered :=
    Machine.invariant_run (fun _ _ _ h hstep => h.step hstep) hnumbered hbefore
  refine ⟨?_, ⟨current, hcurrent, hadvance, ?_⟩, hnow, ?_⟩
  · rw [← hadvance.sequence]
    exact hmiddle_numbered.table current hcurrent
  · obtain ⟨last, hlast_mem, hrow_last, hwaits⟩ := hlast
    obtain ⟨final, hfinal, hcurrent_final⟩ := (World.run_extends hafter).keeps current hcurrent
    have hsame : final = last := by
      apply later.table.eq_of_key hfinal hlast_mem
      rw [hcurrent_final.outboxId, hadvance.outboxId, hrow_last.outboxId]
    rw [← hsame] at hwaits
    exact hwaits.of_advances hcurrent_final
  · intro actor accepts now head rows writes haction hlooping hid
    subst haction
    obtain ⟨next, hnext, hrest⟩ := Machine.run_cons.mp hafter
    obtain ⟨earlier, hearlier⟩ := hsofar.grows
    obtain ⟨more, hmore⟩ := (World.run_extends hrest).grows
    cases World.step_change hnext with
    | malformed looping raised =>
        have hraises := hnow.2
        simp [World.raises, looping, raised] at hraises
    | @attempt _ _ _ _ _ _ envelope looping rebuilt =>
        rw [hlooping] at looping
        injection looping with hpass
        injection hpass with _ hrows _
        injection hrows with hhead _
        subst hhead
        have hhistory : later.history = world.history ++
            (earlier ++ [⟨actor, head.outboxId, publish envelope accepts⟩] ++ more) := by
          rw [hmore]
          show (middle.history ++ [_]) ++ more = _
          rw [hearlier]
          simp only [List.append_assoc]
        refine hquiet ⟨actor, head.outboxId, publish envelope accepts⟩ ?_ hid
        rw [hhistory, List.drop_left]
        simp

theorem sum_toNat_eq_countP {α : Type} (counts : α → Bool) (entries : List α) :
    (entries.map fun entry => (counts entry).toNat).sum = entries.countP counts := by
  induction entries with
  | nil => rfl
  | cons entry entries ih =>
      rw [List.map_cons, List.sum_cons, ih, List.countP_cons]
      cases counts entry with
      | true => simp [Nat.add_comm]
      | false => simp

/-- The run lemma: a waiting row has been published again before a dispatcher
has opened, and not crashed in, two passes more than there are attempts ahead. -/
theorem published_again {later : World} {actions : List Action} (hsize : 0 < batchSize)
    (hnumbered : world.Numbered) (hrow : row ∈ world.table.rows)
    (hrun : Machine.run (World.step policy batchSize) world actions = some later)
    (hclean : Machine.Along (World.step policy batchSize) (Clean policy batchSize) world
      actions)
    (hpasses : world.attemptsAhead policy row + 1 + actions.countP (Action.crashes dispatcher) <
      actions.countP (Action.begins dispatcher))
    (hlast : ∃ after ∈ later.table.rows, row.Advances after ∧ Waits policy after) :
    ∃ publication ∈ later.history.drop world.history.length,
      publication.outboxId = row.outboxId := by
  by_contra hnone
  have hquiet : ∀ publication ∈ later.history.drop world.history.length,
      publication.outboxId ≠ row.outboxId :=
    fun publication hmem hid => hnone ⟨publication, hmem, hid⟩
  have hpays : ∀ now action then_, Good policy batchSize row now action →
      now.step policy batchSize action = some then_ →
      then_.potential policy row dispatcher + (action.begins dispatcher).toNat ≤
        now.potential policy row dispatcher + (action.crashes dispatcher).toNat :=
    fun _ _ _ hgood hstep => World.potential_step hsize hgood hstep
  have hbalance := Machine.potential_run hpays
    (good_along hnumbered hrow hrun hclean hlast hquiet) hrun
  rw [sum_toNat_eq_countP, sum_toNat_eq_countP] at hbalance
  have hbound := @World.potential_le policy world row dispatcher
  omega

end Synthia.OutboxDispatch

/-!
## Delivery, over every run

The two halves together, and the run that shows what the second one needs. One
row the transport keeps refusing, and a dispatcher that reads one row at a time:
once the row has used up its attempts it is read all the same, and no number of
passes brings the dispatcher to the row behind it.
-/

namespace Synthia.OutboxDispatch

open Relational Text

/-! ### The defect -/

/-- Two transactions elsewhere, one row each. -/
def twoInserts : List Action :=
  [.insert 1 ⟨1⟩ "sample.flow" (triggerRow 1 1 0).payload 0, .commitInsert 1,
    .insert 2 ⟨1⟩ "sample.flow" (triggerRow 2 2 0).payload 0, .commitInsert 2]

/-- One pass over the first row, which the transport refuses. -/
def refusedPass : List Action := [.begin 0 0, .attempt 0 false, .write 0, .commit 0]

/-- Between two such passes. -/
structure Stuck (attempts : Nat) (world : World) : Prop where
  rows : ∃ dead, world.table.rows = [dead, triggerRow 2 2 0] ∧ IsDead attempts dead
  idle : world.dispatchers 0 = .idle
  free : world.locks 1 = none
  silent : ∀ publication ∈ world.history, publication.outboxId = 1

theorem stuck_start :
    ∃ world, Machine.run (World.step {} 1) World.start twoInserts = some world ∧
      Stuck 0 world :=
  ⟨_, rfl, ⟨triggerRow 1 1 0, rfl, rfl, rfl, rfl, rfl, rfl, rfl⟩, rfl, rfl,
    fun _ h => absurd h List.not_mem_nil⟩

theorem Stuck.pass {attempts : Nat} {world : World} (h : Stuck attempts world) :
    ∃ next, Machine.run (World.step {} 1) world refusedPass = some next ∧
      Stuck (attempts + 1) next := by
  obtain ⟨dead, hrows, hdead⟩ := h.rows
  have hmem : dead ∈ world.table.rows := by
    rw [hrows]
    exact List.mem_cons_self
  have hfree : world.locks dead.outboxId = none := by
    rw [hdead.outboxId]
    exact h.free
  have hbegin := World.step_begin {} 1 0 h.idle
  rw [hdead.batch hrows] at hbegin
  have hopened : (world.become 0 (.looping ⟨0, [dead], []⟩)).dispatchers 0 =
      .looping ⟨0, [dead], []⟩ := World.become_self _ _ _
  obtain ⟨done, answer, hrow, htable, hstate, hlocks, hhistory⟩ :=
    World.run_row 1 false hopened hmem hdead.endsPass hfree
  have hcommit : Machine.run (World.step {} 1) done [.commit 0] =
      some { done.release 0 with
        table := [writeFor dead false].foldl (Write.commit 0) done.table } :=
    Machine.run_cons.mpr ⟨_, World.step_commit {} 1 hstate, rfl⟩
  refine ⟨_, Machine.run_cons.mpr ⟨_, hbegin, Machine.run_append.mpr ⟨done, hrow, hcommit⟩⟩,
    ⟨dead.failed 0, ?_, hdead.failed⟩, World.release_self done 0, ?_, ?_⟩
  · show ([writeFor dead false].foldl (Write.commit 0) done.table).rows = _
    rw [commit_rows, htable]
    show world.table.rows.map _ = _
    rw [hrows]
    simp [writeFor, sentFor, Write.applyTo, hdead.outboxId, triggerRow]
  · show (if done.locks 1 = some 0 then none else done.locks 1) = none
    rw [hlocks, hdead.outboxId, Function.update_self, if_pos rfl]
  · intro publication hpublication
    have hpublication : publication ∈ done.history := hpublication
    rw [hhistory] at hpublication
    rcases List.mem_append.mp hpublication with hold | hnew
    · exact h.silent publication hold
    · rw [List.mem_singleton.mp hnew]
      exact hdead.outboxId

theorem Stuck.passes {attempts : Nat} {world : World} (passes : Nat)
    (h : Stuck attempts world) :
    ∃ later, Machine.run (World.step {} 1) world (List.replicate passes refusedPass).flatten =
        some later ∧ Stuck (attempts + passes) later := by
  induction passes generalizing attempts world with
  | zero => exact ⟨world, rfl, h⟩
  | succ passes ih =>
      obtain ⟨next, hnext, hstuck⟩ := h.pass
      obtain ⟨later, hlater, hend⟩ := ih hstuck
      refine ⟨later, ?_, ?_⟩
      · rw [List.replicate_succ, List.flatten_cons, Machine.run_append]
        exact ⟨next, hnext, hlater⟩
      · rw [show attempts + (passes + 1) = attempts + 1 + passes by omega]
        exact hend

/-- The transport would take the second row, and no dispatcher ever crashes; yet
after any number of passes it waits, with its attempts untouched, and has not
been published once. -/
theorem waiting_row_never_published :
    messageOf (triggerRow 2 2 0) ≠ none ∧
    ∀ passes : Nat, ∃ later,
      Machine.run (World.step {} 1) World.start
        (twoInserts ++ (List.replicate passes refusedPass).flatten) = some later ∧
      (triggerRow 2 2 0 ∈ later.table.rows ∧ Waits {} (triggerRow 2 2 0)) ∧
      ∀ publication ∈ later.history, publication.outboxId ≠ 2 := by
  refine ⟨by decide +kernel, ?_⟩
  intro passes
  obtain ⟨world, hstart, hstuck⟩ := stuck_start
  obtain ⟨later, hlater, hend⟩ := hstuck.passes passes
  obtain ⟨dead, hrows, _⟩ := hend.rows
  refine ⟨later, Machine.run_append.mpr ⟨world, hstart, hlater⟩, ⟨?_, by decide +kernel⟩, ?_⟩
  · rw [hrows]
    exact List.mem_cons_of_mem _ List.mem_cons_self
  · intro publication hpublication
    rw [hend.silent publication hpublication]
    decide

/-! ### The two halves -/

/-- **At least once, and never falsely marked.** In every world reached, a marked
row has an accepted publication of its own message behind it. From there on, in
every run, every row stays; and in every clean run a row that still waits at the
end has been published again, once some dispatcher has opened two passes more,
crashes not counted, than there were attempts ahead of the row. -/
theorem at_least_once (policy : BackoffPolicy) (batchSize : Nat) (actions : List Action)
    (world : World)
    (hrun : Machine.run (World.step policy batchSize) World.start actions = some world) :
    (∀ row ∈ world.table.rows, row.dispatchedAt.isSome → Delivered world.history row) ∧
    ∀ more later, Machine.run (World.step policy batchSize) world more = some later →
      (∀ row ∈ world.table.rows, ∃ after ∈ later.table.rows, row.Advances after) ∧
      (0 < batchSize →
        Machine.Along (World.step policy batchSize) (Clean policy batchSize) world more →
        ∀ row ∈ world.table.rows, ∀ dispatcher,
          world.attemptsAhead policy row + 1 + more.countP (Action.crashes dispatcher) <
            more.countP (Action.begins dispatcher) →
          (∃ after ∈ later.table.rows, row.Advances after ∧ Waits policy after) →
          ∃ publication ∈ later.history.drop world.history.length,
            publication.outboxId = row.outboxId) := by
  refine ⟨(World.sound_run hrun).marked, ?_⟩
  intro more later hmore
  refine ⟨(World.run_extends hmore).keeps, ?_⟩
  intro hsize hclean row hrow dispatcher hpasses hlast
  exact published_again hsize (World.numbered_run hrun) hrow hmore hclean hpasses hlast

/-- The world a run of the default policy, one row at a time, leads to. -/
def reached (world : World) (actions : List Action) : World :=
  (Machine.run (World.step {} 1) world actions).getD World.start

theorem run_reached {world : World} {actions : List Action}
    (h : (Machine.run (World.step {} 1) world actions).isSome = true) :
    Machine.run (World.step {} 1) world actions = some (reached world actions) := by
  unfold reached
  obtain ⟨later, hlater⟩ := Option.isSome_iff_exists.mp h
  rw [hlater, Option.getD_some]

/-- A row that two passes in a row are refused has been published again by the
time a third begins. -/
theorem refused_row_published_again :
    let world := reached World.start [.insert 1 ⟨1⟩ "sample.flow"
      (triggerRow 1 1 0).payload 0, .commitInsert 1]
    let later := reached world (refusedPass ++ refusedPass ++ [.begin 0 0])
    ∃ publication ∈ later.history.drop world.history.length,
      publication.outboxId = 1 := by
  have hworld : (Machine.run (World.step {} 1) World.start [.insert 1 ⟨1⟩ "sample.flow"
      (triggerRow 1 1 0).payload 0, .commitInsert 1]).isSome = true := by decide +kernel
  intro world later
  have hlater : (Machine.run (World.step {} 1) world
      (refusedPass ++ refusedPass ++ [.begin 0 0])).isSome = true := by decide +kernel
  exact ((at_least_once {} 1 _ world (run_reached hworld)).2 _ later (run_reached hlater)).2
    (by decide) (by decide +kernel) (triggerRow 1 1 0) (by decide +kernel) 0
    (by decide +kernel)
    ⟨((triggerRow 1 1 0).failed 0).failed 0, by decide +kernel,
      ((triggerRow 1 1 0).advances_failed 0).trans (OutboxRow.advances_failed 0 _),
      by decide +kernel⟩

end Synthia.OutboxDispatch
