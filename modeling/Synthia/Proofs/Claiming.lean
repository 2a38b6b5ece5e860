import Synthia.Workers.ExpirySweep

/-!
# A work item is claimed or expired, once

The claim and the expiry are two conditional updates with different guards, and
neither mentions the other. What makes them exclusive is an invariant about
what a sweeper may be holding while everyone else runs.

A candidate names a version the row had while it was unclaimed and authorised.
Versions only grow, so the row either is still at that version — and then it
is still unclaimed and authorised — or has moved past it, and the candidate is
dead. A successful claim and a successful expiry both leave the row in another
state than `authorized`, and nothing here brings it back; so neither kind of
update can succeed again, whatever candidates are still held and whatever the
clocks say.
-/

namespace Synthia.ExpirySweep

open Relational

/-! ## One row through one statement -/

section Rows

variable {table : WorkItemTable} {tenant : TenantContext} {workItemId : WorkItemId}
  {claimedBy : String} {now databaseNow : Instant} {version : Int} {limit : Nat}
  {row : WorkItemRow}

/-- A row after a claim is the row before, or was claimable and is taken. -/
theorem claim_row
    (h : row ∈ (WorkItemRepository.claim table tenant workItemId claimedBy now
      databaseNow).2.rows) :
    row ∈ table.rows ∨
      ∃ old ∈ table.rows, old.workItemId = workItemId ∧
        row.workItemId = workItemId ∧ row.state = .claimed ∧
        row.version = old.version + 1 := by
  obtain ⟨old, hold, hrow⟩ := WorkItemRepository.mem_claim.mp h
  split at hrow
  · next hhit =>
      rw [Bool.and_eq_true, WorkItemRow.scopedTo_iff] at hhit
      refine Or.inr ⟨old, hold, hhit.1.2, ?_, ?_, ?_⟩
      · rw [hrow]
        exact hhit.1.2
      · rw [hrow]
        rfl
      · rw [hrow]
        rfl
  · rw [hrow]
    exact Or.inl hold

/-- A row after an expiry is the row before, or was at the version read. -/
theorem expire_row
    (h : row ∈ (WorkItemRepository.transition table tenant workItemId .expired version
      databaseNow).2.rows) :
    row ∈ table.rows ∨
      ∃ old ∈ table.rows, old.workItemId = workItemId ∧
        row.workItemId = workItemId ∧ row.state = .expired ∧
        row.version = old.version + 1 := by
  obtain ⟨old, hold, hrow⟩ := WorkItemRepository.mem_transition.mp h
  split at hrow
  · next hhit =>
      rw [Bool.and_eq_true, WorkItemRow.scopedTo_iff, beq_iff_eq] at hhit
      refine Or.inr ⟨old, hold, hhit.1.2, ?_, ?_, ?_⟩
      · rw [hrow]
        exact hhit.1.2
      · rw [hrow]
        rfl
      · rw [hrow]
        rfl
  · rw [hrow]
    exact Or.inl hold

/-- After a claim that won, the item is no longer authorised. -/
theorem claim_won_state
    (hwon : (WorkItemRepository.claim table tenant workItemId claimedBy now
      databaseNow).1 = true)
    (h : row ∈ (WorkItemRepository.claim table tenant workItemId claimedBy now
      databaseNow).2.rows)
    (hid : row.workItemId = workItemId) : row.state = .claimed := by
  obtain ⟨hit, hhit, hscope, hclaimable⟩ := WorkItemRepository.claim_won.mp hwon
  obtain ⟨old, hold, hrow⟩ := WorkItemRepository.mem_claim.mp h
  have hsame : old.workItemId = row.workItemId := by
    rw [hrow]
    split <;> rfl
  have heq : old = hit := by
    apply table.eq_of_key hold hhit
    rw [hsame, hid, (WorkItemRow.scopedTo_iff.mp hscope).2]
  subst heq
  rw [hscope, hclaimable] at hrow
  rw [hrow]
  rfl

/-- After an expiry that won, the item is expired. -/
theorem expire_won_state
    (hwon : (WorkItemRepository.transition table tenant workItemId .expired version
      databaseNow).1 = true)
    (h : row ∈ (WorkItemRepository.transition table tenant workItemId .expired version
      databaseNow).2.rows)
    (hid : row.workItemId = workItemId) : row.state = .expired := by
  obtain ⟨hit, hhit, hscope, hversion⟩ := WorkItemRepository.transition_won.mp hwon
  obtain ⟨old, hold, hrow⟩ := WorkItemRepository.mem_transition.mp h
  have hsame : old.workItemId = row.workItemId := by
    rw [hrow]
    split <;> rfl
  have heq : old = hit := by
    apply table.eq_of_key hold hhit
    rw [hsame, hid, (WorkItemRow.scopedTo_iff.mp hscope).2]
  subst heq
  rw [hscope, hversion, beq_self_eq_true] at hrow
  rw [hrow]
  rfl

end Rows

/-! ## The invariant -/

/-- What a candidate still says about the rows of its item: the version read is
not ahead of the row's, and while the two agree the row is as it was read. -/
def Candidate.Sound (candidate : Candidate) (rows : List WorkItemRow) : Prop :=
  ∀ row ∈ rows, row.workItemId = candidate.workItemId →
    candidate.version ≤ row.version ∧
      (row.version = candidate.version → row.state = .authorized)

structure World.Exclusive (world : World) : Prop where
  /-- Every candidate a sweeper holds is sound. -/
  sound : ∀ process, ∀ candidate ∈ world.pending process,
    candidate.Sound world.table.rows
  /-- An item a write has succeeded on is not authorised. -/
  spent : ∀ effect ∈ world.history, ∀ row ∈ world.table.rows,
    row.workItemId = effect.workItemId → row.state ≠ .authorized
  /-- No item appears twice in the history. -/
  once : (world.history.map Effect.workItemId).Nodup

theorem World.exclusive_start (table : WorkItemTable) :
    (World.start table).Exclusive where
  sound _ _ hcandidate := absurd hcandidate List.not_mem_nil
  spent _ heffect := absurd heffect List.not_mem_nil
  once := List.nodup_nil

/-- How a claim or an expiry may change the rows: each is left alone, or moves
to its next version and out of `authorized`. -/
def Spends (before after : List WorkItemRow) : Prop :=
  ∀ row ∈ after, row ∈ before ∨
    ∃ old ∈ before, old.workItemId = row.workItemId ∧
      row.version = old.version + 1 ∧ row.state ≠ .authorized

theorem Candidate.Sound.spends {candidate : Candidate} {before after : List WorkItemRow}
    (h : candidate.Sound before) (hstep : Spends before after) :
    candidate.Sound after := by
  intro row hrow hid
  rcases hstep row hrow with hsame | ⟨old, hold, hkey, hversion, _⟩
  · exact h row hsame hid
  · obtain ⟨hle, _⟩ := h old hold (hkey.trans hid)
    refine ⟨by omega, ?_⟩
    intro heq
    -- the rewritten row is strictly ahead of anything read before
    exact absurd heq (by omega)

/-- A write of either kind keeps the invariant, provided it succeeds only on an
item that was authorised, and leaves the item it succeeds on otherwise. -/
theorem World.Exclusive.write {world : World} (h : world.Exclusive)
    {table : WorkItemTable} {won : Bool} {effect : Effect}
    (hspends : Spends world.table.rows table.rows)
    (hbefore : won = true → ∃ row ∈ world.table.rows,
      row.workItemId = effect.workItemId ∧ row.state = .authorized)
    (hafter : won = true → ∀ row ∈ table.rows,
      row.workItemId = effect.workItemId → row.state ≠ .authorized) :
    World.Exclusive
      { world with table, history := recordIf won effect world.history } := by
  have hspent : ∀ past ∈ world.history, ∀ row ∈ table.rows,
      row.workItemId = past.workItemId → row.state ≠ .authorized := by
    intro past hpast row hrow hid
    rcases hspends row hrow with hsame | ⟨_, _, _, _, hstate⟩
    · exact h.spent past hpast row hsame hid
    · exact hstate
  have hsound : ∀ process, ∀ candidate ∈ world.pending process,
      candidate.Sound table.rows := by
    intro process candidate hcandidate
    exact (h.sound process candidate hcandidate).spends hspends
  cases won with
  | false => exact ⟨hsound, hspent, h.once⟩
  | true =>
      obtain ⟨hit, hhit, hid, hauthorized⟩ := hbefore rfl
      refine ⟨hsound, ?_, ?_⟩
      · intro past hpast row hrow hrowid
        rcases List.mem_append.mp hpast with hold | hnew
        · exact hspent past hold row hrow hrowid
        · rw [List.mem_singleton.mp hnew] at hrowid
          exact hafter rfl row hrow hrowid
      · show (List.map Effect.workItemId (world.history ++ [effect])).Nodup
        rw [List.map_append, List.nodup_append]
        refine ⟨h.once, List.nodup_singleton _, ?_⟩
        intro a ha b hb hab
        -- an item already in the history is not authorised, and this one was
        obtain ⟨past, hpast, hpastid⟩ := List.mem_map.mp ha
        rw [List.mem_singleton.mp hb] at hab
        exact h.spent past hpast hit hhit (hid.trans (hab.symm.trans hpastid.symm))
          hauthorized

theorem World.Exclusive.claim {world : World} (h : world.Exclusive)
    (tenant : TenantContext) (workItemId : WorkItemId) (claimedBy : String)
    (now databaseNow : Instant) :
    (world.step (.claim tenant workItemId claimedBy now databaseNow)).Exclusive := by
  rw [World.step_claim]
  apply h.write
  · intro row hrow
    rcases claim_row hrow with hsame | ⟨old, hold, hid, hid', hstate, hversion⟩
    · exact Or.inl hsame
    · refine Or.inr ⟨old, hold, hid.trans hid'.symm, hversion, ?_⟩
      rw [hstate]
      exact WorkItemState.noConfusion
  · intro hwon
    obtain ⟨hit, hhit, hscope, hclaimable⟩ := WorkItemRepository.claim_won.mp hwon
    exact ⟨hit, hhit, (WorkItemRow.scopedTo_iff.mp hscope).2,
      (WorkItemRow.claimable_iff.mp hclaimable).2.1⟩
  · intro hwon row hrow hid
    rw [claim_won_state hwon hrow hid]
    exact WorkItemState.noConfusion

theorem World.Exclusive.expire {world : World} (h : world.Exclusive)
    (process : ProcessId) (candidate : Candidate) (databaseNow : Instant) :
    (world.step (.expire process candidate databaseNow)).Exclusive := by
  by_cases hheld : candidate ∈ world.pending process
  · rw [World.step_expire hheld]
    apply h.write
    · intro row hrow
      rcases expire_row hrow with hsame | ⟨old, hold, hid, hid', hstate, hversion⟩
      · exact Or.inl hsame
      · refine Or.inr ⟨old, hold, hid.trans hid'.symm, hversion, ?_⟩
        rw [hstate]
        exact WorkItemState.noConfusion
    · intro hwon
      -- the row is still at the version read, so it is still as it was read
      obtain ⟨hit, hhit, hscope, hversion⟩ := WorkItemRepository.transition_won.mp hwon
      have hid := (WorkItemRow.scopedTo_iff.mp hscope).2
      exact ⟨hit, hhit, hid, (h.sound process candidate hheld hit hhit hid).2 hversion⟩
    · intro hwon row hrow hid
      rw [expire_won_state hwon hrow hid]
      exact WorkItemState.noConfusion
  · rw [show world.step (.expire process candidate databaseNow) = world from if_neg hheld]
    exact h

theorem World.Exclusive.listExpired {world : World} (h : world.Exclusive)
    (process : ProcessId) (tenant : TenantContext) (now : Instant) (limit : Nat) :
    (world.step (.listExpired process tenant now limit)).Exclusive := by
  refine ⟨?_, h.spent, h.once⟩
  intro other candidate hcandidate
  by_cases hother : other = process
  · subst hother
    simp only [World.step, Function.update_self, List.mem_map] at hcandidate
    obtain ⟨entry, hentry, rfl⟩ := hcandidate
    obtain ⟨listed, hlisted, _, hlapsed, rfl⟩ := WorkItemRepository.mem_listExpired hentry
    intro row hrow hid
    -- a candidate just read is the row itself
    rw [world.table.eq_of_key hrow hlisted hid]
    exact ⟨Int.le_refl _, fun _ => (WorkItemRow.lapsed_iff.mp hlapsed).2.1⟩
  · simp only [World.step, Function.update_of_ne hother] at hcandidate
    exact h.sound other candidate hcandidate

theorem World.Exclusive.step {world : World} (h : world.Exclusive) (action : Action) :
    (world.step action).Exclusive := by
  cases action with
  | claim tenant workItemId claimedBy now databaseNow =>
      exact h.claim tenant workItemId claimedBy now databaseNow
  | listExpired process tenant now limit => exact h.listExpired process tenant now limit
  | expire process candidate databaseNow => exact h.expire process candidate databaseNow

theorem World.Exclusive.run {world : World} (h : world.Exclusive)
    (actions : List Action) : (world.run actions).Exclusive := by
  induction actions generalizing world with
  | nil => exact h
  | cons action actions ih => exact ih (h.step action)

/-! ## The boundary instant -/

/-- How many of the tenant's items lapsed no later than a given one: the limit
from which a read at `now` cannot leave it out. -/
def backlog (table : WorkItemTable) (tenant : TenantContext) (now : Instant)
    (row : WorkItemRow) : Nat :=
  (table.rows.filter fun other => other.tenantId == tenant.tenantId && other.lapsed now).countP
    fun other => decide (other.expiresAt.getD 0 ≤ row.expiresAt.getD 0)

theorem listed_of_lapsed {table : WorkItemTable} {tenant : TenantContext}
    {now : Instant} {row : WorkItemRow} {limit : Nat} (hrow : row ∈ table.rows)
    (htenant : row.tenantId = tenant.tenantId) (hlapsed : row.lapsed now = true)
    (hlimit : backlog table tenant now row ≤ limit) :
    (row.workItemId, row.version) ∈
      WorkItemRepository.listExpired table tenant now limit := by
  unfold WorkItemRepository.listExpired
  apply List.mem_map.mpr
  refine ⟨row, mem_take_orderBy ?_ hlimit, rfl⟩
  rw [List.mem_filter, Bool.and_eq_true, beq_iff_eq]
  exact ⟨hrow, htenant, hlapsed⟩

/-- An unclaimed authorised item with a window is claimable up to its window's
end and lapsed from it on: the boundary instant falls on one side. -/
theorem claimable_or_lapsed {row : WorkItemRow} (hfree : row.claimedAt = none)
    (hauthorized : row.state = .authorized) {expiresAt : Instant}
    (hwindow : row.expiresAt = some expiresAt) (now : Instant) :
    (row.claimable now = true ∧ row.lapsed now = false) ∨
      (row.claimable now = false ∧ row.lapsed now = true) := by
  simp only [WorkItemRow.claimable, WorkItemRow.lapsed, hfree, hauthorized, hwindow]
  by_cases hopen : now < expiresAt
  · simp [hopen]
  · simp [hopen, Int.not_lt.mp hopen]

/-- **Claim and expiry are exclusive and exhaustive.** In every interleaving,
each work item is the subject of at most one successful write, claim or expiry;
and in every state reached, at every instant, an unclaimed authorised item with
a window is either claimable and listed by no read, or not claimable and listed
by every read whose limit reaches it. -/
theorem claim_expiry_exclusive_exhaustive (table : WorkItemTable)
    (actions : List Action) :
    (((World.start table).run actions).history.map Effect.workItemId).Nodup ∧
    ∀ row ∈ ((World.start table).run actions).table.rows,
      row.claimedAt = none → row.state = .authorized → row.expiresAt.isSome →
      ∀ (tenant : TenantContext) (claimedBy : String) (now databaseNow : Instant),
        row.tenantId = tenant.tenantId →
        ((WorkItemRepository.claim ((World.start table).run actions).table tenant
            row.workItemId claimedBy now databaseNow).1 = true ∧
          ∀ limit, ∀ entry ∈ WorkItemRepository.listExpired
            ((World.start table).run actions).table tenant now limit,
            entry.1 ≠ row.workItemId) ∨
        ((WorkItemRepository.claim ((World.start table).run actions).table tenant
            row.workItemId claimedBy now databaseNow).1 = false ∧
          ∀ limit, backlog ((World.start table).run actions).table tenant now row ≤ limit →
            (row.workItemId, row.version) ∈ WorkItemRepository.listExpired
              ((World.start table).run actions).table tenant now limit) := by
  have hexclusive := (World.exclusive_start table).run actions
  generalize (World.start table).run actions = world at hexclusive ⊢
  refine ⟨hexclusive.once, ?_⟩
  intro row hrow hfree hauthorized hwindow tenant claimedBy now databaseNow htenant
  obtain ⟨expiresAt, hexpires⟩ := Option.isSome_iff_exists.mp hwindow
  have hscope : row.scopedTo tenant row.workItemId = true :=
    WorkItemRow.scopedTo_iff.mpr ⟨htenant, rfl⟩
  rcases claimable_or_lapsed hfree hauthorized hexpires now with
    ⟨hclaimable, hopen⟩ | ⟨hclosed, hlapsed⟩
  · left
    refine ⟨WorkItemRepository.claim_won.mpr ⟨row, hrow, hscope, hclaimable⟩, ?_⟩
    intro limit entry hentry hid
    obtain ⟨listed, hlisted, _, hlisted_lapsed, rfl⟩ :=
      WorkItemRepository.mem_listExpired hentry
    rw [world.table.eq_of_key hlisted hrow hid, hopen] at hlisted_lapsed
    exact Bool.noConfusion hlisted_lapsed
  · right
    refine ⟨?_, fun limit hlimit => listed_of_lapsed hrow htenant hlapsed hlimit⟩
    rw [← Bool.not_eq_true, WorkItemRepository.claim_won]
    rintro ⟨other, hother, hother_scope, hother_claimable⟩
    have heq := world.table.eq_of_key hother hrow
      (WorkItemRow.scopedTo_iff.mp hother_scope).2
    rw [heq, hclosed] at hother_claimable
    exact Bool.noConfusion hother_claimable

/-! ## The sweep is one of these runs -/

/-- Left alone, the loop of `sweep_expired` and its actions agree on the table
and on how many items expired. -/
theorem sweepExpired_run (table : WorkItemTable) (process : ProcessId)
    (tenant : TenantContext) (now : Instant) (limit : Nat) (databaseNow : Instant) :
    let world := (World.start table).run
      (sweepActions process table tenant now limit databaseNow)
    let result := sweepExpired table tenant now limit databaseNow
    world.table = result.2 ∧ world.history.length = result.1.expired := by
  have hloop : ∀ (items : List (WorkItemId × Int)) (world : World)
      (result : ExpirySweepResult),
      (∀ item ∈ items, ⟨tenant, item.1, item.2⟩ ∈ world.pending process) →
      world.history.length = result.expired →
      let after := world.run (items.map fun item =>
        Action.expire process ⟨tenant, item.1, item.2⟩ databaseNow)
      let swept := items.foldl (sweepItem tenant databaseNow) (result, world.table)
      after.table = swept.2 ∧ after.history.length = swept.1.expired := by
    intro items
    induction items with
    | nil => exact fun world result _ hlength => ⟨rfl, hlength⟩
    | cons item items ih =>
        intro world result hheld hlength
        have hhead := hheld item List.mem_cons_self
        simp only [List.map_cons, World.run_cons, List.foldl_cons, World.step, hhead,
          if_true]
        cases hmoved : (WorkItemRepository.transition world.table tenant item.1 .expired
            item.2 databaseNow).1 with
        | true =>
            have := ih
              { world with
                table := (WorkItemRepository.transition world.table tenant item.1 .expired
                  item.2 databaseNow).2
                history := world.history ++ [.expired item.1] }
              { result with expired := result.expired + 1 }
              (fun later hlater => hheld later (List.mem_cons_of_mem _ hlater))
              (by simp [hlength])
            simpa [sweepItem, hmoved, recordIf] using this
        | false =>
            have := ih
              { world with
                table := (WorkItemRepository.transition world.table tenant item.1 .expired
                  item.2 databaseNow).2 }
              { result with contended := result.contended + 1 }
              (fun later hlater => hheld later (List.mem_cons_of_mem _ hlater)) hlength
            simpa [sweepItem, hmoved, recordIf] using this
  apply hloop
  · intro item hitem
    simp only [World.step, Function.update_self]
    exact List.mem_map.mpr ⟨item, hitem, rfl⟩
  · rfl

end Synthia.ExpirySweep
