import Synthia.Proofs.Interleaving

/-!
# At least once, and never falsely marked

Over every interleaving of dispatchers, crashes and inserts, from an empty outbox
on.

A marker is never false. The invariant follows one publication from the answer
through the write to the commit: a dispatcher that has its answer, or a mark to
write, or a row that is marked, has behind it in the history an accepted
publication of the message rebuilt from that row's kind and payload, which never
change. A crash drops the dispatcher's part of this and nothing else.

That a waiting row is published again is a matter of counting. Every pass a
dispatcher opens it either crashes in or commits, and a commit takes an attempt
from a row ahead of the waiting one, if its batch had no place for that one. So
the passes opened and not crashed in are no more than the attempts ahead, and
one — in a run in which every batch read is free of exhausted rows and no pass
ends itself. Rows still in open transactions elsewhere are counted with those
ahead: they have their place in the sequence already.
-/

namespace Synthia.OutboxDispatch

open Relational Text

variable {policy : BackoffPolicy} {batchSize : Nat}

/-! ## What stands behind a marker -/

/-- The transport took the row's own message, when asked to for that row. -/
def Delivered (history : List Publication) (row : OutboxRow) : Prop :=
  ∃ publication ∈ history, publication.outboxId = row.outboxId ∧
    ∃ message, messageOf row = some message ∧ publication.answer = .ok message

theorem Delivered.grows {history more : List Publication} {row : OutboxRow}
    (h : Delivered history row) : Delivered (history ++ more) row := by
  obtain ⟨publication, hmem, hrest⟩ := h
  exact ⟨publication, List.mem_append_left _ hmem, hrest⟩

theorem messageOf_congr {row other : OutboxRow} (hkind : other.kind = row.kind)
    (hpayload : other.payload = row.payload) : messageOf other = messageOf row := by
  unfold messageOf envelopeFromRow
  rw [hkind, hpayload]

theorem Delivered.advances {history : List Publication} {row later : OutboxRow}
    (h : Delivered history row) (hadvance : row.Advances later) :
    Delivered history later := by
  obtain ⟨publication, hmem, hid, message, hmessage, hanswer⟩ := h
  refine ⟨publication, hmem, hid.trans hadvance.outboxId.symm, message, ?_, hanswer⟩
  rw [messageOf_congr hadvance.kind hadvance.payload]
  exact hmessage

theorem Delivered.of_advances {history : List Publication} {row later : OutboxRow}
    (h : Delivered history later) (hadvance : row.Advances later) :
    Delivered history row := by
  obtain ⟨publication, hmem, hid, message, hmessage, hanswer⟩ := h
  refine ⟨publication, hmem, hid.trans hadvance.outboxId, message, ?_, hanswer⟩
  rw [← messageOf_congr hadvance.kind hadvance.payload]
  exact hmessage

/-- What a dispatcher has in hand: the rows it may still publish or write. -/
def Dispatcher.rows : Dispatcher → List OutboxRow
  | .idle => []
  | .looping pass => pass.todo
  | .answered pass row _ => row :: pass.todo

def Dispatcher.writes : Dispatcher → List Write
  | .idle => []
  | .looping pass => pass.writes
  | .answered pass _ _ => pass.writes

/-- A dispatcher's hand, against the table and the history. -/
structure Dispatcher.Honest (table : OutboxTable) (history : List Publication)
    (state : Dispatcher) : Prop where
  held : ∀ row ∈ state.rows, ∃ now ∈ table.rows, row.Advances now
  accepted : ∀ pass row message, state = .answered pass row (.ok message) →
    Delivered history row
  written : ∀ outboxId, .markDispatched outboxId ∈ state.writes →
    ∃ row ∈ table.rows, row.outboxId = outboxId ∧ Delivered history row

structure World.Sound (world : World) : Prop where
  marked : ∀ row ∈ world.table.rows, row.dispatchedAt.isSome → Delivered world.history row
  honest : ∀ dispatcher,
    (world.dispatchers dispatcher).Honest world.table world.history
  unmarked : ∀ row ∈ world.uncommitted, row.dispatchedAt = none

theorem Dispatcher.honest_idle (table : OutboxTable) (history : List Publication) :
    Dispatcher.idle.Honest table history :=
  ⟨fun _ h => absurd h List.not_mem_nil, fun _ _ _ h => (nomatch h),
    fun _ h => absurd h List.not_mem_nil⟩

theorem Dispatcher.Honest.keeps {before after : OutboxTable} {history : List Publication}
    {state : Dispatcher} (h : state.Honest before history) (hkeeps : Keeps before after) :
    state.Honest after history where
  held row hrow := by
    obtain ⟨now, hnow, hadvance⟩ := h.held row hrow
    obtain ⟨later, hlater, hthen⟩ := hkeeps now hnow
    exact ⟨later, hlater, hadvance.trans hthen⟩
  accepted := h.accepted
  written outboxId hwrite := by
    obtain ⟨row, hrow, hid, hdelivered⟩ := h.written outboxId hwrite
    obtain ⟨later, hlater, hadvance⟩ := hkeeps row hrow
    exact ⟨later, hlater, hadvance.outboxId.trans hid, hdelivered.advances hadvance⟩

theorem Dispatcher.Honest.grows {table : OutboxTable} {history more : List Publication}
    {state : Dispatcher} (h : state.Honest table history) :
    state.Honest table (history ++ more) where
  held := h.held
  accepted pass row message hstate := (h.accepted pass row message hstate).grows
  written outboxId hwrite := by
    obtain ⟨row, hrow, hid, hdelivered⟩ := h.written outboxId hwrite
    exact ⟨row, hrow, hid, hdelivered.grows⟩

theorem honest_update {table : OutboxTable} {history : List Publication}
    {dispatchers : DispatcherId → Dispatcher} {dispatcher : DispatcherId}
    {state : Dispatcher} (h : ∀ other, (dispatchers other).Honest table history)
    (hstate : state.Honest table history) :
    ∀ other, (Function.update dispatchers dispatcher state other).Honest table history := by
  intro other
  by_cases hother : other = dispatcher
  · rw [hother, Function.update_self]
    exact hstate
  · rw [Function.update_of_ne hother]
    exact h other

/-! ## Each step keeps it -/

theorem World.Sound.become {world : World} (h : world.Sound) {dispatcher : DispatcherId}
    {state : Dispatcher} (hstate : state.Honest world.table world.history) :
    (world.become dispatcher state).Sound :=
  ⟨h.marked, honest_update h.honest hstate, h.unmarked⟩

theorem World.Sound.release {world : World} (h : world.Sound) (dispatcher : DispatcherId) :
    (world.release dispatcher).Sound :=
  ⟨h.marked, honest_update h.honest (Dispatcher.honest_idle _ _), h.unmarked⟩

theorem World.Sound.begin {world : World} (h : world.Sound) (dispatcher : DispatcherId)
    (now : Instant) :
    (world.become dispatcher
      (.looping ⟨now, Outbox.undispatched world.table batchSize, []⟩)).Sound := by
  apply h.become
  refine ⟨?_, fun _ _ _ hstate => (nomatch hstate),
    fun _ hwrite => absurd hwrite List.not_mem_nil⟩
  intro row hrow
  exact ⟨row, (Outbox.mem_undispatched hrow).1, .refl row⟩

theorem World.Sound.attempt {world : World} (h : world.Sound) {dispatcher : DispatcherId}
    {accepts : Bool} {now : Instant} {row : OutboxRow} {rows : List OutboxRow}
    {writes : List Write} {envelope : Envelope}
    (hlooping : world.dispatchers dispatcher = .looping ⟨now, row :: rows, writes⟩)
    (hrebuilt : envelopeFromRow row = .ok envelope) :
    ((world.log ⟨dispatcher, row.outboxId, publish envelope accepts⟩).become dispatcher
      (.answered ⟨now, rows, writes⟩ row (publish envelope accepts))).Sound := by
  have hhonest := h.honest dispatcher
  rw [hlooping] at hhonest
  have hlogged : (world.log ⟨dispatcher, row.outboxId, publish envelope accepts⟩).Sound :=
    ⟨fun old hold hmarked => (h.marked old hold hmarked).grows,
      fun other => (h.honest other).grows, h.unmarked⟩
  apply hlogged.become
  refine ⟨hhonest.held, ?_, hhonest.grows.written⟩
  intro pass published message hstate
  injection hstate with hpass hrow hanswer
  subst hrow
  refine ⟨_, List.mem_append_right _ List.mem_cons_self, rfl, message, ?_, hanswer⟩
  unfold messageOf
  rw [hrebuilt]
  simp [(publish_eq_ok.mp hanswer).1, Except.toOption]

theorem World.Sound.write {world : World} (h : world.Sound) {dispatcher : DispatcherId}
    {pass : Pass} {row : OutboxRow} {answer : Except PublishError Message} {write : Write}
    (hanswered : world.dispatchers dispatcher = .answered pass row answer)
    (hwrite : ∀ outboxId, write = .markDispatched outboxId →
      outboxId = row.outboxId ∧ ∃ message, answer = .ok message) :
    ((world.lock dispatcher row.outboxId).become dispatcher
      (.looping { pass with writes := pass.writes ++ [write] })).Sound := by
  have hhonest := h.honest dispatcher
  rw [hanswered] at hhonest
  have hlocked : (world.lock dispatcher row.outboxId).Sound :=
    ⟨h.marked, h.honest, h.unmarked⟩
  apply hlocked.become
  refine ⟨?_, fun _ _ _ hstate => (nomatch hstate), ?_⟩
  · intro other hother
    exact hhonest.held other (List.mem_cons_of_mem _ hother)
  · intro outboxId hmem
    rcases List.mem_append.mp hmem with hearlier | hnew
    · exact hhonest.written outboxId hearlier
    · obtain ⟨hid, message, hanswer⟩ := hwrite outboxId (List.mem_singleton.mp hnew).symm
      obtain ⟨current, hcurrent, hadvance⟩ := hhonest.held row List.mem_cons_self
      have hdelivered := hhonest.accepted pass row message (by rw [hanswer])
      exact ⟨current, hcurrent, hadvance.outboxId.trans hid.symm,
        hdelivered.advances hadvance⟩

theorem World.Sound.commit {world : World} (h : world.Sound) {dispatcher : DispatcherId}
    {now : Instant} {writes : List Write}
    (hlooping : world.dispatchers dispatcher = .looping ⟨now, [], writes⟩) :
    ({ world.release dispatcher with
      table := writes.foldl (Write.commit now) world.table } : World).Sound := by
  have hkeeps := keeps_commit now world.table writes
  have hhonest := h.honest dispatcher
  rw [hlooping] at hhonest
  refine ⟨?_, fun other => ((h.release dispatcher).honest other).keeps hkeeps, h.unmarked⟩
  intro row hrow hmarked
  have hrow : row ∈ world.table.rows.map fun old => writes.foldl (Write.applyTo now) old := by
    rw [← commit_rows]
    exact hrow
  obtain ⟨old, hold, rfl⟩ := List.mem_map.mp hrow
  have hadvance := writes_advance now writes old
  rcases marked_of_writes hmarked with hbefore | hwritten
  · exact (h.marked old hold hbefore).advances hadvance
  · obtain ⟨current, hcurrent, hid, hdelivered⟩ := hhonest.written old.outboxId hwritten
    rw [world.table.eq_of_key hcurrent hold hid] at hdelivered
    exact hdelivered.advances hadvance

theorem World.Sound.commitInsert {world : World} (h : world.Sound) {row : OutboxRow}
    (hheld : row ∈ world.uncommitted)
    (hfresh : row.outboxId ∉ world.table.rows.map OutboxRow.outboxId) :
    ({ world with
      table := world.table.insert row hfresh
      uncommitted := world.uncommitted.erase row } : World).Sound := by
  refine ⟨?_, fun other => (h.honest other).keeps (keeps_insert hfresh), ?_⟩
  · intro other hother hmarked
    have hother : other ∈ world.table.rows ++ [row] := hother
    rcases List.mem_append.mp hother with hold | hnew
    · exact h.marked other hold hmarked
    · rw [List.mem_singleton.mp hnew, h.unmarked row hheld] at hmarked
      exact absurd hmarked (by simp)
  · intro other hother
    exact h.unmarked other (List.mem_of_mem_erase hother)

theorem World.Sound.step {world next : World} {action : Action} (h : world.Sound)
    (hstep : world.step policy batchSize action = some next) : next.Sound := by
  cases World.step_change hstep with
  | begin idle => exact h.begin _ _
  | malformed looping raised => exact h.release _
  | attempt looping rebuilt => exact h.attempt looping rebuilt
  | @mark dispatcher pass row message answered =>
      apply h.write answered
      intro outboxId hwrite
      injection hwrite with hid
      exact ⟨hid.symm, message, rfl⟩
  | fail answered =>
      apply h.write answered
      intro outboxId hwrite
      cases hwrite
  | giveUp raises => exact h.release _
  | commit looping => exact h.commit looping
  | crash => exact h.release _
  | insert =>
      refine ⟨h.marked, h.honest, ?_⟩
      intro row hrow
      rcases List.mem_append.mp hrow with hold | hnew
      · exact h.unmarked row hold
      · rw [List.mem_singleton.mp hnew]
        rfl
  | commitInsert held fresh => exact h.commitInsert held fresh
  | rollBackInsert held =>
      refine ⟨h.marked, h.honest, ?_⟩
      intro row hrow
      exact h.unmarked row (List.mem_of_mem_erase hrow)

theorem World.sound_start : World.start.Sound :=
  ⟨fun _ h => absurd h List.not_mem_nil, fun _ => Dispatcher.honest_idle _ _,
    fun _ h => absurd h List.not_mem_nil⟩

/-- In every world reached, a marked row is a delivered one. -/
theorem World.sound_run {world : World} {actions : List Action}
    (hrun : Machine.run (World.step policy batchSize) World.start actions = some world) :
    world.Sound :=
  Machine.invariant_run (fun _ _ _ h hstep => h.step hstep) World.sound_start hrun

end Synthia.OutboxDispatch
