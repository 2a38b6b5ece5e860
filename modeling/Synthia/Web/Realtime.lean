import Mathlib.Data.List.Induction

/-!
# The browser's realtime connection

`RealtimeService` keeps the status its connection last reported and a counter. A surface
watches the counter and reads the platform again when it moves; nothing is buffered and
nothing is replayed, so a gap in the notifications is closed there or not at all.

A connection that comes up has a gap behind it when it was up before. The service does not
remember whether it was: it looks at the status just before, and takes `reconnecting` for
yes and anything else for no. So the counter moves where it should along the runs in which
every entry into `connected` comes from `reconnecting` exactly if there was a connection
before. A client that gives up, and starts again by way of `disconnected`, is not in such a
run.
-/

namespace Synthia

inductive RealtimeStatus where
  | disconnected
  | connecting
  | connected
  | reconnecting
  deriving DecidableEq, Repr

structure RealtimeService where
  statusSignal : RealtimeStatus := .disconnected
  resyncSignal : Nat := 0
  deriving DecidableEq, Repr

namespace RealtimeService

open RealtimeStatus

def onStatus (service : RealtimeService) (status : RealtimeStatus) : RealtimeService :=
  let previous := service.statusSignal
  let service := { service with statusSignal := status }
  if status = .connected ∧ previous = .reconnecting then
    { service with resyncSignal := service.resyncSignal + 1 }
  else service

/-- The service after its subscription was told these, the first of them first. -/
def told (statuses : List RealtimeStatus) : RealtimeService := statuses.foldl onStatus {}

/-! ## What one status does -/

@[simp] theorem onStatus_statusSignal (service : RealtimeService) (status : RealtimeStatus) :
    (service.onStatus status).statusSignal = status := by
  unfold onStatus
  dsimp only
  split <;> rfl

@[simp] theorem onStatus_resyncSignal (service : RealtimeService) (status : RealtimeStatus) :
    (service.onStatus status).resyncSignal = service.resyncSignal +
      if status = .connected ∧ service.statusSignal = .reconnecting then 1 else 0 := by
  unfold onStatus
  dsimp only
  split <;> rfl

@[simp] theorem told_concat (before : List RealtimeStatus) (status : RealtimeStatus) :
    told (before ++ [status]) = (told before).onStatus status := by
  simp [told]

/-- The status a run ends in, the initial one where nothing was reported. -/
def lastOf (statuses : List RealtimeStatus) : RealtimeStatus :=
  statuses.getLast?.getD .disconnected

theorem told_statusSignal (statuses : List RealtimeStatus) :
    (told statuses).statusSignal = lastOf statuses := by
  induction statuses using List.reverseRecOn with
  | nil => rfl
  | append_singleton before status _ => simp [lastOf]

/-! ## Which entries close a gap -/

/-- The connection comes up behind an earlier period of it. -/
def Reestablished (before : List RealtimeStatus) (status : RealtimeStatus) : Prop :=
  status = .connected ∧ lastOf before ≠ .connected ∧ .connected ∈ before

instance (before : List RealtimeStatus) (status : RealtimeStatus) :
    Decidable (Reestablished before status) := by
  unfold Reestablished
  infer_instance

/-- The counter is one higher behind every status that re-establishes the connection, and
what it was behind every other. -/
def Resynchronises (statuses : List RealtimeStatus) : Prop :=
  ∀ before status after, statuses = before ++ status :: after →
    (told (before ++ [status])).resyncSignal =
      (told before).resyncSignal + if Reestablished before status then 1 else 0

/-- Every entry into `connected` comes from `reconnecting` just when there was a connection
before. -/
def EntersAsReconnecting (statuses : List RealtimeStatus) : Prop :=
  ∀ before after, statuses = before ++ .connected :: after → lastOf before ≠ .connected →
    (lastOf before = .reconnecting ↔ .connected ∈ before)

/-- One status moves the counter as it should unless it is an entry into `connected` at
which the status before tells something else than the run. -/
theorem moved_iff (before : List RealtimeStatus) (status : RealtimeStatus) :
    ((told (before ++ [status])).resyncSignal =
        (told before).resyncSignal + if Reestablished before status then 1 else 0) ↔
      (status = .connected → lastOf before ≠ .connected →
        (lastOf before = .reconnecting ↔ .connected ∈ before)) := by
  rw [told_concat, onStatus_resyncSignal, told_statusSignal, Nat.add_left_cancel_iff]
  unfold Reestablished
  by_cases hstatus : status = .connected
  · by_cases hlast : lastOf before = .connected
    · simp [hstatus, hlast]
    · by_cases hreconnecting : lastOf before = .reconnecting <;>
        by_cases hearlier : .connected ∈ before <;>
        simp [hstatus, hlast, hreconnecting, hearlier]
  · simp [hstatus]

/-- Every reconnection resynchronises along exactly the runs that enter `connected` from
`reconnecting` when there was a connection before, and from another status when there
was none. -/
theorem resynchronises_iff (statuses : List RealtimeStatus) :
    Resynchronises statuses ↔ EntersAsReconnecting statuses := by
  constructor
  · intro h before after hsplit hlast
    exact (moved_iff before .connected).mp (h before .connected after hsplit) rfl hlast
  · intro h before status after hsplit
    refine (moved_iff before status).mpr fun hstatus hlast => ?_
    exact h before after (by rw [hsplit, hstatus]) hlast

/-- A client that went down, and came up by way of `connecting`, is told of nothing. -/
theorem not_resynchronises_restarted :
    ¬ Resynchronises [connected, disconnected, connecting, connected] := by
  intro h
  have hmoved := h [connected, disconnected, connecting] connected [] rfl
  exact absurd hmoved (by decide)

end RealtimeService

end Synthia
