import Synthia.Web.MessageStream

/-!
# The chat surface

A turn as `ChatShell` shows it. It says that it is sending until the turn is over, and it
shows what came of it: the text as it accumulates, the steps, and a failure where the turn
could not be finished.

Three things end a turn for the surface: a `done` event, an `error` event and a failed
stream. The stream completing is none of them, since nothing is subscribed to that; and the
client completes a stream at the end of the body, whatever came before it. So the surface
comes back from a turn exactly if the stream failed or one of the two events was in it. In
every other turn it goes on sending, shows no failure, and does not send again.

The calls to the announcer are left out: each comes behind the assignments of its branch and
has no way back. So is the list of messages, which a turn empties and nothing here fills.
-/

namespace Synthia

open Text Json

structure ChatShell where
  streamed : List CodeUnit := []
  steps : List (Value CodeUnit) := []
  pendingInterrupt : Option (List CodeUnit) := none
  sending : Bool := false
  failure : Option (List CodeUnit) := none

namespace ChatShell

def fail (shell : ChatShell) (title : List CodeUnit) : ChatShell :=
  { shell with sending := false, failure := some title }

def reset (shell : ChatShell) : ChatShell :=
  { shell with streamed := [], steps := [], pendingInterrupt := none, failure := none }

def apply (shell : ChatShell) : StreamEvent → ChatShell
  | .token text => { shell with streamed := shell.streamed ++ text }
  | .step step => { shell with steps := shell.steps ++ [step] }
  | .interrupt interrupt _ => { shell with pendingInterrupt := some interrupt }
  | .done => { shell with sending := false }
  | .error title => shell.fail title

/-- The shell with its request under way, and the text that is sent. There is no request
where the text is blank or a turn is in flight already. -/
def send (shell : ChatShell) (content : List CodeUnit) : Option (ChatShell × List CodeUnit) :=
  let text := trim content
  if text.isEmpty || shell.sending then none
  else some ({ shell.reset with sending := true }, text)

/-- What the subscription does. It has no handler for the stream completing. -/
def signalled (shell : ChatShell) : Signal → ChatShell
  | .next event => shell.apply event
  | .error => shell.fail (units "The connection was lost before the turn finished.")
  | .complete => shell

end ChatShell

/-- How a stream ends. -/
inductive Ending where
  | completed
  | failed
  deriving DecidableEq, Repr

def Ending.signal : Ending → Signal
  | .completed => .complete
  | .failed => .error

/-- What is heard of a stream: its events, and how it ended. -/
def heard (events : List StreamEvent) (ending : Ending) : List Signal :=
  events.map .next ++ [ending.signal]

/-- Whatever the request comes to, its subscriber hears a stream. -/
theorem MessageStreamClient.pump_heard (aborted : Bool) (fetched : Fetched) :
    ∃ events ending, pump aborted fetched = heard events ending := by
  have hcaught : ∃ ending : Ending, caught aborted = [ending.signal] := by
    cases aborted with
    | true => exact ⟨.completed, rfl⟩
    | false => exact ⟨.failed, rfl⟩
  obtain ⟨caughtAs, hcaught⟩ := hcaught
  cases fetched with
  | rejected => exact ⟨[], caughtAs, by rw [pump, hcaught]; rfl⟩
  | response ok status body =>
      cases ok with
      | false => exact ⟨[_], .completed, rfl⟩
      | true =>
          cases body with
          | none => exact ⟨[_], .completed, rfl⟩
          | some body =>
              cases hthrown : body.thrown with
              | true => exact ⟨_, caughtAs, by rw [pump, hthrown, if_pos rfl, hcaught, heard]⟩
              | false => exact ⟨_, .completed, by rw [pump, hthrown]; rfl⟩

namespace ChatShell

/-- The shell behind what was heard. -/
def hearing (shell : ChatShell) (signals : List Signal) : ChatShell :=
  signals.foldl signalled shell

/-- The new text of an event. -/
def tokenText : StreamEvent → List CodeUnit
  | .token text => text
  | _ => []

/-! ## What the events leave -/

theorem apply_streamed (shell : ChatShell) (event : StreamEvent) :
    (shell.apply event).streamed = shell.streamed ++ tokenText event := by
  cases event <;> simp [apply, fail, tokenText]

theorem apply_sending (shell : ChatShell) (event : StreamEvent) :
    (shell.apply event).sending = false ↔
      shell.sending = false ∨ event = .done ∨ ∃ title, event = .error title := by
  cases event <;> simp [apply, fail]

theorem apply_failure (shell : ChatShell) (event : StreamEvent) :
    (shell.apply event).failure.isSome ↔
      shell.failure.isSome ∨ ∃ title, event = .error title := by
  cases event <;> simp [apply, fail]

theorem hearing_cons (shell : ChatShell) (event : StreamEvent) (events : List StreamEvent) :
    shell.hearing ((event :: events).map .next) =
      (shell.apply event).hearing (events.map .next) := rfl

theorem hearing_streamed (shell : ChatShell) (events : List StreamEvent) :
    (shell.hearing (events.map .next)).streamed =
      shell.streamed ++ events.flatMap tokenText := by
  induction events generalizing shell with
  | nil => simp [hearing]
  | cons event events ih =>
      rw [hearing_cons, ih, apply_streamed]
      simp

theorem hearing_sending (shell : ChatShell) (events : List StreamEvent) :
    (shell.hearing (events.map .next)).sending = false ↔
      shell.sending = false ∨ .done ∈ events ∨ ∃ title, .error title ∈ events := by
  induction events generalizing shell with
  | nil => simp [hearing]
  | cons event events ih =>
      rw [hearing_cons, ih, apply_sending]
      simp only [List.mem_cons, exists_or, eq_comm]
      tauto

theorem hearing_failure (shell : ChatShell) (events : List StreamEvent) :
    (shell.hearing (events.map .next)).failure.isSome ↔
      shell.failure.isSome ∨ ∃ title, .error title ∈ events := by
  induction events generalizing shell with
  | nil => simp [hearing]
  | cons event events ih =>
      rw [hearing_cons, ih, apply_failure]
      simp only [List.mem_cons, exists_or, eq_comm]
      tauto

theorem hearing_heard (shell : ChatShell) (events : List StreamEvent) (ending : Ending) :
    shell.hearing (heard events ending) =
      (shell.hearing (events.map .next)).signalled ending.signal := by
  simp [hearing, heard]

theorem send_eq_some {shell started : ChatShell} {content text : List CodeUnit}
    (h : shell.send content = some (started, text)) :
    started.streamed = [] ∧ started.sending = true ∧ started.failure = none := by
  unfold send at h
  dsimp only at h
  split at h
  · cases h
  · cases h
    exact ⟨rfl, rfl, rfl⟩

/-! ## Coming back -/

/-- The turn is over for the surface, it shows a failure if there was one, and all of the
text that came. -/
structure ComesBack (started : ChatShell) (events : List StreamEvent) (ending : Ending) :
    Prop where
  idle : (started.hearing (heard events ending)).sending = false
  failure : (started.hearing (heard events ending)).failure.isSome ↔
    ending = .failed ∨ (∃ title, .error title ∈ events) ∨ .done ∉ events
  text : (started.hearing (heard events ending)).streamed = events.flatMap tokenText

/-- The surface comes back from a turn exactly if its stream failed, or brought a `done` or
an `error`. -/
theorem comesBack_iff {shell started : ChatShell} {content text : List CodeUnit}
    (h : shell.send content = some (started, text)) (events : List StreamEvent)
    (ending : Ending) : ComesBack started events ending ↔
      ending = .failed ∨ .done ∈ events ∨ ∃ title, .error title ∈ events := by
  obtain ⟨hstreamed, hsending, hfailure⟩ := send_eq_some h
  have htext := hearing_streamed started events
  have hidle := hearing_sending started events
  have hfailed := hearing_failure started events
  rw [hstreamed, List.nil_append] at htext
  simp only [hsending, Bool.true_eq_false, false_or] at hidle
  simp only [hfailure, Option.isSome_none, Bool.false_eq_true, false_or] at hfailed
  cases ending with
  | failed =>
      refine ⟨fun _ => Or.inl rfl, fun _ => ⟨?_, ?_, ?_⟩⟩ <;> rw [hearing_heard]
      · rfl
      · simp [Ending.signal, signalled, fail]
      · exact htext
  | completed =>
      constructor
      · intro hback
        have hover := hback.idle
        rw [hearing_heard] at hover
        exact Or.inr (hidle.mp hover)
      · intro hover
        have hover := hover.resolve_left (by simp)
        refine ⟨?_, ?_, ?_⟩ <;> rw [hearing_heard]
        · exact hidle.mpr hover
        · refine hfailed.trans ?_
          simp only [reduceCtorEq, false_or]
          tauto
        · exact htext

/-- A turn whose stream brought its answer and was done. -/
theorem comesBack_done :
    ComesBack { sending := true } [.token (units "Yes."), .done] .completed := by
  have hsend : send {} (units "Hello") = some ({ sending := true }, units "Hello") := rfl
  exact (comesBack_iff hsend [.token (units "Yes."), .done] .completed).mpr
    (Or.inr (Or.inl (by simp)))

/-- A body that ends before anything came: the surface is left sending. -/
theorem left_sending :
    ∃ shell started content text events ending, send shell content = some (started, text) ∧
      MessageStreamClient.pump false (.response true 200 (some { chunks := [] })) =
        heard events ending ∧ ¬ ComesBack started events ending := by
  refine ⟨{}, { sending := true }, units "Hello", units "Hello", [], .completed, ?_, rfl, ?_⟩
  · rfl
  · intro hback
    exact absurd hback.idle (by decide)

end ChatShell

end Synthia
