import Mathlib.Data.List.Basic
import Mathlib.Logic.Function.Basic

/-!
# Traces of several parties

A party leaves a trace of events. What is asked of a trace here is of one form: every event
is good after the events before it. Such a property is shown piece by piece, and it outlives
the weaving of several traces into one: where the parties' events interleave, each of them
in its own order and not always to its end, the events of one party before an event of its
own are those it had in its own trace.
-/

namespace Traces

variable {ι α : Type*} {Good : List α → α → Prop}

/-- Every event of the trace is good after the earlier ones and those before it. -/
def Led (Good : List α → α → Prop) : List α → List α → Prop
  | _, [] => True
  | earlier, event :: trace => Good earlier event ∧ Led Good (earlier ++ [event]) trace

theorem led_nil {earlier : List α} : Led Good earlier [] := trivial

theorem led_cons {earlier trace : List α} {event : α} :
    Led Good earlier (event :: trace) ↔
      Good earlier event ∧ Led Good (earlier ++ [event]) trace := Iff.rfl

theorem led_append {earlier first second : List α} :
    Led Good earlier (first ++ second) ↔
      Led Good earlier first ∧ Led Good (earlier ++ first) second := by
  induction first generalizing earlier with
  | nil =>
      rw [List.nil_append, List.append_nil]
      exact ⟨fun h => ⟨led_nil, h⟩, And.right⟩
  | cons event first ih =>
      rw [List.cons_append, led_cons, led_cons, ih, List.append_assoc, List.singleton_append,
        and_assoc]

/-- A stretch whose events are good whatever of it came before them. -/
theorem led_of_forall {earlier trace : List α}
    (h : ∀ more, ∀ event ∈ trace, Good (earlier ++ more) event) : Led Good earlier trace := by
  induction trace generalizing earlier with
  | nil => exact led_nil
  | cons event trace ih =>
      have hhere : Good earlier event := by
        simpa using h [] event (List.mem_cons_self ..)
      refine led_cons.mpr ⟨hhere, ih fun more later hlater => ?_⟩
      rw [List.append_assoc]
      exact h _ later (List.mem_cons_of_mem _ hlater)

theorem Led.at_split {earlier before after : List α} {event : α}
    (h : Led Good earlier (before ++ event :: after)) : Good (earlier ++ before) event :=
  (led_cons.mp (led_append.mp h).2).1

theorem led_of_splits {earlier trace : List α}
    (h : ∀ before event after, trace = before ++ event :: after →
      Good (earlier ++ before) event) : Led Good earlier trace := by
  induction trace generalizing earlier with
  | nil => exact led_nil
  | cons event trace ih =>
      have hhere : Good earlier event := by
        simpa using h [] event trace rfl
      refine led_cons.mpr ⟨hhere, ih fun before later after hsplit => ?_⟩
      rw [List.append_assoc]
      exact h (event :: before) later after (by rw [hsplit]; rfl)

-- The trace a statement is about may be a long run, which nothing is to evaluate.
attribute [irreducible] Led

/-! ## Weaving -/

variable [DecidableEq ι]

/-- The events of one party. -/
def own (party : ι) (whole : List (ι × α)) : List α :=
  (whole.filter fun entry => entry.1 = party).map Prod.snd

/-- The parties' events in the order of a schedule: whose turn it is leaves its next event,
where it has one left. -/
def weave (traces : ι → List α) : List ι → List (ι × α)
  | [] => []
  | party :: schedule =>
      match traces party with
      | [] => weave traces schedule
      | event :: rest =>
          (party, event) :: weave (Function.update traces party rest) schedule

theorem own_append {party : ι} {first second : List (ι × α)} :
    own party (first ++ second) = own party first ++ own party second := by
  rw [own, List.filter_append, List.map_append]
  rfl

theorem own_cons_self {party : ι} {event : α} {whole : List (ι × α)} :
    own party ((party, event) :: whole) = event :: own party whole := by
  simp [own]

theorem own_cons_of_ne {party other : ι} (hne : other ≠ party) {event : α}
    {whole : List (ι × α)} : own party ((other, event) :: whole) = own party whole := by
  simp [own, hne]

/-- Whatever the schedule, a party's events stand in its own order, perhaps not all. -/
theorem own_weave_isPrefix (traces : ι → List α) (schedule : List ι) (party : ι) :
    own party (weave traces schedule) <+: traces party := by
  induction schedule generalizing traces with
  | nil => exact List.nil_prefix
  | cons turn schedule ih =>
      rw [weave]
      split
      · exact ih traces
      · next event rest hturn =>
          have hrest := ih (Function.update traces turn rest)
          by_cases hself : turn = party
          · subst hself
            rw [Function.update_self] at hrest
            rw [own_cons_self, hturn]
            exact (List.prefix_cons_inj event).mpr hrest
          · rw [Function.update_of_ne (Ne.symm hself)] at hrest
            rw [own_cons_of_ne hself]
            exact hrest

/-- What is good in the parties' traces is good where they are woven, each event after its
own party's earlier ones. -/
theorem led_weave {traces : ι → List α} {Good : ι → List α → α → Prop}
    (hled : ∀ party, Led (Good party) [] (traces party)) (schedule : List ι) :
    Led (fun earlier entry => Good entry.1 (own entry.1 earlier) entry.2) []
      (weave traces schedule) := by
  refine led_of_splits fun before entry after hsplit => ?_
  obtain ⟨party, event⟩ := entry
  obtain ⟨rest, hrest⟩ := own_weave_isPrefix traces schedule party
  rw [hsplit, own_append, own_cons_self, List.append_assoc, List.cons_append] at hrest
  have htrace := hled party
  rw [← hrest] at htrace
  exact htrace.at_split

end Traces
