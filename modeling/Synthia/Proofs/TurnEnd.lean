import Synthia.Graph.Turns

/-!
# A streamed turn ends once

What a generator has still to give is a list: the events of the entries left, the one
event its stream ends with, and, where that was a failure, the exception raised again.
A pull takes the head of that list and leaves its tail, wherever the generator was
suspended; a closed generator has the empty list and stays closed. So any number of pulls
from a fresh generator read the list off and then find it stopped.
-/

namespace Synthia

open Text

variable {Error : Type}

/-- The entries of every update, in the order the graph produced them. -/
def Astream.entries : Astream Error → GraphUpdate
  | .exhausted | .raises _ => []
  | .update entries rest => entries ++ rest.entries

/-- What the graph raised, where it failed. -/
def Astream.failure : Astream Error → Option Error
  | .exhausted => none
  | .raises error => some error
  | .update _ rest => rest.failure

/-- The event a stream ends with. -/
def Astream.terminal (stream : Astream Error) : TurnEvent :=
  match stream.failure with
  | none => { kind := .done }
  | some _ => { kind := .error }

/-- The event a stream ends with, and the exception behind it. -/
def Astream.ending (stream : Astream Error) : List (Pulled Error) :=
  .event stream.terminal :: stream.failure.toList.map .raised

def eventsOf (entries : GraphUpdate) : List (Pulled Error) :=
  (entries.filterMap reported).map .event

/-- What a generator has still to give. -/
def TurnGenerator.remaining : TurnGenerator Error → List (Pulled Error)
  | .reading pending rest => eventsOf (pending ++ rest.entries) ++ rest.ending
  | .reraising error => [.raised error]
  | .closed => []

/-! ## One pull -/

/-- A pull gives the head of what was left and leaves the rest. -/
def Takes (pulled : Pulled Error × TurnGenerator Error) (left : List (Pulled Error)) : Prop :=
  left = pulled.1 :: pulled.2.remaining

/-- Induction over the entries pending: the first that is reported is the next event. -/
theorem scanUpdate_takes {rest : Astream Error} {next : Pulled Error × TurnGenerator Error}
    (hnext : Takes next (eventsOf rest.entries ++ rest.ending)) (pending : GraphUpdate) :
    Takes (scanUpdate rest next pending) (eventsOf (pending ++ rest.entries) ++ rest.ending) := by
  induction pending with
  | nil => exact hnext
  | cons entry pending ih =>
      unfold scanUpdate eventsOf
      rw [List.cons_append, List.filterMap_cons]
      cases reported entry with
      | none => exact ih
      | some event => rfl

theorem scanStream_takes (stream : Astream Error) :
    Takes (scanStream stream) (eventsOf stream.entries ++ stream.ending) := by
  induction stream with
  | exhausted => rfl
  | raises error => rfl
  | update entries rest ih => exact scanUpdate_takes ih entries

theorem TurnGenerator.anext_takes {generator : TurnGenerator Error}
    (hopen : generator ≠ .closed) : Takes generator.anext generator.remaining := by
  cases generator with
  | reading pending rest => exact scanUpdate_takes (scanStream_takes rest) pending
  | reraising error => rfl
  | closed => exact absurd rfl hopen

/-! ## Any number of pulls -/

theorem TurnGenerator.received_closed (pulls : Nat) :
    (TurnGenerator.closed : TurnGenerator Error).received pulls =
      List.replicate pulls Pulled.stopped := by
  induction pulls with
  | zero => rfl
  | succ pulls ih =>
      rw [List.replicate_succ, ← ih]
      rfl

theorem TurnGenerator.received_eq (generator : TurnGenerator Error) (pulls : Nat) :
    generator.received pulls =
      (generator.remaining ++ List.replicate pulls Pulled.stopped).take pulls := by
  induction pulls generalizing generator with
  | zero => rfl
  | succ pulls ih =>
      by_cases hopen : generator = .closed
      · subst hopen
        rw [received_closed]
        exact (List.take_of_length_le (Nat.le_of_eq List.length_replicate)).symm
      · have htakes := anext_takes hopen
        unfold Takes at htakes
        rw [htakes, received, ih, List.cons_append, List.take_succ_cons]
        congr 1
        rw [List.take_append, List.take_append, List.take_replicate, List.take_replicate]
        congr 2
        omega

/-! ## The turn -/

/-- What an interrupt is called: the kind its first payload carries, and `clarification`
where it carries none. -/
def CalledOf (channels : Channels) (kind : String) : Prop :=
  (∃ rest, channels = .sequence (.dictionary (some kind) :: rest)) ∨
    kind = "clarification" ∧
      ∀ carried rest, channels ≠ .sequence (.dictionary (some carried) :: rest)

theorem calledOf_interruptKind (channels : Channels) :
    CalledOf channels (interruptKind channels) := by
  cases channels with
  | other => exact Or.inr ⟨rfl, fun _ _ => Channels.noConfusion⟩
  | sequence payloads =>
      cases payloads with
      | nil => exact Or.inr ⟨rfl, fun _ _ h => by cases h⟩
      | cons first rest =>
          cases first with
          | other => exact Or.inr ⟨rfl, fun _ _ h => by cases h⟩
          | dictionary carried =>
              cases carried with
              | none => exact Or.inr ⟨rfl, fun _ _ h => by cases h⟩
              | some kind => exact Or.inl ⟨rest, rfl⟩

/-- What a client is told of an entry: the kind of an interrupt, or the label of a node
that has one. -/
def Reports (entry : String × Channels) (event : TurnEvent) : Prop :=
  (entry.1 = "__interrupt__" ∧ ∃ kind, CalledOf entry.2 kind ∧
    event = { kind := .interrupt, name := ofString kind }) ∨
  (entry.1 ≠ "__interrupt__" ∧ ∃ label, (entry.1, label) ∈ stepLabels ∧
    event = { kind := .step, name := ofString entry.1, label := ofString label })

/-- The entries a client is told of. -/
def isReported (entry : String × Channels) : Bool :=
  entry.1 == "__interrupt__" || (stepLabels.map Prod.fst).contains entry.1

theorem mem_of_lookup {name label : String} {labels : List (String × String)}
    (h : labels.lookup name = some label) : (name, label) ∈ labels := by
  induction labels with
  | nil => cases h
  | cons first labels ih =>
      rw [List.lookup_cons] at h
      cases hname : name == first.1 with
      | true =>
          rw [hname] at h
          injection h with h
          rw [← h, beq_iff_eq.mp hname]
          exact List.mem_cons_self
      | false =>
          rw [hname] at h
          exact List.mem_cons_of_mem _ (ih h)

theorem reports_of_reported {entry : String × Channels} {event : TurnEvent}
    (h : reported entry = some event) : Reports entry event := by
  unfold reported at h
  split at h
  · next hinterrupt =>
      injection h with h
      exact Or.inl ⟨beq_iff_eq.mp hinterrupt, _, calledOf_interruptKind entry.2, h.symm⟩
  · next hnode =>
      obtain ⟨label, hlabel, hevent⟩ := Option.map_eq_some_iff.mp h
      exact Or.inr ⟨fun heq => hnode (beq_iff_eq.mpr heq), label, mem_of_lookup hlabel,
        hevent.symm⟩

theorem isSome_lookup (name : String) (labels : List (String × String)) :
    (labels.lookup name).isSome = (labels.map Prod.fst).contains name := by
  induction labels with
  | nil => rfl
  | cons first labels ih =>
      rw [List.lookup_cons, List.map_cons, List.contains_cons]
      cases name == first.1 with
      | true => rfl
      | false => exact ih

theorem isSome_reported (entry : String × Channels) :
    (reported entry).isSome = isReported entry := by
  unfold reported isReported
  split
  · next hinterrupt => rw [hinterrupt]; rfl
  · next hnode =>
      rw [Bool.not_eq_true] at hnode
      rw [hnode, Bool.false_or, Option.isSome_map, isSome_lookup]

/-- One event for each reported entry, in their order. -/
theorem forall₂_reports (entries : GraphUpdate) :
    List.Forall₂ Reports (entries.filter isReported) (entries.filterMap reported) := by
  induction entries with
  | nil => exact List.Forall₂.nil
  | cons entry entries ih =>
      have hsome := isSome_reported entry
      cases hreported : reported entry with
      | none =>
          rw [hreported] at hsome
          rw [List.filter_cons_of_neg (by rw [← hsome]; decide),
            List.filterMap_cons_none hreported]
          exact ih
      | some event =>
          rw [hreported] at hsome
          rw [List.filter_cons_of_pos hsome.symm, List.filterMap_cons_some hreported]
          exact List.Forall₂.cons (reports_of_reported hreported) ih

def TurnEvent.isTerminal (event : TurnEvent) : Bool :=
  match event.kind with
  | .done | .error => true
  | .step | .interrupt => false

theorem Reports.not_terminal {entry : String × Channels} {event : TurnEvent}
    (h : Reports entry event) : event.isTerminal = false := by
  rcases h with ⟨_, _, _, rfl⟩ | ⟨_, _, _, rfl⟩ <;> rfl

theorem Astream.isTerminal_terminal (stream : Astream Error) :
    stream.terminal.isTerminal = true := by
  unfold terminal
  cases stream.failure <;> rfl

theorem Astream.terminal_error_iff (stream : Astream Error) :
    stream.terminal.kind = .error ↔ stream.failure.isSome = true := by
  unfold terminal
  cases stream.failure with
  | none =>
      constructor
      · intro h
        cases h
      · intro h
        cases h
  | some error => exact ⟨fun _ => rfl, fun _ => rfl⟩

/-- **A streamed turn ends exactly once.** However often the generator is pulled, it
gives one event for each reported entry, in the graph's order and none of them terminal,
then one terminal event, which is an error exactly where the graph failed; then it raises
what the graph raised, if it did, and is stopped for good. -/
theorem streamed_turn_ends_once (stream : Astream Error) :
    ∃ (events : List TurnEvent) (terminal : TurnEvent),
      List.Forall₂ Reports (stream.entries.filter isReported) events ∧
      (∀ event ∈ events, event.isTerminal = false) ∧ terminal.isTerminal = true ∧
      (terminal.kind = .error ↔ stream.failure.isSome = true) ∧
      ∀ pulls, (streamTurn stream).received pulls =
        ((events ++ [terminal]).map Pulled.event ++ stream.failure.toList.map Pulled.raised ++
          List.replicate pulls Pulled.stopped).take pulls := by
  have hreports := forall₂_reports stream.entries
  refine ⟨stream.entries.filterMap reported, stream.terminal, hreports, ?_,
    stream.isTerminal_terminal, stream.terminal_error_iff, fun pulls => ?_⟩
  · intro event hevent
    obtain ⟨entry, _, hentry⟩ := List.mem_filterMap.mp hevent
    exact (reports_of_reported hentry).not_terminal
  · rw [TurnGenerator.received_eq]
    show ((eventsOf ([] ++ stream.entries) ++ stream.ending) ++ _).take pulls = _
    unfold eventsOf Astream.ending
    rw [List.nil_append, List.map_append, List.append_assoc, List.append_assoc,
      List.append_assoc]
    rfl

end Synthia
