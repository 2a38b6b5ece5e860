import Synthia.Graph.State
import Synthia.Lib.Reducing

/-!
# What the sealed channels hold after any history of updates

A run offers the state one update after another: a node's first write, a replay of it
when the run resumes, a retry after a failure. A reducer that raises fails the whole
update, and the checkpoint it would have made is not written, so the state stays what
it was.

The three rules differ. The governance channel takes an update whose treatment is as
strict as the one it holds, the execution and verification channels take one only while
they are empty or when it repeats what they hold, and the decision channel never
refuses and never changes. In all three a held value is taken again without changing
anything, and that is what makes a replay harmless.
-/

namespace Synthia

open Reducing

/-- Nothing is written to a channel, or what it holds. -/
def Repeats {α : Type} (existing update : Option α) : Prop :=
  ∀ written, update = some written → existing = some written

/-- Then the one value there is stands, whichever of the two goes first. -/
theorem Repeats.or_eq {α : Type} {existing update : Option α} (h : Repeats existing update) :
    update.or existing = existing ∧ existing.or update = existing := by
  cases update with
  | none => exact ⟨Option.none_or, Option.or_none⟩
  | some written =>
      rw [h written rfl]
      exact ⟨Option.some_or, Option.some_or⟩

section Reducers

variable {α : Type} [DecidableEq α] {channel : String}

/-- What `_seal` accepted stands, and whatever was held before stands still. -/
theorem sealChannel_holds {existing update result : Option α}
    (h : sealChannel channel existing update = .ok result) :
    result = update.or existing ∧ result = existing.or update := by
  cases update with
  | none =>
      injection h with h
      rw [← h, Option.or_none]
      exact ⟨rfl, rfl⟩
  | some written =>
      cases existing with
      | none =>
          injection h with h
          rw [← h]
          exact ⟨rfl, rfl⟩
      | some sealed =>
          simp only [sealChannel] at h
          split at h
          · next hsame =>
              injection h with h
              rw [← h, hsame]
              exact ⟨rfl, rfl⟩
          · cases h

/-- Writing nothing, or what is held, changes nothing. -/
theorem sealChannel_replay {existing update : Option α} (h : Repeats existing update) :
    sealChannel channel existing update = .ok existing := by
  cases update with
  | none => rfl
  | some written =>
      rw [h written rfl]
      simp [sealChannel]

/-- Writing anything else over what is held raises. -/
theorem sealChannel_differs {sealed written : α} (h : written ≠ sealed) :
    sealChannel channel (some sealed) (some written) = .error (.stateChannelSealed channel) := by
  rw [sealChannel, if_neg (Ne.symm h)]

theorem isNarrowing_self (treatment : ExecutionTreatment) :
    isNarrowing treatment treatment = true := by
  rw [isNarrowing, decide_eq_true_eq]

theorem sealGovernance_replay {existing update : Option GovernanceResult}
    (h : Repeats existing update) :
    sealGovernance existing update = .ok existing := by
  cases update with
  | none => rfl
  | some written =>
      rw [h written rfl]
      simp [sealGovernance, isNarrowing_self]

/-- An update that would loosen the treatment raises, and names both treatments. -/
theorem sealGovernance_widening {sealed written : GovernanceResult}
    (h : written.treatment.strictness < sealed.treatment.strictness) :
    sealGovernance (some sealed) (some written) =
      .error (.treatmentWidened sealed.treatment written.treatment) := by
  have hnot : ¬ isNarrowing sealed.treatment written.treatment = true := by
    rw [isNarrowing, decide_eq_true_eq]
    omega
  simp only [sealGovernance]
  rw [if_neg hnot]

/-- An update that would not loosen it is accepted. -/
theorem sealGovernance_narrowing {existing : Option GovernanceResult}
    {written : GovernanceResult}
    (h : ∀ sealed, existing = some sealed →
      sealed.treatment.strictness ≤ written.treatment.strictness) :
    sealGovernance existing (some written) = .ok (some written) := by
  cases existing with
  | none => rfl
  | some sealed =>
      have hnarrow : isNarrowing sealed.treatment written.treatment = true := by
        rw [isNarrowing, decide_eq_true_eq]
        exact h sealed rfl
      simp only [sealGovernance]
      rw [if_pos hnarrow]

theorem sealHumanDecision_eq (existing update : Option HumanDecisionRecord) :
    sealHumanDecision existing update = existing.or update := by
  cases existing with
  | none => rfl
  | some held => rfl

end Reducers

/-! ## One update -/

/-- The update carries, for each sealed channel, nothing or the value it holds. -/
structure AgentState.Replays (state : AgentState) (update : AgentUpdate) : Prop where
  governance : Repeats state.governance update.governance
  decision : Repeats state.decision update.decision
  execution : Repeats state.execution update.execution
  verification : Repeats state.verification update.verification

/-- Whatever else an update does, a channel it repeats is as it was behind it. -/
structure AgentState.KeepsRepeated (state : AgentState) (update : AgentUpdate)
    (after : AgentState) : Prop where
  governance : Repeats state.governance update.governance → after.governance = state.governance
  decision : Repeats state.decision update.decision → after.decision = state.decision
  execution : Repeats state.execution update.execution → after.execution = state.execution
  verification :
    Repeats state.verification update.verification → after.verification = state.verification

/-- The update writes another execution or another verification over the one held. -/
def AgentState.Overwrites (state : AgentState) (update : AgentUpdate) : Prop :=
  (∃ held written, state.execution = some held ∧ update.execution = some written ∧
      written ≠ held) ∨
    ∃ held written, state.verification = some held ∧ update.verification = some written ∧
      written ≠ held

/-- Two states that hold the same in the sealed channels. -/
structure AgentState.SameSealed (state after : AgentState) : Prop where
  governance : after.governance = state.governance
  decision : after.decision = state.decision
  execution : after.execution = state.execution
  verification : after.verification = state.verification

section Update

variable {state after : AgentState} {update : AgentUpdate}

theorem AgentState.governance_after (h : state.apply update = .ok after) :
    after.governance = update.governance.or state.governance := by
  obtain ⟨hgovernance, -⟩ := AgentState.apply_eq_ok h
  rcases sealGovernance_ok hgovernance with ⟨hnone, hafter⟩ | ⟨written, hwritten, hafter, -⟩
  · rw [hafter, hnone, Option.none_or]
  · rw [hafter, hwritten, Option.some_or]

theorem AgentState.decision_after (h : state.apply update = .ok after) :
    after.decision = state.decision.or update.decision := by
  obtain ⟨-, -, -, -, -, -, -, -, -, -, hdecision⟩ := AgentState.apply_eq_ok h
  rw [hdecision, sealHumanDecision_eq]

theorem AgentState.execution_after (h : state.apply update = .ok after) :
    after.execution = state.execution.or update.execution := by
  obtain ⟨-, hexecution, -⟩ := AgentState.apply_eq_ok h
  exact (sealChannel_holds hexecution).2

theorem AgentState.verification_after (h : state.apply update = .ok after) :
    after.verification = state.verification.or update.verification := by
  obtain ⟨-, -, hverification, -⟩ := AgentState.apply_eq_ok h
  exact (sealChannel_holds hverification).2

theorem AgentState.keepsRepeated_apply (h : state.apply update = .ok after) :
    state.KeepsRepeated update after where
  governance hrepeats := (AgentState.governance_after h).trans hrepeats.or_eq.1
  decision hrepeats := (AgentState.decision_after h).trans hrepeats.or_eq.2
  execution hrepeats := (AgentState.execution_after h).trans hrepeats.or_eq.2
  verification hrepeats := (AgentState.verification_after h).trans hrepeats.or_eq.2

/-- A second execution or verification that differs fails the whole update. -/
theorem AgentState.apply_overwrites (h : state.Overwrites update) :
    ∃ error, state.apply update = .error error := by
  cases hafter : state.apply update with
  | error error => exact ⟨error, rfl⟩
  | ok after =>
      obtain ⟨-, hexecution, hverification, -⟩ := AgentState.apply_eq_ok hafter
      rcases h with ⟨held, written, hheld, hwritten, hdiffers⟩ |
        ⟨held, written, hheld, hwritten, hdiffers⟩
      · rw [hheld, hwritten, sealExecution, sealChannel_differs hdiffers] at hexecution
        cases hexecution
      · rw [hheld, hwritten, sealVerification, sealChannel_differs hdiffers] at hverification
        cases hverification

/-- The order an applied update climbs: a held treatment stays held, and as strict. -/
def AgentState.NoLooser (state after : AgentState) : Prop :=
  ∀ sealed, state.governance = some sealed →
    ∃ later, after.governance = some later ∧
      sealed.treatment.strictness ≤ later.treatment.strictness

theorem AgentState.noLooser_refl (state : AgentState) : state.NoLooser state :=
  fun sealed hsealed => ⟨sealed, hsealed, le_refl _⟩

theorem AgentState.noLooser_apply (h : state.apply update = .ok after) :
    state.NoLooser after := by
  intro sealed hsealed
  obtain ⟨hgovernance, -⟩ := AgentState.apply_eq_ok h
  rcases sealGovernance_ok hgovernance with ⟨-, hafter⟩ | ⟨written, -, hafter, hnarrow⟩
  · exact ⟨sealed, by rw [hafter, hsealed], le_refl _⟩
  · refine ⟨written, hafter, ?_⟩
    have := hnarrow sealed hsealed
    rwa [isNarrowing, decide_eq_true_eq] at this

theorem AgentState.noLooser_trans {middle : AgentState} (h : state.NoLooser middle)
    (hrest : middle.NoLooser after) : state.NoLooser after := by
  intro sealed hsealed
  obtain ⟨between, hbetween, hle⟩ := h sealed hsealed
  obtain ⟨later, hlater, hle'⟩ := hrest between hbetween
  exact ⟨later, hlater, le_trans hle hle'⟩

theorem AgentState.apply_widening {sealed written : GovernanceResult}
    (hsealed : state.governance = some sealed) (hwritten : update.governance = some written)
    (h : written.treatment.strictness < sealed.treatment.strictness) :
    state.apply update = .error (.treatmentWidened sealed.treatment written.treatment) := by
  rw [AgentState.apply, hsealed, hwritten, sealGovernance_widening h]
  rfl

/-- A replay is applied, and the sealed channels hold what they held. -/
theorem AgentState.apply_replay (h : state.Replays update) :
    ∃ after, state.apply update = .ok after ∧ state.SameSealed after := by
  have hexecution : sealExecution state.execution update.execution = .ok state.execution :=
    sealChannel_replay h.execution
  have hverification :
      sealVerification state.verification update.verification = .ok state.verification :=
    sealChannel_replay h.verification
  rw [AgentState.apply, sealGovernance_replay h.governance, hexecution, hverification]
  refine ⟨_, rfl, ⟨rfl, ?_, rfl, rfl⟩⟩
  show sealHumanDecision state.decision update.decision = state.decision
  rw [sealHumanDecision_eq]
  exact h.decision.or_eq.2

end Update

/-! ## A history of updates -/

section History

variable (start : AgentState) (updates : List AgentUpdate)

theorem noLooser_receiveAll : start.NoLooser (receiveAll AgentState.apply start updates) :=
  le_receiveAll AgentState.noLooser_refl
    (fun _ _ _ h hrest => AgentState.noLooser_trans h hrest)
    (fun _ _ _ h => AgentState.noLooser_apply h) start updates

/-- The governance channel holds the last value an applied update wrote to it. -/
theorem governance_receiveAll :
    (receiveAll AgentState.apply start updates).governance =
      ((accepted AgentState.apply start updates).filterMap (·.governance)).getLast?.or
        start.governance :=
  get_receiveAll_last (fun _ _ _ h => AgentState.governance_after h) start updates

/-- The decision channel holds the first one. -/
theorem decision_receiveAll :
    (receiveAll AgentState.apply start updates).decision =
      start.decision.or
        ((accepted AgentState.apply start updates).filterMap (·.decision)).head? :=
  get_receiveAll_first (fun _ _ _ h => AgentState.decision_after h) start updates

theorem execution_receiveAll :
    (receiveAll AgentState.apply start updates).execution =
      start.execution.or
        ((accepted AgentState.apply start updates).filterMap (·.execution)).head? :=
  get_receiveAll_first (fun _ _ _ h => AgentState.execution_after h) start updates

theorem verification_receiveAll :
    (receiveAll AgentState.apply start updates).verification =
      start.verification.or
        ((accepted AgentState.apply start updates).filterMap (·.verification)).head? :=
  get_receiveAll_first (fun _ _ _ h => AgentState.verification_after h) start updates

/-- After any history `before`, continued by any `after`: the treatment only tightens,
one that would loosen it raises and changes nothing, any other is taken and the last
taken stands; a replay changes no sealed channel, and an update does not change a channel
that it repeats; another execution or verification than the one held raises and changes
nothing; and the first decision stays, as the first execution and the first verification
do. -/
theorem sealed_channels_hold (before after : List AgentUpdate) :
    let state := receiveAll AgentState.apply start before
    let later := receiveAll AgentState.apply start (before ++ after)
    state.NoLooser later ∧
      (∀ update sealed written, state.governance = some sealed →
        update.governance = some written →
        written.treatment.strictness < sealed.treatment.strictness →
          state.apply update =
              .error (.treatmentWidened sealed.treatment written.treatment) ∧
            receive AgentState.apply state update = state) ∧
      (∀ written, (∀ sealed, state.governance = some sealed →
          sealed.treatment.strictness ≤ written.treatment.strictness) →
        sealGovernance state.governance (some written) = .ok (some written)) ∧
      state.governance =
        ((accepted AgentState.apply start before).filterMap (·.governance)).getLast?.or
          start.governance ∧
      (∀ update, state.Replays update →
        ∃ next, state.apply update = .ok next ∧ state.SameSealed next) ∧
      (∀ update next, state.apply update = .ok next → state.KeepsRepeated update next) ∧
      (∀ update, state.Overwrites update →
        ∃ error, state.apply update = .error error ∧
          receive AgentState.apply state update = state) ∧
      state.decision =
        start.decision.or
          ((accepted AgentState.apply start before).filterMap (·.decision)).head? ∧
      (∀ decision, state.decision = some decision → later.decision = some decision) ∧
      (∀ execution, state.execution = some execution → later.execution = some execution) ∧
      ∀ verification, state.verification = some verification →
        later.verification = some verification := by
  intro state later
  have hlater : later = receiveAll AgentState.apply state after :=
    receiveAll_append start before after
  refine ⟨?_, ?_, fun written h => sealGovernance_narrowing h,
    governance_receiveAll start before, fun update h => AgentState.apply_replay h,
    fun update next h => AgentState.keepsRepeated_apply h, ?_,
    decision_receiveAll start before, ?_, ?_, ?_⟩
  · rw [hlater]
    exact noLooser_receiveAll state after
  · intro update sealed written hsealed hwritten h
    have hraises := AgentState.apply_widening hsealed hwritten h
    exact ⟨hraises, receive_error hraises⟩
  · intro update h
    obtain ⟨error, hraises⟩ := AgentState.apply_overwrites h
    exact ⟨error, hraises, receive_error hraises⟩
  · intro decision h
    rw [hlater, decision_receiveAll, h, Option.some_or]
  · intro execution h
    rw [hlater, execution_receiveAll, h, Option.some_or]
  · intro verification h
    rw [hlater, verification_receiveAll, h, Option.some_or]

end History

end Synthia
