import Mathlib.Data.List.Induction
import Synthia.Application.Sessions
import Synthia.Graph.Reading

/-!
# How many work items a session opens

`advance` opens the work item and then moves the session to `resolving`. While the move is
legal the first articulated call opens the one work item and every later call finds it.
Where it is not — a session under staff control, or one that has ended — the call raises
with the work item opened, its identifier goes to nobody, and the next call opens another.

The invariant of a run whose articulated calls can all move the session is that a session
that began with no work item has one exactly since its first articulated call.
-/

namespace Synthia

/-- The call's conversation states a request. -/
def AdvanceCall.articulated (call : AdvanceCall) : Bool := (assessTriage call.turns).commitsWork

/-- The session is resolving, or may be moved to it. -/
def SessionState.resolvable (state : SessionState) : Bool :=
  state == .resolving || canTransition state .resolving

namespace SessionWorld

variable {world start : SessionWorld} {call : AdvanceCall} {calls before after : List AdvanceCall}

/-! ## One call -/

/-- The identifier the factory answers this call with. -/
def committed (world : SessionWorld) (call : AdvanceCall) : WorkItemId :=
  call.openWorkItem ⟨world.tenant, world.sessionId, call.requester, call.correlationId⟩

theorem advance_again {workItemId : WorkItemId} (h : world.workItemId = some workItemId) :
    world.advance call = ([], .ok ⟨world.state, some workItemId, assessTriage call.turns⟩) := by
  rw [advance, h]
  rfl

theorem advance_conversational (hnone : world.workItemId = none)
    (h : call.articulated = false) :
    world.advance call = ([], .ok ⟨world.state, none, assessTriage call.turns⟩) := by
  rw [AdvanceCall.articulated] at h
  rw [advance, hnone, SessionLifecycle.advance]
  simp only [h]
  rfl

theorem advance_articulated (hnone : world.workItemId = none) (h : call.articulated = true) :
    world.advance call =
      ([world.committed call],
        if world.state.resolvable then
          .ok ⟨.resolving, some (world.committed call), assessTriage call.turns⟩
        else .error ⟨world.state, .resolving⟩) := by
  rw [AdvanceCall.articulated] at h
  rw [advance, hnone, SessionLifecycle.advance]
  simp only [h, Bool.not_true, Bool.false_eq_true, if_false]
  by_cases hresolving : world.state = .resolving
  · simp [hresolving, SessionState.resolvable, Except.map, committed]
  · simp only [hresolving, if_false, SessionState.resolvable, transition]
    by_cases hlegal : canTransition world.state .resolving = true
    · simp [hlegal, Except.map, committed]
    · simp [hlegal, hresolving, Except.map, committed]

/-- The call opens a work item where the session has none and the conversation states a
request. -/
theorem advance_opens_iff :
    (world.advance call).1 ≠ [] ↔ world.workItemId = none ∧ call.articulated = true := by
  cases hworkItem : world.workItemId with
  | some workItemId => simp [advance_again hworkItem]
  | none =>
      cases harticulated : call.articulated with
      | false => simp [advance_conversational hworkItem harticulated]
      | true => simp [advance_articulated hworkItem harticulated]

/-! ## A run -/

theorem run_concat (start : SessionWorld) (calls : List AdvanceCall) (call : AdvanceCall) :
    start.run (calls ++ [call]) = (start.run calls).step call := by
  rw [run, List.foldl_append]
  rfl

/-- Where a call of the run has a work item to open, the session can be moved. -/
def Resolvable (start : SessionWorld) (calls : List AdvanceCall) : Prop :=
  ∀ before call after, calls = before ++ call :: after →
    (start.run before).workItemId = none → call.articulated = true →
      (start.run before).state.resolvable = true

theorem Resolvable.earlier (h : start.Resolvable (before ++ after)) : start.Resolvable before :=
  fun first call rest hsplit => h first call (rest ++ after) (by
    rw [hsplit, List.append_assoc, List.cons_append])

/-- What holds after the calls of a run: the session has a work item if it began with one
or a call was articulated, and it opened one if it began with none and a call was. -/
structure OpenedOnce (start : SessionWorld) (calls : List AdvanceCall) : Prop where
  workItem : (start.run calls).workItemId = none ↔
    start.workItemId = none ∧ ∀ call ∈ calls, call.articulated = false
  opened : (start.run calls).opened.length =
    start.opened.length +
      if start.workItemId = none ∧ ∃ call ∈ calls, call.articulated = true then 1 else 0

theorem Resolvable.openedOnce (h : start.Resolvable calls) : start.OpenedOnce calls := by
  induction calls using List.reverseRecOn with
  | nil => exact ⟨by simp [run], by simp [run]⟩
  | append_singleton calls call ih =>
      obtain ⟨hworkItem, hopened⟩ := ih h.earlier
      have hresolvable := h calls call [] rfl
      have hstep := run_concat start calls call
      cases hheld : (start.run calls).workItemId with
      | some workItemId =>
          -- the call finds the work item, and neither side changes
          rw [step, advance_again hheld] at hstep
          rw [hheld] at hworkItem
          have hnot : ¬ (start.workItemId = none ∧ ∀ call ∈ calls, call.articulated = false) :=
            fun hboth => nomatch hworkItem.mpr hboth
          refine ⟨?_, ?_⟩
          · rw [hstep]
            refine ⟨fun hnone => (nomatch hnone), fun hboth => ?_⟩
            exact absurd ⟨hboth.1, fun other hother =>
              hboth.2 other (List.mem_append_left _ hother)⟩ hnot
          · rw [hstep]
            simp only [List.append_nil]
            rw [hopened]
            by_cases hstart : start.workItemId = none
            · have hsome : ∃ other ∈ calls, other.articulated = true := by
                by_contra hnone
                push Not at hnone
                exact hnot ⟨hstart, fun other hother => Bool.eq_false_iff.mpr (hnone other hother)⟩
              obtain ⟨other, hother, harticulated⟩ := hsome
              rw [if_pos ⟨hstart, other, hother, harticulated⟩,
                if_pos ⟨hstart, other, List.mem_append_left _ hother, harticulated⟩]
            · rw [if_neg fun hboth => hstart hboth.1, if_neg fun hboth => hstart hboth.1]
      | none =>
          obtain ⟨hstart, hquiet⟩ := hworkItem.mp hheld
          have hfew : ¬ (start.workItemId = none ∧ ∃ other ∈ calls, other.articulated = true) := by
            rintro ⟨-, other, hother, harticulated⟩
            rw [hquiet other hother] at harticulated
            cases harticulated
          rw [if_neg hfew] at hopened
          cases harticulated : call.articulated with
          | false =>
              rw [step, advance_conversational hheld harticulated] at hstep
              refine ⟨?_, ?_⟩
              · rw [hstep]
                refine ⟨fun _ => ⟨hstart, fun other hother => ?_⟩, fun _ => rfl⟩
                rcases List.mem_append.mp hother with hmem | hlast
                · exact hquiet other hmem
                · rw [List.mem_singleton.mp hlast]
                  exact harticulated
              · rw [hstep, if_neg]
                · simp only [List.append_nil]
                  exact hopened
                · rintro ⟨-, other, hother, hits⟩
                  rcases List.mem_append.mp hother with hmem | hlast
                  · exact hfew ⟨hstart, other, hmem, hits⟩
                  · rw [List.mem_singleton.mp hlast, harticulated] at hits
                    cases hits
          | true =>
              rw [step, advance_articulated hheld harticulated,
                if_pos (hresolvable hheld harticulated)] at hstep
              have hlast : call ∈ calls ++ [call] := List.mem_concat_self
              refine ⟨?_, ?_⟩
              · rw [hstep]
                refine ⟨fun hnone => (nomatch hnone), fun hboth => ?_⟩
                have := hboth.2 call hlast
                rw [harticulated] at this
                cases this
              · rw [hstep, if_pos ⟨hstart, call, hlast, harticulated⟩]
                simp only [List.length_append, List.length_singleton]
                omega

/-- What is asked of each call: it opens a work item exactly if it is the first articulated
one of a session that began with none, and it opens none if it raises. -/
structure OpensFirst (start : SessionWorld) (before : List AdvanceCall) (call : AdvanceCall) :
    Prop where
  opens : ((start.run before).advance call).1 ≠ [] ↔
    start.workItemId = none ∧ (∀ earlier ∈ before, earlier.articulated = false) ∧
      call.articulated = true
  clean : ∀ error, ((start.run before).advance call).2 = .error error →
    ((start.run before).advance call).1 = []

/-- **A session opens at most one work item, at its first articulated call and none where
it raises, exactly if each call with a work item to open finds a session it can move.** -/
theorem opens_one_work_item_iff (start : SessionWorld) (calls : List AdvanceCall) :
    ((start.run calls).opened.length ≤ start.opened.length + 1 ∧
        ∀ before call after, calls = before ++ call :: after → start.OpensFirst before call) ↔
      start.Resolvable calls := by
  constructor
  · rintro ⟨-, hfirst⟩ before call after hsplit hnone harticulated
    by_contra hnot
    have hadvance := advance_articulated hnone harticulated
    rw [if_neg hnot] at hadvance
    have hclean := (hfirst before call after hsplit).clean ⟨_, _⟩ (by rw [hadvance])
    rw [hadvance] at hclean
    cases hclean
  · intro h
    refine ⟨?_, fun before call after hsplit => ⟨?_, ?_⟩⟩
    · rw [h.openedOnce.opened]
      split <;> omega
    · have hbefore : start.Resolvable before := by
        have hall := h
        rw [hsplit] at hall
        exact hall.earlier
      rw [advance_opens_iff, hbefore.openedOnce.workItem, and_assoc]
    · intro error herror
      by_contra hopens
      obtain ⟨hnone, harticulated⟩ := advance_opens_iff.mp hopens
      rw [advance_articulated hnone harticulated,
        if_pos (h before call after hsplit hnone harticulated)] at herror
      cases herror

/-! ### A request in a session under staff control -/

namespace SampleSession

def request : AdvanceCall :=
  ⟨⟨4⟩, ⟨[]⟩, [⟨Text.ofString "Please unlock my account", true⟩], fun _ => ⟨7⟩⟩

def staffControlled : SessionWorld :=
  { tenant := ⟨⟨1⟩, ⟨2⟩, .active, .endUserIdentity⟩
    sessionId := ⟨3⟩
    state := .staffControlled
    workItemId := none }

/-- Each attempt raises, and each opens a work item. -/
theorem two_work_items_opened :
    (∃ error, ((staffControlled.run [request]).advance request).2 = .error error) ∧
      (staffControlled.run [request, request]).opened.length = 2 ∧
      ¬ ((staffControlled.run [request, request]).opened.length ≤
            staffControlled.opened.length + 1 ∧
          ∀ before call after, [request, request] = before ++ call :: after →
            staffControlled.OpensFirst before call) := by
  have hraises : ((staffControlled.run [request]).advance request).2 =
      .error ⟨.staffControlled, .resolving⟩ := by decide +kernel
  have htwo : (staffControlled.run [request, request]).opened.length = 2 := by decide +kernel
  refine ⟨⟨_, hraises⟩, htwo, ?_⟩
  rintro ⟨hone, -⟩
  rw [htwo] at hone
  exact absurd hone (by decide)

end SampleSession

end SessionWorld

end Synthia

/-!
## Triage never forgets

`assess_triage` stops at the first turn of the requester that states a request. Which turn
that is does not show in the answer, so the answer is whether there is one: a question
about the set of the requester's turns. Anybody else's turns, the order and what is said
later cannot take it back.
-/

namespace Synthia

open Text

/-- The turns the session's own user wrote. -/
def requesterTurns (turns : List SessionTurn) : List SessionTurn :=
  turns.filter SessionTurn.senderIsEndUser

theorem senderIsEndUser_of_articulates {turn : SessionTurn} (h : articulates turn = true) :
    turn.senderIsEndUser = true := by
  unfold articulates at h
  rw [Bool.and_eq_true, Bool.and_eq_true, Bool.and_eq_true] at h
  exact h.1.1.1

theorem commitsWork_iff {turns : List SessionTurn} :
    (assessTriage turns).commitsWork = true ↔ ∃ turn ∈ turns, articulates turn = true := by
  rw [← List.any_eq_true]
  unfold assessTriage
  split
  · next hany => exact ⟨fun _ => hany, fun _ => rfl⟩
  · next hnone =>
      constructor
      · intro h
        cases h
      · exact fun h => absurd h hnone

/-- The whole assessment, its reason included, follows from whether it commits. -/
theorem assessTriage_eq_of_commitsWork {turns others : List SessionTurn}
    (h : (assessTriage turns).commitsWork = (assessTriage others).commitsWork) :
    assessTriage turns = assessTriage others := by
  unfold assessTriage at h ⊢
  cases hturns : turns.any articulates <;> cases hothers : others.any articulates
  · rfl
  · rw [hturns, hothers] at h
    cases h
  · rw [hturns, hothers] at h
    cases h
  · rfl

theorem commitsWork_mono {turns later : List SessionTurn}
    (hkept : requesterTurns turns ⊆ requesterTurns later)
    (h : (assessTriage turns).commitsWork = true) :
    (assessTriage later).commitsWork = true := by
  obtain ⟨turn, hturn, harticulates⟩ := commitsWork_iff.mp h
  have hown : turn ∈ requesterTurns turns :=
    List.mem_filter.mpr ⟨hturn, senderIsEndUser_of_articulates harticulates⟩
  exact commitsWork_iff.mpr ⟨turn, (List.mem_filter.mp (hkept hown)).1, harticulates⟩

/-- **Triage never forgets.** Two conversations with the same requester's turns, in
whatever order and among whatever else, are assessed alike; and one that is articulated is
assessed as it was at every later point. -/
theorem triage_never_forgets (turns : List SessionTurn) :
    (∀ others, (requesterTurns turns).Perm (requesterTurns others) →
      assessTriage turns = assessTriage others) ∧
    ∀ later, turns.Sublist later → (assessTriage turns).outcome = .articulated →
      assessTriage later = assessTriage turns := by
  constructor
  · intro others hperm
    apply assessTriage_eq_of_commitsWork
    rw [Bool.eq_iff_iff]
    exact ⟨commitsWork_mono hperm.subset, commitsWork_mono hperm.symm.subset⟩
  · intro later hlater harticulated
    have hcommits : (assessTriage turns).commitsWork = true := beq_iff_eq.mpr harticulated
    apply assessTriage_eq_of_commitsWork
    rw [hcommits]
    exact commitsWork_mono (hlater.filter _).subset hcommits

namespace SampleTriage

def request : SessionTurn := ⟨ofString "Please unlock my account", true⟩

def thanks : SessionTurn := ⟨ofString "thank you!", true⟩

def staffReply : SessionTurn := ⟨ofString "I have unlocked it for you now", false⟩

theorem reply_changes_nothing :
    assessTriage [request, thanks] = assessTriage [staffReply, thanks, staffReply, request] ∧
      assessTriage [request, staffReply, thanks] = assessTriage [request] :=
  ⟨(triage_never_forgets [request, thanks]).1 _ (by decide +kernel),
    (triage_never_forgets [request]).2 _ (by decide) (by decide +kernel)⟩

end SampleTriage

end Synthia
