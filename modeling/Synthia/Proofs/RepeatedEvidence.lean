import Synthia.Proofs.Confidence
import Synthia.Proofs.Grounding
import Synthia.Proofs.Scope

/-!
# Retrieving the same evidence again

The `retrieved` channel accumulates over a thread, and a search that finds again what an
earlier one found appends it again. A chunk that led the rest alone now ties with its own
copy, so the margin is zero and the thread's evidence is no longer confident. Where the
leader is a chunk of other evidence, or where nothing led, the copies change nothing.

The count is over runs: what a thread holds after any run is what it started with and as
many copies of the repeated evidence as the run searched.
-/

namespace Synthia

open Text

/-! ## What a run retrieves -/

/-- The step searched: it ran `retrieve`, on a request that is not empty. -/
def Thread.retrieves (thread : Thread) (action : Action) : Bool :=
  match thread.performs action with
  | some (.retrieve, _, _, _) => !(latestUserContent thread.state).isEmpty
  | _ => false

/-- The evidence the step's search found. -/
def Thread.found (thread : Thread) (action : Action) : List RetrievedContext :=
  match thread.performs action with
  | some (.retrieve, deps, context, _) => (retrieve deps context thread.state).retrieved
  | _ => []

/-- The step assessed the evidence. -/
def Thread.grounds (thread : Thread) (action : Action) : Bool :=
  match thread.performs action with
  | some (.ground, _, _, _) => true
  | _ => false

/-- How often a run searched. -/
def Thread.retrievals (thread : Thread) (actions : List Action) : Nat :=
  (thread.trace actions).countP fun step => step.1.retrieves step.2

section Step

variable {thread : Thread} {deps : GraphDependencies} {context : RunContext}
  {payload : ResumePayload}

theorem Thread.found_eq_nil {action : Action} (h : thread.retrieves action = false) :
    thread.found action = [] := by
  rw [Thread.retrieves] at h
  rw [Thread.found]
  split
  · next hperforms =>
      rw [hperforms] at h
      have hempty : (latestUserContent thread.state).isEmpty = true := by
        simpa using h
      rw [retrieve]
      simp only [hempty, if_true]
  · rfl

/-- A node that writes no sealed channel, and whose edge cannot fail, ends with its
update applied. -/
theorem Thread.perform_applies {node : Node} {update : AgentUpdate} {next : Node}
    (hwritten : (node.run deps context payload thread.state).2 = .ok update)
    (hsealed : update.governance = none ∧ update.execution = none ∧
      update.verification = none)
    (hnext : ∀ state, node.successor state = .ok (some next)) :
    thread.state.apply update =
      .ok (thread.perform node deps context payload).state := by
  obtain ⟨hgovernance, hexecution, hverification⟩ := hsealed
  obtain ⟨after, hafter, -⟩ :=
    thread.state.apply_unsealed hgovernance hexecution hverification
  have hfinish : finish node context thread.state
      (node.run deps context payload thread.state).2 = .ok (after, .running next context) := by
    unfold finish
    rw [hwritten]
    dsimp only
    rw [hafter]
    dsimp only
    rw [hnext after]
  rw [hafter, Thread.perform]
  rw [hfinish]

theorem Thread.found_of_ne {action : Action} {node : Node}
    (hperforms : thread.performs action = some (node, deps, context, payload))
    (hnode : node ≠ .retrieve) : thread.found action = [] := by
  rw [Thread.found, hperforms]
  cases node with
  | retrieve => exact absurd rfl hnode
  | _ => rfl

/-- What a step adds to the evidence is what it found. -/
theorem Thread.step_retrieved (thread : Thread) (action : Action) :
    (thread.step action).state.retrieved =
      thread.state.retrieved ++ thread.found action := by
  cases hperforms : thread.performs action with
  | none =>
      have hfound : thread.found action = [] := by rw [Thread.found, hperforms]
      rw [hfound, List.append_nil]
      rcases Thread.step_still hperforms with ⟨_, _, rfl⟩ | hsame | ⟨_, _, hmoved⟩
      · rfl
      · rw [hsame]
      · rw [hmoved]
  | some performed =>
      obtain ⟨node, deps, context, payload⟩ := performed
      rw [Thread.step_performs hperforms]
      by_cases hnode : node = .retrieve
      · subst hnode
        have happly := @Thread.perform_applies thread deps context payload .retrieve _ .ground
          rfl (by rw [retrieve]; split <;> exact ⟨rfl, rfl, rfl⟩) (fun _ => rfl)
        obtain ⟨-, -, -, -, -, -, hretrieved, -⟩ := AgentState.apply_eq_ok happly
        rw [hretrieved, Thread.found, hperforms]
      · rw [Thread.found_of_ne hperforms hnode, List.append_nil]
        rcases thread.perform_ends node deps context payload with
          ⟨-, hstate⟩ | ⟨update, hwritten, happly, -⟩
        · rw [hstate]
        · obtain ⟨-, -, hnothing⟩ := Node.run_writes hwritten
          obtain ⟨-, -, -, -, -, -, hretrieved, -⟩ := AgentState.apply_eq_ok happly
          rw [hretrieved, hnothing hnode, List.append_nil]

/-- What `ground` writes is the assessment of all the evidence. -/
theorem Thread.step_grounds {action : Action} (h : thread.grounds action = true) :
    (thread.step action).state.grounding =
      some
        ⟨(assessScores (thread.state.retrieved.map RetrievedContext.score)).topScore,
          (assessScores (thread.state.retrieved.map RetrievedContext.score)).margin,
          (assessScores (thread.state.retrieved.map RetrievedContext.score)).isConfident,
          true⟩ := by
  rw [Thread.grounds] at h
  split at h
  · next deps context payload hperforms =>
      rw [Thread.step_performs hperforms]
      have happly := @Thread.perform_applies thread deps context payload .ground _ .guardrail
        rfl ⟨rfl, rfl, rfl⟩ (fun _ => rfl)
      obtain ⟨-, -, -, -, -, -, -, hgrounding, -⟩ := AgentState.apply_eq_ok happly
      exact hgrounding
  · cases h

end Step

/-! ## The evidence of a run -/

section Run

variable {thread : Thread} {evidence : List RetrievedContext} {actions : List Action}

/-- Every search of the run finds the same evidence. -/
def Thread.Refinds (thread : Thread) (actions : List Action)
    (evidence : List RetrievedContext) : Prop :=
  ∀ step ∈ thread.trace actions, step.1.retrieves step.2 = true → step.1.found step.2 = evidence

theorem Thread.Refinds.before {before after : List Action}
    (h : thread.Refinds (before ++ after) evidence) : thread.Refinds before evidence := by
  induction before generalizing thread with
  | nil => exact fun _ hnone => nomatch hnone
  | cons action before ih =>
      obtain ⟨hfirst, hrest⟩ := List.forall_mem_cons.mp h
      exact List.forall_mem_cons.mpr ⟨hfirst, ih hrest⟩

/-- A thread holds what it held and a copy of the evidence for each search. -/
theorem Thread.run_retrieved (h : thread.Refinds actions evidence) :
    (thread.run actions).state.retrieved =
      thread.state.retrieved ++
        (List.replicate (thread.retrievals actions) evidence).flatten := by
  induction actions generalizing thread with
  | nil => exact (List.append_nil _).symm
  | cons action actions ih =>
      obtain ⟨hfirst, hrest⟩ := List.forall_mem_cons.mp h
      rw [Thread.run_cons, ih hrest, Thread.step_retrieved]
      cases hretrieves : thread.retrieves action with
      | false =>
          have hcount : thread.retrievals (action :: actions) =
              (thread.step action).retrievals actions := by
            simp [Thread.retrievals, Thread.trace, hretrieves]
          rw [Thread.found_eq_nil hretrieves, List.append_nil, hcount]
      | true =>
          have hcount : thread.retrievals (action :: actions) =
              (thread.step action).retrievals actions + 1 := by
            simp [Thread.retrievals, Thread.trace, hretrieves]
          rw [hfirst hretrieves, hcount, List.replicate_succ, List.flatten_cons,
            List.append_assoc]

end Run

/-! ## What the copies do to the assessment -/

section Copies

variable (prior scores : List ℚ)

theorem mem_copies_iff {count : Nat} (hcount : count ≠ 0) {score : ℚ} :
    score ∈ (List.replicate count scores).flatten ↔ score ∈ scores := by
  rw [List.mem_flatten]
  constructor
  · rintro ⟨copy, hcopy, hscore⟩
    rwa [List.eq_of_mem_replicate hcopy] at hscore
  · intro hscore
    exact ⟨scores, List.mem_replicate.mpr ⟨hcount, rfl⟩, hscore⟩

/-- With any number of copies, what other evidence leads is still led by it. -/
theorem ledBy_copies_iff {count : Nat} (hcount : count ≠ 0) :
    LedBy prior (List.replicate count scores).flatten ↔ LedBy prior scores :=
  ⟨fun h => h.mono fun _ hmem => (mem_copies_iff scores hcount).mpr hmem,
    fun h => h.mono fun _ hmem => (mem_copies_iff scores hcount).mp hmem⟩

theorem copies_confident_iff {count : Nat} (hcount : 1 < count) :
    (assessScores (prior ++ (List.replicate count scores).flatten)).isConfident = true ↔
      LedBy prior scores := by
  rw [isConfident_append_iff, ledBy_copies_iff prior scores (by omega), or_iff_left]
  obtain ⟨more, rfl⟩ : ∃ more, count = more + 1 := ⟨count - 1, by omega⟩
  have hmore : more ≠ 0 := by omega
  rw [List.replicate_succ, List.flatten_cons]
  exact not_ledBy_copies (fun _ hmem => (mem_copies_iff scores hmore).mpr hmem)
    (fun _ hmem => (mem_copies_iff scores hmore).mp hmem)

/-- The verdict is the first one's exactly where there is one copy, or no repeated score
leads. -/
theorem copies_same_iff {count : Nat} (hcount : count ≠ 0) :
    ((assessScores (prior ++ (List.replicate count scores).flatten)).isConfident = true ↔
        (assessScores (prior ++ scores)).isConfident = true) ↔
      count = 1 ∨ ¬ LedBy scores prior := by
  by_cases hone : count = 1
  · subst hone
    simp
  · rw [copies_confident_iff prior scores (by omega), isConfident_append_iff, or_iff_right hone]
    constructor
    · intro hsame hled
      exact hled.not_swap (hsame.mpr (Or.inr hled))
    · intro hnot
      exact (or_iff_left hnot).symm

end Copies

/-! ## Every assessment of a run -/

section Assessments

variable {start : Thread} {evidence : List RetrievedContext} {actions before after : List Action}
  {action : Action}

/-- The verdict of the step is the one the evidence had after the first search. -/
def SameVerdict (start : Thread) (evidence : List RetrievedContext) (before : List Action)
    (action : Action) : Prop :=
  (((start.run before).step action).state.grounding.any fun grounding =>
      grounding.isConfident) = true ↔
    (assessScores ((start.state.retrieved ++ evidence).map
      RetrievedContext.score)).isConfident = true

/-- There has been one search, or the leader is no chunk of the repeated evidence. -/
def Unrivalled (start : Thread) (evidence : List RetrievedContext) (before : List Action) :
    Prop :=
  start.retrievals before = 1 ∨
    ¬ LedBy (evidence.map RetrievedContext.score)
      (start.state.retrieved.map RetrievedContext.score)

theorem sameVerdict_iff (h : start.Refinds before evidence)
    (hgrounds : (start.run before).grounds action = true)
    (hsearched : start.retrievals before ≠ 0) :
    SameVerdict start evidence before action ↔ Unrivalled start evidence before := by
  rw [SameVerdict, Thread.step_grounds hgrounds, Option.any_some, Thread.run_retrieved h,
    List.map_append, List.map_append, List.map_flatten, List.map_replicate]
  exact copies_same_iff _ _ hsearched

/-- **Repeated evidence keeps its verdict exactly while it does not lead.** From any
thread, over any run whose searches all find the same evidence, every assessment after a
search is as confident as the first exactly if at each of them there has been one search
so far, or no score of the repeated evidence leads. -/
theorem repeated_evidence_iff (h : start.Refinds actions evidence) :
    (∀ before action after, actions = before ++ action :: after →
        (start.run before).grounds action = true → start.retrievals before ≠ 0 →
          SameVerdict start evidence before action) ↔
      ∀ before action after, actions = before ++ action :: after →
        (start.run before).grounds action = true → start.retrievals before ≠ 0 →
          Unrivalled start evidence before := by
  constructor
  · intro hsame before action after hsplit hgrounds hsearched
    exact (sameVerdict_iff (hsplit ▸ h).before hgrounds hsearched).mp
      (hsame before action after hsplit hgrounds hsearched)
  · intro hall before action after hsplit hgrounds hsearched
    exact (sameVerdict_iff (hsplit ▸ h).before hgrounds hsearched).mpr
      (hall before action after hsplit hgrounds hsearched)

end Assessments

/-! ### The same question asked twice -/

namespace SampleRetrieval

/-- One article, well above the threshold. -/
def strongDependencies : GraphDependencies :=
  { weakDependencies with search := fun _ _ _ => [⟨[], 9 / 10, "kb-1"⟩] }

def strongEvidence : List RetrievedContext := [⟨"kb-1", [], 9 / 10, "kb-1"⟩]

/-- A turn as far as its assessment, and the same turn again as far as `retrieve`. -/
def askedTwice : List Action :=
  .turn unlockContext unlockTurn :: List.replicate 4 (.node strongDependencies) ++
    .turn unlockContext unlockTurn :: List.replicate 3 (.node strongDependencies)

def answeredTwice : List Action := askedTwice ++ [.node strongDependencies]

theorem asked_twice_iff :
    ({} : Thread).Refinds answeredTwice strongEvidence ∧
      ((∀ before action after, answeredTwice = before ++ action :: after →
          (({} : Thread).run before).grounds action = true →
          ({} : Thread).retrievals before ≠ 0 →
            SameVerdict {} strongEvidence before action) ↔
        ∀ before action after, answeredTwice = before ++ action :: after →
          (({} : Thread).run before).grounds action = true →
          ({} : Thread).retrievals before ≠ 0 → Unrivalled {} strongEvidence before) := by
  have h : ({} : Thread).Refinds answeredTwice strongEvidence := by
    unfold Thread.Refinds
    decide +kernel
  exact ⟨h, repeated_evidence_iff h⟩

/-- Confident on the article the first time, and not the second. -/
theorem second_answer_unconfident :
    ({} : Thread).Refinds answeredTwice strongEvidence ∧
      (({} : Thread).run askedTwice).grounds (.node strongDependencies) = true ∧
      ({} : Thread).retrievals askedTwice = 2 ∧
      ¬ SameVerdict {} strongEvidence askedTwice (.node strongDependencies) := by
  refine ⟨?_, by decide +kernel, by decide +kernel, ?_⟩
  · unfold Thread.Refinds
    decide +kernel
  · unfold SameVerdict
    decide +kernel

end SampleRetrieval

end Synthia
