import Mathlib.Algebra.GroupWithZero.Nat
import Mathlib.Data.List.Basic

/-!
# Runs of a partial step function

A machine is a step function that refuses the actions a state does not allow;
a run is a list of actions none of which was refused. Two rules carry
everything proved about runs here.

An invariant of the step is an invariant of the run. And where every step pays
for what it gains out of a potential, the run as a whole gains no more than it
started with and was given: the rule from which a bound on how often something
can happen is read.
-/

namespace Machine

variable {σ α : Type*}

def run (step : σ → α → Option σ) : σ → List α → Option σ
  | state, [] => some state
  | state, action :: actions => (step state action).bind fun next => run step next actions

/-- Every action of the run was taken in a state where `Good` allowed it. -/
def Along (step : σ → α → Option σ) (Good : σ → α → Prop) : σ → List α → Prop
  | _, [] => True
  | state, action :: actions =>
      Good state action ∧
        match step state action with
        | some next => Along step Good next actions
        | none => True

instance decidableAlong (step : σ → α → Option σ) (Good : σ → α → Prop)
    [∀ state action, Decidable (Good state action)] :
    ∀ state actions, Decidable (Along step Good state actions)
  | _, [] => isTrue trivial
  | state, action :: actions =>
      match hnext : step state action with
      | some next =>
          have := decidableAlong step Good next actions
          decidable_of_iff (Good state action ∧ Along step Good next actions)
            (by simp only [Along, hnext])
      | none =>
          decidable_of_iff (Good state action) (by simp only [Along, hnext, and_true])

variable {step : σ → α → Option σ}

theorem run_cons {state last : σ} {action : α} {actions : List α} :
    run step state (action :: actions) = some last ↔
      ∃ next, step state action = some next ∧ run step next actions = some last :=
  Option.bind_eq_some_iff

theorem along_cons {Good : σ → α → Prop} {state next : σ} {action : α} {actions : List α}
    (h : Along step Good state (action :: actions)) (hnext : step state action = some next) :
    Good state action ∧ Along step Good next actions := by
  rw [Along, hnext] at h
  exact h

theorem run_append {state last : σ} {before after : List α} :
    run step state (before ++ after) = some last ↔
      ∃ middle, run step state before = some middle ∧
        run step middle after = some last := by
  induction before generalizing state with
  | nil => simp [run]
  | cons action before ih =>
      rw [List.cons_append, run_cons]
      constructor
      · intro h
        obtain ⟨next, hnext, hrest⟩ := h
        obtain ⟨middle, hmiddle, hlast⟩ := ih.mp hrest
        exact ⟨middle, run_cons.mpr ⟨next, hnext, hmiddle⟩, hlast⟩
      · intro h
        obtain ⟨middle, hmiddle, hlast⟩ := h
        obtain ⟨next, hnext, hrest⟩ := run_cons.mp hmiddle
        exact ⟨next, hnext, ih.mpr ⟨middle, hrest, hlast⟩⟩

theorem along_at {Good : σ → α → Prop} {state middle : σ} {before after : List α}
    {action : α} (h : Along step Good state (before ++ action :: after))
    (hrun : run step state before = some middle) : Good middle action := by
  induction before generalizing state with
  | nil =>
      rw [run, Option.some.injEq] at hrun
      rw [← hrun]
      exact h.1
  | cons first before ih =>
      obtain ⟨next, hnext, hrest⟩ := run_cons.mp hrun
      exact ih (along_cons h hnext).2 hrest

theorem along_before {Good : σ → α → Prop} {state : σ} {before after : List α}
    (h : Along step Good state (before ++ after)) : Along step Good state before := by
  induction before generalizing state with
  | nil => trivial
  | cons action before ih =>
      refine ⟨h.1, ?_⟩
      cases hnext : step state action with
      | none => trivial
      | some next => exact ih (along_cons h hnext).2

theorem along_after {Good : σ → α → Prop} {state middle : σ} {before after : List α}
    (h : Along step Good state (before ++ after))
    (hrun : run step state before = some middle) : Along step Good middle after := by
  induction before generalizing state with
  | nil =>
      rw [run, Option.some.injEq] at hrun
      rw [← hrun]
      exact h
  | cons first before ih =>
      obtain ⟨next, hnext, hrest⟩ := run_cons.mp hrun
      exact ih (along_cons h hnext).2 hrest

/-- What good steps keep, a good run keeps. -/
theorem invariant_along {Inv : σ → Prop} {Good : σ → α → Prop}
    (hstep : ∀ state action next, Inv state → Good state action →
      step state action = some next → Inv next)
    {state last : σ} {actions : List α} (hinv : Inv state)
    (hrun : run step state actions = some last) (hgood : Along step Good state actions) :
    Inv last := by
  induction actions generalizing state with
  | nil =>
      rw [run, Option.some.injEq] at hrun
      rw [← hrun]
      exact hinv
  | cons action actions ih =>
      obtain ⟨next, hnext, hrest⟩ := run_cons.mp hrun
      obtain ⟨hnow, hlater⟩ := along_cons hgood hnext
      exact ih (hstep state action next hinv hnow hnext) hrest hlater

theorem along_of_forall {Good : σ → α → Prop} {state : σ} {actions : List α}
    (h : ∀ before action after middle, actions = before ++ action :: after →
      run step state before = some middle → Good middle action) :
    Along step Good state actions := by
  induction actions generalizing state with
  | nil => trivial
  | cons action actions ih =>
      refine ⟨h [] action actions state rfl rfl, ?_⟩
      cases hnext : step state action with
      | none => trivial
      | some next =>
          apply ih
          intro before later after middle hsplit hrun
          refine h (action :: before) later after middle (by rw [hsplit]; rfl) ?_
          rw [run_cons]
          exact ⟨next, hnext, hrun⟩

/-- Two properties of a step that agree wherever `Held` holds, which the second of them
keeps, hold along the same runs. -/
theorem along_iff {Held : σ → Prop} {P Q : σ → α → Prop}
    (hiff : ∀ state action, Held state → (P state action ↔ Q state action))
    (hkept : ∀ state action next, Held state → Q state action →
      step state action = some next → Held next)
    {state : σ} (hheld : Held state) (actions : List α) :
    Along step P state actions ↔ Along step Q state actions := by
  induction actions generalizing state with
  | nil => exact Iff.rfl
  | cons action actions ih =>
      cases hnext : step state action with
      | none =>
          rw [Along, Along, hnext]
          exact and_congr_left' (hiff state action hheld)
      | some next =>
          rw [Along, Along, hnext]
          rw [hiff state action hheld]
          exact and_congr_right fun hnow => ih (hkept state action next hheld hnow hnext)

theorem invariant_run {Inv : σ → Prop}
    (hstep : ∀ state action next, Inv state → step state action = some next → Inv next)
    {state last : σ} {actions : List α} (hinv : Inv state)
    (hrun : run step state actions = some last) : Inv last := by
  induction actions generalizing state with
  | nil =>
      rw [run, Option.some.injEq] at hrun
      rw [← hrun]
      exact hinv
  | cons action actions ih =>
      obtain ⟨next, hnext, hrest⟩ := run_cons.mp hrun
      exact ih (hstep state action next hinv hnext) hrest

/-- A reflexive and transitive relation that every step respects relates the
two ends of a run. -/
theorem relation_run (Inv : σ → Prop) {Rel : σ → σ → Prop}
    (hinv : ∀ state action next, Inv state → step state action = some next → Inv next)
    (hrefl : ∀ state, Rel state state)
    (htrans : ∀ a b c, Rel a b → Rel b c → Rel a c)
    (hstep : ∀ state action next, Inv state → step state action = some next →
      Rel state next)
    {state last : σ} {actions : List α} (hstate : Inv state)
    (hrun : run step state actions = some last) : Rel state last := by
  induction actions generalizing state with
  | nil =>
      rw [run, Option.some.injEq] at hrun
      rw [← hrun]
      exact hrefl state
  | cons action actions ih =>
      obtain ⟨next, hnext, hrest⟩ := run_cons.mp hrun
      exact htrans _ _ _ (hstep state action next hstate hnext)
        (ih (hinv state action next hstate hnext) hrest)

/-- Once an action of a kind has been taken, no other of the kind is. -/
theorem run_countP_le_one {closed : σ → Prop} {kind : α → Bool}
    (hcloses : ∀ state action next, kind action = true → step state action = some next →
      closed next)
    (hlasts : ∀ state action next, closed state → step state action = some next → closed next)
    (hrefuses : ∀ state action, closed state → kind action = true → step state action = none)
    {state last : σ} {actions : List α} (hrun : run step state actions = some last) :
    actions.countP kind ≤ 1 ∧ (closed state → actions.countP kind = 0) := by
  induction actions generalizing state with
  | nil => exact ⟨Nat.zero_le 1, fun _ => rfl⟩
  | cons action actions ih =>
      obtain ⟨next, hnext, hrest⟩ := run_cons.mp hrun
      obtain ⟨hone, hnone⟩ := ih hrest
      by_cases hkind : kind action = true
      · have hzero := hnone (hcloses state action next hkind hnext)
        rw [List.countP_cons_of_pos hkind, hzero]
        refine ⟨Nat.le_refl 1, ?_⟩
        intro hclosed
        rw [hrefuses state action hclosed hkind] at hnext
        cases hnext
      · rw [List.countP_cons_of_neg hkind]
        exact ⟨hone, fun hclosed => hnone (hlasts state action next hclosed hnext)⟩

/-- **The potential rule.** If each good step pays for its gain out of the
potential and what it is given, so does the run. -/
theorem potential_run {Good : σ → α → Prop} {potential : σ → Nat} {gain given : α → Nat}
    (hstep : ∀ state action next, Good state action → step state action = some next →
      potential next + gain action ≤ potential state + given action)
    {state last : σ} {actions : List α} (hgood : Along step Good state actions)
    (hrun : run step state actions = some last) :
    potential last + (actions.map gain).sum ≤
      potential state + (actions.map given).sum := by
  induction actions generalizing state with
  | nil =>
      rw [run, Option.some.injEq] at hrun
      rw [← hrun]
      exact Nat.le_refl _
  | cons action actions ih =>
      obtain ⟨next, hnext, hrest⟩ := run_cons.mp hrun
      obtain ⟨hnow, hlater⟩ := along_cons hgood hnext
      have hone := hstep state action next hnow hnext
      have hall := ih hlater hrest
      rw [List.map_cons, List.map_cons, List.sum_cons, List.sum_cons]
      omega

end Machine
