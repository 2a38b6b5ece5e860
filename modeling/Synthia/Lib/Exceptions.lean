import Mathlib.Data.List.Forall2
import Mathlib.Tactic.TypeStar

/-!
# Which exceptions leave a function

A function that catches some exceptions and raises one of its own instead: what leaves it
is its own error, or an exception that went past the handler. It is contained where
nothing goes past. That is settled a step at a time: a sequence is contained exactly if
its first step is, and what follows is on every value the first can give.
-/

namespace Exceptions

/-- What leaves a function: its own error for `cause`, or an exception it did not catch. -/
inductive Leaves (ε ρ : Type*) where
  | own (cause : ρ)
  | escaped (raised : ε)
  deriving DecidableEq

universe u

variable {ε ρ : Type*} {α β : Type u}

/-- `try: body except caught: raise own`. -/
def guarded (caught : ε → Option ρ) : Except ε α → Except (Leaves ε ρ) α
  | .ok value => .ok value
  | .error raised =>
      match caught raised with
      | some cause => .error (.own cause)
      | none => .error (.escaped raised)

/-- A step outside any handler. -/
def unguarded : Except ε α → Except (Leaves ε ρ) α
  | .ok value => .ok value
  | .error raised => .error (.escaped raised)

/-- It returns, or raises its own error. -/
def Contained (left : Except (Leaves ε ρ) α) : Prop :=
  ∀ raised, left ≠ .error (.escaped raised)

@[simp] theorem contained_ok (value : α) :
    Contained (.ok value : Except (Leaves ε ρ) α) := by
  intro raised h
  cases h

@[simp] theorem contained_own (cause : ρ) :
    Contained (.error (.own cause) : Except (Leaves ε ρ) α) := by
  intro raised h
  cases h

@[simp] theorem not_contained_escaped (raised : ε) :
    ¬ Contained (.error (.escaped raised) : Except (Leaves ε ρ) α) := fun h => h raised rfl

theorem bind_eq_ok {first : Except ε α} {next : α → Except ε β} {result : β} :
    (first >>= next) = .ok result ↔ ∃ value, first = .ok value ∧ next value = .ok result := by
  cases first with
  | ok value =>
      constructor
      · intro h
        exact ⟨value, rfl, h⟩
      · rintro ⟨_, ⟨⟩, h⟩
        exact h
  | error raised =>
      refine iff_of_false (fun h => nomatch h) ?_
      rintro ⟨_, ⟨⟩, _⟩

theorem toOption_eq_some {body : Except ε α} {value : α} :
    body.toOption = some value ↔ body = .ok value := by
  cases body with
  | ok other => exact ⟨fun h => congrArg Except.ok (Option.some.inj h), fun h =>
      congrArg some (Except.ok.inj h)⟩
  | error raised => exact iff_of_false (fun h => nomatch h) fun h => nomatch h

/-- **Containment is sequential.** -/
theorem contained_bind {first : Except (Leaves ε ρ) α} {next : α → Except (Leaves ε ρ) β} :
    Contained (first >>= next) ↔
      Contained first ∧ ∀ value, first = .ok value → Contained (next value) := by
  cases first with
  | ok value =>
      constructor
      · intro h
        refine ⟨contained_ok value, ?_⟩
        rintro _ ⟨⟩
        exact h
      · intro h
        exact h.2 value rfl
  | error left =>
      cases left with
      | own cause =>
          refine iff_of_true (contained_own cause) ⟨contained_own cause, ?_⟩
          rintro _ ⟨⟩
      | escaped raised =>
          exact iff_of_false (not_contained_escaped raised) fun h =>
            not_contained_escaped raised h.1

theorem contained_guarded {caught : ε → Option ρ} {body : Except ε α} :
    Contained (guarded caught body) ↔
      ∀ raised, body = .error raised → (caught raised).isSome = true := by
  cases body with
  | ok value =>
      refine iff_of_true (contained_ok value) ?_
      rintro _ ⟨⟩
  | error raised =>
      cases hcaught : caught raised with
      | some cause =>
          have hleft : guarded caught (.error raised : Except ε α) = .error (.own cause) := by
            simp only [guarded, hcaught]
          rw [hleft]
          refine iff_of_true (contained_own cause) ?_
          rintro _ ⟨⟩
          rw [hcaught]
          rfl
      | none =>
          have hleft : guarded caught (.error raised : Except ε α) =
              .error (.escaped raised) := by
            simp only [guarded, hcaught]
          rw [hleft]
          refine iff_of_false (not_contained_escaped raised) ?_
          intro h
          have hsome := h raised rfl
          rw [hcaught] at hsome
          cases hsome

theorem contained_unguarded {body : Except ε α} :
    Contained (unguarded body : Except (Leaves ε ρ) α) ↔ ∃ value, body = .ok value := by
  cases body with
  | ok value => exact iff_of_true (contained_ok value) ⟨value, rfl⟩
  | error raised =>
      refine iff_of_false (not_contained_escaped raised) ?_
      rintro ⟨_, ⟨⟩⟩

theorem guarded_eq_ok {caught : ε → Option ρ} {body : Except ε α} {value : α} :
    guarded caught body = .ok value ↔ body = .ok value := by
  cases body with
  | ok other =>
      constructor
      · intro h
        injection h with h
        rw [h]
      · intro h
        injection h with h
        rw [h]
        rfl
  | error raised =>
      refine iff_of_false ?_ fun h => nomatch h
      intro h
      simp only [guarded] at h
      split at h <;> cases h

theorem unguarded_eq_ok {body : Except ε α} {value : α} :
    (unguarded body : Except (Leaves ε ρ) α) = .ok value ↔ body = .ok value := by
  cases body with
  | ok other =>
      constructor
      · intro h
        injection h with h
        rw [h]
      · intro h
        injection h with h
        rw [h]
        rfl
  | error raised => exact iff_of_false (fun h => nomatch h) fun h => nomatch h

/-- Errors translated into what leaves, a step at a time. -/
theorem contained_mapError {δ : Type*} {leaves : δ → Leaves ε ρ} {body : Except δ α} :
    Contained (body.mapError leaves) ↔
      ∀ error, body = .error error → ∃ cause, leaves error = .own cause := by
  cases body with
  | ok value =>
      refine iff_of_true (contained_ok value) ?_
      rintro _ ⟨⟩
  | error error =>
      constructor
      · rintro h _ ⟨⟩
        cases hleaves : leaves error with
        | own cause => exact ⟨cause, rfl⟩
        | escaped raised => exact absurd (congrArg Except.error hleaves) (h raised)
      · intro h raised hraised
        obtain ⟨cause, hcause⟩ := h error rfl
        injection hraised with hraised
        rw [hcause] at hraised
        cases hraised

theorem mapError_eq_ok {δ ι : Type*} {leaves : δ → ι} {body : Except δ α} {value : α} :
    body.mapError leaves = .ok value ↔ body = .ok value := by
  cases body with
  | ok other =>
      constructor
      · intro h
        injection h with h
        rw [h]
      · intro h
        injection h with h
        rw [h]
        rfl
  | error error => exact iff_of_false (fun h => nomatch h) fun h => nomatch h

theorem map_eq_ok {first : Except ε α} {f : α → β} {result : β} :
    first.map f = .ok result ↔ ∃ value, first = .ok value ∧ f value = result := by
  cases first with
  | ok value =>
      constructor
      · intro h
        injection h with h
        exact ⟨value, rfl, h⟩
      · rintro ⟨other, hother, h⟩
        injection hother with hother
        rw [← h, ← hother]
        rfl
  | error raised =>
      constructor
      · intro h
        cases h
      · rintro ⟨other, hother, _⟩
        cases hother

/-- A list gone through without an exception, element by element. -/
theorem mapM_eq_ok {f : α → Except ε β} {values : List α} {results : List β}
    (h : values.mapM f = .ok results) :
    List.Forall₂ (fun value result => f value = .ok result) values results := by
  induction values generalizing results with
  | nil =>
      injection h with h
      rw [← h]
      exact .nil
  | cons value values ih =>
      rw [List.mapM_cons] at h
      obtain ⟨result, hresult, h⟩ := bind_eq_ok.mp h
      obtain ⟨others, hothers, h⟩ := bind_eq_ok.mp h
      injection h with h
      rw [← h]
      exact .cons hresult (ih hothers)

/-- What came of a list came of one of its elements. -/
theorem exists_of_mem_mapM {f : α → Except ε β} {values : List α} {results : List β}
    (h : values.mapM f = .ok results) {result : β} (hresult : result ∈ results) :
    ∃ value ∈ values, f value = .ok result := by
  have hall := mapM_eq_ok h
  clear h
  induction hall with
  | nil => cases hresult
  | @cons value _ values _ hfirst _ ih =>
      rcases List.mem_cons.mp hresult with rfl | hlater
      · exact ⟨value, List.mem_cons_self, hfirst⟩
      · obtain ⟨other, hother, hothers⟩ := ih hlater
        exact ⟨other, List.mem_cons_of_mem _ hother, hothers⟩

/-- A list gone through by a function that never raises. -/
theorem mapM_eq_map {f : α → Except ε β} {g : α → β} {values : List α}
    (h : ∀ value ∈ values, f value = .ok (g value)) : values.mapM f = .ok (values.map g) := by
  induction values with
  | nil => rfl
  | cons value values ih =>
      rw [List.mapM_cons, h value List.mem_cons_self,
        ih fun other hother => h other (List.mem_cons_of_mem value hother)]
      rfl

theorem mapM_isOk {f : α → Except ε β} {values : List α} :
    (∃ results, values.mapM f = .ok results) ↔
      ∀ value ∈ values, ∃ result, f value = .ok result := by
  constructor
  · rintro ⟨results, h⟩ value hvalue
    have hall := mapM_eq_ok h
    clear h
    induction hall with
    | nil => cases hvalue
    | @cons head result values results hhead _ ih =>
        rcases List.mem_cons.mp hvalue with rfl | hvalue
        · exact ⟨result, hhead⟩
        · exact ih hvalue
  · intro h
    induction values with
    | nil => exact ⟨[], rfl⟩
    | cons value values ih =>
        obtain ⟨result, hresult⟩ := h value List.mem_cons_self
        obtain ⟨results, hresults⟩ := ih fun other hother =>
          h other (List.mem_cons_of_mem value hother)
        refine ⟨result :: results, ?_⟩
        rw [List.mapM_cons, hresult, hresults]
        rfl

/-- A table of what a function comes to, looked into. -/
theorem mapM_lookup [DecidableEq α] {f : α → Except ε β} {keys : List α}
    {table : List (α × β)} (h : keys.mapM (fun key => (f key).map (key, ·)) = .ok table)
    {key : α} (hkey : key ∈ keys) : ∃ value, f key = .ok value ∧ table.lookup key = some value := by
  have hall := mapM_eq_ok h
  clear h
  induction hall with
  | nil => cases hkey
  | @cons head entry keys table hhead _ ih =>
      obtain ⟨value, hvalue, rfl⟩ := map_eq_ok.mp hhead
      by_cases hsame : key = head
      · rw [hsame]
        exact ⟨value, hvalue, List.lookup_cons_self⟩
      · obtain ⟨other, hother, hlookup⟩ := ih ((List.mem_cons.mp hkey).resolve_left hsame)
        refine ⟨other, hother, ?_⟩
        rw [List.lookup_cons, beq_eq_false_iff_ne.mpr hsame]
        exact hlookup

end Exceptions
