import Mathlib.Data.List.Basic

/-!
# Bounded retry

An attempt is made, and another while the answer asks for one and attempts are left.
Against a far side that answers attempt by attempt, how many are made is how many answers
in a row ask for another, up to the bound.
-/

namespace Retry

variable {β : Type*} (again : β → Bool) (behaves : Nat → β)

/-- The answers of the attempts made: at most `left`, from the numbered one on. -/
def answers : Nat → Nat → List β
  | 0, _ => []
  | left + 1, attempt =>
      behaves attempt ::
        if again (behaves attempt) then answers left (attempt + 1) else []

theorem answers_ne_nil {left : Nat} (h : 1 ≤ left) (attempt : Nat) :
    answers again behaves left attempt ≠ [] := by
  cases left with
  | zero => omega
  | succ left => simp [answers]

/-- Every answer but the last asked for another attempt. -/
theorem again_or_eq_getLast {left : Nat} (h : 1 ≤ left) {attempt : Nat} {value : β}
    (hvalue : value ∈ answers again behaves left attempt) :
    again value = true ∨
      value = (answers again behaves left attempt).getLast
        (answers_ne_nil again behaves h attempt) := by
  induction left generalizing attempt with
  | zero => omega
  | succ left ih =>
      simp only [answers] at hvalue ⊢
      by_cases hagain : again (behaves attempt) = true
      · simp only [hagain, if_true] at hvalue ⊢
        rcases List.mem_cons.mp hvalue with rfl | hlater
        · exact .inl hagain
        · cases left with
          | zero => cases hlater
          | succ left =>
              rw [List.getLast_cons (answers_ne_nil again behaves (by omega) _)]
              exact ih (by omega) hlater
      · simp only [hagain, Bool.false_eq_true, if_false] at hvalue ⊢
        exact .inr (List.mem_singleton.mp hvalue)

/-- Answers that stand for others. -/
theorem answers_map {γ : Type*} (again : γ → Bool) (f : β → γ) (left attempt : Nat) :
    answers again (fun number => f (behaves number)) left attempt =
      (answers (fun value => again (f value)) behaves left attempt).map f := by
  induction left generalizing attempt with
  | zero => rfl
  | succ left ih =>
      rw [answers, answers, ih, List.map_cons]
      split <;> rfl

/-- The attempts made are the first ones. -/
theorem answers_eq_map_range' (left attempt : Nat) :
    answers again behaves left attempt =
      (List.range' attempt (answers again behaves left attempt).length).map behaves := by
  induction left generalizing attempt with
  | zero => rfl
  | succ left ih =>
      rw [answers]
      split
      · rw [List.length_cons, List.range'_succ, List.map_cons, ← ih]
      · rfl

/-- One attempt is all there is exactly if no other is left, or the first answer asks for
none. -/
theorem answers_length_le_one_iff (left attempt : Nat) :
    (answers again behaves left attempt).length ≤ 1 ↔
      left ≤ 1 ∨ again (behaves attempt) = false := by
  cases left with
  | zero => simp [answers]
  | succ left =>
      cases hagain : again (behaves attempt) with
      | false => simp [answers, hagain]
      | true =>
          cases left with
          | zero => simp [answers, hagain]
          | succ left => simp [answers, hagain]

end Retry
