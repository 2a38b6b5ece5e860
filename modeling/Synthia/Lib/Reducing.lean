import Synthia.Lib.Exceptions

/-!
# A state that refuses some of the updates it is offered

An update is applied or refused, and a refused one leaves the state as it was. What
stands after a history of offers is then read off the updates that were applied, the
`accepted` ones: a part that every applied update overwrites holds the last value
written to it, a part that only an empty slot takes holds the first, and an order that
every applied update climbs is climbed by the history.
-/

namespace Reducing

variable {σ υ ε α : Type} (apply : σ → υ → Except ε σ)

/-- The state after an update was offered to it. -/
def receive (state : σ) (update : υ) : σ :=
  match apply state update with
  | .ok after => after
  | .error _ => state

def receiveAll (state : σ) (updates : List υ) : σ := updates.foldl (receive apply) state

/-- The updates of a history that were applied, in their order. -/
def accepted : σ → List υ → List υ
  | _, [] => []
  | state, update :: updates =>
      match apply state update with
      | .ok after => update :: accepted after updates
      | .error _ => accepted state updates

variable {apply}

theorem receive_ok {state after : σ} {update : υ} (h : apply state update = .ok after) :
    receive apply state update = after := by
  rw [receive, h]

theorem receive_error {state : σ} {update : υ} {error : ε}
    (h : apply state update = .error error) : receive apply state update = state := by
  rw [receive, h]

theorem receiveAll_append (state : σ) (before after : List υ) :
    receiveAll apply state (before ++ after) =
      receiveAll apply (receiveAll apply state before) after :=
  List.foldl_append

/-- An order that no applied update descends is not descended by a history. -/
theorem le_receiveAll {le : σ → σ → Prop} (hrefl : ∀ state, le state state)
    (htrans : ∀ first second third, le first second → le second third → le first third)
    (hstep : ∀ state update after, apply state update = .ok after → le state after)
    (state : σ) (updates : List υ) : le state (receiveAll apply state updates) := by
  induction updates generalizing state with
  | nil => exact hrefl state
  | cons update updates ih =>
      refine htrans _ _ _ ?_ (ih (receive apply state update))
      cases h : apply state update with
      | error error =>
          rw [receive_error h]
          exact hrefl state
      | ok after =>
          rw [receive_ok h]
          exact hstep state update after h

variable {get : σ → Option α} {write : υ → Option α}

/-- A part that every applied update overwrites holds what the last of them wrote. -/
theorem get_receiveAll_last
    (hstep : ∀ state update after, apply state update = .ok after →
      get after = (write update).or (get state))
    (state : σ) (updates : List υ) :
    get (receiveAll apply state updates) =
      ((accepted apply state updates).filterMap write).getLast?.or (get state) := by
  induction updates generalizing state with
  | nil => rfl
  | cons update updates ih =>
      have hrest := ih (receive apply state update)
      rw [receiveAll, List.foldl_cons]
      rw [receiveAll] at hrest
      rw [hrest, accepted]
      cases h : apply state update with
      | error error => rw [receive_error h]
      | ok after =>
          rw [receive_ok h, hstep state update after h]
          cases hwrite : write update with
          | none => simp [hwrite]
          | some value =>
              cases hlast : ((accepted apply after updates).filterMap write).getLast? with
              | none => simp [hwrite, List.getLast?_cons, hlast]
              | some last => simp [hwrite, List.getLast?_cons, hlast]

/-- A part that only an empty slot takes holds what the first applied update wrote. -/
theorem get_receiveAll_first
    (hstep : ∀ state update after, apply state update = .ok after →
      get after = (get state).or (write update))
    (state : σ) (updates : List υ) :
    get (receiveAll apply state updates) =
      (get state).or ((accepted apply state updates).filterMap write).head? := by
  induction updates generalizing state with
  | nil => exact Option.or_none.symm
  | cons update updates ih =>
      have hrest := ih (receive apply state update)
      rw [receiveAll, List.foldl_cons]
      rw [receiveAll] at hrest
      rw [hrest, accepted]
      cases h : apply state update with
      | error error => rw [receive_error h]
      | ok after =>
          rw [receive_ok h, hstep state update after h, Option.or_assoc]
          cases hwrite : write update with
          | none => simp [hwrite]
          | some value => simp [hwrite]

end Reducing
