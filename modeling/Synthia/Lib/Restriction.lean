import Mathlib.Data.List.Basic
import Synthia.Lib.Table

/-!
# A part of a table

The rows of a table that satisfy a predicate are a table. Where the rows a statement
selects all satisfy it, and what the statement writes satisfies it as the old row did,
the statement does to that part exactly what it does to the whole: reads find the same
rows, row counts are the same, and cutting the table down before or after an update
comes to one thing. Where none of them does, the part is left alone.

A unique key is the exception. Whether a value is free depends on every row, so an
insert into the part and one into the whole agree only where no row outside it has
the value.
-/

namespace Relational

variable {ρ κ : Type*} {key : ρ → κ}

theorem Table.eq_of_rows {left right : Table ρ key} (h : left.rows = right.rows) :
    left = right := by
  cases left
  cases right
  cases h
  rfl

def Table.restrict (table : Table ρ key) (keep : ρ → Bool) : Table ρ key where
  rows := table.rows.filter keep
  unique := (List.filter_sublist.map key).nodup table.unique

/-- Every row a predicate selects is kept. -/
def Within (pred keep : ρ → Bool) : Prop := ∀ row, pred row = true → keep row = true

section Reads

variable {pred keep : ρ → Bool} {rows : List ρ}

theorem filter_filter_within (h : Within pred keep) :
    (rows.filter keep).filter pred = rows.filter pred := by
  rw [List.filter_filter]
  apply List.filter_congr
  intro row _
  cases hpred : pred row with
  | false => rfl
  | true => rw [h row hpred]; rfl

theorem find?_filter_within (h : Within pred keep) :
    (rows.filter keep).find? pred = rows.find? pred := by
  rw [← List.head?_filter, ← List.head?_filter, filter_filter_within h]

theorem rowsAffected_within (h : Within pred keep) :
    rowsAffected pred (rows.filter keep) = rowsAffected pred rows := by
  unfold rowsAffected
  rw [List.countP_eq_length_filter, List.countP_eq_length_filter, filter_filter_within h]

end Reads

/-! ## Updates -/

section Updates

variable {table : Table ρ key} {pred keep : ρ → Bool} {change : Change key}

theorem filter_updateRows {change : ρ → ρ} {rows : List ρ}
    (hkeep : ∀ row, keep (change row) = keep row) :
    (updateRows pred change rows).filter keep = updateRows pred change (rows.filter keep) := by
  unfold updateRows
  rw [List.filter_map]
  congr 1
  apply List.filter_congr
  intro row _
  rw [Function.comp_apply]
  split
  · exact hkeep row
  · rfl

theorem Table.restrict_update (hkeep : ∀ row, keep (change.apply row) = keep row) :
    (table.update pred change).restrict keep = (table.restrict keep).update pred change :=
  Table.eq_of_rows (filter_updateRows hkeep)

theorem Table.restrict_update_outside (hkeep : ∀ row, keep (change.apply row) = keep row)
    (h : ∀ row ∈ table.rows, pred row = true → keep row = false) :
    (table.update pred change).restrict keep = table.restrict keep := by
  rw [Table.restrict_update hkeep]
  apply Table.update_none
  intro row hrow
  rw [← Bool.not_eq_true]
  intro hpred
  have hkept : keep row = true := (List.mem_filter.mp hrow).2
  rw [h row (List.mem_filter.mp hrow).1 hpred] at hkept
  cases hkept

theorem Table.restrict_delete :
    (table.delete pred).restrict keep = (table.restrict keep).delete pred := by
  apply Table.eq_of_rows
  show (table.rows.filter _).filter keep = (table.rows.filter keep).filter _
  rw [List.filter_filter, List.filter_filter]
  apply List.filter_congr
  intro row _
  exact Bool.and_comm _ _

theorem Table.restrict_delete_outside
    (h : ∀ row ∈ table.rows, pred row = true → keep row = false) :
    (table.delete pred).restrict keep = table.restrict keep := by
  apply Table.eq_of_rows
  show (table.rows.filter _).filter keep = table.rows.filter keep
  rw [List.filter_filter]
  apply List.filter_congr
  intro row hrow
  cases hpred : pred row with
  | false => rw [Bool.not_false, Bool.and_true]
  | true => rw [h row hrow hpred, Bool.false_and]

end Updates

/-! ## Inserts -/

section Inserts

variable {table : Table ρ key} {keep : ρ → Bool} {row : ρ}

theorem Table.restrict_insert (keep : ρ → Bool) (hkeep : keep row = true)
    (hfresh : key row ∉ table.rows.map key)
    (hrestricted : key row ∉ (table.restrict keep).rows.map key) :
    (table.insert row hfresh).restrict keep = (table.restrict keep).insert row hrestricted := by
  apply Table.eq_of_rows
  show (table.rows ++ [row]).filter keep = table.rows.filter keep ++ [row]
  rw [List.filter_append, List.filter_cons_of_pos hkeep, List.filter_nil]

theorem Table.restrict_insert_outside (keep : ρ → Bool) (hkeep : keep row = false)
    (hfresh : key row ∉ table.rows.map key) :
    (table.insert row hfresh).restrict keep = table.restrict keep := by
  apply Table.eq_of_rows
  show (table.rows ++ [row]).filter keep = table.rows.filter keep
  rw [List.filter_append, List.filter_cons_of_neg (by rw [hkeep]; decide), List.filter_nil,
    List.append_nil]

/-- A value no row outside the part has is in the part or in no row at all. -/
theorem mem_map_filter {column : ρ → κ} {rows : List ρ} {value : κ}
    (hfree : value ∉ (rows.filter fun row => !keep row).map column) :
    value ∈ (rows.filter keep).map column ↔ value ∈ rows.map column := by
  constructor
  · intro hmem
    obtain ⟨row, hrow, hvalue⟩ := List.mem_map.mp hmem
    exact List.mem_map.mpr ⟨row, (List.mem_filter.mp hrow).1, hvalue⟩
  · intro hmem
    obtain ⟨row, hrow, hvalue⟩ := List.mem_map.mp hmem
    cases hkept : keep row with
    | true => exact List.mem_map.mpr ⟨row, List.mem_filter.mpr ⟨hrow, hkept⟩, hvalue⟩
    | false =>
        have hout : row ∈ rows.filter fun row => !keep row :=
          List.mem_filter.mpr ⟨hrow, by rw [hkept]; rfl⟩
        exact absurd (List.mem_map.mpr ⟨row, hout, hvalue⟩) hfree

/-- An insert that is refused where its key is taken, into the part and into the whole. -/
theorem Table.insert_unless_taken [DecidableEq κ] {ι : Type*} (table : Table ρ key)
    (keep : ρ → Bool) (row : ρ) (hkeep : keep row = true)
    (hfree : key row ∉ (table.rows.filter fun row => !keep row).map key) (refused : ι)
    (done : Table ρ key → ι) :
    (if h : key row ∈ (table.restrict keep).rows.map key then refused
      else done ((table.restrict keep).insert row h)) =
      if h : key row ∈ table.rows.map key then refused
      else done ((table.insert row h).restrict keep) := by
  by_cases htaken : key row ∈ table.rows.map key
  · have hown : key row ∈ (table.restrict keep).rows.map key :=
      (mem_map_filter hfree).mpr htaken
    rw [dif_pos htaken, dif_pos hown]
  · have hown : key row ∉ (table.restrict keep).rows.map key :=
      mt (mem_map_filter hfree).mp htaken
    rw [dif_neg htaken, dif_neg hown, Table.restrict_insert keep hkeep htaken hown]

end Inserts

end Relational

/-!
## Unwinding

Noninterference speaks of two runs; what is proved about a program speaks of one
step. Unwinding is the rule between them. A step has three duties: from states that
agree it gives the same output, and it leaves them agreeing; and it leaves alone what
it may not touch. A run of such steps then has the same three properties.

A step may have to be admitted to keep its duties. What admits it must be a matter of
the part that no step touches, so that a run is admitted by the state it starts in.
-/

namespace Noninterference

variable {σ α ω : Type*}

/-- The outputs of a list of actions, and the state after them. -/
def run (step : σ → α → ω × σ) : σ → List α → List ω × σ
  | state, [] => ([], state)
  | state, action :: actions =>
      let rest := run step (step state action).2 actions
      ((step state action).1 :: rest.1, rest.2)

/-- The duties of one step. -/
structure Unwinding (step : σ → α → ω × σ) (Agree Spares : σ → σ → Prop)
    (Admits : σ → α → Prop) : Prop where
  output : ∀ {left right action}, Agree left right → Admits left action →
    Admits right action → (step left action).1 = (step right action).1
  agree : ∀ {left right action}, Agree left right → Admits left action →
    Admits right action → Agree (step left action).2 (step right action).2
  spares : ∀ {state action}, Admits state action → Spares state (step state action).2
  refl : ∀ state, Spares state state
  trans : ∀ {first second third}, Spares first second → Spares second third →
    Spares first third
  admits : ∀ {before after action}, Spares before after → Admits before action →
    Admits after action

variable {step : σ → α → ω × σ} {Agree Spares : σ → σ → Prop} {Admits : σ → α → Prop}
  {state left right : σ} {actions : List α}

theorem admits_rest {action : α} (h : Unwinding step Agree Spares Admits)
    (hadmits : ∀ a ∈ action :: actions, Admits state a) :
    Admits state action ∧ ∀ a ∈ actions, Admits (step state action).2 a := by
  have haction := hadmits action List.mem_cons_self
  refine ⟨haction, ?_⟩
  intro a ha
  exact h.admits (h.spares haction) (hadmits a (List.mem_cons_of_mem _ ha))

theorem run_spares (h : Unwinding step Agree Spares Admits)
    (hadmits : ∀ a ∈ actions, Admits state a) : Spares state (run step state actions).2 := by
  induction actions generalizing state with
  | nil => exact h.refl state
  | cons action actions ih =>
      obtain ⟨haction, hrest⟩ := admits_rest h hadmits
      exact h.trans (h.spares haction) (ih hrest)

theorem run_agree (h : Unwinding step Agree Spares Admits) (hagree : Agree left right)
    (hleft : ∀ a ∈ actions, Admits left a) (hright : ∀ a ∈ actions, Admits right a) :
    (run step left actions).1 = (run step right actions).1 ∧
      Agree (run step left actions).2 (run step right actions).2 := by
  induction actions generalizing left right with
  | nil => exact ⟨rfl, hagree⟩
  | cons action actions ih =>
      obtain ⟨hactionLeft, hrestLeft⟩ := admits_rest h hleft
      obtain ⟨hactionRight, hrestRight⟩ := admits_rest h hright
      obtain ⟨houtputs, hstates⟩ :=
        ih (h.agree hagree hactionLeft hactionRight) hrestLeft hrestRight
      refine ⟨?_, hstates⟩
      show (step left action).1 :: _ = (step right action).1 :: _
      rw [h.output hagree hactionLeft hactionRight, houtputs]

end Noninterference
