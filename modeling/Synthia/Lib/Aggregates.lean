import Mathlib.Algebra.Order.Field.Rat
import Mathlib.Tactic.Linarith
import Mathlib.Tactic.Positivity
import Mathlib.Tactic.FieldSimp
import Synthia.Lib.Table

/-!
# Joins, buckets and ratios

What a query that groups rows is built from. A left join keeps every row on its left,
beside each row on its right that matches or beside nothing. Rows fall into buckets by a
function of them; counted bucket by bucket over a list of distinct buckets, they are
counted once each where their bucket is listed and not at all where it is not.

Instants fall into windows of one width, each named by the instant it starts with. And a
ratio of two counts is unchanged when what is left of each has the proportion the whole
had.
-/

namespace Relational

variable {ρ ι κ : Type*}

/-! ## Joins -/

/-- `JOIN … ON`. -/
def innerJoin (on : ρ → ι → Bool) (left : List ρ) (right : List ι) : List (ρ × ι) :=
  left.flatMap fun row => (right.filter (on row)).map fun other => (row, other)

/-- What one row on the left contributes to a `LEFT JOIN`. -/
def matchesOrNull (on : ρ → ι → Bool) (right : List ι) (row : ρ) : List (Option ι) :=
  match right.filter (on row) with
  | [] => [none]
  | other :: others => (other :: others).map some

/-- `LEFT JOIN … ON`. -/
def leftJoin (on : ρ → ι → Bool) (left : List ρ) (right : List ι) : List (ρ × Option ι) :=
  left.flatMap fun row => (matchesOrNull on right row).map fun other => (row, other)

/-- Where every row has at most one match, a count over the join is a count of rows. -/
theorem countP_innerJoin {on : ρ → ι → Bool} {left : List ρ} {right : List ι}
    {pred : ρ × ι → Bool}
    (hone : ∀ row, right.filter (on row) = [] ∨ ∃ other, right.filter (on row) = [other]) :
    (innerJoin on left right).countP pred =
      left.countP fun row => (right.filter (on row)).any fun other => pred (row, other) := by
  induction left with
  | nil => rfl
  | cons row left ih =>
      rw [innerJoin, List.flatMap_cons, List.countP_append, List.countP_cons]
      rw [innerJoin] at ih
      rw [ih, Nat.add_comm]
      congr 1
      rcases hone row with hnone | ⟨other, hother⟩
      · rw [hnone]
        rfl
      · rw [hother]
        simp [List.countP_cons]

theorem length_matchesOrNull (on : ρ → ι → Bool) (right : List ι) (row : ρ) :
    (matchesOrNull on right row).length = max 1 (right.countP (on row)) := by
  unfold matchesOrNull
  rw [List.countP_eq_length_filter]
  cases right.filter (on row) with
  | nil => rfl
  | cons other others => simp

theorem matchesOrNull_of_countP_le {on : ρ → ι → Bool} {right : List ι} {row : ρ}
    (h : right.countP (on row) ≤ 1) : matchesOrNull on right row = [right.find? (on row)] := by
  unfold matchesOrNull
  rw [List.countP_eq_length_filter] at h
  rw [← List.head?_filter]
  cases hmatches : right.filter (on row) with
  | nil => rfl
  | cons other others =>
      rw [hmatches, List.length_cons] at h
      rw [List.eq_nil_of_length_eq_zero (by omega : others.length = 0)]
      rfl

/-- Where every row on the left has at most one match, a left join has its rows. -/
theorem leftJoin_eq_map {on : ρ → ι → Bool} {left : List ρ} {right : List ι}
    (h : ∀ row, right.countP (on row) ≤ 1) :
    leftJoin on left right = left.map fun row => (row, right.find? (on row)) := by
  unfold leftJoin
  rw [List.map_eq_flatMap]
  congr 1
  funext row
  rw [matchesOrNull_of_countP_le (h row), List.map_singleton]

/-- A left join of fewer rows with fewer is no longer. -/
theorem length_leftJoin_filter_le (on : ρ → ι → Bool) (left : List ρ) (right : List ι)
    (keep : ρ → Bool) (retain : ι → Bool) :
    (leftJoin on (left.filter keep) (right.filter retain)).length ≤
      (leftJoin on left right).length := by
  induction left with
  | nil => exact Nat.le_refl _
  | cons row left ih =>
      have hrow : (matchesOrNull on (right.filter retain) row).length ≤
          (matchesOrNull on right row).length := by
        rw [length_matchesOrNull, length_matchesOrNull]
        have := (List.filter_sublist (p := retain) (l := right)).countP_le (p := on row)
        omega
      unfold leftJoin at ih ⊢
      rw [List.flatMap_cons, List.length_append, List.length_map]
      cases hkeep : keep row with
      | true =>
          rw [List.filter_cons_of_pos hkeep, List.flatMap_cons, List.length_append,
            List.length_map]
          omega
      | false =>
          rw [List.filter_cons_of_neg (by rw [hkeep]; exact Bool.false_ne_true)]
          omega

/-- Where the rows on the left are told apart by a key that what they contribute carries,
what is contributed under one key is the contribution of one row. -/
theorem filter_flatMap_of_key [DecidableEq κ] {rows : List ρ} {key : ρ → κ} {keyOf : ι → κ}
    {contribute : ρ → List ι} (hunique : (rows.map key).Nodup)
    (hkey : ∀ row, ∀ item ∈ contribute row, keyOf item = key row) {row : ρ}
    (hrow : row ∈ rows) :
    (rows.flatMap contribute).filter (fun item => keyOf item == key row) = contribute row := by
  induction rows with
  | nil => exact absurd hrow List.not_mem_nil
  | cons first rows ih =>
      rw [List.map_cons, List.nodup_cons] at hunique
      rw [List.flatMap_cons, List.filter_append]
      rcases List.mem_cons.mp hrow with hfirst | hlater
      · rw [hfirst]
        have hall : (contribute first).filter (fun item => keyOf item == key first) =
            contribute first :=
          List.filter_eq_self.mpr fun item hitem => beq_iff_eq.mpr (hkey first item hitem)
        rw [hall, List.append_right_eq_self, List.filter_eq_nil_iff]
        intro item hitem hsame
        obtain ⟨other, hother, hcontributed⟩ := List.mem_flatMap.mp hitem
        have hclash : key other = key first :=
          (hkey other item hcontributed).symm.trans (beq_iff_eq.mp hsame)
        exact hunique.1 (List.mem_map.mpr ⟨other, hother, hclash⟩)
      · rw [ih hunique.2 hlater, List.append_left_eq_self, List.filter_eq_nil_iff]
        intro item hitem hsame
        have hclash : key row = key first :=
          (beq_iff_eq.mp hsame).symm.trans (hkey first item hitem)
        exact hunique.1 (List.mem_map.mpr ⟨row, hlater, hclash⟩)

/-- A count is unchanged by a filter exactly when the filter keeps all that is counted. -/
theorem countP_filter_eq_iff {rows : List ρ} {pred keep : ρ → Bool} :
    (rows.filter keep).countP pred = rows.countP pred ↔
      ∀ row ∈ rows, pred row = true → keep row = true := by
  rw [List.countP_filter]
  constructor
  · intro h row hrow hpred
    have hall : (rows.filter pred).countP keep = (rows.filter pred).length := by
      rw [List.countP_filter, ← List.countP_eq_length_filter, ← h]
      exact List.countP_congr fun row _ => by rw [Bool.and_comm]
    exact List.countP_eq_length.mp hall row (List.mem_filter.mpr ⟨hrow, hpred⟩)
  · intro h
    refine List.countP_congr fun row hrow => ?_
    rw [Bool.and_eq_true]
    exact and_iff_left_of_imp (h row hrow)

/-! ## Buckets -/

/-- Counted bucket by bucket, a row is counted once if its bucket is listed. -/
theorem sum_countP_bucket [DecidableEq κ] {buckets : List κ} (hbuckets : buckets.Nodup)
    (bucket : ρ → κ) (pred : ρ → Bool) (rows : List ρ) :
    (buckets.map fun b => rows.countP fun row => pred row && bucket row == b).sum =
      rows.countP fun row => pred row && decide (bucket row ∈ buckets) := by
  induction buckets with
  | nil => simp
  | cons b buckets ih =>
      obtain ⟨hnew, hrest⟩ := List.nodup_cons.mp hbuckets
      rw [List.map_cons, List.sum_cons, ih hrest]
      clear ih
      simp only [List.mem_cons]
      induction rows with
      | nil => rfl
      | cons row rows ih =>
          simp only [List.countP_cons]
          -- the row is in the first bucket or in a later one, never in both
          by_cases hfirst : bucket row = b
          · simp only [hfirst, hnew, BEq.rfl, Bool.and_true, decide_false, Bool.and_false, true_or,
              decide_true, Bool.false_eq_true, if_false]
            omega
          · simp only [hfirst, beq_eq_false_iff_ne.mpr hfirst, Bool.and_false,
              Bool.false_eq_true, if_false, false_or]
            omega

/-- A bucket is listed exactly when it is listed once. -/
theorem countP_bucket_eq_one [DecidableEq κ] {buckets : List κ} (hbuckets : buckets.Nodup)
    {b : κ} : (buckets.countP fun other => other == b) = 1 ↔ b ∈ buckets := by
  show buckets.count b = 1 ↔ _
  constructor
  · intro h
    exact List.count_pos_iff.mp (by omega)
  · exact List.count_eq_one_of_mem hbuckets

/-! ## Windows -/

/-- The start of the window of a width that an instant falls in. -/
def windowStart (width instant : Int) : Int := instant / width * width

@[simp] theorem windowStart_windowStart {width : Int} (hwidth : 0 < width) (instant : Int) :
    windowStart width (windowStart width instant) = windowStart width instant := by
  unfold windowStart
  rw [Int.mul_ediv_cancel _ (ne_of_gt hwidth)]

/-- An instant lies in a window exactly when that is the window it falls in. -/
theorem mem_window_iff {width start instant : Int} (hwidth : 0 < width)
    (hstart : windowStart width start = start) :
    start ≤ instant ∧ instant < start + width ↔ windowStart width instant = start := by
  unfold windowStart at hstart ⊢
  have hlow := Int.ediv_mul_le instant (ne_of_gt hwidth)
  have hhigh := Int.lt_ediv_add_one_mul_self instant hwidth
  rw [add_mul, one_mul] at hhigh
  constructor
  · intro h
    -- both starts are multiples of the width, less than a width apart
    rw [← hstart] at h ⊢
    obtain ⟨hle, hlt⟩ := h
    have hdown : start / width < instant / width + 1 := by
      refine lt_of_mul_lt_mul_right (a := width) ?_ (le_of_lt hwidth)
      rw [add_mul, one_mul]
      omega
    have hup : instant / width < start / width + 1 := by
      refine lt_of_mul_lt_mul_right (a := width) ?_ (le_of_lt hwidth)
      rw [add_mul, one_mul]
      omega
    rw [show instant / width = start / width by omega]
  · intro h
    rw [← h]
    exact ⟨hlow, hhigh⟩

/-! ## Ratios -/

/-- `part / NULLIF(whole, 0)`, and zero where that is null. -/
def ratio (part whole : Nat) : ℚ := if whole = 0 then 0 else (part : ℚ) / whole

/-- Two ratios of parts to wholes agree when they are in proportion, the empty whole
standing for a part of nothing. -/
theorem ratio_eq_ratio_iff {part whole left remaining : Nat} (hleft : left ≤ remaining)
    (hpart : part ≤ whole) (hremaining : remaining ≤ whole) :
    ratio left remaining = ratio part whole ↔
      left * whole = part * remaining ∧ (remaining = 0 → part = 0) := by
  unfold ratio
  by_cases hzero : remaining = 0
  · subst hzero
    have hnone : left = 0 := Nat.le_zero.mp hleft
    subst hnone
    rw [if_pos rfl]
    by_cases hwhole : whole = 0
    · subst hwhole
      have hnothing : part = 0 := Nat.le_zero.mp hpart
      simp [hnothing]
    · rw [if_neg hwhole, eq_comm, div_eq_zero_iff]
      simp [hwhole]
  · have hwhole : whole ≠ 0 := by omega
    rw [if_neg hzero, if_neg hwhole, div_eq_div_iff (Nat.cast_ne_zero.mpr hzero)
      (Nat.cast_ne_zero.mpr hwhole)]
    constructor
    · intro h
      exact ⟨by exact_mod_cast h, fun h => absurd h hzero⟩
    · intro h
      exact_mod_cast h.1

end Relational
