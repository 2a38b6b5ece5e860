import Mathlib.Algebra.GroupWithZero.Nat
import Mathlib.Algebra.Order.BigOperators.Group.List
import Mathlib.Algebra.Order.Group.Nat
import Mathlib.Data.List.Sort
import Mathlib.Data.List.Nodup
import Mathlib.Data.List.Pairwise
import Mathlib.Order.OrderDual

/-!
# Tables, conditional updates and ordered reads

What a relational store gives a program, with nothing of any particular
program in it. A table is the list of its rows in physical order; a key tells
the rows apart, and the table carries the proof that it does. Three statements
are enough for everything built on top.

A conditional `UPDATE` rewrites the rows its predicate selects and reports how
many there were. When the predicate pins the key, that count is zero or one,
and a count of one says exactly which row was rewritten and from what.

`ORDER BY` sorts, and `LIMIT` takes a prefix. Physical order breaks ties, so a
statement about what a limited read returns is either about ranks — how many
rows come strictly before, how many come no later — or is quantified over every
physical order the rows may be in.
-/

namespace Relational

variable {ρ κ ι : Type*}

/-! ## Ordered reads -/

section Order

variable [LinearOrder κ]

/-- `ORDER BY key`. The sort is stable: ties stay in physical order. -/
def orderBy (key : ρ → κ) (rows : List ρ) : List ρ :=
  rows.insertionSort fun a b => key a ≤ key b

/-- `ORDER BY key DESC`. -/
def orderByDesc (key : ρ → κ) (rows : List ρ) : List ρ :=
  orderBy (fun row => OrderDual.toDual (key row)) rows

theorem orderBy_perm (key : ρ → κ) (rows : List ρ) :
    (orderBy key rows).Perm rows :=
  List.perm_insertionSort _ rows

@[simp] theorem mem_orderBy {key : ρ → κ} {rows : List ρ} {row : ρ} :
    row ∈ orderBy key rows ↔ row ∈ rows :=
  (orderBy_perm key rows).mem_iff

theorem orderBy_sorted (key : ρ → κ) (rows : List ρ) :
    (orderBy key rows).Pairwise fun a b => key a ≤ key b := by
  have : Std.Total fun a b : ρ => key a ≤ key b := ⟨fun a b => le_total _ _⟩
  have : IsTrans ρ fun a b => key a ≤ key b := ⟨fun _ _ _ => le_trans⟩
  exact List.pairwise_insertionSort _ rows

/-- Rows no two of which tie come out in one order, whatever the physical order is. -/
theorem orderBy_eq_of_perm {key : ρ → κ} {rows other : List ρ} (h : rows.Perm other)
    (hinj : ∀ a ∈ rows, ∀ b ∈ rows, key a = key b → a = b) :
    orderBy key rows = orderBy key other := by
  have hperm := (orderBy_perm key rows).trans (h.trans (orderBy_perm key other).symm)
  refine hperm.eq_of_pairwise ?_ (orderBy_sorted key rows) (orderBy_sorted key other)
  intro a b ha hb hab hba
  exact hinj a (mem_orderBy.mp ha) b (h.mem_iff.mpr (mem_orderBy.mp hb)) (le_antisymm hab hba)

/-- Rows ordered by one column are in the strict order of another exactly where the two
columns agree, if neither has a tie. -/
theorem orderBy_pairwise_lt_iff {μ : Type*} [LinearOrder μ] {key : ρ → κ} {column : ρ → μ}
    {rows : List ρ} (hnodup : rows.Nodup)
    (hkey : ∀ a ∈ rows, ∀ b ∈ rows, key a = key b → a = b)
    (hcolumn : ∀ a ∈ rows, ∀ b ∈ rows, column a = column b → a = b) :
    (orderBy key rows).Pairwise (fun a b => column a < column b) ↔
      ∀ a ∈ rows, ∀ b ∈ rows, column a < column b → key a < key b := by
  constructor
  · intro h a ha b hb hlt
    have hboth := h.and (orderBy_sorted key rows)
    -- of two rows in the list, whichever stands first is first by both columns
    have hagree : ∀ a ∈ orderBy key rows, ∀ b ∈ orderBy key rows,
        a = b ∨ (column a < column b ∧ key a ≤ key b) ∨ (column b < column a ∧ key b ≤ key a) := by
      have : Std.Symm fun a b : ρ => a = b ∨ (column a < column b ∧ key a ≤ key b) ∨
          (column b < column a ∧ key b ≤ key a) := by
        refine ⟨?_⟩
        rintro a b (heq | hab | hba)
        · exact Or.inl heq.symm
        · exact Or.inr (Or.inr hab)
        · exact Or.inr (Or.inl hba)
      have hpairs : (orderBy key rows).Pairwise fun a b =>
          a = b ∨ (column a < column b ∧ key a ≤ key b) ∨ (column b < column a ∧ key b ≤ key a) :=
        hboth.imp fun hab => Or.inr (Or.inl hab)
      intro a ha b hb
      refine hpairs.forall_of_forall ?_ ha hb
      exact fun _ _ => Or.inl rfl
    rcases hagree a (mem_orderBy.mpr ha) b (mem_orderBy.mpr hb) with heq | hab | hba
    · rw [heq] at hlt
      exact absurd hlt (lt_irrefl _)
    · refine lt_of_le_of_ne hab.2 fun heq => ?_
      rw [hkey a ha b hb heq] at hlt
      exact absurd hlt (lt_irrefl _)
    · exact absurd hba.1 (lt_asymm hlt)
  · intro h
    have hdistinct : (orderBy key rows).Pairwise fun a b => a ≠ b :=
      (orderBy_perm key rows).nodup_iff.mpr hnodup
    have hboth := (orderBy_sorted key rows).and hdistinct
    refine hboth.imp_of_mem ?_
    intro a b ha hb hab
    rcases lt_trichotomy (column a) (column b) with hlt | heq | hgt
    · exact hlt
    · exact absurd (hcolumn a (mem_orderBy.mp ha) b (mem_orderBy.mp hb) heq) hab.2
    · exact absurd (h b (mem_orderBy.mp hb) a (mem_orderBy.mp ha) hgt) (not_lt.mpr hab.1)

/-- A row few rows precede or tie with survives the limit. -/
theorem mem_take_orderBy {key : ρ → κ} {rows : List ρ} {row : ρ} {limit : Nat}
    (hrow : row ∈ rows)
    (hrank : rows.countP (fun other => decide (key other ≤ key row)) ≤ limit) :
    row ∈ (orderBy key rows).take limit := by
  have hmem : row ∈ orderBy key rows := mem_orderBy.mpr hrow
  rw [← List.take_append_drop limit (orderBy key rows), List.mem_append] at hmem
  rcases hmem with htake | hdrop
  · exact htake
  · -- everything in the prefix precedes a row found behind it, so the prefix
    -- and the row itself are more rows than the rank allows
    exfalso
    have hsorted := orderBy_sorted key rows
    rw [← List.take_append_drop limit (orderBy key rows), List.pairwise_append] at hsorted
    have hbefore : ∀ other ∈ (orderBy key rows).take limit, key other ≤ key row :=
      fun other hother => hsorted.2.2 other hother row hdrop
    have hcount : rows.countP (fun other => decide (key other ≤ key row)) =
        ((orderBy key rows).take limit).countP (fun other => decide (key other ≤ key row)) +
          ((orderBy key rows).drop limit).countP (fun other => decide (key other ≤ key row)) := by
      rw [← List.countP_append, List.take_append_drop]
      exact ((orderBy_perm key rows).countP_eq _).symm
    have hprefix : ((orderBy key rows).take limit).countP
        (fun other => decide (key other ≤ key row)) = limit := by
      rw [List.countP_eq_length.mpr (by simpa using hbefore), List.length_take]
      have := List.length_pos_of_mem hdrop
      rw [List.length_drop] at this
      omega
    have hself : 0 < ((orderBy key rows).drop limit).countP
        (fun other => decide (key other ≤ key row)) :=
      List.countP_pos_iff.mpr ⟨row, hdrop, by simp⟩
    omega

/-- A row with the greatest key: what `ORDER BY key DESC LIMIT 1` may return. -/
def Newest (key : ρ → κ) (rows : List ρ) (row : ρ) : Prop :=
  row ∈ rows ∧ ∀ other ∈ rows, key other ≤ key row

theorem newest_of_head {key : ρ → κ} {rows : List ρ} {row : ρ}
    (h : (orderByDesc key rows).head? = some row) : Newest key rows row := by
  have hsorted := orderBy_sorted (fun r => OrderDual.toDual (key r)) rows
  obtain ⟨rest, hrest⟩ := List.head?_eq_some_iff.mp h
  unfold orderByDesc at hrest
  rw [hrest, List.pairwise_cons] at hsorted
  refine ⟨mem_orderBy.mp (by rw [hrest]; exact List.mem_cons_self), ?_⟩
  intro other hother
  have hmem : other ∈ row :: rest := by
    rw [← hrest]
    exact mem_orderBy.mpr hother
  rcases List.mem_cons.mp hmem with hself | hlater
  · rw [hself]
  · exact hsorted.1 other hlater

theorem Newest.exists_of_mem {key : ρ → κ} {rows : List ρ} {row : ρ} (hrow : row ∈ rows) :
    ∃ newest, Newest key rows newest := by
  have hmem : row ∈ orderByDesc key rows := mem_orderBy.mpr hrow
  obtain ⟨newest, rest, hrest⟩ := List.exists_cons_of_ne_nil (List.ne_nil_of_mem hmem)
  exact ⟨newest, newest_of_head (by rw [hrest]; rfl)⟩

/-- One more row is the newest where none is newer, and leaves those newest it is not
newer than. -/
theorem newest_concat {key : ρ → κ} {rows : List ρ} {row added : ρ} :
    Newest key (rows ++ [added]) row ↔
      Newest key rows row ∧ key added ≤ key row ∨
        row = added ∧ ∀ other ∈ rows, key other ≤ key added := by
  unfold Newest
  simp only [List.mem_append, List.mem_singleton]
  constructor
  · intro h
    obtain ⟨hmem, hall⟩ := h
    rcases hmem with hold | hadded
    · exact Or.inl ⟨⟨hold, fun other hother => hall other (Or.inl hother)⟩,
        hall added (Or.inr rfl)⟩
    · refine Or.inr ⟨hadded, fun other hother => ?_⟩
      rw [← hadded]
      exact hall other (Or.inl hother)
  · rintro (⟨⟨hold, hall⟩, hle⟩ | ⟨hadded, hall⟩)
    · refine ⟨Or.inl hold, fun other hother => ?_⟩
      rcases hother with hother | rfl
      · exact hall other hother
      · exact hle
    · refine ⟨Or.inr hadded, fun other hother => ?_⟩
      rw [hadded]
      rcases hother with hother | rfl
      · exact hall other hother
      · exact le_rfl

/-- Every newest row among those selected is the answer under some physical
order of the table. -/
theorem Newest.exists_head {key : ρ → κ} {rows : List ρ} {pred : ρ → Bool} {row : ρ}
    (h : Newest key (rows.filter pred) row) :
    ∃ physical : List ρ, physical.Perm rows ∧
      (orderByDesc key (physical.filter pred)).head? = some row := by
  obtain ⟨hrow, hpred⟩ := List.mem_filter.mp h.1
  obtain ⟨before, after, hsplit⟩ := List.append_of_mem hrow
  -- the row goes first; a stable descending sort leaves it there
  refine ⟨row :: (before ++ after), ?_, ?_⟩
  · rw [hsplit]
    exact List.perm_middle.symm
  · have : IsTrans ρ fun a b => OrderDual.toDual (key a) ≤ OrderDual.toDual (key b) :=
      ⟨fun _ _ _ => le_trans⟩
    unfold orderByDesc orderBy
    rw [List.filter_cons_of_pos hpred, List.insertionSort_cons_of_forall_rel]
    · rfl
    · intro other hother
      obtain ⟨hmem, hother_pred⟩ := List.mem_filter.mp hother
      apply h.2 other (List.mem_filter.mpr ⟨?_, hother_pred⟩)
      rw [hsplit, List.mem_append, List.mem_cons]
      rcases List.mem_append.mp hmem with hbefore | hafter
      · exact Or.inl hbefore
      · exact Or.inr (Or.inr hafter)

theorem Newest.perm {key : ρ → κ} {rows other : List ρ} {row : ρ}
    (h : Newest key rows row) (hperm : rows.Perm other) : Newest key other row :=
  ⟨hperm.mem_iff.mp h.1, fun row' hrow' => h.2 row' (hperm.mem_iff.mpr hrow')⟩

end Order

/-! ## Keyed tables and conditional updates -/

/-- The rows of a table, told apart by their key. -/
structure Table (ρ : Type*) {κ : Type*} (key : ρ → κ) where
  rows : List ρ
  unique : (rows.map key).Nodup

variable {key : ρ → κ}

theorem Table.eq_of_key {table : Table ρ key} {a b : ρ} (ha : a ∈ table.rows)
    (hb : b ∈ table.rows) (h : key a = key b) : a = b :=
  List.inj_on_of_nodup_map table.unique ha hb h

/-- The row with a key. -/
def Table.find [DecidableEq κ] (table : Table ρ key) (k : κ) : Option ρ :=
  table.rows.find? fun row => key row == k

theorem Table.find_eq_some [DecidableEq κ] {table : Table ρ key} {k : κ} {row : ρ} :
    table.find k = some row ↔ row ∈ table.rows ∧ key row = k := by
  unfold Table.find
  constructor
  · intro h
    exact ⟨List.mem_of_find?_eq_some h, by simpa using List.find?_some h⟩
  · intro h
    obtain ⟨hrow, hkey⟩ := h
    cases hfound : table.rows.find? fun row => key row == k with
    | none =>
        rw [List.find?_eq_none] at hfound
        exact absurd hkey (by simpa using hfound row hrow)
    | some found =>
        have hfound_key : key found = k := by simpa using List.find?_some hfound
        rw [table.eq_of_key (List.mem_of_find?_eq_some hfound) hrow
          (hfound_key.trans hkey.symm)]

theorem Table.find_of_mem [DecidableEq κ] {table : Table ρ key} {row : ρ}
    (hrow : row ∈ table.rows) : table.find (key row) = some row :=
  Table.find_eq_some.mpr ⟨hrow, rfl⟩

/-- The rows after `UPDATE … SET change WHERE pred`. -/
def updateRows (pred : ρ → Bool) (change : ρ → ρ) (rows : List ρ) : List ρ :=
  rows.map fun row => if pred row then change row else row

/-- The row count `UPDATE … WHERE pred` reports. -/
def rowsAffected (pred : ρ → Bool) (rows : List ρ) : Nat := rows.countP pred

theorem mem_updateRows {pred : ρ → Bool} {change : ρ → ρ} {rows : List ρ} {row : ρ} :
    row ∈ updateRows pred change rows ↔
      ∃ old ∈ rows, row = if pred old then change old else old := by
  unfold updateRows
  rw [List.mem_map]
  constructor
  · rintro ⟨old, hold, rfl⟩
    exact ⟨old, hold, rfl⟩
  · rintro ⟨old, hold, rfl⟩
    exact ⟨old, hold, rfl⟩

/-- An update that leaves a column alone leaves its values alone. -/
theorem map_updateRows {pred : ρ → Bool} {change : ρ → ρ} {rows : List ρ}
    {column : ρ → ι} (hkeep : ∀ row, column (change row) = column row) :
    (updateRows pred change rows).map column = rows.map column := by
  unfold updateRows
  rw [List.map_map]
  apply List.map_congr_left
  intro row _
  simp only [Function.comp_apply]
  split
  · exact hkeep row
  · rfl

/-- An update that matches no row changes none. -/
theorem updateRows_none {pred : ρ → Bool} {change : ρ → ρ} {rows : List ρ}
    (h : ∀ row ∈ rows, pred row = false) : updateRows pred change rows = rows := by
  unfold updateRows
  rw [List.map_congr_left (g := id), List.map_id]
  intro row hrow
  rw [h row hrow]
  rfl

/-- A change to a row that may not touch its key. -/
structure Change {ρ κ : Type*} (key : ρ → κ) where
  apply : ρ → ρ
  keeps_key : ∀ row, key (apply row) = key row

def Table.update (table : Table ρ key) (pred : ρ → Bool) (change : Change key) :
    Table ρ key where
  rows := updateRows pred change.apply table.rows
  unique := by
    rw [map_updateRows change.keeps_key]
    exact table.unique

theorem Table.update_none {table : Table ρ key} {pred : ρ → Bool} {change : Change key}
    (h : ∀ row ∈ table.rows, pred row = false) : table.update pred change = table := by
  obtain ⟨rows, unique⟩ := table
  unfold Table.update
  congr
  exact updateRows_none h

theorem Table.find_update [DecidableEq κ] {table : Table ρ key} {pred : ρ → Bool}
    {change : Change key} {k : κ} {row : ρ} (h : table.find k = some row) :
    (table.update pred change).find k = some (if pred row then change.apply row else row) := by
  obtain ⟨hrow, hkey⟩ := Table.find_eq_some.mp h
  refine Table.find_eq_some.mpr ⟨mem_updateRows.mpr ⟨row, hrow, rfl⟩, ?_⟩
  split
  · rw [change.keeps_key, hkey]
  · exact hkey

def Table.insert (table : Table ρ key) (row : ρ)
    (hfresh : key row ∉ table.rows.map key) : Table ρ key where
  rows := table.rows ++ [row]
  unique := by
    rw [List.map_append, List.nodup_append]
    refine ⟨table.unique, List.nodup_singleton _, ?_⟩
    intro a ha b hb hab
    rw [List.map_singleton, List.mem_singleton] at hb
    rw [hab, hb] at ha
    exact hfresh ha

/-- `DELETE … WHERE pred`. -/
def Table.delete (table : Table ρ key) (pred : ρ → Bool) : Table ρ key where
  rows := table.rows.filter fun row => !pred row
  unique := (List.filter_sublist.map key).nodup table.unique

theorem Table.mem_delete {table : Table ρ key} {pred : ρ → Bool} {row : ρ} :
    row ∈ (table.delete pred).rows ↔ row ∈ table.rows ∧ pred row = false := by
  unfold Table.delete
  rw [List.mem_filter, Bool.not_eq_true']

/-- Selecting on a unique column finds at most one row. -/
theorem filter_pinned {rows : List ρ} {column : ρ → ι} {pred : ρ → Bool} {value : ι}
    (hunique : (rows.map column).Nodup)
    (hpins : ∀ row, pred row = true → column row = value) :
    rows.filter pred = [] ∨ ∃ row, rows.filter pred = [row] := by
  have hnodup : ((rows.filter pred).map column).Nodup :=
    (List.filter_sublist.map column).nodup hunique
  match hrows : rows.filter pred with
  | [] => exact Or.inl rfl
  | [row] => exact Or.inr ⟨row, rfl⟩
  | a :: b :: rest =>
      have hvalue : ∀ row ∈ rows.filter pred, column row = value :=
        fun row hrow => hpins row (List.mem_filter.mp hrow).2
      rw [hrows] at hnodup hvalue
      have hab : column a = column b := by
        rw [hvalue a (by simp), hvalue b (by simp)]
      simp [hab] at hnodup

theorem filter_eq_singleton {rows : List ρ} {column : ρ → ι} {pred : ρ → Bool}
    {value : ι} {row : ρ} (hunique : (rows.map column).Nodup)
    (hpins : ∀ row, pred row = true → column row = value)
    (hrow : row ∈ rows) (hpred : pred row = true) : rows.filter pred = [row] := by
  have hmem : row ∈ rows.filter pred := List.mem_filter.mpr ⟨hrow, hpred⟩
  rcases filter_pinned hunique hpins with hnone | ⟨only, honly⟩
  · rw [hnone] at hmem
    exact absurd hmem List.not_mem_nil
  · rw [honly, List.mem_singleton] at hmem
    rw [honly, hmem]

theorem Table.filter_of_find [DecidableEq κ] {table : Table ρ key} {k : κ} {row : ρ}
    (h : table.find k = some row) : (table.rows.filter fun row => key row == k) = [row] := by
  obtain ⟨hrow, hkey⟩ := Table.find_eq_some.mp h
  exact filter_eq_singleton table.unique (fun _ hother => beq_iff_eq.mp hother) hrow
    (beq_iff_eq.mpr hkey)

theorem Table.filter_of_find_none [DecidableEq κ] {table : Table ρ key} {k : κ}
    (h : table.find k = none) : (table.rows.filter fun row => key row == k) = [] := by
  rw [List.filter_eq_nil_iff]
  exact List.find?_eq_none.mp h

/-- What is looked up by a predicate that pins a row is a matter of the members alone. -/
theorem find?_congr_of_pinned {left right : List ρ} {pred : ρ → Bool}
    (hsame : ∀ row, pred row = true → (row ∈ left ↔ row ∈ right))
    (hpins : ∀ a ∈ left, ∀ b ∈ left, pred a = true → pred b = true → a = b) :
    left.find? pred = right.find? pred := by
  cases hleft : left.find? pred with
  | none =>
      refine (List.find?_eq_none.mpr fun row hrow hpred => ?_).symm
      exact List.find?_eq_none.mp hleft row ((hsame row hpred).mpr hrow) hpred
  | some a =>
      have ha := List.mem_of_find?_eq_some hleft
      have hpred_a := List.find?_some hleft
      cases hright : right.find? pred with
      | none =>
          exact absurd hpred_a
            (List.find?_eq_none.mp hright a ((hsame a hpred_a).mp ha))
      | some b =>
          have hpred_b := List.find?_some hright
          have hb := (hsame b hpred_b).mpr (List.mem_of_find?_eq_some hright)
          rw [hpins a ha b hb hpred_a hpred_b]

/-- An update whose predicate pins the key touches at most one row. -/
theorem Table.rowsAffected_le_one {table : Table ρ key} {pred : ρ → Bool} {k : κ}
    (hpins : ∀ row, pred row = true → key row = k) :
    rowsAffected pred table.rows ≤ 1 := by
  unfold rowsAffected
  rw [List.countP_eq_length_filter]
  rcases filter_pinned table.unique hpins with hnone | ⟨only, honly⟩
  · rw [hnone]
    exact Nat.zero_le 1
  · rw [honly]
    exact Nat.le_refl 1

/-- A row count of one: the update hit a row, and only that one. -/
theorem Table.rowsAffected_eq_one {table : Table ρ key} {pred : ρ → Bool} {k : κ}
    (hpins : ∀ row, pred row = true → key row = k) :
    rowsAffected pred table.rows = 1 ↔ ∃ row ∈ table.rows, pred row = true := by
  have hle := table.rowsAffected_le_one hpins
  constructor
  · intro h
    exact List.countP_pos_iff.mp (by unfold rowsAffected at h; omega)
  · rintro hhit
    have hpos := List.countP_pos_iff.mpr hhit
    unfold rowsAffected at hle ⊢
    omega

/-! ## Weighing rows -/

section Weight

variable {weight : ρ → Nat} {change : ρ → ρ} {rows : List ρ}

/-- Rewriting rows so that none weighs more adds no weight. -/
theorem sum_weight_map_le (hle : ∀ row ∈ rows, weight (change row) ≤ weight row) :
    ((rows.map change).map weight).sum ≤ (rows.map weight).sum := by
  rw [List.map_map]
  exact List.sum_le_sum hle

/-- One row made lighter makes the table lighter. -/
theorem sum_weight_map_lt (hle : ∀ row ∈ rows, weight (change row) ≤ weight row)
    (hlt : ∃ row ∈ rows, weight (change row) < weight row) :
    ((rows.map change).map weight).sum < (rows.map weight).sum := by
  rw [List.map_map]
  exact List.sum_lt_sum _ _ hle hlt

end Weight

end Relational
