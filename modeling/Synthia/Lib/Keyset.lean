import Synthia.Lib.Table

/-!
# Reading a collection page by page

A page is the first rows of an ordered query, and the next page resumes behind
the last row of this one. Nothing is remembered between two pages but that row,
and the collection may have changed.

Three things can be said of such a walk, and each needs a different amount of
agreement between the order and the test that resumes it. Where the test is the
order's own strict comparison, everything after one anchor comes later than it,
so what is read is in order and without repetition over any changes, and a
walk that ends has read every position that was never vacant. Where it agrees
only from some rows on, a walk that starts among those over a collection that
stays as it is still reads all of it. And where it never selects some rows, a
walk behind any anchor misses them.
-/

namespace Keyset

open Relational

variable {ρ π : Type*}

/-- One page, and the row the next page resumes behind. -/
structure Page (ρ : Type*) where
  rows : List ρ
  next : Option ρ

/-- The rows behind an anchor. -/
def resume (beyond : ρ → ρ → Bool) : Option ρ → List ρ → List ρ
  | none, rows => rows
  | some anchor, rows => rows.filter (beyond anchor)

/-- The first rows of a list, with the last of them where more follow. -/
def cut (limit : Nat) (rows : List ρ) : Page ρ :=
  if rows.length ≤ limit then ⟨rows, none⟩ else ⟨rows.take limit, (rows.take limit).getLast?⟩

section Walk

variable [LinearOrder π] (position : ρ → π) (beyond : ρ → ρ → Bool) (limit : Nat)

def page (anchor : Option ρ) (rows : List ρ) : Page ρ :=
  cut limit (orderBy position (resume beyond anchor rows))

/-- The rows of the pages read over these collections, one collection a page, and
whether the last page said that there was no other. -/
def walk : Option ρ → List (List ρ) → List ρ × Bool
  | _, [] => ([], false)
  | anchor, rows :: later =>
      match (page position beyond limit anchor rows).next with
      | none => ((page position beyond limit anchor rows).rows, true)
      | some last =>
          ((page position beyond limit anchor rows).rows ++ (walk (some last) later).1,
            (walk (some last) later).2)

end Walk

/-! ## One page -/

/-- A page is everything, or it ends where the rest begins. -/
theorem cut_cases {limit : Nat} (hlimit : 1 ≤ limit) (rows : List ρ) :
    (rows.length ≤ limit ∧ cut limit rows = ⟨rows, none⟩) ∨
      ∃ before last rest, rows = before ++ [last] ++ rest ∧ rest ≠ [] ∧
        before.length + 1 = limit ∧ cut limit rows = ⟨before ++ [last], some last⟩ := by
  rcases Nat.lt_or_ge limit rows.length with hmore | hall
  · refine Or.inr ?_
    have hlength : (rows.take limit).length = limit := by
      rw [List.length_take]
      omega
    have hne : rows.take limit ≠ [] := by
      intro hnil
      rw [hnil] at hlength
      exact absurd hlength (by simp; omega)
    refine ⟨(rows.take limit).dropLast, (rows.take limit).getLast hne, rows.drop limit, ?_, ?_,
      ?_, ?_⟩
    · rw [List.dropLast_append_getLast, List.take_append_drop]
    · intro hnil
      have := congrArg List.length hnil
      rw [List.length_drop] at this
      exact absurd this (by simp; omega)
    · rw [List.length_dropLast]
      omega
    · rw [cut, if_neg (by omega), List.dropLast_append_getLast,
        List.getLast?_eq_getLast_of_ne_nil hne]
  · exact Or.inl ⟨hall, by rw [cut, if_pos hall]⟩

theorem mem_resume {beyond : ρ → ρ → Bool} {anchor : Option ρ} {rows : List ρ} {row : ρ} :
    row ∈ resume beyond anchor rows ↔ row ∈ rows ∧ ∀ a ∈ anchor, beyond a row = true := by
  cases anchor with
  | none => simp [resume]
  | some a => simp [resume, List.mem_filter]

theorem nodup_resume {position : ρ → π} {beyond : ρ → ρ → Bool} {anchor : Option ρ}
    {rows : List ρ} (h : (rows.map position).Nodup) :
    ((resume beyond anchor rows).map position).Nodup := by
  cases anchor with
  | none => exact h
  | some a => exact (List.filter_sublist.map position).nodup h

variable [LinearOrder π] {position : ρ → π} {beyond : ρ → ρ → Bool} {limit : Nat}

/-- Rows no two of which stand in one place are strictly ordered. -/
theorem orderBy_strict {rows : List ρ} (h : (rows.map position).Nodup) :
    (orderBy position rows).Pairwise fun a b => position a < position b := by
  have hnodup : ((orderBy position rows).map position).Nodup :=
    ((orderBy_perm position rows).map position).nodup_iff.mpr h
  rw [List.Nodup, List.pairwise_map] at hnodup
  exact (orderBy_sorted position rows).imp₂ (fun _ _ hle hne => lt_of_le_of_ne hle hne) hnodup

/-- An order by a key is a matter of the members alone. -/
theorem orderBy_congr {left right : List ρ} (hleft : (left.map position).Nodup)
    (hright : (right.map position).Nodup) (hsame : ∀ row, row ∈ left ↔ row ∈ right) :
    orderBy position left = orderBy position right :=
  List.Pairwise.eq_of_mem_iff (orderBy_strict hleft) (orderBy_strict hright) fun row => by
    rw [mem_orderBy, mem_orderBy]
    exact hsame row

theorem walk_cons_of_none {anchor : Option ρ} {rows : List ρ} {later : List (List ρ)}
    {found : List ρ} (h : page position beyond limit anchor rows = ⟨found, none⟩) :
    walk position beyond limit anchor (rows :: later) = (found, true) := by
  simp only [walk, h]

theorem walk_cons_of_some {anchor : Option ρ} {rows : List ρ} {later : List (List ρ)}
    {found : List ρ} {last : ρ}
    (h : page position beyond limit anchor rows = ⟨found, some last⟩) :
    walk position beyond limit anchor (rows :: later) =
      (found ++ (walk position beyond limit (some last) later).1,
        (walk position beyond limit (some last) later).2) := by
  simp only [walk, h]

/-- A row that is read was there when its page was. -/
theorem mem_of_mem_walk (hlimit : 1 ≤ limit) {collections : List (List ρ)} {anchor : Option ρ}
    {row : ρ} (hrow : row ∈ (walk position beyond limit anchor collections).1) :
    ∃ rows ∈ collections, row ∈ rows := by
  induction collections generalizing anchor with
  | nil => exact absurd hrow List.not_mem_nil
  | cons rows later ih =>
      have hfound : ∀ row ∈ orderBy position (resume beyond anchor rows), row ∈ rows :=
        fun row hrow => (mem_resume.mp (mem_orderBy.mp hrow)).1
      rcases cut_cases hlimit (orderBy position (resume beyond anchor rows)) with
        ⟨_, hpage⟩ | ⟨before, last, rest, hsplit, _, _, hpage⟩
      · rw [walk_cons_of_none hpage] at hrow
        exact ⟨rows, List.mem_cons_self, hfound row hrow⟩
      · rw [walk_cons_of_some hpage] at hrow
        rcases List.mem_append.mp hrow with hrow | hrow
        · refine ⟨rows, List.mem_cons_self, hfound row ?_⟩
          rw [hsplit]
          exact List.mem_append_left _ hrow
        · obtain ⟨other, hother, hmem⟩ := ih hrow
          exact ⟨other, List.mem_cons_of_mem _ hother, hmem⟩

/-- In strict order, the rows that stand where one of them does are that one. -/
theorem countP_eq_one {rows : List ρ} {pred : ρ → Bool} {row : ρ}
    (hstrict : rows.Pairwise fun a b => position a < position b) (hrow : row ∈ rows)
    (hpred : pred row = true)
    (hplace : ∀ other ∈ rows, pred other = true → position other = position row) :
    rows.countP pred = 1 := by
  obtain ⟨before, after, rfl⟩ := List.append_of_mem hrow
  obtain ⟨_, hafter, hbefore⟩ := List.pairwise_append.mp hstrict
  have hnone_before : before.countP pred = 0 := by
    refine List.countP_eq_zero.mpr fun other hother hsat => ?_
    have hlt := hbefore other hother row List.mem_cons_self
    rw [hplace other (List.mem_append_left _ hother) hsat] at hlt
    exact lt_irrefl _ hlt
  have hnone_after : after.countP pred = 0 := by
    refine List.countP_eq_zero.mpr fun other hother hsat => ?_
    have hlt := (List.pairwise_cons.mp hafter).1 other hother
    rw [hplace other (List.mem_append_right _ (List.mem_cons_of_mem _ hother)) hsat] at hlt
    exact lt_irrefl _ hlt
  rw [List.countP_append, List.countP_cons_of_pos hpred, hnone_before, hnone_after]

/-! ## Resuming by the order itself -/

section Change

variable (hlimit : 1 ≤ limit)
  (hbeyond : ∀ anchor row, beyond anchor row = true ↔ position anchor < position row)
include hlimit hbeyond

/-- Whatever happens between two pages, what is read is in strict order and lies
behind the anchor. -/
theorem walk_strict {collections : List (List ρ)}
    (hkeys : ∀ rows ∈ collections, (rows.map position).Nodup) (anchor : Option ρ) :
    ((walk position beyond limit anchor collections).1.Pairwise
        fun a b => position a < position b) ∧
      ∀ row ∈ (walk position beyond limit anchor collections).1, ∀ a ∈ anchor,
        position a < position row := by
  induction collections generalizing anchor with
  | nil => exact ⟨List.Pairwise.nil, fun row hrow => absurd hrow List.not_mem_nil⟩
  | cons rows later ih =>
      have hnodup : ((resume beyond anchor rows).map position).Nodup :=
        nodup_resume (hkeys rows List.mem_cons_self)
      have hstrict := orderBy_strict hnodup
      have hbehind : ∀ row ∈ orderBy position (resume beyond anchor rows), ∀ a ∈ anchor,
          position a < position row := by
        intro row hrow a ha
        exact (hbeyond a row).mp ((mem_resume.mp (mem_orderBy.mp hrow)).2 a ha)
      rcases cut_cases hlimit (orderBy position (resume beyond anchor rows)) with
        ⟨_, hpage⟩ | ⟨before, last, rest, hfound, _, _, hpage⟩
      · rw [walk_cons_of_none hpage]
        exact ⟨hstrict, hbehind⟩
      · rw [walk_cons_of_some hpage]
        obtain ⟨hrest, hafter⟩ :=
          ih (fun other hother => hkeys other (List.mem_cons_of_mem _ hother)) (some last)
        rw [hfound] at hstrict hbehind
        obtain ⟨hpage_strict, _, _⟩ := List.pairwise_append.mp hstrict
        have hlast : ∀ row ∈ before ++ [last], position row ≤ position last := by
          intro row hrow
          rcases List.mem_append.mp hrow with hrow | hrow
          · exact le_of_lt ((List.pairwise_append.mp hpage_strict).2.2 row hrow last
              (List.mem_singleton_self last))
          · rw [List.mem_singleton.mp hrow]
        refine ⟨List.pairwise_append.mpr ⟨hpage_strict, hrest, ?_⟩, ?_⟩
        · -- nothing on this page is behind its last row, everything later is
          intro a ha b hb
          exact lt_of_le_of_lt (hlast a ha) (hafter b hb last rfl)
        · intro row hrow a ha
          rcases List.mem_append.mp hrow with hrow | hrow
          · exact hbehind row (List.mem_append_left _ hrow) a ha
          · exact lt_trans
              (hbehind last (List.mem_append_left _ (by simp)) a ha) (hafter row hrow last rfl)

/-- A walk that came to its end has read every place behind the anchor that was
taken at each of its pages. -/
theorem exists_mem_walk {collections : List (List ρ)} {anchor : Option ρ} {place : π}
    (hplace : ∀ a ∈ anchor, position a < place)
    (htaken : ∀ rows ∈ collections, ∃ row ∈ rows, position row = place)
    (hend : (walk position beyond limit anchor collections).2 = true) :
    ∃ row ∈ (walk position beyond limit anchor collections).1, position row = place := by
  induction collections generalizing anchor with
  | nil => cases hend
  | cons rows later ih =>
      obtain ⟨row, hrow, hat⟩ := htaken rows List.mem_cons_self
      have hmem : row ∈ orderBy position (resume beyond anchor rows) := by
        refine mem_orderBy.mpr (mem_resume.mpr ⟨hrow, fun a ha => ?_⟩)
        rw [hbeyond, hat]
        exact hplace a ha
      rcases cut_cases hlimit (orderBy position (resume beyond anchor rows)) with
        ⟨_, hpage⟩ | ⟨before, last, rest, hfound, _, _, hpage⟩
      · rw [walk_cons_of_none hpage]
        exact ⟨row, hmem, hat⟩
      · rw [walk_cons_of_some hpage] at hend ⊢
        rcases lt_or_ge (position last) place with hlater | hhere
        · obtain ⟨other, hother, hother_at⟩ := ih
            (fun a ha => by rw [← Option.mem_some_iff.mp ha]; exact hlater)
            (fun other hother => htaken other (List.mem_cons_of_mem _ hother)) hend
          exact ⟨other, List.mem_append_right _ hother, hother_at⟩
        · have hsorted := orderBy_sorted position (resume beyond anchor rows)
          rw [hfound] at hmem hsorted
          rcases List.mem_append.mp hmem with hmem | hrest
          · exact ⟨row, List.mem_append_left _ hmem, hat⟩
          · -- the page's last row comes no later, so it stands in the same place
            have hle := (List.pairwise_append.mp hsorted).2.2 last (by simp) row hrest
            rw [hat] at hle
            exact ⟨last, List.mem_append_left _ (by simp), le_antisymm hle hhere⟩

end Change

/-! ## A collection that stays as it is -/

/-- Behind a row where the test and the order agree, the query finds the rows the
order has there. -/
theorem orderBy_resume {rows before after : List ρ} {anchor : ρ}
    (hkeys : (rows.map position).Nodup)
    (hsplit : orderBy position rows = before ++ [anchor] ++ after)
    (hagree : ∀ row ∈ rows, beyond anchor row = true ↔ position anchor < position row) :
    orderBy position (resume beyond (some anchor) rows) = after := by
  have hstrict := orderBy_strict hkeys
  rw [hsplit] at hstrict
  obtain ⟨hbefore, hafter, hsides⟩ := List.pairwise_append.mp hstrict
  have : Std.Irrefl fun a b : ρ => position a < position b := ⟨fun _ => lt_irrefl _⟩
  have : Std.Antisymm fun a b : ρ => position a < position b :=
    ⟨fun _ _ hab hba => absurd hab (lt_asymm hba)⟩
  refine List.Pairwise.eq_of_mem_iff (orderBy_strict (nodup_resume hkeys)) hafter fun row => ?_
  have hmem : row ∈ rows ↔ row ∈ before ++ [anchor] ∨ row ∈ after := by
    rw [← List.mem_append, ← hsplit, mem_orderBy]
  rw [mem_orderBy, mem_resume]
  constructor
  · intro h
    rcases hmem.mp h.1 with hrow | hrow
    · have hlt := (hagree row h.1).mp (h.2 anchor rfl)
      rcases List.mem_append.mp hrow with hrow | hrow
      · exact absurd hlt (lt_asymm
          ((List.pairwise_append.mp hbefore).2.2 row hrow anchor (by simp)))
      · rw [List.mem_singleton.mp hrow] at hlt
        exact absurd hlt (lt_irrefl _)
    · exact hrow
  · intro hrow
    refine ⟨hmem.mpr (Or.inr hrow), fun a ha => ?_⟩
    rw [← Option.mem_some_iff.mp ha, hagree row (hmem.mpr (Or.inr hrow))]
    exact hsides anchor (by simp) row hrow

section Unchanged

variable {rows : List ρ} (good : ρ → Prop) (hlimit : 1 ≤ limit)
  (hkeys : (rows.map position).Nodup)
  (hagree : ∀ a ∈ rows, good a → ∀ row ∈ rows,
    beyond a row = true ↔ position a < position row)
  (hlater : ∀ a ∈ rows, good a → ∀ row ∈ rows, position a < position row → good row)
include hlimit hkeys hagree hlater

theorem walk_behind {requests : Nat} {before after : List ρ} {anchor : ρ}
    (hsplit : orderBy position rows = before ++ [anchor] ++ after) (hgood : good anchor)
    (hrequests : after.length < requests) :
    walk position beyond limit (some anchor) (List.replicate requests rows) = (after, true) := by
  induction requests generalizing before anchor after with
  | zero => exact absurd hrequests (Nat.not_lt_zero _)
  | succ requests ih =>
      have hmem : ∀ row ∈ before ++ [anchor] ++ after, row ∈ rows := by
        rw [← hsplit]
        exact fun row hrow => mem_orderBy.mp hrow
      have hanchor : anchor ∈ rows := hmem anchor (by simp)
      have hfound := orderBy_resume hkeys hsplit (hagree anchor hanchor hgood)
      rw [List.replicate_succ]
      rcases cut_cases hlimit after with ⟨_, hpage⟩ | ⟨pre, last, rest, hcut, _, _, hpage⟩
      · rw [walk_cons_of_none (by rw [page, hfound, hpage])]
      · rw [walk_cons_of_some (by rw [page, hfound, hpage])]
        have hwhole : orderBy position rows = before ++ [anchor] ++ pre ++ [last] ++ rest := by
          rw [hsplit, hcut, ← List.append_assoc, ← List.append_assoc]
        have hlt : position anchor < position last := by
          have hstrict := orderBy_strict hkeys
          rw [hsplit] at hstrict
          exact (List.pairwise_append.mp hstrict).2.2 anchor (by simp) last (by rw [hcut]; simp)
        have hlast : good last :=
          hlater anchor hanchor hgood last (hmem last (by rw [hcut]; simp)) hlt
        rw [hcut, List.length_append, List.length_append, List.length_singleton] at hrequests
        rw [ih hwhole hlast (by omega), ← hcut]

/-- Where the test agrees with the order from the end of the first page on, the whole
collection is read, in order. -/
theorem walk_unchanged
    (hfirst : ∀ before last rest, orderBy position rows = before ++ [last] ++ rest →
      before.length + 1 = limit → rest ≠ [] → good last) :
    walk position beyond limit none (List.replicate (rows.length + 1) rows) =
      (orderBy position rows, true) := by
  rw [List.replicate_succ]
  rcases cut_cases hlimit (orderBy position rows) with
    ⟨_, hpage⟩ | ⟨before, last, rest, hcut, hrest, hlength, hpage⟩
  · exact walk_cons_of_none hpage
  · have hpage : page position beyond limit none rows = ⟨before ++ [last], some last⟩ := hpage
    rw [walk_cons_of_some hpage]
    have hrows : rows.length = before.length + 1 + rest.length := by
      rw [← (orderBy_perm position rows).length_eq, hcut, List.length_append, List.length_append,
        List.length_singleton]
    rw [walk_behind good hlimit hkeys hagree hlater hcut
      (hfirst before last rest hcut hlength hrest) (by omega), ← hcut]

end Unchanged

/-! ## Rows that are never found -/

section Missed

variable (kept stop : ρ → Prop) {collections : List (List ρ)} (hlimit : 1 ≤ limit)
  (hresume : ∀ rows ∈ collections, ∀ a, stop a → ∀ row ∈ rows, beyond a row = true →
    kept row ∧ stop row)
include hlimit hresume

theorem kept_of_mem_walk {anchor : ρ} (hstop : stop anchor) :
    ∀ row ∈ (walk position beyond limit (some anchor) collections).1, kept row := by
  induction collections generalizing anchor with
  | nil => exact fun row hrow => absurd hrow List.not_mem_nil
  | cons rows later ih =>
      have hpage_rows : ∀ row ∈ orderBy position (resume beyond (some anchor) rows),
          kept row ∧ stop row := by
        intro row hrow
        obtain ⟨hmem, hbeyond⟩ := mem_resume.mp (mem_orderBy.mp hrow)
        exact hresume rows List.mem_cons_self anchor hstop row hmem (hbeyond anchor rfl)
      rcases cut_cases hlimit (orderBy position (resume beyond (some anchor) rows)) with
        ⟨_, hpage⟩ | ⟨before, last, rest, hfound, _, _, hpage⟩
      · rw [walk_cons_of_none hpage]
        exact fun row hrow => (hpage_rows row hrow).1
      · rw [walk_cons_of_some hpage]
        rw [hfound] at hpage_rows
        intro row hrow
        rcases List.mem_append.mp hrow with hrow | hrow
        · exact (hpage_rows row (List.mem_append_left _ hrow)).1
        · exact ih (fun other hother => hresume other (List.mem_cons_of_mem _ hother))
            (hpage_rows last (by simp)).2 row hrow

/-- A walk whose first page and every later one keep to some rows reads no others. -/
theorem kept_of_mem_first {rows : List ρ} (hmore : limit < rows.length)
    (hfirst : ∀ before last rest, orderBy position rows = before ++ [last] ++ rest →
      before.length + 1 = limit → (∀ row ∈ before ++ [last], kept row) ∧ stop last) :
    ∀ row ∈ (walk position beyond limit none (rows :: collections)).1, kept row := by
  rcases cut_cases hlimit (orderBy position rows) with
    ⟨hall, _⟩ | ⟨before, last, rest, hcut, _, hlength, hpage⟩
  · rw [(orderBy_perm position rows).length_eq] at hall
    exact absurd hall (Nat.not_le_of_lt hmore)
  · have hpage : page position beyond limit none rows = ⟨before ++ [last], some last⟩ := hpage
    rw [walk_cons_of_some hpage]
    obtain ⟨hkept, hstop⟩ := hfirst before last rest hcut hlength
    intro row hrow
    rcases List.mem_append.mp hrow with hrow | hrow
    · exact hkept row hrow
    · exact kept_of_mem_walk kept stop hlimit hresume hstop row hrow

end Missed

/-! ## Two kinds of rows

The order puts one kind in front of the other, and the test never looks from one into
the other. Within a kind it is either the order or nothing. -/

section Kinds

variable {rows : List ρ} {front : ρ → Bool} {sound : Bool → Bool}
  (hkinds : ∀ a ∈ rows, ∀ b ∈ rows, front a = true → front b = false →
    position a < position b)
include hkinds

/-- The first page ends in front exactly if the rows in front fill it, and then it is
all in front. -/
theorem front_last_iff {before rest : List ρ} {last : ρ}
    (hsplit : orderBy position rows = before ++ [last] ++ rest)
    (hlength : before.length + 1 = limit) :
    (front last = true ↔ limit ≤ rows.countP front) ∧
      (front last = true → ∀ row ∈ before ++ [last], front row = true) := by
  have hsorted := orderBy_sorted position rows
  have hmem : ∀ row ∈ before ++ [last] ++ rest, row ∈ rows := by
    rw [← hsplit]
    exact fun row hrow => mem_orderBy.mp hrow
  have hcount : rows.countP front = (before ++ [last]).countP front + rest.countP front := by
    rw [← (orderBy_perm position rows).countP_eq, hsplit, List.countP_append]
  have hlast_mem : last ∈ rows := hmem last (by simp)
  rw [hsplit] at hsorted
  obtain ⟨hpage, _, hsides⟩ := List.pairwise_append.mp hsorted
  have hlast : ∀ row ∈ before ++ [last], position row ≤ position last := by
    intro row hrow
    rcases List.mem_append.mp hrow with hrow | hrow
    · exact (List.pairwise_append.mp hpage).2.2 row hrow last (List.mem_singleton_self last)
    · rw [List.mem_singleton.mp hrow]
  have hall : front last = true → ∀ row ∈ before ++ [last], front row = true := by
    intro hfront row hrow
    by_contra hback
    have hlt := hkinds last hlast_mem row (hmem row (List.mem_append_left _ hrow)) hfront
      (Bool.eq_false_iff.mpr hback)
    exact absurd (hlast row hrow) (not_le_of_gt hlt)
  refine ⟨⟨fun hfront => ?_, fun hmany => ?_⟩, hall⟩
  · rw [hcount, List.countP_eq_length.mpr (hall hfront), List.length_append,
      List.length_singleton, hlength]
    exact Nat.le_add_right _ _
  · by_contra hback
    have hback := Bool.eq_false_iff.mpr hback
    -- a row behind the last one of the page would have to be in front of it
    have hrest : rest.countP front = 0 := by
      refine List.countP_eq_zero.mpr fun row hrow hfront => ?_
      have hlt := hkinds row (hmem row (List.mem_append_right _ hrow)) last hlast_mem hfront hback
      exact absurd (hsides last (by simp) row hrow) (not_le_of_gt hlt)
    have hbefore : (before ++ [last]).countP front ≤ before.length := by
      rw [List.countP_append, List.countP_singleton,
        if_neg (by rw [hback]; exact Bool.false_ne_true)]
      exact List.countP_le_length
    omega

variable (hlimit : 1 ≤ limit) (hkeys : (rows.map position).Nodup)
  (hbeyond : ∀ a ∈ rows, ∀ b ∈ rows, beyond a b = true ↔
    front b = front a ∧ sound (front a) = true ∧ position a < position b)
include hlimit hkeys hbeyond

theorem walk_kinds_complete
    (hfull : limit ≤ rows.countP front → (∀ row ∈ rows, front row = true) ∧ sound true = true)
    (hpart : rows.countP front < limit → sound false = true) :
    walk position beyond limit none (List.replicate (rows.length + 1) rows) =
      (orderBy position rows, true) := by
  refine walk_unchanged (fun a => sound (front a) = true ∧
    ∀ row ∈ rows, position a < position row → front row = front a) hlimit hkeys ?_ ?_ ?_
  · intro a ha hgood row hrow
    rw [hbeyond a ha row hrow]
    exact ⟨fun h => h.2.2, fun h => ⟨hgood.2 row hrow h, hgood.1, h⟩⟩
  · intro a _ hgood row hrow hlt
    have hsame := hgood.2 row hrow hlt
    rw [hsame]
    exact ⟨hgood.1, fun other hother h => hgood.2 other hother (lt_trans hlt h)⟩
  · intro before last rest hsplit hlength _
    have hlast_mem : last ∈ rows := mem_orderBy.mp (by rw [hsplit]; simp)
    cases hfront : front last with
    | true =>
        obtain ⟨hall, hsound⟩ := hfull ((front_last_iff hkinds hsplit hlength).1.mp hfront)
        exact ⟨hsound, fun row hrow _ => hall row hrow⟩
    | false =>
        refine ⟨hpart (Nat.lt_of_not_le fun hmany => ?_), fun row hrow hlt => ?_⟩
        · rw [(front_last_iff hkinds hsplit hlength).1.mpr hmany] at hfront
          cases hfront
        · by_contra hne
          have hrow_front : front row = true := by simpa using hne
          exact absurd hlt (lt_asymm (hkinds row hrow last hlast_mem hrow_front hfront))

omit hkinds hkeys in
/-- A first page ending in rows that cannot be read on is all that is read. -/
theorem mem_take_of_mem_walk {later : List (List ρ)} (hlater : ∀ other ∈ later, other = rows)
    (hmore : limit < rows.length)
    (hstuck : ∀ before last rest, orderBy position rows = before ++ [last] ++ rest →
      before.length + 1 = limit → sound (front last) = false) :
    ∀ row ∈ (walk position beyond limit none (rows :: later)).1,
      row ∈ (orderBy position rows).take limit := by
  refine kept_of_mem_first _ (fun a => a ∈ rows ∧ sound (front a) = false) hlimit ?_ hmore ?_
  · intro other hother a hstop row hrow hfound
    rw [hlater other hother] at hrow
    obtain ⟨_, hsound, _⟩ := (hbeyond a hstop.1 row hrow).mp hfound
    rw [hstop.2] at hsound
    cases hsound
  · intro before last rest hsplit hlength
    refine ⟨fun row hrow => ?_, mem_orderBy.mp (by rw [hsplit]; simp),
      hstuck before last rest hsplit hlength⟩
    rw [hsplit, List.take_left' (by rw [List.length_append, List.length_singleton, hlength])]
    exact hrow

omit hkeys in
/-- A first page that is all in front keeps the walk there. -/
theorem front_of_mem_walk {later : List (List ρ)} (hlater : ∀ other ∈ later, other = rows)
    (hmore : limit < rows.length) (hmany : limit ≤ rows.countP front) :
    ∀ row ∈ (walk position beyond limit none (rows :: later)).1, front row = true := by
  refine kept_of_mem_first _ (fun a => a ∈ rows ∧ front a = true) hlimit ?_ hmore ?_
  · intro other hother a hstop row hrow hfound
    rw [hlater other hother] at hrow
    have hfront := ((hbeyond a hstop.1 row hrow).mp hfound).1.trans hstop.2
    exact ⟨hfront, hrow, hfront⟩
  · intro before last rest hsplit hlength
    obtain ⟨hiff, hall⟩ := front_last_iff hkinds hsplit hlength
    exact ⟨hall (hiff.mpr hmany), mem_orderBy.mp (by rw [hsplit]; simp), hiff.mpr hmany⟩

/-- Where the collection does not fit one page, a walk reads all of it exactly if the
kind its first page ends in can be read on, and is the last there is. -/
theorem walk_kinds_iff (hmore : limit < rows.length) :
    (∃ requests out, walk position beyond limit none (List.replicate requests rows) = (out, true) ∧
        out.Perm rows) ↔
      (limit ≤ rows.countP front → (∀ row ∈ rows, front row = true) ∧ sound true = true) ∧
        (rows.countP front < limit → sound false = true) := by
  constructor
  · rintro ⟨requests, out, hwalk, hperm⟩
    cases requests with
    | zero => cases congrArg Prod.snd hwalk
    | succ requests =>
        rw [List.replicate_succ] at hwalk
        have hlater : ∀ other ∈ List.replicate requests rows, other = rows :=
          fun other hother => List.eq_of_mem_replicate hother
        have hout : (walk position beyond limit none
            (rows :: List.replicate requests rows)).1 = out := by rw [hwalk]
        -- reading no more than the first page is reading too little
        have hnot_stuck : ¬ ∀ row ∈ out, row ∈ (orderBy position rows).take limit := by
          intro hfew
          have hnodup : out.Nodup := hperm.nodup_iff.mpr (List.Nodup.of_map _ hkeys)
          have hle := (List.subperm_of_subset hnodup hfew).length_le
          rw [hperm.length_eq, List.length_take] at hle
          omega
        rw [← hout] at hperm hnot_stuck
        refine ⟨fun hmany => ⟨fun row hrow => ?_, ?_⟩, fun hfew => ?_⟩
        · exact front_of_mem_walk hkinds hlimit hbeyond hlater hmore hmany row
            (hperm.mem_iff.mpr hrow)
        · by_contra hsound
          refine hnot_stuck (mem_take_of_mem_walk hlimit hbeyond hlater hmore ?_)
          intro before last rest hsplit hlength
          rw [(front_last_iff hkinds hsplit hlength).1.mpr hmany]
          exact Bool.eq_false_iff.mpr hsound
        · by_contra hsound
          refine hnot_stuck (mem_take_of_mem_walk hlimit hbeyond hlater hmore ?_)
          intro before last rest hsplit hlength
          have hback : front last = false := Bool.eq_false_iff.mpr fun hfront =>
            absurd ((front_last_iff hkinds hsplit hlength).1.mp hfront) (Nat.not_le_of_lt hfew)
          rw [hback]
          exact Bool.eq_false_iff.mpr hsound
  · intro h
    exact ⟨_, _, walk_kinds_complete hkinds hlimit hkeys hbeyond h.1 h.2,
      orderBy_perm position rows⟩

end Kinds

end Keyset
