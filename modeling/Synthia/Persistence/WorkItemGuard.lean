import Synthia.Lib.Exceptions
import Synthia.Messaging.Envelopes
import Synthia.Persistence.WorkItems

/-!
# The guard on a work item's authority

Migration 0017. A trigger looks at each row an `UPDATE` is about to write, whoever issues the
statement: three of the columns that carry authority may not change, and three may be set
once. A row it refuses refuses the statement, and nothing the statement would have written
is there.

The table stands here with the statements any principal may issue against it. A row has an
identity no statement names, so that it can be followed while its columns change; what else
the database checks of a statement is a parameter. What `target` compares equal is what
`jsonb` does, and its type is a parameter too.
-/

namespace Synthia

open Text

namespace WorkItemGuard

variable {Target : Type}

/-- A `work_item` row, with the three columns `WorkItemRow` leaves out of it. -/
structure GuardedRow (Target : Type) where
  item : WorkItemRow
  caseReference : Option (List CodePoint)
  governedAction : Option (List CodePoint)
  target : Option Target
  deriving DecidableEq

/-- What the trigger raises with. -/
def raised (old : GuardedRow Target) (column rule : String) : List CodePoint :=
  ofString ("work_item." ++ column ++ " is " ++ rule ++ " (work_item_id=") ++
    old.item.workItemId.value.toText ++ ofString ")"

/-- `platform.work_item_authority_is_immutable()`. -/
def workItemAuthorityIsImmutable [DecidableEq Target] (old new : GuardedRow Target) :
    Except (List CodePoint) (GuardedRow Target) :=
  if new.item.tenantId ≠ old.item.tenantId then
    .error (raised old "tenant_id" "immutable")
  else if new.item.sessionId ≠ old.item.sessionId then
    .error (raised old "session_id" "immutable")
  else if new.item.requestedByOid ≠ old.item.requestedByOid then
    .error (raised old "requested_by_oid" "immutable")
  else if old.caseReference ≠ none ∧ new.caseReference ≠ old.caseReference then
    .error (raised old "case_reference" "immutable once set")
  else if old.governedAction ≠ none ∧ new.governedAction ≠ old.governedAction then
    .error (raised old "governed_action" "immutable once set")
  else if old.target ≠ none ∧ new.target ≠ old.target then
    .error (raised old "target" "immutable once set")
  else
    .ok new

/-! ## The table under any statements -/

inductive Statement (Target : Type) where
  | insert (row : GuardedRow Target)
  | update (matching : GuardedRow Target → Bool)
      (assign : GuardedRow Target → GuardedRow Target)
  | delete (matching : GuardedRow Target → Bool)

/-- The rows, each with its identity, and the identity the next row will have. -/
structure GuardedTable (Target : Type) where
  rows : List (Nat × GuardedRow Target) := []
  next : Nat := 0

/-- What an `UPDATE` makes of one row, the trigger asked. -/
def updated [DecidableEq Target] (matching : GuardedRow Target → Bool)
    (assign : GuardedRow Target → GuardedRow Target) (stored : Nat × GuardedRow Target) :
    Except (List CodePoint) (Nat × GuardedRow Target) :=
  if matching stored.2 then
    (workItemAuthorityIsImmutable stored.2 (assign stored.2)).map fun row => (stored.1, row)
  else
    .ok stored

/-- The rows a statement would leave, or what the trigger raised. -/
def GuardedTable.written [DecidableEq Target] (table : GuardedTable Target) :
    Statement Target → Except (List CodePoint) (GuardedTable Target)
  | .insert row => .ok ⟨table.rows ++ [(table.next, row)], table.next + 1⟩
  | .update matching assign =>
      (table.rows.mapM (updated matching assign)).map fun rows => ⟨rows, table.next⟩
  | .delete matching =>
      .ok ⟨table.rows.filter fun stored => !matching stored.2, table.next⟩

/-- A statement, which happens or does not. `admits` is what the rest of the schema makes of
the table the statement would leave. -/
def GuardedTable.step [DecidableEq Target] (admits : GuardedTable Target → Bool)
    (table : GuardedTable Target) (statement : Statement Target) : GuardedTable Target :=
  match table.written statement with
  | .error _ => table
  | .ok after => if admits after then after else table

def GuardedTable.run [DecidableEq Target] (admits : GuardedTable Target → Bool)
    (table : GuardedTable Target) (statements : List (Statement Target)) :
    GuardedTable Target :=
  statements.foldl (GuardedTable.step admits) table

/-! ## The repository's own statements -/

/-- An `UPDATE` of the columns `WorkItemRow` has. -/
def itemUpdate (matching : WorkItemRow → Bool) (assign : WorkItemRow → WorkItemRow) :
    Statement Target :=
  .update (fun row => matching row.item) fun row => { row with item := assign row.item }

/-- The statement `claim` issues. -/
def claimStatement (tenant : TenantContext) (workItemId : WorkItemId) (claimedBy : String)
    (now databaseNow : Instant) : Statement Target :=
  itemUpdate (fun row => row.scopedTo tenant workItemId && row.claimable now)
    ((WorkItemRow.takenBy claimedBy now).managed databaseNow).apply

/-- The statement `transition` issues. -/
def transitionStatement (tenant : TenantContext) (workItemId : WorkItemId)
    (state : WorkItemState) (expectedVersion : Int) (databaseNow : Instant) :
    Statement Target :=
  itemUpdate (fun row => row.scopedTo tenant workItemId && row.version == expectedVersion)
    ((WorkItemRow.movedTo state).managed databaseNow).apply

end WorkItemGuard

end Synthia

/-!
## What the guard keeps

An accepted update lets each row it writes grow: the fixed columns as they were, and each of
the others as it was or set for the first time. Growing is a preorder, and identities are
not given twice, so what a row showed at one moment of a run it shows at every later one.
-/

namespace Synthia

open Text

namespace WorkItemGuard

variable {Target : Type}

/-- As it was, or set for the first time. -/
def SetOnce {α : Type} (old new : Option α) : Prop := old = none ∨ new = old

theorem SetOnce.trans {α : Type} {a b c : Option α} (hab : SetOnce a b) (hbc : SetOnce b c) :
    SetOnce a c := by
  rcases hab with hnone | rfl
  · exact Or.inl hnone
  · exact hbc

theorem SetOnce.eq {α : Type} {old new : Option α} {value : α} (h : SetOnce old new)
    (hset : old = some value) : new = some value := by
  rcases h with hnone | hsame
  · rw [hset] at hnone
    cases hnone
  · rw [hsame, hset]

theorem setOnce_iff {α : Type} {old new : Option α} :
    SetOnce old new ↔ ¬ (old ≠ none ∧ new ≠ old) := by
  rw [SetOnce, not_and_or, not_not, not_not]

/-- How a row's authority may differ from an earlier row's. -/
structure Grown (old new : GuardedRow Target) : Prop where
  tenantId : new.item.tenantId = old.item.tenantId
  sessionId : new.item.sessionId = old.item.sessionId
  requestedByOid : new.item.requestedByOid = old.item.requestedByOid
  caseReference : SetOnce old.caseReference new.caseReference
  governedAction : SetOnce old.governedAction new.governedAction
  target : SetOnce old.target new.target

theorem Grown.refl (row : GuardedRow Target) : Grown row row :=
  ⟨rfl, rfl, rfl, Or.inr rfl, Or.inr rfl, Or.inr rfl⟩

theorem Grown.trans {a b c : GuardedRow Target} (hab : Grown a b) (hbc : Grown b c) :
    Grown a c where
  tenantId := hbc.tenantId.trans hab.tenantId
  sessionId := hbc.sessionId.trans hab.sessionId
  requestedByOid := hbc.requestedByOid.trans hab.requestedByOid
  caseReference := hab.caseReference.trans hbc.caseReference
  governedAction := hab.governedAction.trans hbc.governedAction
  target := hab.target.trans hbc.target

section Guard

variable [DecidableEq Target] {old new row : GuardedRow Target}

/-- The trigger lets through exactly what has grown, and lets it through as it is. -/
theorem guard_eq_ok_iff : workItemAuthorityIsImmutable old new = .ok row ↔
    Grown old new ∧ row = new := by
  rw [workItemAuthorityIsImmutable]
  constructor
  · intro h
    split_ifs at h with htenant hsession hrequester hcase haction htarget
    injection h with h
    exact ⟨⟨not_not.mp htenant, not_not.mp hsession, not_not.mp hrequester,
      setOnce_iff.mpr hcase, setOnce_iff.mpr haction, setOnce_iff.mpr htarget⟩, h.symm⟩
  · rintro ⟨hgrown, rfl⟩
    rw [if_neg (not_not.mpr hgrown.tenantId), if_neg (not_not.mpr hgrown.sessionId),
      if_neg (not_not.mpr hgrown.requestedByOid),
      if_neg (setOnce_iff.mp hgrown.caseReference),
      if_neg (setOnce_iff.mp hgrown.governedAction), if_neg (setOnce_iff.mp hgrown.target)]

variable {matching : GuardedRow Target → Bool}
  {assign : GuardedRow Target → GuardedRow Target} {stored after : Nat × GuardedRow Target}

theorem updated_ok (h : updated matching assign stored = .ok after) :
    after.1 = stored.1 ∧ Grown stored.2 after.2 := by
  rw [updated] at h
  split at h
  · obtain ⟨row, hrow, hafter⟩ := Exceptions.map_eq_ok.mp h
    obtain ⟨hgrown, rfl⟩ := guard_eq_ok_iff.mp hrow
    rw [← hafter]
    exact ⟨rfl, hgrown⟩
  · injection h with h
    rw [← h]
    exact ⟨rfl, Grown.refl _⟩

/-- An update keeps every row's identity, and their order. -/
theorem identities_of_mapM {rows results : List (Nat × GuardedRow Target)}
    (h : rows.mapM (updated matching assign) = .ok results) :
    results.map Prod.fst = rows.map Prod.fst := by
  have hall := Exceptions.mapM_eq_ok h
  clear h
  induction hall with
  | nil => rfl
  | cons hfirst _ ih => rw [List.map_cons, List.map_cons, ih, (updated_ok hfirst).1]

theorem updated_isOk_iff : (∃ after, updated matching assign stored = .ok after) ↔
    (matching stored.2 = true → Grown stored.2 (assign stored.2)) := by
  rw [updated]
  split
  · next hmatching =>
      constructor
      · rintro ⟨after, h⟩ -
        obtain ⟨row, hrow, -⟩ := Exceptions.map_eq_ok.mp h
        exact (guard_eq_ok_iff.mp hrow).1
      · intro h
        exact ⟨_, Exceptions.map_eq_ok.mpr ⟨_, guard_eq_ok_iff.mpr ⟨h hmatching, rfl⟩, rfl⟩⟩
  · next hmatching => exact ⟨fun _ h => absurd h hmatching, fun _ => ⟨stored, rfl⟩⟩

end Guard

/-! ### Runs -/

/-- Identities are given once. -/
structure GuardedTable.Sound (table : GuardedTable Target) : Prop where
  fresh : ∀ stored ∈ table.rows, stored.1 < table.next
  unique : (table.rows.map Prod.fst).Nodup

/-- A row that could have been there before was, and has grown since. -/
structure Descends (before after : GuardedTable Target) : Prop where
  next : before.next ≤ after.next
  grown : ∀ stored ∈ after.rows, stored.1 < before.next →
    ∃ earlier ∈ before.rows, earlier.1 = stored.1 ∧ Grown earlier.2 stored.2

theorem Descends.refl (table : GuardedTable Target) : Descends table table :=
  ⟨le_rfl, fun stored hstored _ => ⟨stored, hstored, rfl, Grown.refl _⟩⟩

theorem Descends.trans {a b c : GuardedTable Target} (hab : Descends a b)
    (hbc : Descends b c) : Descends a c := by
  refine ⟨hab.next.trans hbc.next, fun stored hstored hold => ?_⟩
  obtain ⟨middle, hmiddle, hidentity, hlater⟩ :=
    hbc.grown stored hstored (hold.trans_le hab.next)
  obtain ⟨first, hfirst, hsame, hearlier⟩ :=
    hab.grown middle hmiddle (hidentity.symm ▸ hold)
  exact ⟨first, hfirst, hsame.trans hidentity, hearlier.trans hlater⟩

/-- Rows that each come from one that was there, under its identity, descend from it. -/
theorem GuardedTable.Sound.descends {table after : GuardedTable Target}
    (hsound : table.Sound) (hnext : after.next = table.next)
    (hunique : (after.rows.map Prod.fst).Nodup)
    (hrows : ∀ stored ∈ after.rows, ∃ earlier ∈ table.rows,
      earlier.1 = stored.1 ∧ Grown earlier.2 stored.2) :
    after.Sound ∧ Descends table after := by
  refine ⟨⟨fun stored hstored => ?_, hunique⟩, hnext.ge, fun stored hstored _ =>
    hrows stored hstored⟩
  obtain ⟨earlier, hearlier, hidentity, -⟩ := hrows stored hstored
  rw [← hidentity, hnext]
  exact hsound.fresh earlier hearlier

section Runs

variable [DecidableEq Target] {admits : GuardedTable Target → Bool}
  {table after : GuardedTable Target} {statement : Statement Target}

/-- What is written keeps the identities apart, and descends from what was there. -/
theorem written_ok (hsound : table.Sound) (h : table.written statement = .ok after) :
    after.Sound ∧ Descends table after := by
  cases statement with
  | insert row =>
      injection h with h
      rw [← h]
      refine ⟨⟨?_, ?_⟩, Nat.le_succ _, ?_⟩
      · intro stored hstored
        rcases List.mem_append.mp hstored with hold | hnew
        · exact Nat.lt_succ_of_lt (hsound.fresh stored hold)
        · rw [List.mem_singleton.mp hnew]
          exact Nat.lt_succ_self _
      · show ((table.rows ++ [(table.next, row)]).map Prod.fst).Nodup
        rw [List.map_append, List.map_singleton]
        refine List.nodup_append_comm.mp (List.nodup_cons.mpr ⟨?_, hsound.unique⟩)
        intro hmem
        obtain ⟨stored, hstored, hidentity⟩ := List.mem_map.mp hmem
        exact (hsound.fresh stored hstored).ne hidentity
      · intro stored hstored hold
        rcases List.mem_append.mp hstored with hmem | hnew
        · exact ⟨stored, hmem, rfl, Grown.refl _⟩
        · rw [List.mem_singleton.mp hnew] at hold
          exact absurd hold (Nat.lt_irrefl _)
  | delete matching =>
      injection h with h
      rw [← h]
      refine hsound.descends rfl ?_ fun stored hstored => ?_
      · exact (List.filter_sublist.map Prod.fst).nodup hsound.unique
      · exact ⟨stored, List.mem_of_mem_filter hstored, rfl, Grown.refl _⟩
  | update matching assign =>
      obtain ⟨rows, hrows, rfl⟩ := Exceptions.map_eq_ok.mp h
      refine hsound.descends rfl ?_ fun stored hstored => ?_
      · show (rows.map Prod.fst).Nodup
        rw [identities_of_mapM hrows]
        exact hsound.unique
      · obtain ⟨earlier, hearlier, hupdated⟩ := Exceptions.exists_of_mem_mapM hrows hstored
        obtain ⟨hidentity, hgrown⟩ := updated_ok hupdated
        exact ⟨earlier, hearlier, hidentity.symm, hgrown⟩

theorem step_keeps (hsound : table.Sound) :
    (table.step admits statement).Sound ∧ Descends table (table.step admits statement) := by
  rw [GuardedTable.step]
  split
  · exact ⟨hsound, Descends.refl table⟩
  · next after hwritten =>
      split
      · exact written_ok hsound hwritten
      · exact ⟨hsound, Descends.refl table⟩

theorem run_keeps (hsound : table.Sound) (statements : List (Statement Target)) :
    (table.run admits statements).Sound ∧ Descends table (table.run admits statements) := by
  induction statements generalizing table with
  | nil => exact ⟨hsound, Descends.refl table⟩
  | cons statement statements ih =>
      obtain ⟨hstep, hdescends⟩ := @step_keeps _ _ admits _ statement hsound
      obtain ⟨hrun, hrest⟩ := ih hstep
      exact ⟨hrun, hdescends.trans hrest⟩

theorem written_update_iff {matching : GuardedRow Target → Bool}
    {assign : GuardedRow Target → GuardedRow Target} :
    (∃ after, table.written (.update matching assign) = .ok after) ↔
      ∀ stored ∈ table.rows, matching stored.2 = true →
        Grown stored.2 (assign stored.2) := by
  have hrows : (∃ after, table.written (.update matching assign) = .ok after) ↔
      ∃ rows, table.rows.mapM (updated matching assign) = .ok rows := by
    constructor
    · rintro ⟨_, h⟩
      obtain ⟨rows, hrows, -⟩ := Exceptions.map_eq_ok.mp h
      exact ⟨rows, hrows⟩
    · rintro ⟨rows, hrows⟩
      exact ⟨_, Exceptions.map_eq_ok.mpr ⟨rows, hrows, rfl⟩⟩
  rw [hrows, Exceptions.mapM_isOk]
  exact forall₂_congr fun _ _ => updated_isOk_iff

/-- An update of an item's own columns that leaves the three alone is let through. -/
theorem written_itemUpdate {matching : WorkItemRow → Bool} {assign : WorkItemRow → WorkItemRow}
    (htenant : ∀ row, (assign row).tenantId = row.tenantId)
    (hsession : ∀ row, (assign row).sessionId = row.sessionId)
    (hrequester : ∀ row, (assign row).requestedByOid = row.requestedByOid) :
    ∃ after, table.written (itemUpdate matching assign) = .ok after :=
  written_update_iff.mpr fun stored _ _ =>
    ⟨htenant stored.2.item, hsession stored.2.item, hrequester stored.2.item, Or.inr rfl,
      Or.inr rfl, Or.inr rfl⟩

/-- **Authority only grows.** Whatever statements are issued in whatever order: a row that
is there at two moments of a run shows at the later one what it showed at the earlier, but
for columns that were not set. The trigger lets an update through exactly where that stays
so, and refuses none of the repository's own. -/
theorem authority_only_grows (admits : GuardedTable Target → Bool)
    (before more : List (Statement Target)) :
    (∀ stored ∈ (({} : GuardedTable Target).run admits before).rows,
        ∀ later ∈ (({} : GuardedTable Target).run admits (before ++ more)).rows,
          later.1 = stored.1 → Grown stored.2 later.2) ∧
      (∀ matching assign,
        (∃ after, (({} : GuardedTable Target).run admits before).written
            (.update matching assign) = .ok after) ↔
          ∀ stored ∈ (({} : GuardedTable Target).run admits before).rows,
            matching stored.2 = true → Grown stored.2 (assign stored.2)) ∧
      (∀ tenant workItemId claimedBy now databaseNow, ∃ after,
        (({} : GuardedTable Target).run admits before).written
          (claimStatement tenant workItemId claimedBy now databaseNow) = .ok after) ∧
      ∀ tenant workItemId state expectedVersion databaseNow, ∃ after,
        (({} : GuardedTable Target).run admits before).written
          (transitionStatement tenant workItemId state expectedVersion databaseNow) =
            .ok after := by
  have hempty : ({} : GuardedTable Target).Sound :=
    ⟨fun _ h => absurd h List.not_mem_nil, List.nodup_nil⟩
  obtain ⟨hearly, -⟩ := @run_keeps Target _ admits _ hempty before
  refine ⟨?_, fun _ _ => written_update_iff, fun _ _ _ _ _ => ?_, fun _ _ _ _ _ => ?_⟩
  · intro stored hstored later hlater hidentity
    have hrun : ({} : GuardedTable Target).run admits (before ++ more) =
        (({} : GuardedTable Target).run admits before).run admits more := List.foldl_append
    rw [hrun] at hlater
    have hold : later.1 < (({} : GuardedTable Target).run admits before).next := by
      rw [hidentity]
      exact hearly.fresh stored hstored
    obtain ⟨earlier, hearlier, hsame, hgrown⟩ :=
      (@run_keeps Target _ admits _ hearly more).2.grown later hlater hold
    have hone : earlier = stored := List.inj_on_of_nodup_map hearly.unique hearlier hstored
      (hsame.trans hidentity)
    rw [← hone]
    exact hgrown
  · exact written_itemUpdate (fun _ => rfl) (fun _ => rfl) fun _ => rfl
  · exact written_itemUpdate (fun _ => rfl) (fun _ => rfl) fun _ => rfl

end Runs

end WorkItemGuard

end Synthia
