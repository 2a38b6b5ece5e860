import Synthia.Lib.Table
import Synthia.Domain.Vocabulary

/-!
# Optimistic concurrency

`persistence.concurrency`: one conditional `UPDATE`, in its two forms. A
guarded update carries the version its caller read; a claim carries only its
predicate. Both bump `version` and refresh `updated_at` themselves, and refuse
changes that name either column — here a change that touched one of them could
not be built.

What every later argument takes from this module is how the version moves. It
never goes down, and it goes up on every row an update rewrites; so a row still
at the version somebody read has not been rewritten since they read it.
-/

namespace Synthia

open Relational

/-- The two columns every mutable table carries and only this module writes. -/
class Versioned (ρ : Type) {κ : Type} (key : ρ → κ) where
  version : ρ → Int
  /-- `version + 1`, and `updated_at` from the database clock. -/
  manage : Instant → ρ → ρ
  version_manage : ∀ now row, version (manage now row) = version row + 1
  key_manage : ∀ now row, key (manage now row) = key row

variable {ρ κ : Type} {key : ρ → κ} [Versioned ρ key]

/-- Changes to a row that name neither its key nor a managed column. -/
structure Changes (ρ : Type) {κ : Type} (key : ρ → κ) [Versioned ρ key] extends
    Change key where
  keeps_version : ∀ row, Versioned.version key (apply row) = Versioned.version key row

/-- The caller's changes together with the managed columns. -/
def Changes.managed (changes : Changes ρ key) (now : Instant) : Change key where
  apply row := Versioned.manage key now (changes.apply row)
  keeps_key row :=
    (Versioned.key_manage now (changes.apply row)).trans (changes.keeps_key row)

/-- A row's identity predicate and the version its caller read. -/
structure VersionedRow (ρ : Type) where
  identity : ρ → Bool
  expectedVersion : Int

def guardedUpdate (table : Table ρ key) (row : VersionedRow ρ)
    (changes : Changes ρ key) (now : Instant) : Bool × Table ρ key :=
  let pred r := row.identity r && Versioned.version key r == row.expectedVersion
  (rowsAffected pred table.rows == 1, table.update pred (changes.managed now))

def claimOnce (table : Table ρ key) (identity : ρ → Bool)
    (changes : Changes ρ key) (now : Instant) : Bool × Table ρ key :=
  (rowsAffected identity table.rows == 1, table.update identity (changes.managed now))

structure ConcurrencyConflictError where
  table : String
  expectedVersion : Int
  deriving DecidableEq, Repr

/-- `require_guarded_update`: the same statement, raising where it lost. -/
def requireGuardedUpdate (name : String) (table : Table ρ key) (row : VersionedRow ρ)
    (changes : Changes ρ key) (now : Instant) :
    Except ConcurrencyConflictError Unit × Table ρ key :=
  let written := guardedUpdate table row changes now
  (if !written.1 then .error ⟨name, row.expectedVersion⟩ else .ok (), written.2)

/-! ## What an update does -/

section Spec

variable {table : Table ρ key} {changes : Changes ρ key} {now : Instant} {k : κ}

theorem claimOnce_won {identity : ρ → Bool}
    (hpins : ∀ row, identity row = true → key row = k) :
    (claimOnce table identity changes now).1 = true ↔
      ∃ row ∈ table.rows, identity row = true := by
  unfold claimOnce
  rw [beq_iff_eq]
  exact table.rowsAffected_eq_one hpins

theorem mem_claimOnce {identity : ρ → Bool} {row : ρ} :
    row ∈ (claimOnce table identity changes now).2.rows ↔
      ∃ old ∈ table.rows,
        row = if identity old then (changes.managed now).apply old else old :=
  mem_updateRows

theorem guardedUpdate_won {target : VersionedRow ρ}
    (hpins : ∀ row, target.identity row = true → key row = k) :
    (guardedUpdate table target changes now).1 = true ↔
      ∃ row ∈ table.rows, target.identity row = true ∧
        Versioned.version key row = target.expectedVersion := by
  unfold guardedUpdate
  rw [beq_iff_eq, table.rowsAffected_eq_one (k := k)]
  · simp only [Bool.and_eq_true, beq_iff_eq]
  · intro row hrow
    simp only [Bool.and_eq_true] at hrow
    exact hpins row hrow.1

theorem mem_guardedUpdate {target : VersionedRow ρ} {row : ρ} :
    row ∈ (guardedUpdate table target changes now).2.rows ↔
      ∃ old ∈ table.rows,
        row = if target.identity old &&
            Versioned.version key old == target.expectedVersion then
          (changes.managed now).apply old else old :=
  mem_updateRows

/-- A statement that reports no single row changed nothing. -/
theorem claimOnce_lost {identity : ρ → Bool} (hpins : ∀ row, identity row = true → key row = k)
    (hlost : (claimOnce table identity changes now).1 = false) :
    (claimOnce table identity changes now).2 = table := by
  apply Table.update_none
  intro row hrow
  rw [← Bool.not_eq_true]
  intro hhit
  rw [(claimOnce_won hpins).mpr ⟨row, hrow, hhit⟩] at hlost
  cases hlost

theorem guardedUpdate_lost {target : VersionedRow ρ}
    (hpins : ∀ row, target.identity row = true → key row = k)
    (hlost : (guardedUpdate table target changes now).1 = false) :
    (guardedUpdate table target changes now).2 = table := by
  apply Table.update_none
  intro row hrow
  rw [← Bool.not_eq_true]
  intro hhit
  rw [Bool.and_eq_true, beq_iff_eq] at hhit
  rw [(guardedUpdate_won hpins).mpr ⟨row, hrow, hhit⟩] at hlost
  cases hlost

theorem requireGuardedUpdate_raises {name : String} {target : VersionedRow ρ}
    {error : ConcurrencyConflictError}
    (hpins : ∀ row, target.identity row = true → key row = k)
    (hraised : (requireGuardedUpdate name table target changes now).1 = .error error) :
    error = ⟨name, target.expectedVersion⟩ ∧
      (requireGuardedUpdate name table target changes now).2 = table := by
  unfold requireGuardedUpdate at hraised ⊢
  dsimp only at hraised ⊢
  cases hwon : (guardedUpdate table target changes now).1 with
  | true =>
      rw [hwon] at hraised
      cases hraised
  | false =>
      rw [hwon] at hraised
      injection hraised with hraised
      exact ⟨hraised.symm, guardedUpdate_lost hpins hwon⟩

end Spec

/-! ## Calls on one row -/

abbrev TransactionId := Nat

/-- A call of either helper on the row with a key: its predicate selects no other. -/
inductive RowCall (ρ : Type) {κ : Type} (key : ρ → κ) [Versioned ρ key] (k : κ) where
  | guarded (row : VersionedRow ρ) (pins : ∀ r, row.identity r = true → key r = k)
      (changes : Changes ρ key) (now : Instant)
  | claim (identity : ρ → Bool) (pins : ∀ r, identity r = true → key r = k)
      (changes : Changes ρ key) (now : Instant)

section RowCall

variable {k : κ}

def RowCall.execute (call : RowCall ρ key k) (table : Table ρ key) : Bool × Table ρ key :=
  match call with
  | .guarded row _ changes now => guardedUpdate table row changes now
  | .claim identity _ changes now => claimOnce table identity changes now

/-- The version a call was made with, where it was made with one. -/
def RowCall.expectedVersion : RowCall ρ key k → Option Int
  | .guarded row _ _ _ => some row.expectedVersion
  | .claim _ _ _ _ => none

/-- The table a statement that reports a single row leaves, and none where it
reports otherwise. -/
def wrote {σ : Type} (statement : Bool × σ) : Option σ :=
  if statement.1 then some statement.2 else none

theorem wrote_eq_some {σ : Type} {statement : Bool × σ} {written : σ} :
    wrote statement = some written ↔ statement.1 = true ∧ statement.2 = written := by
  unfold wrote
  cases statement.1 <;> simp

theorem wrote_eq_none {σ : Type} {statement : Bool × σ} :
    wrote statement = none ↔ statement.1 = false := by
  unfold wrote
  cases statement.1 <;> simp

theorem RowCall.execute_lost {call : RowCall ρ key k} {table : Table ρ key}
    (hlost : (call.execute table).1 = false) : (call.execute table).2 = table := by
  cases call with
  | guarded row pins changes now => exact guardedUpdate_lost pins hlost
  | claim identity pins changes now => exact claimOnce_lost pins hlost

/-- A call that won found its row, at the version it named if it named one, and
left it one version on. -/
theorem RowCall.execute_won [DecidableEq κ] {call : RowCall ρ key k} {table : Table ρ key}
    (hwon : (call.execute table).1 = true) :
    ∃ row written, table.find k = some row ∧ (call.execute table).2.find k = some written ∧
      Versioned.version key written = Versioned.version key row + 1 ∧
      ∀ expected, call.expectedVersion = some expected →
        expected = Versioned.version key row := by
  cases call with
  | guarded target pins changes now =>
      obtain ⟨row, hrow, hidentity, hversion⟩ := (guardedUpdate_won pins).mp hwon
      have hfound : table.find k = some row := Table.find_eq_some.mpr ⟨hrow, pins row hidentity⟩
      refine ⟨row, (changes.managed now).apply row, hfound, ?_, ?_, ?_⟩
      · show (table.update _ _).find k = _
        rw [Table.find_update hfound, if_pos]
        rw [Bool.and_eq_true, beq_iff_eq]
        exact ⟨hidentity, hversion⟩
      · show Versioned.version key (Versioned.manage key now _) = _
        rw [Versioned.version_manage, changes.keeps_version]
      · intro expected hexpected
        rw [← Option.some.inj hexpected, hversion]
  | claim identity pins changes now =>
      obtain ⟨row, hrow, hidentity⟩ := (claimOnce_won pins).mp hwon
      have hfound : table.find k = some row := Table.find_eq_some.mpr ⟨hrow, pins row hidentity⟩
      refine ⟨row, (changes.managed now).apply row, hfound, ?_, ?_, ?_⟩
      · show (table.update _ _).find k = _
        rw [Table.find_update hfound, if_pos hidentity]
      · show Versioned.version key (Versioned.manage key now _) = _
        rw [Versioned.version_manage, changes.keeps_version]
      · intro expected hexpected
        cases hexpected

end RowCall

end Synthia
