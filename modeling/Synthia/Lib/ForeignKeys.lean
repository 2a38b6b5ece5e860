import Mathlib.Data.List.Basic
import Mathlib.Logic.Function.Basic

/-!
# Foreign keys and ordered deletion

Tables of rows, foreign keys between them, and `DELETE` as a database performs it:
the rows are removed, and then every key that referenced them is settled, by
deleting the referencing rows in turn where the key cascades and by refusing the
statement where one is left and it does not. A table may be reached through several
keys, so the recursion is on fuel, which a schema without a cycle of cascades
leaves some of.

Three things are true of a deletion. One that is carried out leaves every
reference resolved. It removes nothing but what its predicate names and what hangs
off it, so where referencing rows share the owner of what they reference, the rows
of other owners stay. And whether it is carried out can be read off the schema,
given the tables already rid of the owner's rows; a whole order of deletions is
checked that way by evaluation.
-/

namespace ForeignKeys

variable {τ γ ν : Type*}

/-- A row, column by column; `none` is `NULL`. -/
abbrev Row (γ ν : Type*) := γ → Option ν

abbrev Database (τ γ ν : Type*) := τ → List (Row γ ν)

/-- A foreign key: each of the child's columns with the column it references. -/
structure Edge (τ γ : Type*) where
  child : τ
  parent : τ
  columns : List (γ × γ)
  cascades : Bool
  deriving DecidableEq

inductive Violation (τ γ : Type*) where
  | referenced (edge : Edge τ γ)
  | tooDeep

section Definitions

variable [DecidableEq τ] [DecidableEq ν]

def Edge.refers (edge : Edge τ γ) (child parent : Row γ ν) : Bool :=
  edge.columns.all fun column =>
    (child column.1).isSome && child column.1 == parent column.2

/-- A key with a `NULL` in it references nothing. -/
def Edge.isNull (edge : Edge τ γ) (child : Row γ ν) : Bool :=
  edge.columns.any fun column => (child column.1).isNone

/-- Whether a row references one of those removed. -/
def Edge.orphans (edge : Edge τ γ) (gone : List (Row γ ν)) (child : Row γ ν) : Bool :=
  gone.any fun parent => edge.refers child parent

def remove (db : Database τ γ ν) (table : τ) (pred : Row γ ν → Bool) : Database τ γ ν :=
  Function.update db table ((db table).filter fun row => !pred row)

/-- Settle the keys that reference a table some rows of which are gone. -/
def settle (cascade : Database τ γ ν → τ → (Row γ ν → Bool) →
      Except (Violation τ γ) (Database τ γ ν))
    (table : τ) (gone : List (Row γ ν)) :
    List (Edge τ γ) → Database τ γ ν → Except (Violation τ γ) (Database τ γ ν)
  | [], db => .ok db
  | edge :: edges, db =>
      if edge.parent ≠ table then
        settle cascade table gone edges db
      else if edge.cascades then
        match cascade db edge.child (edge.orphans gone) with
        | .error violation => .error violation
        | .ok db => settle cascade table gone edges db
      else if (db edge.child).any (edge.orphans gone) then
        .error (.referenced edge)
      else
        settle cascade table gone edges db

/-- `DELETE FROM table WHERE pred`. -/
def delete (schema : List (Edge τ γ)) :
    Nat → Database τ γ ν → τ → (Row γ ν → Bool) → Except (Violation τ γ) (Database τ γ ν)
  | 0, _, _, _ => .error .tooDeep
  | fuel + 1, db, table, pred =>
      settle (delete schema fuel) table ((db table).filter pred) schema (remove db table pred)

/-- A row's owner is the value of one column. -/
def owned (owner : γ) (value : ν) (row : Row γ ν) : Bool := row owner == some value

/-- Every reference resolves, but for the ones excused. -/
def Resolves (schema : List (Edge τ γ)) (excused : Edge τ γ → Row γ ν → Prop)
    (db : Database τ γ ν) : Prop :=
  ∀ edge ∈ schema, ∀ child ∈ db edge.child,
    edge.isNull child = true ∨ (∃ parent ∈ db edge.parent, edge.refers child parent = true) ∨
      excused edge child

/-- Referential integrity. -/
def Referential (schema : List (Edge τ γ)) (db : Database τ γ ν) : Prop :=
  Resolves schema (fun _ _ => False) db

instance (schema : List (Edge τ γ)) (db : Database τ γ ν) : Decidable (Referential schema db) :=
  inferInstanceAs (Decidable (∀ edge ∈ schema, ∀ child ∈ db edge.child,
    edge.isNull child = true ∨ (∃ parent ∈ db edge.parent, edge.refers child parent = true) ∨
      False))

/-- A row that references another has its owner, where that has one. -/
def Inherits (schema : List (Edge τ γ)) (owner : γ) (db : Database τ γ ν) : Prop :=
  ∀ edge ∈ schema, ∀ child ∈ db edge.child, ∀ parent ∈ db edge.parent,
    edge.refers child parent = true → parent owner ≠ none → child owner = parent owner

instance (schema : List (Edge τ γ)) (owner : γ) (db : Database τ γ ν) :
    Decidable (Inherits schema owner db) :=
  inferInstanceAs (Decidable (∀ edge ∈ schema, ∀ child ∈ db edge.child,
    ∀ parent ∈ db edge.parent, edge.refers child parent = true → parent owner ≠ none →
      child owner = parent owner))

/-- A deletion on a table cannot be refused: every key it may reach cascades, or
is a key of a table already rid of the owner's rows. -/
def safe (schema : List (Edge τ γ)) (done : List τ) : Nat → τ → Bool
  | 0, _ => false
  | fuel + 1, table =>
      schema.all fun edge =>
        decide (edge.parent ≠ table) ||
          if edge.cascades then safe schema done fuel edge.child
          else decide (edge.child ∈ done)

/-- An order of deletions none of which can be refused. -/
def admits (schema : List (Edge τ γ)) (fuel : Nat) : List τ → List τ → Bool
  | _, [] => true
  | done, table :: tables =>
      safe schema done fuel table && admits schema fuel (table :: done) tables

/-- One statement for each table in turn, with the number of rows each found. -/
def deleteEach (schema : List (Edge τ γ)) (fuel : Nat) (pred : Row γ ν → Bool) :
    List τ → Database τ γ ν →
      Except (Violation τ γ) (List (τ × Nat) × Database τ γ ν)
  | [], db => .ok ([], db)
  | table :: tables, db =>
      match delete schema fuel db table pred with
      | .error violation => .error violation
      | .ok between =>
          match deleteEach schema fuel pred tables between with
          | .error violation => .error violation
          | .ok (counts, after) =>
              .ok ((table, ((db table).filter pred).length) :: counts, after)

end Definitions

/-! ## Databases with fewer rows -/

/-- Every row of the one is a row of the other. -/
def Sub (db larger : Database τ γ ν) : Prop := ∀ table, ∀ row ∈ db table, row ∈ larger table

theorem Sub.refl (db : Database τ γ ν) : Sub db db := fun _ _ hrow => hrow

theorem Sub.trans {first second third : Database τ γ ν} (h : Sub first second)
    (hnext : Sub second third) : Sub first third :=
  fun table row hrow => hnext table row (h table row hrow)

/-- What is left of each table, in its order, and that the rest was doomed. -/
def Spares (doomed : Row γ ν → Prop) (db after : Database τ γ ν) : Prop :=
  ∀ table, ∃ kept : Row γ ν → Bool, after table = (db table).filter kept ∧
    ∀ row ∈ db table, kept row = false → doomed row

theorem Spares.refl (doomed : Row γ ν → Prop) (db : Database τ γ ν) : Spares doomed db db := by
  intro table
  refine ⟨fun _ => true, (List.filter_eq_self.mpr fun _ _ => rfl).symm, ?_⟩
  intro row _ hdropped
  cases hdropped

theorem Spares.trans {doomed : Row γ ν → Prop} {first second third : Database τ γ ν}
    (h : Spares doomed first second) (hnext : Spares doomed second third) :
    Spares doomed first third := by
  intro table
  obtain ⟨kept, hkept, hdoomed⟩ := h table
  obtain ⟨later, hlater, hlaterDoomed⟩ := hnext table
  refine ⟨fun row => later row && kept row, ?_, ?_⟩
  · rw [hlater, hkept, List.filter_filter]
  · intro row hrow hdropped
    cases hfirst : kept row with
    | false => exact hdoomed row hrow hfirst
    | true =>
        have hdropped : (later row && kept row) = false := hdropped
        rw [hfirst, Bool.and_true] at hdropped
        refine hlaterDoomed row ?_ hdropped
        rw [hkept]
        exact List.mem_filter.mpr ⟨hrow, hfirst⟩

/-- Rows that are not doomed are all still there, in their order. -/
theorem Spares.filter_eq {doomed : Row γ ν → Prop} {db after : Database τ γ ν}
    (h : Spares doomed db after) {other : Row γ ν → Bool}
    (hother : ∀ row, other row = true → ¬ doomed row) (table : τ) :
    (after table).filter other = (db table).filter other := by
  obtain ⟨kept, hkept, hdoomed⟩ := h table
  rw [hkept, List.filter_filter]
  apply List.filter_congr
  intro row hrow
  cases hspared : other row with
  | false => rfl
  | true =>
      cases hfirst : kept row with
      | true => rfl
      | false => exact absurd (hdoomed row hrow hfirst) (hother row hspared)

theorem gone_owned {db base : Database τ γ ν} {table : τ} {pred : Row γ ν → Bool} {owner : γ}
    {value : ν} (hsub : Sub db base)
    (hpred : ∀ row ∈ db table, pred row = true → row owner = some value) :
    ∀ row ∈ (db table).filter pred, row ∈ base table ∧ row owner = some value := by
  intro row hrow
  obtain ⟨hmem, hnamed⟩ := List.mem_filter.mp hrow
  exact ⟨hsub _ _ hmem, hpred row hmem hnamed⟩

section Removal

variable [DecidableEq τ] {db : Database τ γ ν} {table : τ} {pred : Row γ ν → Bool}

theorem mem_remove {other : τ} {row : Row γ ν} :
    row ∈ remove db table pred other ↔
      row ∈ db other ∧ (other = table → pred row = false) := by
  unfold remove
  by_cases hother : other = table
  · subst hother
    rw [Function.update_self, List.mem_filter, Bool.not_eq_true']
    exact ⟨fun h => ⟨h.1, fun _ => h.2⟩, fun h => ⟨h.1, h.2 rfl⟩⟩
  · rw [Function.update_of_ne hother]
    exact ⟨fun h => ⟨h, fun hsame => absurd hsame hother⟩, And.left⟩

theorem remove_sub : Sub (remove db table pred) db := fun _ _ hrow => (mem_remove.mp hrow).1

theorem remove_spares {doomed : Row γ ν → Prop}
    (hdoomed : ∀ row ∈ db table, pred row = true → doomed row) :
    Spares doomed db (remove db table pred) := by
  intro other
  unfold remove
  by_cases hother : other = table
  · subst hother
    refine ⟨fun row => !pred row, by rw [Function.update_self], ?_⟩
    intro row hrow hdropped
    exact hdoomed row hrow (by simpa using hdropped)
  · rw [Function.update_of_ne hother]
    refine ⟨fun _ => true, (List.filter_eq_self.mpr fun _ _ => rfl).symm, ?_⟩
    intro row _ hdropped
    cases hdropped

end Removal

section Ownership

variable [DecidableEq ν] {schema : List (Edge τ γ)} {db base : Database τ γ ν}
  {owner : γ} {value : ν} {gone : List (Row γ ν)}

theorem owned_iff {row : Row γ ν} : owned owner value row = true ↔ row owner = some value :=
  beq_iff_eq

/-- What references the rows of an owner is that owner's. -/
theorem orphans_owned (hinherits : Inherits schema owner base) (hsub : Sub db base)
    {edge : Edge τ γ} (hedge : edge ∈ schema)
    (hgone : ∀ row ∈ gone, row ∈ base edge.parent ∧ row owner = some value)
    {child : Row γ ν} (hchild : child ∈ db edge.child)
    (horphan : edge.orphans gone child = true) : child owner = some value := by
  obtain ⟨parent, hparent, hrefers⟩ := List.any_eq_true.mp horphan
  obtain ⟨hbase, howner⟩ := hgone parent hparent
  rw [hinherits edge hedge child (hsub _ _ hchild) parent hbase hrefers]
  · exact howner
  · rw [howner]
    exact Option.some_ne_none value

theorem Inherits.of_sub (h : Inherits schema owner base) (hsub : Sub db base) :
    Inherits schema owner db :=
  fun edge hedge child hchild parent hparent =>
    h edge hedge child (hsub _ _ hchild) parent (hsub _ _ hparent)

/-- A table whose every row references a table rid of an owner's rows is rid of them
too. -/
theorem cleared_of_parent (hreferential : Referential schema db)
    (hinherits : Inherits schema owner db) {edge : Edge τ γ} (hedge : edge ∈ schema)
    (hkeys : ∀ child ∈ db edge.child, edge.isNull child = false)
    (hparents : ∀ parent ∈ db edge.parent, parent owner ≠ none ∧ parent owner ≠ some value)
    {child : Row γ ν} (hchild : child ∈ db edge.child) : child owner ≠ some value := by
  rcases hreferential edge hedge child hchild with hnull | ⟨parent, hparent, hrefers⟩ | hexcused
  · rw [hkeys child hchild] at hnull
    cases hnull
  · obtain ⟨hsome, hcleared⟩ := hparents parent hparent
    rw [hinherits edge hedge child hchild parent hparent hrefers hsome]
    exact hcleared
  · exact hexcused.elim

end Ownership


section Deletion

variable [DecidableEq τ] [DecidableEq ν] {schema edges : List (Edge τ γ)}
  {db after : Database τ γ ν} {table : τ} {pred : Row γ ν → Bool} {fuel : Nat}
  {gone : List (Row γ ν)}
  {cascade : Database τ γ ν → τ → (Row γ ν → Bool) →
    Except (Violation τ γ) (Database τ γ ν)}

/-- What a settled key may have been: of another table, cascaded, or left with no
row to refuse for. -/
theorem settle_cons {edge : Edge τ γ}
    (h : settle cascade table gone (edge :: edges) db = .ok after) :
    (edge.parent ≠ table ∧ settle cascade table gone edges db = .ok after) ∨
      (edge.parent = table ∧ ∃ between,
        cascade db edge.child (edge.orphans gone) = .ok between ∧
        settle cascade table gone edges between = .ok after) ∨
      (edge.parent = table ∧ (∀ child ∈ db edge.child, edge.orphans gone child = false) ∧
        settle cascade table gone edges db = .ok after) := by
  rw [settle] at h
  split at h
  · next hparent => exact Or.inl ⟨hparent, h⟩
  · next hparent =>
      refine Or.inr ?_
      have hparent := not_not.mp hparent
      split at h
      · split at h
        · cases h
        · next between hbetween => exact Or.inl ⟨hparent, between, hbetween, h⟩
      · split at h
        · cases h
        · next hnone =>
            refine Or.inr ⟨hparent, ?_, h⟩
            intro child hchild
            rw [← Bool.not_eq_true]
            intro horphan
            exact hnone (List.any_eq_true.mpr ⟨child, hchild, horphan⟩)

/-! ## A deletion only removes -/

theorem settle_sub
    (hcascade : ∀ db table pred after, cascade db table pred = .ok after → Sub after db)
    (h : settle cascade table gone edges db = .ok after) : Sub after db := by
  induction edges generalizing db with
  | nil =>
      injection h with h
      exact h ▸ Sub.refl db
  | cons edge edges ih =>
      rcases settle_cons h with ⟨_, hrest⟩ | ⟨_, between, hbetween, hrest⟩ | ⟨_, _, hrest⟩
      · exact ih hrest
      · exact (ih hrest).trans (hcascade _ _ _ _ hbetween)
      · exact ih hrest

theorem delete_sub (h : delete schema fuel db table pred = .ok after) :
    Sub after (remove db table pred) := by
  induction fuel generalizing db table pred after with
  | zero => cases h
  | succ fuel ih =>
      refine settle_sub ?_ h
      intro db table pred after hcascade
      exact (ih hcascade).trans fun _ _ hrow => (mem_remove.mp hrow).1

/-- No row the predicate names is left in the table. -/
theorem delete_removes (h : delete schema fuel db table pred = .ok after) {row : Row γ ν}
    (hrow : row ∈ after table) : pred row = false :=
  (mem_remove.mp (delete_sub h table row hrow)).2 rfl

/-! ## A deletion leaves every reference resolved -/

theorem settle_resolves
    (hcascade : ∀ excused db table pred after, Resolves schema excused db →
      cascade db table pred = .ok after → Resolves schema excused after)
    (hremoves : ∀ db table pred after, cascade db table pred = .ok after →
      ∀ row ∈ after table, pred row = false)
    {excused : Edge τ γ → Row γ ν → Prop}
    (hresolves : Resolves schema (fun edge child => excused edge child ∨
      (edge ∈ edges ∧ edge.parent = table ∧ edge.orphans gone child = true)) db)
    (h : settle cascade table gone edges db = .ok after) : Resolves schema excused after := by
  induction edges generalizing db with
  | nil =>
      injection h with h
      subst h
      intro edge hedge child hchild
      rcases hresolves edge hedge child hchild with hnull | hparent | hexcused | ⟨hnone, _⟩
      · exact Or.inl hnull
      · exact Or.inr (Or.inl hparent)
      · exact Or.inr (Or.inr hexcused)
      · exact absurd hnone List.not_mem_nil
  | cons first edges ih =>
      -- once a key's orphans are known to be gone, it needs no excuse
      have hsettled : ∀ later : Database τ γ ν,
          Resolves schema (fun edge child => excused edge child ∨
            (edge ∈ first :: edges ∧ edge.parent = table ∧
              edge.orphans gone child = true)) later →
          (first.parent = table → ∀ child ∈ later first.child,
            first.orphans gone child = false) →
          Resolves schema (fun edge child => excused edge child ∨
            (edge ∈ edges ∧ edge.parent = table ∧ edge.orphans gone child = true)) later := by
        intro later hlater hclean edge hedge child hchild
        rcases hlater edge hedge child hchild with
          hnull | hparent | hexcused | ⟨hmem, htable, horphan⟩
        · exact Or.inl hnull
        · exact Or.inr (Or.inl hparent)
        · exact Or.inr (Or.inr (Or.inl hexcused))
        · rcases List.mem_cons.mp hmem with hfirst | hrest
          · rw [hfirst] at htable horphan hchild
            rw [hclean htable child hchild] at horphan
            cases horphan
          · exact Or.inr (Or.inr (Or.inr ⟨hrest, htable, horphan⟩))
      rcases settle_cons h with
        ⟨hparent, hrest⟩ | ⟨_, between, hbetween, hrest⟩ | ⟨_, hclean, hrest⟩
      · exact ih (hsettled db hresolves fun htable => absurd htable hparent) hrest
      · refine ih (hsettled between (hcascade _ _ _ _ _ hresolves hbetween) ?_) hrest
        exact fun _ child hchild => hremoves _ _ _ _ hbetween child hchild
      · exact ih (hsettled db hresolves fun _ => hclean) hrest

theorem delete_resolves {excused : Edge τ γ → Row γ ν → Prop}
    (hresolves : Resolves schema excused db)
    (h : delete schema fuel db table pred = .ok after) : Resolves schema excused after := by
  induction fuel generalizing db table pred after excused with
  | zero => cases h
  | succ fuel ih =>
      refine settle_resolves (fun _ _ _ _ _ hbefore hcascade => ih hbefore hcascade)
        (fun _ _ _ _ hcascade row hrow => delete_removes hcascade hrow) ?_ h
      intro edge hedge child hchild
      rcases hresolves edge hedge child (mem_remove.mp hchild).1 with
        hnull | ⟨parent, hparent, hrefers⟩ | hexcused
      · exact Or.inl hnull
      · by_cases hgone : edge.parent = table ∧ pred parent = true
        · obtain ⟨htable, hpred⟩ := hgone
          refine Or.inr (Or.inr (Or.inr ⟨hedge, htable, ?_⟩))
          refine List.any_eq_true.mpr ⟨parent, List.mem_filter.mpr ⟨?_, hpred⟩, hrefers⟩
          rw [← htable]
          exact hparent
        · refine Or.inr (Or.inl ⟨parent, mem_remove.mpr ⟨hparent, ?_⟩, hrefers⟩)
          intro htable
          rw [← Bool.not_eq_true]
          exact fun hpred => hgone ⟨htable, hpred⟩
      · exact Or.inr (Or.inr (Or.inl hexcused))

/-! ## A deletion stays with one owner -/

variable {owner : γ} {value : ν} {base : Database τ γ ν}

theorem settle_spares (hinherits : Inherits schema owner base)
    (hcascade : ∀ db table pred after, Sub db base →
      (∀ row ∈ db table, pred row = true → row owner = some value) →
      cascade db table pred = .ok after →
      Sub after db ∧ Spares (fun row => row owner = some value) db after)
    (hgone : ∀ row ∈ gone, row ∈ base table ∧ row owner = some value)
    (hedges : ∀ edge ∈ edges, edge ∈ schema) (hsub : Sub db base)
    (h : settle cascade table gone edges db = .ok after) :
    Spares (fun row => row owner = some value) db after := by
  induction edges generalizing db with
  | nil =>
      injection h with h
      exact h ▸ Spares.refl _ db
  | cons edge edges ih =>
      have hrestEdges : ∀ later ∈ edges, later ∈ schema :=
        fun later hlater => hedges later (List.mem_cons_of_mem _ hlater)
      rcases settle_cons h with
        ⟨_, hrest⟩ | ⟨hparent, between, hbetween, hrest⟩ | ⟨_, _, hrest⟩
      · exact ih hrestEdges hsub hrest
      · obtain ⟨hless, hspares⟩ := hcascade _ _ _ _ hsub (fun child hchild horphan =>
          orphans_owned hinherits hsub (hedges edge List.mem_cons_self)
            (hparent ▸ hgone) hchild horphan) hbetween
        exact hspares.trans (ih hrestEdges (hless.trans hsub) hrest)
      · exact ih hrestEdges hsub hrest

theorem delete_spares (hinherits : Inherits schema owner base) (hsub : Sub db base)
    (hpred : ∀ row ∈ db table, pred row = true → row owner = some value)
    (h : delete schema fuel db table pred = .ok after) :
    Spares (fun row => row owner = some value) db after := by
  induction fuel generalizing db table pred after with
  | zero => cases h
  | succ fuel ih =>
      have hrest := settle_spares hinherits (fun _ _ _ _ hless howned hcascade =>
        ⟨(delete_sub hcascade).trans remove_sub, ih hless howned hcascade⟩)
        (gone_owned hsub hpred) (fun _ hedge => hedge) (remove_sub.trans hsub) h
      exact (remove_spares hpred).trans hrest

/-! ## A deletion that is not refused -/

theorem settle_ok {done : List τ} (hinherits : Inherits schema owner base)
    (hcascade : ∀ db table pred, Sub db base → safe schema done fuel table = true →
      (∀ row ∈ db table, pred row = true → row owner = some value) →
      ∃ after, cascade db table pred = .ok after ∧ Sub after db)
    (hdone : ∀ cleared ∈ done, ∀ row ∈ base cleared, row owner ≠ some value)
    (hgone : ∀ row ∈ gone, row ∈ base table ∧ row owner = some value)
    (hsafe : ∀ edge ∈ edges, edge ∈ schema ∧ (edge.parent = table →
      (if edge.cascades then safe schema done fuel edge.child
        else decide (edge.child ∈ done)) = true))
    (hsub : Sub db base) : ∃ after, settle cascade table gone edges db = .ok after := by
  induction edges generalizing db with
  | nil => exact ⟨db, rfl⟩
  | cons edge edges ih =>
      obtain ⟨hedge, hreached⟩ := hsafe edge List.mem_cons_self
      have hrest := fun later hlater => hsafe later (List.mem_cons_of_mem _ hlater)
      rw [settle]
      by_cases hparent : edge.parent = table
      · rw [if_neg (not_not.mpr hparent)]
        have howned : ∀ child ∈ db edge.child, edge.orphans gone child = true →
            child owner = some value := fun child hchild horphan =>
          orphans_owned hinherits hsub hedge (hparent ▸ hgone) hchild horphan
        have hreached := hreached hparent
        by_cases hcascades : edge.cascades = true
        · rw [if_pos hcascades] at hreached ⊢
          obtain ⟨between, hbetween, hless⟩ := hcascade db edge.child _ hsub hreached howned
          rw [hbetween]
          exact ih hrest (hless.trans hsub)
        · rw [if_neg hcascades] at hreached ⊢
          rw [if_neg]
          · exact ih hrest hsub
          · intro horphaned
            obtain ⟨child, hchild, horphan⟩ := List.any_eq_true.mp horphaned
            exact hdone edge.child (of_decide_eq_true hreached) child (hsub _ _ hchild)
              (howned child hchild horphan)
      · rw [if_pos hparent]
        exact ih hrest hsub

theorem delete_ok {done : List τ} (hinherits : Inherits schema owner base)
    (hdone : ∀ cleared ∈ done, ∀ row ∈ base cleared, row owner ≠ some value)
    (hsub : Sub db base) (hsafe : safe schema done fuel table = true)
    (hpred : ∀ row ∈ db table, pred row = true → row owner = some value) :
    ∃ after, delete schema fuel db table pred = .ok after := by
  induction fuel generalizing db table pred with
  | zero => cases hsafe
  | succ fuel ih =>
      have hcascade : ∀ (db : Database τ γ ν) (table : τ) (pred : Row γ ν → Bool),
          Sub db base → safe schema done fuel table = true →
          (∀ row ∈ db table, pred row = true → row owner = some value) →
          ∃ after, delete schema fuel db table pred = .ok after ∧ Sub after db := by
        intro db table pred hless hsafe howned
        obtain ⟨after, hafter⟩ := ih hless hsafe howned
        exact ⟨after, hafter, (delete_sub hafter).trans remove_sub⟩
      refine settle_ok hinherits hcascade hdone (gone_owned hsub hpred) ?_ (remove_sub.trans hsub)
      intro edge hedge
      refine ⟨hedge, ?_⟩
      intro hparent
      have hedgeSafe := List.all_eq_true.mp hsafe edge hedge
      rw [decide_eq_false (not_not.mpr hparent), Bool.false_or] at hedgeSafe
      exact hedgeSafe

/-! ## One statement after another -/

variable {tables done : List τ} {counts : List (τ × Nat)}

theorem deleteEach_cons (h : deleteEach schema fuel pred (table :: tables) db =
      .ok (counts, after)) :
    ∃ between rest, delete schema fuel db table pred = .ok between ∧
      deleteEach schema fuel pred tables between = .ok (rest, after) ∧
      counts = (table, ((db table).filter pred).length) :: rest := by
  rw [deleteEach] at h
  split at h
  · cases h
  · next between hbetween =>
      split at h
      · cases h
      · next rest later hrest =>
          injection h with h
          obtain ⟨hcounts, hafter⟩ := Prod.mk.inj h
          exact ⟨between, rest, hbetween, hafter ▸ hrest, hcounts.symm⟩

theorem deleteEach_sub (h : deleteEach schema fuel pred tables db = .ok (counts, after)) :
    Sub after db := by
  induction tables generalizing db counts with
  | nil =>
      injection h with h
      exact (Prod.mk.inj h).2 ▸ Sub.refl db
  | cons table tables ih =>
      obtain ⟨between, rest, hbetween, hrest, _⟩ := deleteEach_cons h
      exact (ih hrest).trans ((delete_sub hbetween).trans remove_sub)

theorem deleteEach_removes (h : deleteEach schema fuel pred tables db = .ok (counts, after)) :
    ∀ table ∈ tables, ∀ row ∈ after table, pred row = false := by
  induction tables generalizing db counts with
  | nil => exact fun _ hnone => absurd hnone List.not_mem_nil
  | cons first tables ih =>
      obtain ⟨between, rest, hbetween, hrest, _⟩ := deleteEach_cons h
      intro table htable row hrow
      rcases List.mem_cons.mp htable with hfirst | hlater
      · rw [hfirst] at hrow
        exact delete_removes hbetween (deleteEach_sub hrest _ _ hrow)
      · exact ih hrest table hlater row hrow

theorem deleteEach_resolves {excused : Edge τ γ → Row γ ν → Prop}
    (hresolves : Resolves schema excused db)
    (h : deleteEach schema fuel pred tables db = .ok (counts, after)) :
    Resolves schema excused after := by
  induction tables generalizing db counts with
  | nil =>
      injection h with h
      exact (Prod.mk.inj h).2 ▸ hresolves
  | cons table tables ih =>
      obtain ⟨between, rest, hbetween, hrest, _⟩ := deleteEach_cons h
      exact ih (delete_resolves hresolves hbetween) hrest

theorem deleteEach_spares (hinherits : Inherits schema owner base) (hsub : Sub db base)
    (h : deleteEach schema fuel (owned owner value) tables db = .ok (counts, after)) :
    Spares (fun row => row owner = some value) db after := by
  induction tables generalizing db counts with
  | nil =>
      injection h with h
      exact (Prod.mk.inj h).2 ▸ Spares.refl _ db
  | cons table tables ih =>
      obtain ⟨between, rest, hbetween, hrest, _⟩ := deleteEach_cons h
      have hspares := delete_spares hinherits hsub (fun _ _ => owned_iff.mp) hbetween
      exact hspares.trans (ih ((delete_sub hbetween).trans (remove_sub.trans hsub)) hrest)

/-- An order checked against the schema is carried out to its end. -/
theorem deleteEach_ok (hinherits : Inherits schema owner db)
    (hdone : ∀ cleared ∈ done, ∀ row ∈ db cleared, row owner ≠ some value)
    (hadmits : admits schema fuel done tables = true) :
    ∃ counts after,
      deleteEach schema fuel (owned owner value) tables db = .ok (counts, after) := by
  induction tables generalizing db done with
  | nil => exact ⟨[], db, rfl⟩
  | cons table tables ih =>
      obtain ⟨hsafe, hlater⟩ := Bool.and_eq_true_iff.mp hadmits
      obtain ⟨between, hbetween⟩ :=
        delete_ok hinherits hdone (Sub.refl db) hsafe (fun _ _ hrow => owned_iff.mp hrow)
      have hless := (delete_sub hbetween).trans remove_sub
      have hcleared : ∀ cleared ∈ table :: done, ∀ row ∈ between cleared,
          row owner ≠ some value := by
        intro cleared hcleared row hrow howned
        rcases List.mem_cons.mp hcleared with hfirst | hbefore
        · rw [hfirst] at hrow
          have hremoved := delete_removes hbetween hrow
          rw [owned_iff.mpr howned] at hremoved
          cases hremoved
        · exact hdone cleared hbefore row (hless cleared row hrow) howned
      obtain ⟨counts, after, hrest⟩ := ih (hinherits.of_sub hless) hcleared hlater
      rw [deleteEach, hbetween]
      simp only [hrest]
      exact ⟨_, _, rfl⟩

theorem admits_prefix {later : List τ} (h : admits schema fuel done (tables ++ later) = true) :
    admits schema fuel done tables = true := by
  induction tables generalizing done with
  | nil => rfl
  | cons table tables ih =>
      obtain ⟨hsafe, hrest⟩ := Bool.and_eq_true_iff.mp h
      exact Bool.and_eq_true_iff.mpr ⟨hsafe, ih hrest⟩

end Deletion

end ForeignKeys
