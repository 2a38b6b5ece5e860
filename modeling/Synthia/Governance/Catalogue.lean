import Mathlib.Data.Prod.Lex
import Mathlib.Data.String.Basic
import Synthia.Execution.Idempotency
import Synthia.Persistence.Governance
import Synthia.Proofs.Keys

/-!
# A catalogue known in advance

`governance.catalogue.Catalogue`. The entries are a dictionary from the pair of catalogue
id and version, in the order they were given; a second record under a pair is refused.
Iteration sorts by the text of the identity.
-/

namespace Synthia

open Relational

/-- `(catalogue_id, version)`. -/
def CatalogueRecord.key (record : CatalogueRecord) : String × Int :=
  (record.identity.catalogueId, record.identity.version)

/-- The `CatalogueRecordError` of a second record under one identity. -/
structure SharedIdentityError where
  identity : OperationIdentity
  deriving DecidableEq, Repr

def SharedIdentityError.message (error : SharedIdentityError) : String :=
  "two catalogue records share the identity " ++ error.identity.text

abbrev Catalogue := Table CatalogueRecord CatalogueRecord.key

namespace Catalogue

/-- One turn of the loop in `of`. -/
def add (entries : Catalogue) (record : CatalogueRecord) :
    Except SharedIdentityError Catalogue :=
  if hfresh : record.key ∉ entries.rows.map CatalogueRecord.key then
    .ok (entries.insert record hfresh)
  else
    .error ⟨record.identity⟩

def of (records : List CatalogueRecord) : Except SharedIdentityError Catalogue :=
  records.foldlM add ⟨[], List.nodup_nil⟩

def find (catalogue : Catalogue) (identity : OperationIdentity) : Option CatalogueRecord :=
  Table.find catalogue (identity.catalogueId, identity.version)

/-- `__iter__`. -/
def iter (catalogue : Catalogue) : List CatalogueRecord :=
  orderBy (fun record => record.identity.text) catalogue.rows

end Catalogue

end Synthia

/-!
## A catalogue as an ordered map

`of` takes its records one after the other and refuses the first whose pair is there
already, so it answers with all of them, in their order, exactly when no pair is shared.
`find` is then a lookup in a table told apart by that pair.

Iteration sorts by the text of an identity and promises catalogue id, then version. The
text tells identities apart, so neither order has ties, and the sorted list is in the
promised order exactly where the two orders agree on the records. They part at versions
of different length, `"a@10" < "a@2"`, and at an id that goes on, behind another id, with
a character below the `@`.
-/

namespace Synthia

open Relational

/-- Catalogue id, then version. -/
def CatalogueRecord.place (record : CatalogueRecord) : String ×ₗ Int := toLex record.key

theorem CatalogueRecord.key_inj {a b : CatalogueRecord} :
    a.key = b.key ↔ a.identity = b.identity := by
  unfold CatalogueRecord.key
  constructor
  · intro h
    injection h with hid hversion
    cases ha : a.identity
    cases hb : b.identity
    rw [ha, hb] at hid hversion
    dsimp only at hid hversion
    rw [hid, hversion]
  · intro h
    rw [h]

namespace Catalogue

/-! ### Building one -/

theorem add_eq_ok {entries next : Catalogue} {record : CatalogueRecord} :
    add entries record = .ok next ↔
      record.key ∉ entries.rows.map CatalogueRecord.key ∧
        next.rows = entries.rows ++ [record] := by
  unfold add
  split
  · next hfresh =>
      constructor
      · intro h
        injection h with h
        exact ⟨hfresh, h ▸ rfl⟩
      · rintro ⟨_, hrows⟩
        obtain ⟨rows, unique⟩ := next
        dsimp only at hrows
        subst hrows
        rfl
  · next hpresent =>
      constructor
      · intro h
        cases h
      · exact fun h => absurd h.1 hpresent

/-- The loop, from any entries: it ends well exactly when no pair comes up twice. -/
theorem foldlM_add_eq_ok (records : List CatalogueRecord) {entries last : Catalogue} :
    records.foldlM add entries = .ok last ↔
      ((entries.rows ++ records).map CatalogueRecord.key).Nodup ∧
        last.rows = entries.rows ++ records := by
  induction records generalizing entries with
  | nil =>
      rw [List.append_nil]
      constructor
      · intro h
        injection h with h
        exact ⟨entries.unique, h ▸ rfl⟩
      · rintro ⟨_, hrows⟩
        obtain ⟨rows, unique⟩ := last
        dsimp only at hrows
        subst hrows
        rfl
  | cons record records ih =>
      rw [List.foldlM_cons]
      cases hadd : add entries record with
      | error e =>
          constructor
          · intro h
            cases h
          · rintro ⟨hnodup, _⟩
            have hfresh : record.key ∉ entries.rows.map CatalogueRecord.key := by
              intro hmem
              rw [List.map_append, List.map_cons, List.nodup_append] at hnodup
              exact hnodup.2.2 _ hmem _ List.mem_cons_self rfl
            have hok : add entries record = .ok (entries.insert record hfresh) :=
              add_eq_ok.mpr ⟨hfresh, rfl⟩
            rw [hok] at hadd
            cases hadd
      | ok next =>
          obtain ⟨_, hrows⟩ := add_eq_ok.mp hadd
          show records.foldlM add next = .ok last ↔ _
          rw [ih, hrows, List.append_assoc]
          rfl

theorem of_eq_ok {records : List CatalogueRecord} {catalogue : Catalogue} :
    of records = .ok catalogue ↔
      (records.map CatalogueRecord.key).Nodup ∧ catalogue.rows = records :=
  foldlM_add_eq_ok records

theorem of_eq_error {records : List CatalogueRecord} :
    (∃ error, of records = .error error) ↔ ¬ (records.map CatalogueRecord.key).Nodup := by
  constructor
  · rintro ⟨error, herror⟩ hnodup
    have hok : of records = .ok ⟨records, hnodup⟩ := of_eq_ok.mpr ⟨hnodup, rfl⟩
    rw [hok] at herror
    cases herror
  · intro hshared
    cases hof : of records with
    | error error => exact ⟨error, rfl⟩
    | ok catalogue => exact absurd (of_eq_ok.mp hof).1 hshared

theorem find_eq_some {catalogue : Catalogue} {identity : OperationIdentity}
    {record : CatalogueRecord} :
    catalogue.find identity = some record ↔
      record ∈ catalogue.rows ∧ record.identity = identity := by
  unfold find
  rw [Table.find_eq_some]
  refine and_congr_right fun _ => ?_
  constructor
  · intro h
    have hsame : record.key = (identity.catalogueId, identity.version) := h
    unfold CatalogueRecord.key at hsame
    injection hsame with hid hversion
    obtain ⟨catalogueId, version⟩ := identity
    dsimp only at hid hversion
    rw [← hid, ← hversion]
  · rintro rfl
    rfl

/-! ### The order -/

/-- What a catalogue built from the records promises. -/
structure ActsAsOrderedMap (records : List CatalogueRecord) : Prop where
  refuses : (∃ error, of records = .error error) ↔
    ¬ (records.map fun record => record.identity).Nodup
  finds : ∀ catalogue, of records = .ok catalogue → ∀ identity record,
    catalogue.find identity = some record ↔ record ∈ records ∧ record.identity = identity
  lists : ∀ catalogue, of records = .ok catalogue → catalogue.iter.Perm records
  orders : ∀ catalogue, of records = .ok catalogue →
    catalogue.iter.Pairwise fun a b => a.place < b.place

theorem place_lt_iff {a b : CatalogueRecord} : a.place < b.place ↔
    a.identity.catalogueId < b.identity.catalogueId ∨
      (a.identity.catalogueId = b.identity.catalogueId ∧
        a.identity.version < b.identity.version) :=
  Prod.Lex.toLex_lt_toLex

theorem nodup_keys_iff {records : List CatalogueRecord} :
    (records.map CatalogueRecord.key).Nodup ↔
      (records.map fun record => record.identity).Nodup := by
  rw [List.Nodup, List.pairwise_map, List.Nodup, List.pairwise_map]
  refine Iff.intro (List.Pairwise.imp ?_) (List.Pairwise.imp ?_)
  · exact fun h heq => h (CatalogueRecord.key_inj.mpr heq)
  · exact fun h heq => h (CatalogueRecord.key_inj.mp heq)

/-- A catalogue acts as an ordered map if and only if, of two of its records, the first
by id and version is the first by text. -/
theorem acts_as_ordered_map_iff (records : List CatalogueRecord) :
    ActsAsOrderedMap records ↔
      ((records.map fun record => record.identity).Nodup →
        ∀ a ∈ records, ∀ b ∈ records, a.place < b.place →
          a.identity.text < b.identity.text) := by
  have horder : ∀ catalogue, of records = .ok catalogue →
      ((catalogue.iter.Pairwise fun a b => a.place < b.place) ↔
        ∀ a ∈ records, ∀ b ∈ records, a.place < b.place →
          a.identity.text < b.identity.text) := by
    intro catalogue hof
    obtain ⟨hnodup, hrows⟩ := of_eq_ok.mp hof
    have hsame : ∀ a ∈ records, ∀ b ∈ records, a.key = b.key → a = b :=
      fun a ha b hb hkey => List.inj_on_of_nodup_map hnodup ha hb hkey
    unfold iter
    rw [hrows]
    refine orderBy_pairwise_lt_iff (List.Nodup.of_map _ hnodup) ?_ ?_
    · intro a ha b hb htext
      exact hsame a ha b hb (CatalogueRecord.key_inj.mpr
        (OperationIdentity.text_injective htext))
    · exact fun a ha b hb hplace => hsame a ha b hb (toLex.injective hplace)
  constructor
  · intro h hnodup
    have hof : of records = .ok ⟨records, nodup_keys_iff.mpr hnodup⟩ :=
      of_eq_ok.mpr ⟨nodup_keys_iff.mpr hnodup, rfl⟩
    exact (horder _ hof).mp (h.orders _ hof)
  · intro h
    refine ⟨of_eq_error.trans (not_congr nodup_keys_iff), ?_, ?_, ?_⟩
    · intro catalogue hof identity record
      rw [find_eq_some, (of_eq_ok.mp hof).2]
    · intro catalogue hof
      unfold iter
      rw [(of_eq_ok.mp hof).2]
      exact orderBy_perm _ _
    · intro catalogue hof
      exact (horder catalogue hof).mpr (h (nodup_keys_iff.mp (of_eq_ok.mp hof).1))

/-- An inert record under a version of one name. -/
def versioned (version : Int) : CatalogueRecord where
  identity := ⟨"fixture.echo", version⟩
  treatment := .auto
  acceptedRoles := ⟨∅⟩
  kind := .read
  isReferenceFixture := true
  requiresElevation := false
  riskTier := .informational
  commands := none
  contentHash := none
  verificationTool := none

theorem versioned_distinct :
    ([versioned 2, versioned 10].map CatalogueRecord.key).Nodup := by
  decide

theorem iter_versioned : iter ⟨[versioned 2, versioned 10], versioned_distinct⟩ =
    [versioned 10, versioned 2] := by
  decide +kernel

theorem tenth_version_first : ¬ ∀ records, ActsAsOrderedMap records := by
  intro h
  have hof : of [versioned 2, versioned 10] = .ok ⟨_, versioned_distinct⟩ :=
    of_eq_ok.mpr ⟨versioned_distinct, rfl⟩
  have horder := (h _).orders _ hof
  rw [iter_versioned, List.pairwise_cons] at horder
  have hlt := horder.1 (versioned 2) List.mem_cons_self
  rw [place_lt_iff] at hlt
  revert hlt
  decide +kernel

end Catalogue

end Synthia
