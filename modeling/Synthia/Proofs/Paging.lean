import Synthia.ReadModels.Keyset

/-!
# What following the continuation reads

A page is cut from an ordered query, and the next one resumes behind the value and
the identifier of its last row. Where a column can be compared at all and its values
survive being written into a cursor, the pages are a walk of the keyset library: the
places of the rows are ordered by the column and then by the identifier, and the test
is the strict comparison wherever neither side is null.

That settles the columns that are never null. Their test is the order, so a walk is
ordered and free of repetition whatever happens to the collection, and one that ends
has read everything that stayed. A column with nulls has two kinds of rows, and the
test never leads from one to the other: what a walk reads depends on which of them its
first page ends in. A column that holds an enumeration has no comparison, and the
second request fails.
-/

namespace Synthia

open Text Relational

/-! ## Values come back out of a cursor -/

namespace KeysetValues

theorem ofLocalTicks_ticks (value : DateTimeOffset) :
    ofLocalTicks (value.ticks : Int) = some value := by
  rw [ofLocalTicks, dif_pos ⟨Int.natCast_nonneg _, by simpa using value.bounded⟩]
  simp

theorem parseTimestamp_render (value : DateTimeOffset) :
    parseTimestamp (render value) = .ok value := by
  have hseconds : value.ticks / 10000000 < Calendar.dayLimit * 86400 := by
    have hbounded := value.bounded
    unfold tickLimit at hbounded
    omega
  have hfraction : value.ticks % 10000000 < 10 ^ 7 := by omega
  have hoffset : readOffset (ofString "+00:00") = some 0 := by decide +kernel
  have hticks : ((value.ticks / 10000000 : Nat) : Int) * 10000000 +
      ((value.ticks % 10000000 : Nat) : Int) - 0 * 600000000 = (value.ticks : Int) := by omega
  have hread : readTimestamp (render value) = some value := by
    rw [readTimestamp, render, Calendar.readSeconds_secondsText hseconds]
    simp only [Option.bind_eq_bind, Option.bind_some, Calendar.expect_cons]
    rw [Calendar.readPad_pad hfraction, Option.bind_some, hoffset, Option.bind_some, hticks,
      ofLocalTicks_ticks]
  rw [parseTimestamp, hread]

theorem parseNullableTimestamp_render (value : Option DateTimeOffset) :
    parseNullableTimestamp (renderNullable value) = .ok value := by
  cases value with
  | none => rfl
  | some value =>
      have hne : (render value).isEmpty = false := by
        rw [List.isEmpty_eq_false_iff_exists_mem]
        exact ⟨0x2E, by simp [render]⟩
      rw [parseNullableTimestamp, if_neg (by rw [renderNullable, hne]; exact Bool.false_ne_true),
        renderNullable, parseTimestamp_render]
      rfl

theorem parseEnum_sessionState (state : SessionState) :
    parseEnum (renderEnum (sessionStateNumber state)) = .ok (sessionStateNumber state) := by
  cases state <;> decide +kernel

theorem parseEnum_tenantStatus (status : TenantStatus) :
    parseEnum (renderEnum (tenantStatusNumber status)) = .ok (tenantStatusNumber status) := by
  cases status <;> decide +kernel

end KeysetValues

/-- A sort key whose rendering its own parser undoes, on the rows it sorts. -/
def KeysetSortKey.ReadsBack {Row : Type} (key : KeysetSortKey Row) : Prop :=
  ∀ row, key.parse (key.render (key.selector row)) = .ok (key.selector row)

section ReadsBack

variable {Row : Type} (field : String) (identity : Row → Uuid)

theorem readsBack_timestamp (selector : Row → DateTimeOffset) :
    KeysetSortKey.ReadsBack ⟨field, .dateTimeOffset, selector, identity, KeysetValues.render,
      KeysetValues.parseTimestamp⟩ :=
  fun row => KeysetValues.parseTimestamp_render (selector row)

theorem readsBack_nullable (selector : Row → Option DateTimeOffset) :
    KeysetSortKey.ReadsBack ⟨field, .nullableDateTimeOffset, selector, identity,
      KeysetValues.renderNullable, KeysetValues.parseNullableTimestamp⟩ :=
  fun row => KeysetValues.parseNullableTimestamp_render (selector row)

theorem readsBack_sessionState (selector : Row → SessionState) :
    KeysetSortKey.ReadsBack ⟨field, .sessionState, fun row => sessionStateNumber (selector row),
      identity, KeysetValues.renderEnum, KeysetValues.parseEnum⟩ := by
  intro row
  dsimp only
  exact KeysetValues.parseEnum_sessionState (selector row)

theorem readsBack_tenantStatus (selector : Row → TenantStatus) :
    KeysetSortKey.ReadsBack ⟨field, .tenantStatus, fun row => tenantStatusNumber (selector row),
      identity, KeysetValues.renderEnum, KeysetValues.parseEnum⟩ := by
  intro row
  dsimp only
  exact KeysetValues.parseEnum_tenantStatus (selector row)

theorem readsBack_text (selector : Row → List CodePoint) :
    KeysetSortKey.ReadsBack ⟨field, .string, selector, identity, KeysetValues.renderText,
      KeysetValues.parseText⟩ :=
  fun _ => rfl

end ReadsBack

theorem readsBack_of_mem {field : Σ Row : Type, KeysetSortKey Row} (h : field ∈ sortKeys) :
    field.2.ReadsBack := by
  simp only [sortKeys, SessionSortKeys.summaries, SessionSortKeys.messages,
    ApprovalSortKeys.queue, ApprovalSortKeys.unexecuted, AuditSortKeys.events,
    TenantSortKeys.tenants, List.map_cons, List.map_nil, List.cons_append, List.nil_append,
    List.mem_cons, List.not_mem_nil, or_false] at h
  rcases h with rfl | rfl | rfl | rfl | rfl | rfl | rfl | rfl | rfl | rfl | rfl
  · exact readsBack_timestamp _ _ _
  · exact readsBack_timestamp _ _ _
  · exact readsBack_sessionState _ _ _
  · exact readsBack_timestamp _ _ _
  · exact readsBack_timestamp _ _ _
  · exact readsBack_nullable _ _ _
  · exact readsBack_timestamp _ _ _
  · exact readsBack_nullable _ _ _
  · exact readsBack_timestamp _ _ _
  · exact readsBack_text _ _ _
  · exact readsBack_tenantStatus _ _ _

/-! ## The order and the test -/

namespace KeysetSortKey

variable {Row : Type} (db : Database) (key : KeysetSortKey Row)

/-- A row's place among the others, as a direction orders them. -/
def Place : KeysetDirection → Type
  | .ascending => db.Rank key.type ×ₗ Nat
  | .descending => (db.Rank key.type ×ₗ Nat)ᵒᵈ

instance : (direction : KeysetDirection) → LinearOrder (key.Place db direction)
  | .ascending => inferInstanceAs (LinearOrder (db.Rank key.type ×ₗ Nat))
  | .descending => inferInstanceAs (LinearOrder (db.Rank key.type ×ₗ Nat)ᵒᵈ)

def place : (direction : KeysetDirection) → Row → key.Place db direction
  | .ascending, row => key.position db row
  | .descending, row => OrderDual.toDual (key.position db row)

/-- The predicate `After` builds from the anchor of a row. -/
def beyondRow (direction : KeysetDirection) (anchor row : Row) : Bool :=
  db.beyond key.type direction (key.selector row) (key.selector anchor) ||
    (db.equal key.type (key.selector row) (key.selector anchor) &&
      db.beyond .guid direction (key.identity row) (key.identity anchor))

variable {db key} {direction : KeysetDirection}

theorem order_eq (source : List Row) :
    key.order db source direction = orderBy (key.place db direction) source := by
  cases direction <;> rfl

theorem place_inj {a b : Row} (h : key.place db direction a = key.place db direction b) :
    key.identity a = key.identity b ∧
      db.rank key.type (key.selector a) = db.rank key.type (key.selector b) := by
  have hposition : key.position db a = key.position db b := by
    cases direction with
    | ascending => exact h
    | descending => exact h
  have hpair := toLex.injective hposition
  rw [Prod.mk.injEq] at hpair
  exact ⟨BitVec.eq_of_toNat_eq hpair.2, hpair.1⟩

theorem nodup_place {rows : List Row} (h : (rows.map key.identity).Nodup) :
    (rows.map (key.place db direction)).Nodup := by
  rw [List.Nodup, List.pairwise_map] at h ⊢
  exact h.imp fun hne heq => hne (place_inj heq).1

theorem place_lt_ascending {a b : Row} :
    key.place db .ascending a < key.place db .ascending b ↔
      db.rank key.type (key.selector a) < db.rank key.type (key.selector b) ∨
        db.rank key.type (key.selector b) = db.rank key.type (key.selector a) ∧
          (key.identity a).toNat < (key.identity b).toNat := by
  rw [eq_comm]
  exact Prod.Lex.toLex_lt_toLex

theorem place_lt_descending {a b : Row} :
    key.place db .descending a < key.place db .descending b ↔
      db.rank key.type (key.selector b) < db.rank key.type (key.selector a) ∨
        db.rank key.type (key.selector b) = db.rank key.type (key.selector a) ∧
          (key.identity b).toNat < (key.identity a).toNat :=
  Prod.Lex.toLex_lt_toLex

/-! ### Nulls -/

theorem rank_lt_of_null {type : ClrType} {a b : type.Value} (ha : type.isNull a = false)
    (hb : type.isNull b = true) : db.rank type a < db.rank type b := by
  cases type with
  | nullableDateTimeOffset =>
      cases a with
      | none => cases ha
      | some a =>
          cases b with
          | none => exact WithTop.coe_lt_top a.ticks
          | some b => cases hb
  | dateTimeOffset | string | guid | sessionState | tenantStatus => cases hb

theorem rank_eq_of_nulls {type : ClrType} {a b : type.Value} (ha : type.isNull a = true)
    (hb : type.isNull b = true) : db.rank type a = db.rank type b := by
  cases type with
  | nullableDateTimeOffset =>
      cases a with
      | none =>
          cases b with
          | none => rfl
          | some b => cases hb
      | some a => cases ha
  | dateTimeOffset | string | guid | sessionState | tenantStatus => cases hb

section Tests

variable {type : ClrType} {left right : type.Value}

theorem beyond_ascending (hleft : type.isNull left = false) (hright : type.isNull right = false) :
    db.beyond type .ascending left right = decide (db.rank type right < db.rank type left) := by
  rw [Database.beyond, hleft, hright]
  rfl

theorem beyond_descending (hleft : type.isNull left = false)
    (hright : type.isNull right = false) :
    db.beyond type .descending left right = decide (db.rank type left < db.rank type right) := by
  rw [Database.beyond, hleft, hright]
  rfl

theorem beyond_of_null (h : type.isNull left = true ∨ type.isNull right = true) :
    db.beyond type direction left right = false := by
  rcases h with h | h
  · simp only [Database.beyond, h, Bool.not_true, Bool.false_and]
  · simp only [Database.beyond, h, Bool.not_true, Bool.and_false, Bool.false_and]

theorem equal_of_values (hleft : type.isNull left = false) (hright : type.isNull right = false) :
    db.equal type left right = decide (db.rank type left = db.rank type right) := by
  rw [Database.equal, if_neg (by simp [hleft, hright])]

theorem equal_of_nulls (hleft : type.isNull left = true) (hright : type.isNull right = true) :
    db.equal type left right = db.nullIsNull := by
  rw [Database.equal, if_pos (by simp [hleft]), hleft, hright, Bool.and_true, Bool.and_true]

theorem equal_of_ne (h : type.isNull left ≠ type.isNull right) :
    db.equal type left right = false := by
  cases hleft : type.isNull left <;> cases hright : type.isNull right
  · exact absurd (hleft.trans hright.symm) h
  · simp [Database.equal, hleft, hright]
  · simp [Database.equal, hleft, hright]
  · exact absurd (hleft.trans hright.symm) h

end Tests

theorem beyond_guid_ascending (a b : Uuid) :
    db.beyond .guid .ascending a b = decide (b.toNat < a.toNat) := rfl

theorem beyond_guid_descending (a b : Uuid) :
    db.beyond .guid .descending a b = decide (a.toNat < b.toNat) := rfl

/-- Between two values the test is the order. -/
theorem beyondRow_of_values {a b : Row} (ha : key.type.isNull (key.selector a) = false)
    (hb : key.type.isNull (key.selector b) = false) :
    key.beyondRow db direction a b = true ↔
      key.place db direction a < key.place db direction b := by
  cases direction with
  | ascending =>
      rw [place_lt_ascending, beyondRow, beyond_ascending hb ha, equal_of_values hb ha,
        beyond_guid_ascending]
      simp only [Bool.or_eq_true, Bool.and_eq_true, decide_eq_true_eq]
  | descending =>
      rw [place_lt_descending, beyondRow, beyond_descending hb ha, equal_of_values hb ha,
        beyond_guid_descending]
      simp only [Bool.or_eq_true, Bool.and_eq_true, decide_eq_true_eq]

/-- Between two nulls the identifiers decide, if the equality is one that holds. -/
theorem beyondRow_of_nulls {a b : Row} (ha : key.type.isNull (key.selector a) = true)
    (hb : key.type.isNull (key.selector b) = true) :
    key.beyondRow db direction a b = true ↔
      db.nullIsNull = true ∧ key.place db direction a < key.place db direction b := by
  have hrank : db.rank key.type (key.selector b) = db.rank key.type (key.selector a) :=
    rank_eq_of_nulls hb ha
  rw [beyondRow, beyond_of_null (Or.inl hb), equal_of_nulls hb ha, Bool.false_or,
    Bool.and_eq_true]
  refine and_congr_right fun _ => ?_
  cases direction with
  | ascending =>
      rw [place_lt_ascending, beyond_guid_ascending, decide_eq_true_eq, hrank]
      simp only [lt_irrefl, true_and, false_or]
  | descending =>
      rw [place_lt_descending, beyond_guid_descending, decide_eq_true_eq, hrank]
      simp only [lt_irrefl, true_and, false_or]

/-- A null and a value are never behind each other. -/
theorem beyondRow_of_ne {a b : Row}
    (hne : key.type.isNull (key.selector b) ≠ key.type.isNull (key.selector a)) :
    key.beyondRow db direction a b = false := by
  have hnull : key.type.isNull (key.selector b) = true ∨
      key.type.isNull (key.selector a) = true := by
    by_contra hboth
    rw [not_or, Bool.not_eq_true, Bool.not_eq_true] at hboth
    exact hne (hboth.1.trans hboth.2.symm)
  rw [beyondRow, beyond_of_null hnull, equal_of_ne hne, Bool.false_and, Bool.or_false]

/-- Whether a row is of the kind a direction puts in front: values, or nulls. -/
def inFront (key : KeysetSortKey Row) (direction : KeysetDirection) (row : Row) : Bool :=
  match direction with
  | .ascending => !key.type.isNull (key.selector row)
  | .descending => key.type.isNull (key.selector row)

/-- Whether rows of a kind can be read on: values can, and nulls where null is null. -/
def readOn (db : Database) : KeysetDirection → Bool → Bool
  | .ascending, front => front || db.nullIsNull
  | .descending, front => !front || db.nullIsNull

theorem inFront_lt {a b : Row} (ha : key.inFront direction a = true)
    (hb : key.inFront direction b = false) :
    key.place db direction a < key.place db direction b := by
  cases direction with
  | ascending =>
      simp only [inFront, Bool.not_eq_true', Bool.not_eq_false'] at ha hb
      exact place_lt_ascending.mpr (Or.inl (rank_lt_of_null ha hb))
  | descending =>
      simp only [inFront] at ha hb
      exact place_lt_descending.mpr (Or.inl (rank_lt_of_null hb ha))

theorem beyondRow_iff {a b : Row} :
    key.beyondRow db direction a b = true ↔
      key.inFront direction b = key.inFront direction a ∧
        readOn db direction (key.inFront direction a) = true ∧
          key.place db direction a < key.place db direction b := by
  have hkind : key.inFront direction b = key.inFront direction a ↔
      key.type.isNull (key.selector b) = key.type.isNull (key.selector a) := by
    cases direction <;> simp [inFront]
  have hreadOn : readOn db direction (key.inFront direction a) =
      (!key.type.isNull (key.selector a) || db.nullIsNull) := by
    cases direction <;> simp [inFront, readOn]
  rw [hkind, hreadOn]
  by_cases hsame : key.type.isNull (key.selector b) = key.type.isNull (key.selector a)
  · cases ha : key.type.isNull (key.selector a) with
    | false => simp [beyondRow_of_values ha (hsame.trans ha), hsame, ha]
    | true => simp [beyondRow_of_nulls ha (hsame.trans ha), hsame, ha]
  · rw [beyondRow_of_ne hsame]
    exact ⟨fun h => absurd h Bool.false_ne_true, fun h => absurd h.1 hsame⟩

end KeysetSortKey

/-! ## The pages are a walk -/

section Pages

variable {Row : Type} {db : Database} {key : KeysetSortKey Row} {direction : KeysetDirection}
  {limit : Nat}

theorem after_anchorOf (henum : key.type.isEnum = false) (hreads : key.ReadsBack)
    (source : List Row) (anchor : Row) :
    key.after db source direction (key.anchorOf anchor) =
      .ok (source.filter (key.beyondRow db direction anchor)) := by
  have hcompare : KeysetSortKey.compare db key.type direction =
      .ok (db.beyond key.type direction) := by
    rw [KeysetSortKey.compare, henum]
    rfl
  simp only [KeysetSortKey.after, KeysetSortKey.anchorOf, hreads anchor, hcompare]
  rfl

/-- An enumeration has no comparison, whatever its values are. -/
theorem after_enum (henum : key.type.isEnum = true) (hreads : key.ReadsBack)
    (source : List Row) (anchor : Row) :
    key.after db source direction (key.anchorOf anchor) = .error .invalidOperation := by
  have hcompare : KeysetSortKey.compare db key.type direction = .error .invalidOperation := by
    rw [KeysetSortKey.compare, henum]
    rfl
  simp only [KeysetSortKey.after, KeysetSortKey.anchorOf, hreads anchor, hcompare]
  rfl

/-- What a page is once its query is built. -/
theorem takeAsync_of_resumed (hlimit : 1 ≤ limit) {source query : List Row}
    {anchor : Option KeysetAnchor}
    (hquery : key.resumed db source direction anchor = .ok query) :
    takeAsync db source key direction anchor limit =
      .ok ⟨(Keyset.cut limit (orderBy (key.place db direction) query)).rows,
        (Keyset.cut limit (orderBy (key.place db direction) query)).next.map key.anchorOf⟩ := by
  rw [takeAsync, if_neg (Nat.not_lt.mpr hlimit), hquery]
  show key.slice limit ((key.order db query direction).take (limit + 1)) = _
  rw [KeysetSortKey.order_eq, KeysetSortKey.slice]
  rcases Keyset.cut_cases hlimit (orderBy (key.place db direction) query) with
    ⟨hall, hcut⟩ | ⟨before, last, rest, hfound, hrest, hlength, hcut⟩
  · rw [List.take_of_length_le (by omega), if_pos hall, hcut]
    rfl
  · have hlonger : ¬ ((orderBy (key.place db direction) query).take (limit + 1)).length ≤
        limit := by
      rw [List.length_take, hfound, List.length_append, List.length_append,
        List.length_singleton]
      have := List.length_pos_of_ne_nil hrest
      omega
    have hpage : ((orderBy (key.place db direction) query).take (limit + 1)).take limit =
        before ++ [last] := by
      rw [List.take_take, Nat.min_eq_left (Nat.le_succ limit), hfound,
        List.take_left' (by rw [List.length_append, List.length_singleton, hlength])]
    rw [if_neg hlonger, hpage, hcut, List.getLast?_append, List.getLast?_singleton]
    rfl

variable (db direction) in
theorem takeAsync_eq (hlimit : 1 ≤ limit) (henum : key.type.isEnum = false)
    (hreads : key.ReadsBack) (source : List Row) (anchor : Option Row) :
    takeAsync db source key direction (anchor.map key.anchorOf) limit =
      .ok ⟨(Keyset.page (key.place db direction) (key.beyondRow db direction) limit anchor
          source).rows,
        (Keyset.page (key.place db direction) (key.beyondRow db direction) limit anchor
          source).next.map key.anchorOf⟩ := by
  refine takeAsync_of_resumed hlimit ?_
  cases anchor with
  | none => rfl
  | some anchor => exact after_anchorOf henum hreads source anchor

variable (db direction) in
/-- Following the continuation is walking. -/
theorem follow_eq (hlimit : 1 ≤ limit) (henum : key.type.isEnum = false)
    (hreads : key.ReadsBack) (anchor : Option Row) (collections : List (List Row)) :
    follow db key direction limit (anchor.map key.anchorOf) collections =
      .ok (Keyset.walk (key.place db direction) (key.beyondRow db direction) limit anchor
        collections) := by
  induction collections generalizing anchor with
  | nil => rfl
  | cons source later ih =>
      rw [follow, takeAsync_eq db direction hlimit henum hreads]
      cases hpage : Keyset.page (key.place db direction) (key.beyondRow db direction) limit anchor
        source with
      | mk rows next =>
          cases next with
          | none =>
              rw [Keyset.walk_cons_of_none hpage]
              rfl
          | some last =>
              rw [Keyset.walk_cons_of_some hpage]
              have ih := ih (some last)
              rw [Option.map_some] at ih
              simp only [Option.map_some]
              show (do
                let rest ← follow db key direction limit (some (key.anchorOf last)) later
                return (rows ++ rest.1, rest.2)) = _
              rw [ih]
              rfl

end Pages

/-! ## A collection nobody touches -/

section Unchanged

variable {Row : Type} (db : Database) (key : KeysetSortKey Row) (direction : KeysetDirection)
  (limit : Nat) (rows : List Row)

/-- Following the continuation from the start ends, without an error, and has then
returned every row once, in the order asked for. -/
def KeysetSortKey.ReadsAll : Prop :=
  ∃ requests out, follow db key direction limit none (List.replicate requests rows) =
      .ok (out, true) ∧ out.Perm rows ∧
        out.Pairwise fun a b => key.place db direction a < key.place db direction b

def KeysetSortKey.nulls : Nat := rows.countP fun row => key.type.isNull (key.selector row)

def KeysetSortKey.values : Nat := rows.countP fun row => !key.type.isNull (key.selector row)

/-- The first page ends among rows that can be read on, and no others follow those. -/
def KeysetSortKey.ReachesEnd : KeysetDirection → Prop
  | .ascending => key.nulls rows = 0 ∨ db.nullIsNull = true ∧ key.values rows < limit
  | .descending => key.nulls rows < limit ∨ db.nullIsNull = true ∧ key.values rows = 0

/-- The collection fits a page, or its column can be compared and reaches the end. -/
def KeysetSortKey.ReadableOn : Prop :=
  rows.length ≤ limit ∨ key.type.isEnum = false ∧ key.ReachesEnd db limit rows direction

variable {db key direction limit rows} (hlimit : 1 ≤ limit)
include hlimit

theorem readsAll_of_fits (hids : (rows.map key.identity).Nodup) (hfits : rows.length ≤ limit) :
    key.ReadsAll db direction limit rows := by
  have hcut : Keyset.cut limit (orderBy (key.place db direction) rows) =
      ⟨orderBy (key.place db direction) rows, none⟩ := by
    rw [Keyset.cut, if_pos (by rw [(orderBy_perm _ rows).length_eq]; exact hfits)]
  have hquery : key.resumed db rows direction none = .ok rows := rfl
  refine ⟨1, orderBy (key.place db direction) rows, ?_, orderBy_perm _ rows,
    Keyset.orderBy_strict (KeysetSortKey.nodup_place hids)⟩
  rw [List.replicate_one, follow, takeAsync_of_resumed hlimit hquery, hcut]
  rfl

/-- The second request of a walk over an enumeration fails. -/
theorem not_readsAll_enum (henum : key.type.isEnum = true) (hreads : key.ReadsBack)
    (hmore : limit < rows.length) : ¬ key.ReadsAll db direction limit rows := by
  rintro ⟨requests, out, hfollow, _, _⟩
  have hquery : key.resumed db rows direction none = .ok rows := rfl
  cases requests with
  | zero => cases hfollow
  | succ requests =>
      rw [List.replicate_succ, follow, takeAsync_of_resumed hlimit hquery] at hfollow
      rcases Keyset.cut_cases hlimit (orderBy (key.place db direction) rows) with
        ⟨hall, _⟩ | ⟨before, last, rest, _, _, _, hcut⟩
      · rw [(orderBy_perm _ rows).length_eq] at hall
        exact absurd hall (Nat.not_le_of_lt hmore)
      · rw [hcut] at hfollow
        cases requests with
        | zero => cases hfollow
        | succ requests =>
            have hnext : follow db key direction limit (some (key.anchorOf last))
                (List.replicate (requests + 1) rows) = .error .invalidOperation := by
              rw [List.replicate_succ, follow, takeAsync, if_neg (Nat.not_lt.mpr hlimit),
                KeysetSortKey.resumed, after_enum henum hreads]
              rfl
            simp only [Option.map_some] at hfollow
            change (do
              let rest ← follow db key direction limit (some (key.anchorOf last))
                (List.replicate (requests + 1) rows)
              return (before ++ [last] ++ rest.1, rest.2)) = _ at hfollow
            rw [hnext] at hfollow
            cases hfollow

/-- A column that can be compared is read on from the kind its first page ends in. -/
theorem readsAll_iff_of_comparable (henum : key.type.isEnum = false) (hreads : key.ReadsBack)
    (hids : (rows.map key.identity).Nodup) (hmore : limit < rows.length) :
    key.ReadsAll db direction limit rows ↔
      (limit ≤ rows.countP (key.inFront direction) →
        (∀ row ∈ rows, key.inFront direction row = true) ∧
          KeysetSortKey.readOn db direction true = true) ∧
        (rows.countP (key.inFront direction) < limit →
          KeysetSortKey.readOn db direction false = true) := by
  have hkeys : (rows.map (key.place db direction)).Nodup := KeysetSortKey.nodup_place hids
  have hkinds : ∀ a ∈ rows, ∀ b ∈ rows, key.inFront direction a = true →
      key.inFront direction b = false →
        key.place db direction a < key.place db direction b :=
    fun _ _ _ _ => KeysetSortKey.inFront_lt
  have hbeyond : ∀ a ∈ rows, ∀ b ∈ rows, key.beyondRow db direction a b = true ↔
      key.inFront direction b = key.inFront direction a ∧
        KeysetSortKey.readOn db direction (key.inFront direction a) = true ∧
          key.place db direction a < key.place db direction b :=
    fun _ _ _ _ => KeysetSortKey.beyondRow_iff
  constructor
  · rintro ⟨requests, out, hfollow, hperm, _⟩
    have hwalk := follow_eq db direction hlimit henum hreads none
      (List.replicate requests rows)
    rw [Option.map_none, hfollow] at hwalk
    exact (Keyset.walk_kinds_iff hkinds hlimit hkeys hbeyond hmore).mp
      ⟨requests, out, (Except.ok.inj hwalk).symm, hperm⟩
  · rintro ⟨hfull, hpart⟩
    have hwalk := follow_eq db direction hlimit henum hreads none
      (List.replicate (rows.length + 1) rows)
    rw [Option.map_none, Keyset.walk_kinds_complete hkinds hlimit hkeys hbeyond hfull hpart]
      at hwalk
    exact ⟨_, _, hwalk, orderBy_perm _ rows, Keyset.orderBy_strict hkeys⟩

/-- Whether a collection is read to its end. -/
theorem readsAll_iff (hreads : key.ReadsBack) (hids : (rows.map key.identity).Nodup) :
    key.ReadsAll db direction limit rows ↔ key.ReadableOn db direction limit rows := by
  rcases Nat.lt_or_ge limit rows.length with hmore | hfits
  · have hnot : ¬ rows.length ≤ limit := Nat.not_le_of_lt hmore
    rw [KeysetSortKey.ReadableOn, or_iff_right hnot]
    cases henum : key.type.isEnum with
    | true =>
        exact ⟨fun h => absurd h (not_readsAll_enum hlimit henum hreads hmore),
          fun h => absurd h.1.symm Bool.false_ne_true⟩
    | false =>
        rw [readsAll_iff_of_comparable hlimit henum hreads hids hmore, and_iff_right rfl]
        have htotal : rows.length = key.nulls rows + key.values rows := by
          rw [KeysetSortKey.nulls, KeysetSortKey.values,
            List.length_eq_countP_add_countP fun row => key.type.isNull (key.selector row)]
          simp
        cases direction with
        | ascending =>
            have hall : (∀ row ∈ rows, key.inFront .ascending row = true) ↔
                key.nulls rows = 0 := by
              simp [KeysetSortKey.inFront, KeysetSortKey.nulls, List.countP_eq_zero]
            have hcount : rows.countP (key.inFront .ascending) = key.values rows := rfl
            rw [hall, hcount, KeysetSortKey.ReachesEnd]
            simp only [KeysetSortKey.readOn, Bool.true_or, Bool.false_or, and_true]
            constructor
            · rintro ⟨hfull, hpart⟩
              rcases Nat.lt_or_ge (key.values rows) limit with hfew | hmany
              · exact Or.inr ⟨hpart hfew, hfew⟩
              · exact Or.inl (hfull hmany)
            · rintro (hnone | ⟨hnull, hfew⟩)
              · exact ⟨fun _ => hnone, fun hfew => by omega⟩
              · exact ⟨fun hmany => by omega, fun _ => hnull⟩
        | descending =>
            have hall : (∀ row ∈ rows, key.inFront .descending row = true) ↔
                key.values rows = 0 := by
              simp [KeysetSortKey.inFront, KeysetSortKey.values, List.countP_eq_zero]
            have hcount : rows.countP (key.inFront .descending) = key.nulls rows := rfl
            rw [hall, hcount, KeysetSortKey.ReachesEnd]
            simp only [KeysetSortKey.readOn, Bool.not_true, Bool.not_false, Bool.true_or,
              Bool.false_or, implies_true, and_true]
            constructor
            · intro hfull
              rcases Nat.lt_or_ge (key.nulls rows) limit with hfew | hmany
              · exact Or.inl hfew
              · exact Or.inr ⟨(hfull hmany).2, (hfull hmany).1⟩
            · rintro (hfew | ⟨hnull, hnone⟩)
              · exact fun hmany => by omega
              · exact fun _ => ⟨hnone, hnull⟩
  · exact ⟨fun _ => Or.inl hfits, fun _ => readsAll_of_fits hlimit hids hfits⟩

end Unchanged

/-- For every whitelisted field, when following the continuation over an unchanged
collection returns all of it. -/
theorem next_reads_collection_iff (db : Database) (field : Σ Row : Type, KeysetSortKey Row)
    (hfield : field ∈ sortKeys) (direction : KeysetDirection) {limit : Nat} (hlimit : 1 ≤ limit)
    {rows : List field.1} (hids : (rows.map field.2.identity).Nodup) :
    field.2.ReadsAll db direction limit rows ↔ field.2.ReadableOn db direction limit rows :=
  readsAll_iff hlimit (readsBack_of_mem hfield) hids

section Runs

/-- A database that compares texts by their code points. -/
def plainDatabase (nullIsNull : Bool) : Database := ⟨inferInstance, nullIsNull⟩

def sampleSummary (id : Uuid) (state : SessionState) : PublishedViews.SessionSummaryRow where
  sessionId := id
  tenantId := 1
  requesterOid := 1
  state := state
  caseReference := none
  createdAt := ⟨0, zero_lt_tickLimit⟩
  updatedAt := ⟨0, zero_lt_tickLimit⟩
  closedAt := none

def samplePending (id : Uuid) (expiresAt : Option DateTimeOffset) :
    PublishedViews.ApprovalQueueRow where
  approvalId := id
  tenantId := 1
  createdAt := ⟨0, zero_lt_tickLimit⟩
  expiresAt := expiresAt

/-- Three sessions of one instant, two to a page. -/
theorem equal_instants_read :
    ∃ key ∈ SessionSortKeys.summaries, key.field = "createdAt" ∧
      key.ReadsAll (plainDatabase true) .descending 2
        [sampleSummary 1 .resolving, sampleSummary 2 .resolving, sampleSummary 3 .resolved] :=
  ⟨_, List.mem_cons_self, rfl,
    (next_reads_collection_iff (plainDatabase true) ⟨PublishedViews.SessionSummaryRow, _⟩
      List.mem_cons_self .descending (by decide) (by decide)).mpr
        (Or.inr ⟨rfl, Or.inl (by decide)⟩)⟩

/-- Two sessions sorted by state, and a dated approval before an undated one, at one row
a page: the second request fails, or does not find the second row. -/
theorem second_page_lost :
    (∃ key ∈ SessionSortKeys.summaries, key.field = "state" ∧
      ¬ key.ReadsAll (plainDatabase true) .ascending 1
        [sampleSummary 1 .resolving, sampleSummary 2 .resolved]) ∧
    ∃ key ∈ ApprovalSortKeys.queue, key.field = "expiresAt" ∧ ∀ nullIsNull,
      ¬ key.ReadsAll (plainDatabase nullIsNull) .ascending 1
        [samplePending 1 (some ⟨0, zero_lt_tickLimit⟩), samplePending 2 none] := by
  refine ⟨⟨_, List.mem_cons_of_mem _ (List.mem_cons_of_mem _ List.mem_cons_self), rfl, ?_⟩,
    ⟨_, List.mem_cons_of_mem _ List.mem_cons_self, rfl, fun nullIsNull => ?_⟩⟩
  · exact not_readsAll_enum (by decide) rfl (readsBack_sessionState _ _ _) (by decide)
  · rw [readsAll_iff (by decide) (readsBack_nullable _ _ _) (by decide)]
    rintro (hfits | ⟨_, hnone | ⟨_, hfew⟩⟩)
    · exact absurd hfits (by decide)
    · exact absurd hnone (by decide)
    · exact absurd hfew (by decide)

end Runs

/-! ## A collection that changes between the pages -/

section Changes

variable {Row : Type} {db : Database} {key : KeysetSortKey Row} {direction : KeysetDirection}

theorem beyondRow_of_timestamp (htype : key.type = .dateTimeOffset) (a b : Row) :
    key.beyondRow db direction a b = true ↔
      key.place db direction a < key.place db direction b := by
  have hnull : ∀ row, key.type.isNull (key.selector row) = false := by
    obtain ⟨field, type, selector, identity, render, parse⟩ := key
    subst htype
    exact fun row => rfl
  exact KeysetSortKey.beyondRow_of_values (hnull a) (hnull b)

/-- Where two rows stand in one place, their timestamps and identifiers are the same. -/
theorem place_inj_of_timestamp (htype : key.type = .dateTimeOffset) {a b : Row} :
    key.place db direction a = key.place db direction b ↔
      key.identity a = key.identity b ∧ key.selector a = key.selector b := by
  constructor
  · intro h
    obtain ⟨hid, hrank⟩ := KeysetSortKey.place_inj h
    refine ⟨hid, ?_⟩
    obtain ⟨field, type, selector, identity, render, parse⟩ := key
    subst htype
    exact DateTimeOffset.mk.injEq .. ▸ hrank
  · rintro ⟨hid, hkey⟩
    have hposition : key.position db a = key.position db b := by
      rw [KeysetSortKey.position, KeysetSortKey.position, hid, hkey]
    cases direction with
    | ascending => exact hposition
    | descending => exact hposition

end Changes

/-- Whatever is inserted and deleted between the pages: what is returned is in order and
has no repetition, and a walk that ended has returned every row that was there at each of
its requests, once. -/
theorem paging_survives_change (db : Database) (field : Σ Row : Type, KeysetSortKey Row)
    (hfield : field ∈ sortKeys) (htype : field.2.type = .dateTimeOffset)
    (direction : KeysetDirection) {limit : Nat} (hlimit : 1 ≤ limit)
    (collections : List (List field.1))
    (hids : ∀ rows ∈ collections, (rows.map field.2.identity).Nodup) :
    ∃ out ended, follow db field.2 direction limit none collections = .ok (out, ended) ∧
      (out.Pairwise fun a b => field.2.place db direction a < field.2.place db direction b) ∧
      (out.map fun row => (field.2.identity row, field.2.selector row)).Nodup ∧
      ((∀ rows ∈ collections, ∀ other ∈ collections, ∀ a ∈ rows, ∀ b ∈ other,
          field.2.identity a = field.2.identity b → field.2.selector a = field.2.selector b) →
        (out.map field.2.identity).Nodup) ∧
      (ended = true → ∀ id value,
        (∀ rows ∈ collections, ∃ row ∈ rows,
          field.2.identity row = id ∧ field.2.selector row = value) →
        out.countP (fun row => field.2.identity row == id) = 1) := by
  obtain ⟨Row, key⟩ := field
  have hreads := readsBack_of_mem hfield
  dsimp only at *
  have henum : key.type.isEnum = false := by rw [htype]; rfl
  have hfollow := follow_eq db direction hlimit henum hreads none collections
  have hplaces : ∀ rows ∈ collections, (rows.map (key.place db direction)).Nodup :=
    fun rows hrows => KeysetSortKey.nodup_place (hids rows hrows)
  have hstrict := (Keyset.walk_strict hlimit (beyondRow_of_timestamp htype) hplaces none).1
  refine ⟨_, _, hfollow, hstrict, ?_, ?_, ?_⟩
  · rw [List.Nodup, List.pairwise_map]
    refine hstrict.imp fun hlt heq => ?_
    rw [(place_inj_of_timestamp htype).mpr (Prod.mk.inj heq)] at hlt
    exact lt_irrefl _ hlt
  · intro hfixed
    rw [List.Nodup, List.pairwise_map]
    refine hstrict.imp_of_mem fun {a b} ha hb hlt heq => ?_
    obtain ⟨rows, hrows, ha⟩ := Keyset.mem_of_mem_walk hlimit ha
    obtain ⟨other, hother, hb⟩ := Keyset.mem_of_mem_walk hlimit hb
    rw [(place_inj_of_timestamp htype).mpr
      ⟨heq, hfixed rows hrows other hother a ha b hb heq⟩] at hlt
    exact lt_irrefl _ hlt
  · intro hended id value hstays
    cases collections with
    | nil => cases hended
    | cons first later =>
        obtain ⟨row, _, hid, hvalue⟩ := hstays first List.mem_cons_self
        have hplace : ∀ other, key.identity other = id → key.selector other = value →
            key.place db direction other = key.place db direction row :=
          fun other hother_id hother_value => (place_inj_of_timestamp htype).mpr
            ⟨hother_id.trans hid.symm, hother_value.trans hvalue.symm⟩
        have hbehind : ∀ a ∈ (none : Option Row),
            key.place db direction a < key.place db direction row := fun a ha => by cases ha
        have htaken : ∀ rows ∈ first :: later, ∃ other ∈ rows,
            key.place db direction other = key.place db direction row := by
          intro rows hrows
          obtain ⟨other, hother, hother_id, hother_value⟩ := hstays rows hrows
          exact ⟨other, hother, hplace other hother_id hother_value⟩
        obtain ⟨found, hfound, hat⟩ :=
          Keyset.exists_mem_walk hlimit (beyondRow_of_timestamp htype) hbehind htaken hended
        refine Keyset.countP_eq_one hstrict hfound ?_ fun other hother hsat => ?_
        · rw [beq_iff_eq, ((place_inj_of_timestamp htype).mp hat).1, hid]
        · -- the page it was read from held one row of this identifier
          obtain ⟨rows, hrows, hmem⟩ := Keyset.mem_of_mem_walk hlimit hother
          obtain ⟨there, hthere, hthere_id, hthere_value⟩ := hstays rows hrows
          have hother_id := beq_iff_eq.mp hsat
          have hsame := List.inj_on_of_nodup_map (hids rows hrows) hmem hthere
            (hother_id.trans hthere_id.symm)
          rw [hat]
          exact hplace other hother_id (hsame ▸ hthere_value)

/-- Between two pages of one row the anchor's row goes and another of the same instant
comes. -/
theorem anchor_deleted_read :
    ∃ key ∈ SessionSortKeys.summaries, key.field = "createdAt" ∧
      ∃ out, follow (plainDatabase true) key .ascending 1 none
          [[sampleSummary 1 .resolving, sampleSummary 3 .resolving],
            [sampleSummary 3 .resolving, sampleSummary 2 .resolving],
            [sampleSummary 3 .resolving]] = .ok (out, true) ∧
        out.countP (fun row => row.sessionId == 3) = 1 := by
  refine ⟨_, List.mem_cons_self, rfl, ?_⟩
  obtain ⟨out, ended, hfollow, _, _, _, hstays⟩ := paging_survives_change (plainDatabase true)
    ⟨PublishedViews.SessionSummaryRow, _⟩ List.mem_cons_self rfl .ascending (Nat.le_refl 1)
    [[sampleSummary 1 .resolving, sampleSummary 3 .resolving],
      [sampleSummary 3 .resolving, sampleSummary 2 .resolving],
      [sampleSummary 3 .resolving]] (by decide)
  have hended : ended = true := by
    have hsnd := congrArg (Except.map Prod.snd) hfollow
    rw [show Except.map Prod.snd _ = Except.ok true by decide +kernel] at hsnd
    exact (Except.ok.inj hsnd).symm
  have hstayed : ∀ rows ∈ [[sampleSummary 1 .resolving, sampleSummary 3 .resolving],
      [sampleSummary 3 .resolving, sampleSummary 2 .resolving],
      [sampleSummary 3 .resolving]], sampleSummary 3 .resolving ∈ rows := by decide
  exact ⟨out, hended ▸ hfollow, hstays hended 3 ⟨0, zero_lt_tickLimit⟩
    fun rows hrows => ⟨_, hstayed rows hrows, rfl, rfl⟩⟩

end Synthia
