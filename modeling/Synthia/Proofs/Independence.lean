import Synthia.Proofs.Dispatch

/-!
# Independence of the rows of a batch

A row's fate in a pass is everything the pass can do about it: that the loop got
to it, what the transport took, the row as committed, the counter it went into.
Its fate alone is the same for a pass over an outbox that holds nothing else.

The two agree for every row of a batch exactly when the batch has no other row,
or no row that ends the pass. One that does is never the only one affected: a
row behind it is not reached, and a row before it, published already, is rolled
back to where it was.
-/

namespace Synthia.OutboxDispatch

open Relational Text

variable {policy : BackoffPolicy} {answers : Uuid → Bool} {now : Instant}
  {table : OutboxTable} {batchSize : Nat}

/-- What a pass did about one row. -/
structure Fate where
  reached : Bool
  accepted : Option Message
  row : Option OutboxRow
  verdict : Option Verdict
  deriving DecidableEq

def Outcome.fate (outcome : Outcome) (outboxId : Uuid) : Fate where
  reached := outcome.loop.reached.contains outboxId
  accepted := outcome.loop.accepted.lookup outboxId
  row := outcome.committed.find outboxId
  verdict :=
    match outcome.returned with
    | .ok _ => outcome.loop.verdicts.lookup outboxId
    | .error _ => none

/-- An outbox with one row in it. -/
def alone (row : OutboxRow) : OutboxTable := ⟨[row], List.nodup_singleton _⟩

/-- The fate of a row that is all there is, by the transport's answer to it. -/
def soloFate (policy : BackoffPolicy) (now : Instant) (row : OutboxRow) (accepts : Bool) :
    Fate :=
  (dispatchOnce policy 1 (fun _ => accepts) now (alone row)).fate row.outboxId

/-- Every row of the batch meets the fate it would meet alone. -/
def Independent (policy : BackoffPolicy) (batchSize : Nat) (answers : Uuid → Bool)
    (now : Instant) (table : OutboxTable) : Prop :=
  ∀ row ∈ Outbox.undispatched table batchSize,
    (dispatchOnce policy batchSize answers now table).fate row.outboxId =
      soloFate policy now row (answers row.outboxId)

/-! ## The two kinds of pass -/

theorem lookup_map_key {ι : Type} {entry : OutboxRow → ι} {rows : List OutboxRow}
    {row : OutboxRow} (hrow : row ∈ rows) (hnodup : (rows.map OutboxRow.outboxId).Nodup) :
    (rows.map fun row => (row.outboxId, entry row)).lookup row.outboxId =
      some (entry row) := by
  induction rows with
  | nil => exact absurd hrow List.not_mem_nil
  | cons head rows ih =>
      rw [List.map_cons, List.nodup_cons] at hnodup
      rw [List.map_cons]
      rcases List.mem_cons.mp hrow with hhead | htail
      · rw [hhead, List.lookup_cons_self]
      · have hne : row.outboxId ≠ head.outboxId := by
          intro hsame
          exact hnodup.1 (hsame ▸ List.mem_map_of_mem htail)
        rw [List.lookup_cons, beq_false_of_ne hne]
        exact ih htail hnodup.2

theorem lookup_sentEntry {rows : List OutboxRow} {row : OutboxRow} (hrow : row ∈ rows)
    (hnodup : (rows.map OutboxRow.outboxId).Nodup) :
    (rows.flatMap (sentEntry answers)).lookup row.outboxId =
      sentFor row (answers row.outboxId) := by
  have hother : ∀ rows : List OutboxRow, row.outboxId ∉ rows.map OutboxRow.outboxId →
      (rows.flatMap (sentEntry answers)).lookup row.outboxId = none := by
    intro rows hout
    rw [List.lookup_eq_none_iff]
    intro entry hentry
    obtain ⟨other, hmem, hsent⟩ := List.mem_flatMap.mp hentry
    obtain ⟨message, _, rfl⟩ := List.mem_map.mp hsent
    rw [bne_iff_ne]
    intro hsame
    exact hout (hsame ▸ List.mem_map_of_mem hmem)
  induction rows with
  | nil => exact absurd hrow List.not_mem_nil
  | cons head rows ih =>
      rw [List.map_cons, List.nodup_cons] at hnodup
      rw [List.flatMap_cons, List.lookup_append]
      rcases List.mem_cons.mp hrow with hhead | htail
      · rw [← hhead] at hnodup ⊢
        rw [hother rows hnodup.1, Option.or_none]
        cases hsent : sentFor row (answers row.outboxId) with
        | none => simp [sentEntry, hsent]
        | some message => simp [sentEntry, hsent]
      · have hne : row.outboxId ≠ head.outboxId := by
          intro hsame
          exact hnodup.1 (hsame ▸ List.mem_map_of_mem htail)
        have hnone : (sentEntry answers head).lookup row.outboxId = none := by
          have := hother [head] (by simpa using hne)
          simpa using this
        rw [hnone, Option.none_or]
        exact ih htail hnodup.2

/-- In a pass nothing ends, a row's fate is a function of it and its answer. -/
theorem fate_finishes
    (hends : ∀ row ∈ Outbox.undispatched table batchSize, endsPass policy row = false)
    {row : OutboxRow} (hrow : row ∈ Outbox.undispatched table batchSize) :
    (dispatchOnce policy batchSize answers now table).fate row.outboxId =
      ⟨true, sentFor row (answers row.outboxId), some (settled answers now row),
        some (verdictOf policy answers row)⟩ := by
  have hnodup := Outbox.undispatched_nodup table batchSize
  obtain ⟨after, hloop, hdid⟩ := pass_finishes answers now hends
  have hid : row.outboxId ∈
      (Outbox.undispatched table batchSize).map OutboxRow.outboxId :=
    List.mem_map_of_mem hrow
  have hafter : settled answers now row ∈ after.table.rows := by
    rw [hdid.table]
    exact List.mem_map.mpr ⟨row, (Outbox.mem_undispatched hrow).1, if_pos hid⟩
  unfold dispatchOnce
  rw [hloop]
  have hreached : after.reached.contains row.outboxId = true := by
    rw [hdid.reached]
    simpa using hid
  have haccepted : after.accepted.lookup row.outboxId =
      sentFor row (answers row.outboxId) := by
    rw [hdid.accepted]
    exact lookup_sentEntry hrow hnodup
  have hverdict : after.verdicts.lookup row.outboxId =
      some (verdictOf policy answers row) := by
    rw [hdid.verdicts]
    exact lookup_map_key hrow hnodup
  have hfound : after.table.find row.outboxId = some (settled answers now row) := by
    have := Table.find_of_mem hafter
    rwa [settled_outboxId] at this
  simp only [Outcome.fate, hreached, haccepted, hverdict, hfound]

/-- In a pass some row ends, the rows behind it are not reached and the ones
before it are not changed. -/
theorem fate_ends {before after : List OutboxRow} {ender : OutboxRow}
    (hsplit : Outbox.undispatched table batchSize = before ++ ender :: after)
    (hfinish : ∀ row ∈ before, endsPass policy row = false)
    (hends : endsPass policy ender = true) {row : OutboxRow}
    (hrow : row ∈ Outbox.undispatched table batchSize) :
    (dispatchOnce policy batchSize answers now table).fate row.outboxId =
      ⟨decide (row ∈ before ++ [ender]),
        if row ∈ before then sentFor row (answers row.outboxId) else none,
        some row, none⟩ := by
  have hnodup := Outbox.undispatched_nodup table batchSize
  have hmem : ∀ other ∈ Outbox.undispatched table batchSize, other ∈ table.rows :=
    fun other hother => (Outbox.mem_undispatched hother).1
  have hsame : ∀ {a b : OutboxRow}, a ∈ Outbox.undispatched table batchSize →
      b ∈ Outbox.undispatched table batchSize → a.outboxId = b.outboxId → a = b :=
    fun ha hb => table.eq_of_key (hmem _ ha) (hmem _ hb)
  have hbefore : ∀ other ∈ before, other ∈ Outbox.undispatched table batchSize := by
    intro other hother
    rw [hsplit]
    exact List.mem_append_left _ hother
  have hender : ender ∈ Outbox.undispatched table batchSize := by
    rw [hsplit]
    exact List.mem_append_right _ List.mem_cons_self
  have hloaded : ∀ other ∈ Outbox.undispatched table batchSize,
      other ∈ ({ table := table } : LoopState).table.rows := hmem
  rw [hsplit] at hloaded hnodup
  obtain ⟨last, raised, hloop, hreached, haccepted⟩ :=
    dispatchRows_ends answers now hloaded hnodup hfinish hends
  have hfound := Table.find_of_mem (Outbox.mem_undispatched hrow).1
  have hcontains : last.reached.contains row.outboxId =
      decide (row ∈ before ++ [ender]) := by
    rw [hreached, Bool.eq_iff_iff, List.contains_iff_mem, decide_eq_true_iff]
    constructor
    · intro hid
      have hid : row.outboxId ∈ (before ++ [ender]).map OutboxRow.outboxId := by
        simpa using hid
      obtain ⟨other, hother, heq⟩ := List.mem_map.mp hid
      rcases List.mem_append.mp hother with hother_before | hother_ender
      · rw [← hsame (hbefore other hother_before) hrow heq]
        exact hother
      · rw [List.mem_singleton.mp hother_ender] at heq
        rw [← hsame hender hrow heq]
        exact List.mem_append_right _ List.mem_cons_self
    · intro hrow_before
      have hid := List.mem_map_of_mem (f := OutboxRow.outboxId) hrow_before
      simpa using hid
  have htaken : last.accepted.lookup row.outboxId =
      if row ∈ before then sentFor row (answers row.outboxId) else none := by
    rw [haccepted, List.nil_append]
    rw [List.map_append, List.nodup_append] at hnodup
    split
    · next hrow_before => exact lookup_sentEntry hrow_before hnodup.1
    · next hrow_before =>
        rw [List.lookup_eq_none_iff]
        intro entry hentry
        obtain ⟨other, hother, hsent⟩ := List.mem_flatMap.mp hentry
        obtain ⟨message, _, rfl⟩ := List.mem_map.mp hsent
        rw [bne_iff_ne]
        intro hid
        exact hrow_before (hsame hrow (hbefore other hother) hid ▸ hother)
  unfold dispatchOnce
  rw [hsplit, hloop]
  simp only [Outcome.fate, hcontains, htaken, hfound]

/-- Of a pass that its only row ends, nothing remains. -/
theorem fate_ends_single {row : OutboxRow} (hbatch : Outbox.undispatched table batchSize = [row])
    (hends : endsPass policy row = true) :
    (dispatchOnce policy batchSize answers now table).fate row.outboxId =
      ⟨true, none, some row, none⟩ := by
  have hsplit : Outbox.undispatched table batchSize = [] ++ row :: [] := hbatch
  have hrow : row ∈ Outbox.undispatched table batchSize := by
    rw [hbatch]
    exact List.mem_singleton_self row
  rw [fate_ends hsplit (fun other hother => absurd hother List.not_mem_nil) hends hrow]
  simp

/-! ## Alone -/

theorem undispatched_alone {row : OutboxRow} (hfree : row.dispatchedAt = none) :
    Outbox.undispatched (alone row) 1 = [row] := by
  have hpred : row.undispatched = true := Option.isNone_iff_eq_none.mpr hfree
  show (orderBy OutboxRow.sequence ([row].filter OutboxRow.undispatched)).take 1 = [row]
  rw [List.filter_cons_of_pos hpred]
  rfl

theorem soloFate_finishes {row : OutboxRow} {accepts : Bool}
    (hfree : row.dispatchedAt = none) (hends : endsPass policy row = false) :
    soloFate policy now row accepts =
      ⟨true, sentFor row accepts, some (settled (fun _ => accepts) now row),
        some (verdictOf policy (fun _ => accepts) row)⟩ := by
  have hbatch := undispatched_alone hfree
  apply fate_finishes
  · rw [hbatch]
    intro other hother
    rw [List.mem_singleton.mp hother]
    exact hends
  · rw [hbatch]
    exact List.mem_singleton_self row

theorem soloFate_ends {row : OutboxRow} {accepts : Bool}
    (hfree : row.dispatchedAt = none) (hends : endsPass policy row = true) :
    soloFate policy now row accepts = ⟨true, none, some row, none⟩ :=
  fate_ends_single (undispatched_alone hfree) hends

/-- Alone, a row is always reached. -/
theorem soloFate_reached {row : OutboxRow} {accepts : Bool}
    (hfree : row.dispatchedAt = none) : (soloFate policy now row accepts).reached = true := by
  cases hends : endsPass policy row with
  | true => rw [soloFate_ends hfree hends]
  | false => rw [soloFate_finishes hfree hends]

/-! ## Independence -/

theorem independent_of_finishes
    (hends : ∀ row ∈ Outbox.undispatched table batchSize, endsPass policy row = false) :
    Independent policy batchSize answers now table := by
  intro row hrow
  rw [fate_finishes hends hrow,
    soloFate_finishes (Outbox.mem_undispatched hrow).2 (hends row hrow)]
  rfl

theorem independent_of_single
    (hsingle : (Outbox.undispatched table batchSize).length ≤ 1) :
    Independent policy batchSize answers now table := by
  intro row hrow
  have honly : Outbox.undispatched table batchSize = [row] := by
    match hbatch : Outbox.undispatched table batchSize with
    | [] =>
        rw [hbatch] at hrow
        exact absurd hrow List.not_mem_nil
    | [other] =>
        rw [hbatch, List.mem_singleton] at hrow
        rw [hrow]
    | a :: b :: rest =>
        rw [hbatch] at hsingle
        simp at hsingle
  have hfree := (Outbox.mem_undispatched hrow).2
  cases hends : endsPass policy row with
  | false =>
      refine independent_of_finishes ?_ row hrow
      rw [honly]
      intro other hother
      rw [List.mem_singleton.mp hother]
      exact hends
  | true => rw [fate_ends_single honly hends, soloFate_ends hfree hends]

/-- A row that ends a pass it shares is felt by another row. -/
theorem not_independent {ender : OutboxRow}
    (hender : ender ∈ Outbox.undispatched table batchSize)
    (hends : endsPass policy ender = true)
    (hshared : 1 < (Outbox.undispatched table batchSize).length) :
    ¬ Independent policy batchSize answers now table := by
  intro hind
  -- the first row to end the pass, and the rows around it
  obtain ⟨first, hfirst⟩ : ∃ first, (Outbox.undispatched table batchSize).find?
      (endsPass policy) = some first := by
    cases hfind : (Outbox.undispatched table batchSize).find? (endsPass policy) with
    | some first => exact ⟨first, rfl⟩
    | none =>
        rw [List.find?_eq_none] at hfind
        exact absurd hends (hfind ender hender)
  obtain ⟨hfirst_ends, before, after, hsplit, hbefore⟩ :=
    List.find?_eq_some_iff_append.mp hfirst
  have hfinish : ∀ row ∈ before, endsPass policy row = false := by
    intro row hrow
    simpa using hbefore row hrow
  have hnodup := Outbox.undispatched_nodup table batchSize
  cases after with
  | cons behind after =>
      have hbehind : behind ∈ Outbox.undispatched table batchSize := by
        rw [hsplit]
        simp
      have hout : behind ∉ before ++ [first] := by
        rw [hsplit, show before ++ first :: behind :: after =
          (before ++ [first]) ++ behind :: after by simp, List.map_append,
          List.nodup_append] at hnodup
        intro hmem
        exact hnodup.2.2 _ (List.mem_map_of_mem hmem) _
          (List.mem_map_of_mem List.mem_cons_self) rfl
      have hreached := congrArg Fate.reached (hind behind hbehind)
      rw [fate_ends hsplit hfinish hfirst_ends hbehind,
        soloFate_reached (Outbox.mem_undispatched hbehind).2] at hreached
      exact hout (of_decide_eq_true hreached)
  | nil =>
      cases before with
      | nil =>
          rw [hsplit] at hshared
          simp at hshared
      | cons ahead before =>
          have hahead : ahead ∈ Outbox.undispatched table batchSize := by
            rw [hsplit]
            simp
          have hrow := congrArg Fate.row (hind ahead hahead)
          rw [fate_ends hsplit hfinish hfirst_ends hahead,
            soloFate_finishes (Outbox.mem_undispatched hahead).2
              (hfinish ahead List.mem_cons_self)] at hrow
          have hattempts := congrArg (Option.map OutboxRow.attempts) hrow
          simp at hattempts

/-! ## The defect -/

/-- A well-formed trigger row. -/
def triggerRow (outboxId : Uuid) (sequence attempts : Nat) : OutboxRow where
  outboxId := outboxId
  tenantId := ⟨1⟩
  sequence := sequence
  kind := "sample.flow"
  payload := .object
    [("workItemId", .text (ofString "00000000-0000-0000-0000-000000000007")),
      ("correlationId", .text (ofString "journey"))]
  dispatchedAt := none
  attempts := attempts
  version := 1
  updatedAt := 0

/-- A row whose kind is in neither closed set. -/
def unknownKindRow (outboxId : Uuid) (sequence : Nat) : OutboxRow :=
  { triggerRow outboxId sequence 0 with kind := "nonsense.kind" }

/-- The row behind one of unknown kind is not even reached, with the transport
ready to take it, as it would take it alone. -/
theorem blocked_by_malformed_row :
    let table : OutboxTable := ⟨[unknownKindRow 1 1, triggerRow 2 2 0], by decide⟩
    let pass := dispatchOnce {} 10 (fun _ => true) 0 table
    (pass.fate 2).reached = false ∧ (pass.fate 2).accepted = none ∧
      (soloFate {} 0 (triggerRow 2 2 0) true).accepted.isSome = true ∧
      ¬ Independent {} 10 (fun _ => true) 0 table := by
  refine ⟨by decide +kernel, by decide +kernel, by decide +kernel, ?_⟩
  intro hind
  have hrow : triggerRow 2 2 0 ∈ Outbox.undispatched
      ⟨[unknownKindRow 1 1, triggerRow 2 2 0], by decide⟩ 10 := by decide +kernel
  have hreached := congrArg Fate.reached (hind _ hrow)
  rw [soloFate_reached rfl] at hreached
  exact absurd hreached (by decide +kernel)

/-- **When the rows of a batch are independent.** Exactly when no row of it ends
the pass, or there is no other row. -/
theorem rows_independent_iff (policy : BackoffPolicy) (batchSize : Nat)
    (answers : Uuid → Bool) (now : Instant) (table : OutboxTable) :
    Independent policy batchSize answers now table ↔
      (Outbox.undispatched table batchSize).length ≤ 1 ∨
        ∀ row ∈ Outbox.undispatched table batchSize, endsPass policy row = false := by
  constructor
  · intro hind
    by_cases hsingle : (Outbox.undispatched table batchSize).length ≤ 1
    · exact Or.inl hsingle
    · right
      intro row hrow
      rw [← Bool.not_eq_true]
      intro hends
      exact not_independent hrow hends (by omega) hind
  · intro h
    rcases h with hsingle | hends
    · exact independent_of_single hsingle
    · exact independent_of_finishes hends

end Synthia.OutboxDispatch
