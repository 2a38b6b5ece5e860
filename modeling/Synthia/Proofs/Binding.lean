import Synthia.Persistence.Decisions
import Synthia.Proofs.Gate

/-!
# What an approval stays bound to

A verdict row names its decider, the roles held and the window, and not the
operation it was given for. `decision_for` supplies that from the newest
operation row of the case each time it is read. So what an approval is bound to
is a fact about the operation table at the moment of the read, and can change
after the verdict.

It stays what it was exactly as long as no later row overtakes: every row
inserted afterwards is strictly older than one already there, or carries the
same identity. `created_at` is the inserting transaction's start, so a row
inserted later need not be newer; and rows of one instant are ordered by
nothing, so a tie is enough to be overtaken. Physical order is quantified over
for that reason.
-/

namespace Synthia

open Relational

/-! ## The operation a read joins -/

section Bound

variable {operations : List OperationRow} {tenant : TenantContext}
  {workItemId : WorkItemId} {row : OperationRow}

/-- The newest rows of one case. -/
def NewestOperation (operations : List OperationRow) (tenant : TenantContext)
    (workItemId : WorkItemId) (row : OperationRow) : Prop :=
  Newest OperationRow.createdAt
    (operations.filter (OperationRow.belongsTo tenant workItemId)) row

theorem boundOperation_newest (h : boundOperation operations tenant workItemId = some row) :
    NewestOperation operations tenant workItemId row :=
  newest_of_head h

theorem NewestOperation.perm {other : List OperationRow}
    (h : NewestOperation operations tenant workItemId row)
    (hperm : operations.Perm other) : NewestOperation other tenant workItemId row :=
  Newest.perm h (hperm.filter _)

/-- An inserted row either becomes a newest one or leaves the newest alone. -/
theorem NewestOperation.of_insert {inserted : OperationRow}
    (h : NewestOperation (operations ++ [inserted]) tenant workItemId row) :
    NewestOperation operations tenant workItemId row ∨
      (row = inserted ∧ row.belongsTo tenant workItemId = true ∧
        ∀ older ∈ operations, older.belongsTo tenant workItemId = true →
          older.createdAt ≤ row.createdAt) := by
  obtain ⟨hmem, hnewest⟩ := h
  rw [List.mem_filter, List.mem_append, List.mem_singleton] at hmem
  have holder : ∀ older ∈ operations, older.belongsTo tenant workItemId = true →
      older.createdAt ≤ row.createdAt := by
    intro older hin hbelongs
    exact hnewest older
      (List.mem_filter.mpr ⟨List.mem_append.mpr (Or.inl hin), hbelongs⟩)
  rcases hmem.1 with hold | hnew
  · left
    refine ⟨List.mem_filter.mpr ⟨hold, hmem.2⟩, ?_⟩
    intro other hother
    obtain ⟨hin, hbelongs⟩ := List.mem_filter.mp hother
    exact holder other hin hbelongs
  · exact Or.inr ⟨hnew, hmem.2, holder⟩

end Bound

/-! ## What a recorded verdict reads back as -/

/-- A row with a decision on it gives the decision. -/
theorem ApprovalRepository.verdictOf_decided {row : ApprovalRow} {bound : OperationRow}
    {verdict : ApprovalVerdict} {decidedBy : PrincipalId} {decidedAt : Instant}
    {rolesHeld : RoleSet} (hverdict : row.verdict = some verdict)
    (hdecidedBy : row.decidedByOid = some decidedBy) (hdecidedAt : row.decidedAt = some decidedAt)
    (hroles : RoleSet.ofNames (row.decidedByRoles.getD []) = some rolesHeld) :
    ApprovalRepository.verdictOf row bound =
      .ok (some ⟨row.approvalId, decidedBy, rolesHeld, verdict, bound.identity, decidedAt,
        row.expiresAt⟩) := by
  unfold ApprovalRepository.verdictOf
  rw [hverdict, hdecidedBy, hdecidedAt]
  dsimp only
  rw [hroles]

/-- **A recorded verdict, read back.** Everything the decider supplied is as
they supplied it; the operation is whichever one the read finds. -/
theorem decisionFor_recordVerdict {approvals : ApprovalTable} {tenant : TenantContext}
    {approvalId : ApprovalId} {decidedBy : PrincipalId} {rolesHeld : RoleSet}
    {verdict : ApprovalVerdict} {expiresAt databaseNow : Instant} {approval : ApprovalRow}
    (hrecorded : (ApprovalRepository.recordVerdict approvals tenant approvalId decidedBy
      rolesHeld verdict expiresAt databaseNow).1 = true)
    (happroval : approval ∈ approvals.rows) (hid : approval.approvalId = approvalId)
    (operations : List OperationRow) :
    ApprovalRepository.decisionFor
        (ApprovalRepository.recordVerdict approvals tenant approvalId decidedBy rolesHeld
          verdict expiresAt databaseNow).2
        operations tenant approval.workItemId =
      .ok ((boundOperation operations tenant approval.workItemId).map fun bound =>
        ⟨approvalId, decidedBy, rolesHeld, verdict, bound.identity, databaseNow,
          some expiresAt⟩) := by
  -- the row the update hit is the approval's own
  obtain ⟨hit, hhit, hpred⟩ := ApprovalRepository.recordVerdict_won.mp hrecorded
  obtain ⟨htenant, hhit_id, _⟩ := ApprovalRow.undecided_iff.mp hpred
  obtain rfl : hit = approval :=
    approvals.eq_of_key hhit happroval (hhit_id.trans hid.symm)
  -- and after the update it is the one decided row of its case
  have hdecided : (ApprovalRepository.recordVerdict approvals tenant approvalId decidedBy
      rolesHeld verdict expiresAt databaseNow).2.rows.filter
        (ApprovalRow.decidedFor tenant hit.workItemId) =
      [((ApprovalRow.decided decidedBy rolesHeld verdict expiresAt databaseNow).managed
        databaseNow).apply hit] := by
    apply filter_eq_singleton (ApprovalRepository.recordVerdict approvals tenant approvalId
      decidedBy rolesHeld verdict expiresAt databaseNow).2.oneEach
    · intro row hrow
      exact (ApprovalRow.decidedFor_iff.mp hrow).2.1
    · rw [ApprovalRepository.mem_recordVerdict]
      exact ⟨hit, hhit, by rw [if_pos hpred]⟩
    · exact ApprovalRow.decidedFor_iff.mpr ⟨htenant, rfl, rfl⟩
  unfold ApprovalRepository.decisionFor
  rw [hdecided]
  cases boundOperation operations tenant hit.workItemId with
  | none => rfl
  | some bound =>
      have hroles := RoleSet.ofNames_sortedValues rolesHeld
      rw [← hid]
      exact ApprovalRepository.verdictOf_decided rfl rfl rfl hroles

/-! ## How long it stays bound -/

/-- A verdict bound to one operation does nothing for another: if the gate
proceeds all the same, the treatment asked for no decision. -/
theorem proceeds_without_verdict {request : GateRequest} {outcome : GateOutcome}
    {verdict : StaffVerdict} (hdecision : request.decision = some (.staff verdict))
    (hother : verdict.boundTo ≠ request.proposal) (h : evaluate request = .ok outcome)
    (hproceed : outcome.disposition = .proceed) : outcome.treatment = .auto := by
  obtain ⟨decision, htreatment⟩ :=
    assignTreatment_total request.entry request.isEntitled
  rw [(evaluate_treatment htreatment h).1]
  obtain ⟨_, hauto | ⟨_, consent, hconsent, _⟩ | ⟨_, _, _, standing, hstanding, hbound, _⟩⟩ :=
    (evaluate_proceeds htreatment h).mp hproceed
  · exact hauto
  · rw [hdecision] at hconsent
    simp at hconsent
  · rw [hdecision] at hstanding
    injection hstanding with hstanding
    injection hstanding with hstanding
    subst hstanding
    exact absurd hbound hother

/-- Whatever is inserted, and in whatever physical order the rows then are, the
verdict read back is bound to `identity`, and the gate never proceeds on it for
any other operation. -/
def StaysBound (approvals : ApprovalTable) (tenant : TenantContext)
    (workItemId : WorkItemId) (operations inserts : List OperationRow)
    (identity : OperationIdentity) : Prop :=
  ∀ count physical, physical.Perm (operations ++ inserts.take count) →
    ∀ verdict, ApprovalRepository.decisionFor approvals physical tenant workItemId =
        .ok (some verdict) →
      verdict.boundTo = identity ∧
      ∀ request outcome, request.decision = some (.staff verdict) →
        request.proposal ≠ identity → evaluate request = .ok outcome →
        outcome.disposition = .proceed → outcome.treatment = .auto

/-- The newest rows of the case carry `identity` when the verdict is recorded,
and no row inserted later overtakes them under another: it carries the same
identity, or is strictly older than a row already there. -/
structure NeverOvertaken (tenant : TenantContext) (workItemId : WorkItemId)
    (operations inserts : List OperationRow) (identity : OperationIdentity) : Prop where
  current : ∀ row ∈ operations, row.belongsTo tenant workItemId = true →
    (∀ other ∈ operations, other.belongsTo tenant workItemId = true →
      other.createdAt ≤ row.createdAt) → row.identity = identity
  later : ∀ count row, inserts[count]? = some row →
    row.belongsTo tenant workItemId = true →
      row.identity = identity ∨
        ∃ older ∈ operations ++ inserts.take count,
          older.belongsTo tenant workItemId = true ∧ row.createdAt < older.createdAt

/-- Under the condition, every newest row of every prefix carries the identity.
The induction is on how many rows have been inserted. -/
theorem NeverOvertaken.newest_identity {tenant : TenantContext} {workItemId : WorkItemId}
    {operations inserts : List OperationRow} {identity : OperationIdentity}
    (h : NeverOvertaken tenant workItemId operations inserts identity) (count : Nat)
    {row : OperationRow}
    (hnewest : NewestOperation (operations ++ inserts.take count) tenant workItemId row) :
    row.identity = identity := by
  induction count with
  | zero =>
      rw [List.take_zero, List.append_nil] at hnewest
      obtain ⟨hmem, hall⟩ := hnewest
      rw [List.mem_filter] at hmem
      exact h.current row hmem.1 hmem.2 fun other hother hbelongs =>
        hall other (List.mem_filter.mpr ⟨hother, hbelongs⟩)
  | succ count ih =>
      cases hinserted : inserts[count]? with
      | none =>
          rw [List.take_of_length_le (by rw [List.getElem?_eq_none_iff] at hinserted; omega)]
            at hnewest
          rw [List.take_of_length_le (by rwa [List.getElem?_eq_none_iff] at hinserted)] at ih
          exact ih hnewest
      | some inserted =>
          rw [List.take_add_one, hinserted, Option.toList_some, ← List.append_assoc] at hnewest
          rcases hnewest.of_insert with hold | ⟨rfl, hbelongs, holder⟩
          · exact ih hold
          · rcases h.later count row hinserted hbelongs with hsame | ⟨older, hin, hbel, hlt⟩
            · exact hsame
            · exact absurd hlt (Int.not_lt.mpr (holder older hin hbel))

/-- **An approval authorises only what it was given for, unless overtaken.**
After a verdict is recorded, and however many operation rows are inserted, what
it reads back as bound to is fixed, and useless for anything else, exactly when
no later row overtakes the newest ones under another identity. -/
theorem recorded_verdict_stays_bound_iff {approvals : ApprovalTable}
    {tenant : TenantContext} {approvalId : ApprovalId} {decidedBy : PrincipalId}
    {rolesHeld : RoleSet} {verdict : ApprovalVerdict} {expiresAt databaseNow : Instant}
    {approval : ApprovalRow}
    (hrecorded : (ApprovalRepository.recordVerdict approvals tenant approvalId decidedBy
      rolesHeld verdict expiresAt databaseNow).1 = true)
    (happroval : approval ∈ approvals.rows) (hid : approval.approvalId = approvalId)
    (operations inserts : List OperationRow) (identity : OperationIdentity) :
    StaysBound
        (ApprovalRepository.recordVerdict approvals tenant approvalId decidedBy rolesHeld
          verdict expiresAt databaseNow).2
        tenant approval.workItemId operations inserts identity ↔
      NeverOvertaken tenant approval.workItemId operations inserts identity := by
  have hread := decisionFor_recordVerdict hrecorded happroval hid
  constructor
  · intro hstays
    -- a newest row of any prefix is read back under some physical order
    have hnewest : ∀ count row,
        NewestOperation (operations ++ inserts.take count) tenant approval.workItemId row →
        row.identity = identity := by
      intro count row hnewest
      obtain ⟨physical, hperm, hhead⟩ := Newest.exists_head hnewest
      have hbound : boundOperation physical tenant approval.workItemId = some row := hhead
      have hdecision := hread physical
      rw [hbound, Option.map_some] at hdecision
      exact (hstays count physical hperm _ hdecision).1
    refine ⟨?_, ?_⟩
    · intro row hrow hbelongs hall
      apply hnewest 0 row
      rw [List.take_zero, List.append_nil]
      refine ⟨List.mem_filter.mpr ⟨hrow, hbelongs⟩, ?_⟩
      intro other hother
      obtain ⟨hin, hbel⟩ := List.mem_filter.mp hother
      exact hall other hin hbel
    · intro count row hinserted hbelongs
      by_cases holder : ∃ older ∈ operations ++ inserts.take count,
          older.belongsTo tenant approval.workItemId = true ∧
            row.createdAt < older.createdAt
      · exact Or.inr holder
      · left
        apply hnewest (count + 1) row
        rw [List.take_add_one, hinserted, Option.toList_some, ← List.append_assoc]
        refine ⟨List.mem_filter.mpr ⟨by simp, hbelongs⟩, ?_⟩
        intro other hother
        obtain ⟨hin, hbel⟩ := List.mem_filter.mp hother
        rcases List.mem_append.mp hin with hbefore | hself
        · by_contra hlt
          exact holder ⟨other, hbefore, hbel, Int.not_le.mp hlt⟩
        · rw [List.mem_singleton.mp hself]
  · intro hnever count physical hperm standing hstanding
    rw [hread physical] at hstanding
    obtain ⟨bound, hbound, rfl⟩ := Option.map_eq_some_iff.mp (Except.ok.inj hstanding)
    have hidentity : bound.identity = identity :=
      hnever.newest_identity count ((boundOperation_newest hbound).perm hperm)
    refine ⟨hidentity, ?_⟩
    intro request outcome hdecision hother houtcome hproceed
    apply proceeds_without_verdict hdecision _ houtcome hproceed
    intro hsame
    exact hother (hsame.symm.trans hidentity)

/-! ### One case -/

def caseTenant : TenantContext := ⟨⟨1⟩, ⟨1⟩, .active, .workItem⟩

def requestedApproval : ApprovalRow :=
  ⟨⟨3⟩, ⟨1⟩, ⟨2⟩, 0, none, none, none, none, none, 1, 0, rfl, rfl⟩

def requestedApprovals : ApprovalTable where
  rows := [requestedApproval]
  unique := List.nodup_singleton _
  oneEach := List.nodup_singleton _

def unlockRow : OperationRow := ⟨⟨4⟩, ⟨1⟩, ⟨2⟩, "unlock_account", 1, 5⟩

def resetRow : OperationRow := ⟨⟨5⟩, ⟨1⟩, ⟨2⟩, "reset_mfa", 3, 15⟩

def technicianOnly : RoleSet := ⟨{.technician}⟩

/-- A technician approves the unlock at 10. -/
def unlockApproved : Bool × ApprovalTable :=
  ApprovalRepository.recordVerdict requestedApprovals caseTenant ⟨3⟩ ⟨9⟩ technicianOnly
    .approved 100 10

/-- The gate's request for the reset, with a given verdict standing. -/
def resetRequest (verdict : StaffVerdict) : GateRequest where
  tenant := caseTenant
  proposal := resetRow.identity
  entry := some ⟨resetRow.identity, .staffApproval, technicianOnly, .action, false, false⟩
  isEntitled := true
  requester := ⟨8⟩
  now := 20
  decision := some (.staff verdict)
  authorizationExpiresAt := verdict.expiresAt

/-- Re-inserting the operation approved overtakes nothing. -/
theorem unlock_stays_bound :
    StaysBound unlockApproved.2 caseTenant ⟨2⟩ [unlockRow] [unlockRow] unlockRow.identity :=
  (recorded_verdict_stays_bound_iff (by decide)
    (show requestedApproval ∈ requestedApprovals.rows from List.mem_cons_self) rfl
    [unlockRow] [unlockRow] unlockRow.identity).mpr
    ⟨by decide, fun count row h _ => by
      match count with
      | 0 => exact Or.inl (by rw [← Option.some.inj h])
      | _ + 1 => simp at h⟩

/-- A reset inserted after the unlock was approved reads the approval back as
its own, and the gate proceeds with the reset on it. -/
theorem approval_rebinds :
    unlockApproved.1 = true ∧
      (∃ verdict, ApprovalRepository.decisionFor unlockApproved.2 [unlockRow] caseTenant ⟨2⟩ =
          .ok (some verdict) ∧ verdict.boundTo = unlockRow.identity) ∧
      ∃ verdict, ApprovalRepository.decisionFor unlockApproved.2 [unlockRow, resetRow]
          caseTenant ⟨2⟩ = .ok (some verdict) ∧
        verdict.boundTo = resetRow.identity ∧ resetRow.identity ≠ unlockRow.identity ∧
        ∃ outcome, evaluate (resetRequest verdict) = .ok outcome ∧
          outcome.disposition = .proceed ∧ outcome.reason = .approvalGranted :=
  ⟨by decide, ⟨_, rfl, rfl⟩, ⟨_, rfl, rfl, by decide, _, rfl, rfl, rfl⟩⟩

end Synthia
