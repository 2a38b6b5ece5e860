import Synthia.Persistence.WorkItems

/-!
# Recorded decisions

Approvals, consents and the operations they are about. Two things about these
tables decide what a decision means when it is read back.

An `approval` row does not say which operation it was given for. Nor does a
`consent` row. Both readers rebuild that identity from the `operation` table,
as the newest row of the work item at the moment of the read.

And a consent has no window of its own: the reader leaves `expires_at` at its
default.
-/

namespace Synthia

open Relational

/-! ## Rows -/

/-- An `operation` row, as far as the decision readers look at it. -/
structure OperationRow where
  operationId : OperationId
  tenantId : TenantId
  workItemId : WorkItemId
  catalogueId : String
  catalogueVersion : Int
  createdAt : Instant
  deriving DecidableEq, Repr

def OperationRow.identity (row : OperationRow) : OperationIdentity :=
  ⟨row.catalogueId, row.catalogueVersion⟩

def OperationRow.belongsTo (tenant : TenantContext) (workItemId : WorkItemId)
    (row : OperationRow) : Bool :=
  row.tenantId == tenant.tenantId && row.workItemId == workItemId

/-- An `approval` row. `decisionNamed` is the table's CHECK constraint. -/
structure ApprovalRow where
  approvalId : ApprovalId
  tenantId : TenantId
  workItemId : WorkItemId
  requestedAt : Instant
  decidedAt : Option Instant
  decidedByOid : Option PrincipalId
  decidedByRoles : Option (List String)
  verdict : Option ApprovalVerdict
  expiresAt : Option Instant
  version : Int
  updatedAt : Instant
  decisionNamed : decidedAt.isNone = verdict.isNone ∧
    decidedAt.isNone = decidedByOid.isNone
  deriving DecidableEq

/-- Before a decision none of it is there. -/
theorem ApprovalRow.unnamed_none :
    (none : Option Instant).isNone = (none : Option ApprovalVerdict).isNone ∧
      (none : Option Instant).isNone = (none : Option PrincipalId).isNone :=
  ⟨rfl, rfl⟩

/-- The `approval` table. Its second unique constraint allows one per case. -/
structure ApprovalTable extends Table ApprovalRow ApprovalRow.approvalId where
  oneEach : (rows.map ApprovalRow.workItemId).Nodup

/-- A `consent` row. -/
structure ConsentRow where
  consentId : ConsentId
  tenantId : TenantId
  workItemId : WorkItemId
  consentedByOid : PrincipalId
  decidedAt : Instant
  verdict : ConsentVerdict
  deriving DecidableEq, Repr

abbrev ConsentTable := Table ConsentRow ConsentRow.consentId

instance : Versioned ApprovalRow ApprovalRow.approvalId where
  version := ApprovalRow.version
  manage now row := { row with version := row.version + 1, updatedAt := now }
  version_manage _ _ := rfl
  key_manage _ _ := rfl

/-! ## Role names, to and from the column -/

/-- The roles in the order `sorted` leaves their values in. -/
def StaffRole.inValueOrder : List StaffRole :=
  [.administrator, .endUser, .none, .seniorTechnician, .technician]

example : (StaffRole.inValueOrder.map StaffRole.value).Pairwise (· < ·) := by decide

/-- `sorted(role.value for role in roles)`. -/
def RoleSet.sortedValues (set : RoleSet) : List String :=
  (StaffRole.inValueOrder.filter fun role => decide (role ∈ set.roles)).map StaffRole.value

/-- `RoleSet.of(*(StaffRole(name) for name in names))`; a name that is no
member's value raises. -/
def RoleSet.ofNames (names : List String) : Option RoleSet :=
  (names.mapM StaffRole.ofValue).map fun roles => ⟨roles.toFinset⟩

theorem mapM_ofValue_map_value (roles : List StaffRole) :
    (roles.map StaffRole.value).mapM StaffRole.ofValue = some roles := by
  induction roles with
  | nil => rfl
  | cons role roles ih => simp [List.mapM_cons, ih]

/-- The roles written at decision time are the roles read back. -/
@[simp] theorem RoleSet.ofNames_sortedValues (set : RoleSet) :
    RoleSet.ofNames set.sortedValues = some set := by
  unfold RoleSet.ofNames RoleSet.sortedValues
  rw [mapM_ofValue_map_value]
  simp only [Option.map_some, Option.some.injEq]
  congr
  ext role
  cases role <;> simp [StaffRole.inValueOrder]

/-! ## The statements -/

/-- What a read of recorded decisions may raise. -/
inductive ReadError where
  | multipleResultsFound
  | valueError
  deriving DecidableEq, Repr

/-- The lateral subquery both readers join: the newest operation row of the
work item, as `ORDER BY created_at DESC LIMIT 1` finds it. -/
def boundOperation (operations : List OperationRow) (tenant : TenantContext)
    (workItemId : WorkItemId) : Option OperationRow :=
  (orderByDesc OperationRow.createdAt
    (operations.filter (OperationRow.belongsTo tenant workItemId))).head?

namespace ApprovalRow

/-- `decided_at` and the four columns set with it. -/
def decided (decidedBy : PrincipalId) (rolesHeld : RoleSet) (verdict : ApprovalVerdict)
    (expiresAt now : Instant) : Changes ApprovalRow ApprovalRow.approvalId where
  apply row :=
    { row with
      decidedAt := some now
      decidedByOid := some decidedBy
      decidedByRoles := some rolesHeld.sortedValues
      verdict := some verdict
      expiresAt := some expiresAt
      decisionNamed := ⟨rfl, rfl⟩ }
  keeps_key _ := rfl
  keeps_version _ := rfl

/-- The predicate `record_verdict` puts in its `WHERE`. -/
def undecided (tenant : TenantContext) (approvalId : ApprovalId) (row : ApprovalRow) :
    Bool :=
  row.tenantId == tenant.tenantId && row.approvalId == approvalId && row.decidedAt.isNone

/-- The predicate `decision_for` puts in its `WHERE`. -/
def decidedFor (tenant : TenantContext) (workItemId : WorkItemId) (row : ApprovalRow) :
    Bool :=
  row.tenantId == tenant.tenantId && row.workItemId == workItemId && row.decidedAt.isSome

end ApprovalRow

namespace ApprovalRepository

def recordVerdict (approvals : ApprovalTable) (tenant : TenantContext)
    (approvalId : ApprovalId) (decidedBy : PrincipalId) (rolesHeld : RoleSet)
    (verdict : ApprovalVerdict) (expiresAt databaseNow : Instant) :
    Bool × ApprovalTable :=
  let claimed := claimOnce approvals.toTable (ApprovalRow.undecided tenant approvalId)
    (ApprovalRow.decided decidedBy rolesHeld verdict expiresAt databaseNow) databaseNow
  (claimed.1,
    { claimed.2 with
      oneEach := by
        have hsame : claimed.2.rows.map ApprovalRow.workItemId =
            approvals.rows.map ApprovalRow.workItemId := map_updateRows fun _ => rfl
        rw [hsame]
        exact approvals.oneEach })

/-- The verdict one joined row gives, or `none` where no decision is on it. -/
def verdictOf (row : ApprovalRow) (bound : OperationRow) :
    Except ReadError (Option StaffVerdict) :=
  match row.verdict, row.decidedByOid, row.decidedAt with
  | some verdict, some decidedBy, some decidedAt =>
      match RoleSet.ofNames (row.decidedByRoles.getD []) with
      | none => .error .valueError
      | some rolesHeld =>
          .ok (some ⟨row.approvalId, decidedBy, rolesHeld, verdict, bound.identity,
            decidedAt, row.expiresAt⟩)
  | _, _, _ => .ok none

def decisionFor (approvals : ApprovalTable) (operations : List OperationRow)
    (tenant : TenantContext) (workItemId : WorkItemId) :
    Except ReadError (Option StaffVerdict) :=
  match boundOperation operations tenant workItemId with
  | none => .ok none
  | some bound =>
      match approvals.rows.filter (ApprovalRow.decidedFor tenant workItemId) with
      | [] => .ok none
      | [row] => verdictOf row bound
      | _ :: _ :: _ => .error .multipleResultsFound

end ApprovalRepository

namespace ConsentRepository

/-- `INSERT … SELECT`: a row only where the work item is this tenant's and this
principal's. A consent identifier already in use violates the primary key. -/
def record (consents : ConsentTable) (workItems : WorkItemTable)
    (tenant : TenantContext) (consentId : ConsentId) (workItemId : WorkItemId)
    (consentedBy : PrincipalId) (verdict : ConsentVerdict) (databaseNow : Instant) :
    Option (Bool × ConsentTable) :=
  match workItems.rows.find? fun work =>
      work.scopedTo tenant workItemId && work.requestedByOid == consentedBy with
  | none => some (false, consents)
  | some work =>
      if hfresh : consentId ∈ consents.rows.map ConsentRow.consentId then
        none
      else
        some (true, consents.insert
          ⟨consentId, work.tenantId, work.workItemId, consentedBy, databaseNow, verdict⟩
          hfresh)

def decisionFor (consents : List ConsentRow) (operations : List OperationRow)
    (tenant : TenantContext) (workItemId : WorkItemId) : Option EndUserConsent :=
  match boundOperation operations tenant workItemId with
  | none => none
  | some bound =>
      match (orderByDesc ConsentRow.decidedAt
        (consents.filter fun row =>
          row.tenantId == tenant.tenantId && row.workItemId == workItemId)).head? with
      | none => none
      | some row =>
          some ⟨row.consentId, row.consentedByOid, row.verdict, bound.identity,
            row.decidedAt, none⟩

end ConsentRepository

/-! ## What the statements do to a row -/

section Spec

variable {approvals : ApprovalTable} {tenant : TenantContext} {approvalId : ApprovalId}
  {workItemId : WorkItemId} {decidedBy : PrincipalId} {rolesHeld : RoleSet}
  {verdict : ApprovalVerdict} {expiresAt databaseNow : Instant} {row : ApprovalRow}

theorem ApprovalRow.undecided_iff :
    row.undecided tenant approvalId = true ↔
      row.tenantId = tenant.tenantId ∧ row.approvalId = approvalId ∧
        row.decidedAt = none := by
  simp [ApprovalRow.undecided, and_assoc]

theorem ApprovalRow.decidedFor_iff :
    row.decidedFor tenant workItemId = true ↔
      row.tenantId = tenant.tenantId ∧ row.workItemId = workItemId ∧
        row.decidedAt.isSome = true := by
  simp [ApprovalRow.decidedFor, and_assoc]

/-- First valid verdict wins: recording one succeeds exactly while none is. -/
theorem ApprovalRepository.recordVerdict_won :
    (recordVerdict approvals tenant approvalId decidedBy rolesHeld verdict expiresAt
      databaseNow).1 = true ↔
      ∃ row ∈ approvals.rows, row.undecided tenant approvalId = true := by
  unfold recordVerdict
  dsimp only
  rw [claimOnce_won (k := approvalId)]
  intro row hrow
  exact (ApprovalRow.undecided_iff.mp hrow).2.1

theorem ApprovalRepository.mem_recordVerdict :
    row ∈ (recordVerdict approvals tenant approvalId decidedBy rolesHeld verdict expiresAt
      databaseNow).2.rows ↔
      ∃ old ∈ approvals.rows,
        row = if old.undecided tenant approvalId then
          ((ApprovalRow.decided decidedBy rolesHeld verdict expiresAt databaseNow).managed
            databaseNow).apply old else old :=
  mem_claimOnce

/-- A consent is recorded for the requester of the work item, under a free identifier;
otherwise nothing is written. -/
theorem ConsentRepository.record_cases (consents : ConsentTable) (workItems : WorkItemTable)
    (tenant : TenantContext) (consentId : ConsentId) (workItemId : WorkItemId)
    (consentedBy : PrincipalId) (verdict : ConsentVerdict) (databaseNow : Instant) :
    (∃ work ∈ workItems.rows, work.scopedTo tenant workItemId = true ∧
        work.requestedByOid = consentedBy) ∧
      (∃ hfresh : consentId ∉ consents.rows.map ConsentRow.consentId,
        record consents workItems tenant consentId workItemId consentedBy verdict databaseNow =
          some (true, consents.insert
            ⟨consentId, tenant.tenantId, workItemId, consentedBy, databaseNow, verdict⟩
            hfresh)) ∨
    ¬ ((∃ work ∈ workItems.rows, work.scopedTo tenant workItemId = true ∧
        work.requestedByOid = consentedBy) ∧
        consentId ∉ consents.rows.map ConsentRow.consentId) ∧
      (record consents workItems tenant consentId workItemId consentedBy verdict databaseNow =
          none ∨
        record consents workItems tenant consentId workItemId consentedBy verdict databaseNow =
          some (false, consents)) := by
  unfold record
  cases hwork : workItems.rows.find? fun work =>
      work.scopedTo tenant workItemId && work.requestedByOid == consentedBy with
  | none =>
      rw [List.find?_eq_none] at hwork
      refine Or.inr ⟨?_, Or.inr rfl⟩
      intro h
      obtain ⟨⟨work, hmem, hscoped, hwho⟩, _⟩ := h
      refine hwork work hmem ?_
      rw [hscoped, hwho, Bool.true_and, beq_self_eq_true]
  | some work =>
      have hmem := List.mem_of_find?_eq_some hwork
      have hpred := List.find?_some hwork
      rw [Bool.and_eq_true, beq_iff_eq] at hpred
      obtain ⟨hscoped, hwho⟩ := hpred
      have hsome : ∃ work ∈ workItems.rows, work.scopedTo tenant workItemId = true ∧
          work.requestedByOid = consentedBy := ⟨work, hmem, hscoped, hwho⟩
      obtain ⟨htenant, hitem⟩ := WorkItemRow.scopedTo_iff.mp hscoped
      by_cases hfresh : consentId ∈ consents.rows.map ConsentRow.consentId
      · refine Or.inr ⟨fun h => h.2 hfresh, Or.inl ?_⟩
        dsimp only
        rw [dif_pos hfresh]
      · refine Or.inl ⟨hsome, hfresh, ?_⟩
        dsimp only
        rw [dif_neg hfresh, htenant, hitem]

end Spec

end Synthia
