import Synthia.Lib.Machine
import Synthia.Persistence.Views

/-!
# Which approvals the dead-letter surface shows

The view looks at the tables as they stand. It shows an approved row whose work item is
in any state but `executed`, and it shows it only if the work item has an operation, by
the name of the newest. What it is for is about what happened: whether an execution was
attempted, and which operation was there when the verdict was given. So the history keeps
both, beside the tables.

The two agree, for one approval, exactly in one of two shapes. Where nothing was
attempted, there is an operation, there was one at the verdict, and every newest one has
its name. Where something was, either it succeeded and is where it was left, or there is
no operation to show. Every statement either keeps that shape or breaks it, and what
breaks it can be read off the tables before the statement runs.
-/

namespace Synthia

open Relational

/-- The states only an attempt to execute leads to. -/
def WorkItemState.isAttempt : WorkItemState → Bool
  | .executed | .failed => true
  | _ => false

/-- The tables of the authority record, and what happened that they do not keep: the
work items an execution was attempted for, and the operation current at each verdict. -/
structure Ledger where
  workItems : WorkItemTable
  operations : Table OperationRow OperationRow.operationId
  approvals : ApprovalTable
  attempted : List WorkItemId
  verdictOperation : ApprovalId → Option OperationRow

inductive LedgerStatement where
  | openWork (tenant : TenantContext) (workItemId : WorkItemId) (sessionId : SessionId)
      (requestedByOid : PrincipalId) (expiresAt : Option Instant) (now : Instant)
  | propose (tenant : TenantContext) (operationId : OperationId) (workItemId : WorkItemId)
      (catalogueId : String) (catalogueVersion : Int) (now : Instant)
  | request (tenant : TenantContext) (approvalId : ApprovalId) (workItemId : WorkItemId)
      (now : Instant)
  | recordVerdict (tenant : TenantContext) (approvalId : ApprovalId) (decidedBy : PrincipalId)
      (rolesHeld : RoleSet) (verdict : ApprovalVerdict) (expiresAt now : Instant)
  | claim (tenant : TenantContext) (workItemId : WorkItemId) (claimedBy : String)
      (now databaseNow : Instant)
  | transition (tenant : TenantContext) (workItemId : WorkItemId) (state : WorkItemState)
      (expectedVersion : Int) (now : Instant)

/-- A work item as it is opened. -/
def WorkItemRow.opened (tenant : TenantContext) (workItemId : WorkItemId) (sessionId : SessionId)
    (requestedByOid : PrincipalId) (expiresAt : Option Instant) (now : Instant) :
    WorkItemRow where
  workItemId := workItemId
  tenantId := tenant.tenantId
  sessionId := sessionId
  requestedByOid := requestedByOid
  state := .open
  approvalState := .none
  expiresAt := expiresAt
  claimedAt := none
  claimedBy := none
  version := 1
  updatedAt := now
  claimNamed := WorkItemRow.unclaimed

/-- An approval as it is requested. -/
def ApprovalRow.requested (tenant : TenantContext) (approvalId : ApprovalId)
    (workItemId : WorkItemId) (now : Instant) : ApprovalRow where
  approvalId := approvalId
  tenantId := tenant.tenantId
  workItemId := workItemId
  requestedAt := now
  decidedAt := none
  decidedByOid := none
  decidedByRoles := none
  verdict := none
  expiresAt := none
  version := 1
  updatedAt := now
  decisionNamed := ApprovalRow.unnamed_none

theorem ApprovalTable.oneEach_append {approvals : ApprovalTable} {row : ApprovalRow}
    (h : row.workItemId ∉ approvals.rows.map ApprovalRow.workItemId) :
    ((approvals.rows ++ [row]).map ApprovalRow.workItemId).Nodup := by
  rw [List.map_append, List.map_singleton, List.nodup_append]
  refine ⟨approvals.oneEach, List.nodup_singleton _, ?_⟩
  intro a ha b hb hab
  rw [List.mem_singleton] at hb
  rw [hab, hb] at ha
  exact h ha

namespace Ledger

def start : Ledger where
  workItems := ⟨[], List.nodup_nil⟩
  operations := ⟨[], List.nodup_nil⟩
  approvals := ⟨⟨[], List.nodup_nil⟩, List.nodup_nil⟩
  attempted := []
  verdictOperation _ := none

/-- The work item is there for the organisation, as the foreign keys ask. -/
def HasWork (ledger : Ledger) (tenant : TenantContext) (workItemId : WorkItemId) : Prop :=
  ∃ work ∈ ledger.workItems.rows, work.scopedTo tenant workItemId = true

instance (ledger : Ledger) (tenant : TenantContext) (workItemId : WorkItemId) :
    Decidable (ledger.HasWork tenant workItemId) :=
  inferInstanceAs (Decidable (∃ work ∈ ledger.workItems.rows, _))

/-- A statement that a constraint refuses changes nothing. -/
def openWork (ledger : Ledger) (row : WorkItemRow) : Ledger :=
  if hfresh : row.workItemId ∈ ledger.workItems.rows.map WorkItemRow.workItemId then ledger
  else { ledger with workItems := ledger.workItems.insert row hfresh }

def propose (ledger : Ledger) (tenant : TenantContext) (row : OperationRow) : Ledger :=
  if h : row.operationId ∉ ledger.operations.rows.map OperationRow.operationId ∧
      ledger.HasWork tenant row.workItemId then
    { ledger with operations := ledger.operations.insert row h.1 }
  else ledger

def request (ledger : Ledger) (tenant : TenantContext) (row : ApprovalRow) : Ledger :=
  if h : (row.approvalId ∉ ledger.approvals.rows.map ApprovalRow.approvalId ∧
      row.workItemId ∉ ledger.approvals.rows.map ApprovalRow.workItemId) ∧
      ledger.HasWork tenant row.workItemId then
    { ledger with
      approvals :=
        { ledger.approvals.insert row h.1.1 with
          oneEach := ApprovalTable.oneEach_append h.1.2 } }
  else ledger

/-- The verdict, and the operation it was given over, where it was the first. -/
def recordVerdict (ledger : Ledger) (tenant : TenantContext) (approvalId : ApprovalId)
    (decidedBy : PrincipalId) (rolesHeld : RoleSet) (verdict : ApprovalVerdict)
    (expiresAt now : Instant) : Ledger :=
  { ledger with
    approvals := (ApprovalRepository.recordVerdict ledger.approvals tenant approvalId decidedBy
      rolesHeld verdict expiresAt now).2
    verdictOperation :=
      match ledger.approvals.rows.find? (ApprovalRow.undecided tenant approvalId) with
      | none => ledger.verdictOperation
      | some row =>
          Function.update ledger.verdictOperation row.approvalId
            (latestOperation ledger.operations.rows row) }

def claim (ledger : Ledger) (tenant : TenantContext) (workItemId : WorkItemId)
    (claimedBy : String) (now databaseNow : Instant) : Ledger :=
  { ledger with
    workItems := (WorkItemRepository.claim ledger.workItems tenant workItemId claimedBy now
      databaseNow).2 }

def transition (ledger : Ledger) (tenant : TenantContext) (workItemId : WorkItemId)
    (state : WorkItemState) (expectedVersion : Int) (now : Instant) : Ledger :=
  let written := WorkItemRepository.transition ledger.workItems tenant workItemId state
    expectedVersion now
  { ledger with
    workItems := written.2
    attempted :=
      if written.1 && state.isAttempt then workItemId :: ledger.attempted else ledger.attempted }

def execute (ledger : Ledger) : LedgerStatement → Ledger
  | .openWork tenant workItemId sessionId requestedByOid expiresAt now =>
      ledger.openWork (.opened tenant workItemId sessionId requestedByOid expiresAt now)
  | .propose tenant operationId workItemId catalogueId catalogueVersion now =>
      ledger.propose tenant
        ⟨operationId, tenant.tenantId, workItemId, catalogueId, catalogueVersion, now⟩
  | .request tenant approvalId workItemId now =>
      ledger.request tenant (.requested tenant approvalId workItemId now)
  | .recordVerdict tenant approvalId decidedBy rolesHeld verdict expiresAt now =>
      ledger.recordVerdict tenant approvalId decidedBy rolesHeld verdict expiresAt now
  | .claim tenant workItemId claimedBy now databaseNow =>
      ledger.claim tenant workItemId claimedBy now databaseNow
  | .transition tenant workItemId state expectedVersion now =>
      ledger.transition tenant workItemId state expectedVersion now

def step (ledger : Ledger) (statement : LedgerStatement) : Option Ledger :=
  some (ledger.execute statement)

/-! ## What the view should show -/

/-- An approval that stands, for work of which no execution was attempted. -/
def Outstanding (ledger : Ledger) (approval : ApprovalRow) : Prop :=
  approval.verdict = some .approved ∧ approval.workItemId ∉ ledger.attempted

/-- The rows of the view, for the operations in some physical order. -/
def surface (ledger : Ledger) (physical : List OperationRow) : List UnexecutedApprovalRow :=
  vwApprovalUnexecutedV1 ledger.approvals ledger.workItems physical

/-- One row for every outstanding approval, by the operation of its verdict, and no
other row. -/
structure Surfaces (ledger : Ledger) : Prop where
  shown : ∀ physical, physical.Perm ledger.operations.rows →
    ∀ approval ∈ ledger.approvals.rows, ledger.Outstanding approval →
      ∃ operation, ledger.verdictOperation approval.approvalId = some operation ∧
        (ledger.surface physical).filter (fun row => row.approvalId == approval.approvalId) =
          [approval.unexecuted operation.catalogueId]
  hidden : ∀ physical, physical.Perm ledger.operations.rows →
    ∀ row ∈ ledger.surface physical, ∃ approval ∈ ledger.approvals.rows,
      approval.approvalId = row.approvalId ∧ ledger.Outstanding approval

/-- The newest of the operations on the case of an approval. -/
def NewestFor (ledger : Ledger) (approval : ApprovalRow) (operation : OperationRow) : Prop :=
  Newest OperationRow.createdAt (ledger.operations.rows.filter approval.proposedOn) operation

/-- The shape in which the tables and the history agree about an approval. -/
def Agrees (ledger : Ledger) (approval : ApprovalRow) (work : WorkItemRow) : Prop :=
  if approval.workItemId ∈ ledger.attempted then
    work.state = .executed ∨ ∀ operation, ¬ ledger.NewestFor approval operation
  else
    ∃ operation, ledger.verdictOperation approval.approvalId = some operation ∧
      (∃ newest, ledger.NewestFor approval newest) ∧
      ∀ newest, ledger.NewestFor approval newest → newest.catalogueId = operation.catalogueId

/-- They agree about every approval that stands. -/
def Agreement (ledger : Ledger) : Prop :=
  ∀ approval ∈ ledger.approvals.rows, approval.verdict = some .approved →
    ∀ work ∈ ledger.workItems.rows, ReportingStore.worksOn approval work = true →
      ledger.Agrees approval work

/-- What holds in every history. -/
structure Sound (ledger : Ledger) : Prop where
  works : ∀ approval ∈ ledger.approvals.rows, ∃ work ∈ ledger.workItems.rows,
    ReportingStore.worksOn approval work = true
  attempts : ∀ work ∈ ledger.workItems.rows, work.state.isAttempt = true →
    work.workItemId ∈ ledger.attempted

/-- What a statement must not do, by the tables and the history before it.

An operation on the case of a standing approval is older than the newest or has its name,
and where an execution was attempted the work is `executed`. A verdict of approved finds
operations of one name, or an execution that succeeded or nothing to show. A move into
`failed`, or from what was attempted into another state than `executed`, is of work that
has no operation or no approval that stands. -/
def Keeps (ledger : Ledger) : LedgerStatement → Prop
  | .openWork .. | .request .. | .claim .. => True
  | .propose tenant operationId workItemId catalogueId _ now =>
      operationId ∉ ledger.operations.rows.map OperationRow.operationId →
      ledger.HasWork tenant workItemId →
      ∀ approval ∈ ledger.approvals.rows, approval.verdict = some .approved →
        approval.workItemId = workItemId →
        ∀ work ∈ ledger.workItems.rows, ReportingStore.worksOn approval work = true →
          if workItemId ∈ ledger.attempted then work.state = .executed
          else ∀ newest, ledger.NewestFor approval newest → newest.createdAt ≤ now →
            catalogueId = newest.catalogueId
  | .recordVerdict tenant approvalId _ _ verdict _ _ =>
      verdict = .approved →
      ∀ approval ∈ ledger.approvals.rows, approval.undecided tenant approvalId = true →
        ∀ work ∈ ledger.workItems.rows, ReportingStore.worksOn approval work = true →
          if approval.workItemId ∈ ledger.attempted then
            work.state = .executed ∨ ∀ operation, ¬ ledger.NewestFor approval operation
          else
            (∃ newest, ledger.NewestFor approval newest) ∧
            ∀ newest other, ledger.NewestFor approval newest →
              ledger.NewestFor approval other → newest.catalogueId = other.catalogueId
  | .transition tenant workItemId state expectedVersion _ =>
      ∀ work ∈ ledger.workItems.rows, work.scopedTo tenant workItemId = true →
        work.version = expectedVersion →
        (workItemId ∈ ledger.attempted ∨ state.isAttempt = true) → state ≠ .executed →
        ∀ approval ∈ ledger.approvals.rows, approval.verdict = some .approved →
          approval.workItemId = workItemId → ∀ operation, ¬ ledger.NewestFor approval operation

/-! ## The view and the tables -/

section View

variable {ledger : Ledger} {approval : ApprovalRow} {work : WorkItemRow}
  {physical : List OperationRow}

theorem worksOn_iff :
    ReportingStore.worksOn approval work = true ↔
      work.workItemId = approval.workItemId ∧ work.tenantId = approval.tenantId := by
  rw [ReportingStore.worksOn, Bool.and_eq_true, beq_iff_eq, beq_iff_eq]

/-- Work item and organisation together name one row. -/
theorem filter_worksOn (hwork : work ∈ ledger.workItems.rows)
    (hon : ReportingStore.worksOn approval work = true) :
    ledger.workItems.rows.filter (ReportingStore.worksOn approval) = [work] :=
  filter_eq_singleton ledger.workItems.unique (fun _ h => (worksOn_iff.mp h).1) hwork hon

/-- A verdict comes with its instant, so what is approved and not executed stands. -/
theorem standsUnexecuted_iff :
    standsUnexecuted approval work = true ↔
      approval.verdict = some .approved ∧ work.state ≠ .executed := by
  rw [standsUnexecuted, Bool.and_eq_true, Bool.and_eq_true, beq_iff_eq, bne_iff_ne]
  refine and_congr_left fun _ => and_iff_left_of_imp fun hverdict => ?_
  have hnamed := approval.decisionNamed.1
  rw [hverdict] at hnamed
  rwa [Option.isNone_some, Option.isNone_eq_false_iff] at hnamed

theorem newestFor_of_latest (hperm : physical.Perm ledger.operations.rows)
    {operation : OperationRow} (h : latestOperation physical approval = some operation) :
    ledger.NewestFor approval operation :=
  (newest_of_head h).perm (hperm.filter _)

theorem latest_of_newestFor {operation : OperationRow}
    (h : ledger.NewestFor approval operation) :
    ∃ physical, physical.Perm ledger.operations.rows ∧
      latestOperation physical approval = some operation :=
  h.exists_head

/-- Where there is a newest operation, every physical order shows one. -/
theorem latestOperation_some (hperm : physical.Perm ledger.operations.rows)
    (h : ∃ newest, ledger.NewestFor approval newest) :
    ∃ operation, latestOperation physical approval = some operation := by
  obtain ⟨newest, hnewest, _⟩ := h
  rw [← Option.isSome_iff_exists]
  unfold latestOperation
  rw [List.isSome_head?]
  have hmem : newest ∈ orderByDesc OperationRow.createdAt
      (physical.filter approval.proposedOn) :=
    mem_orderBy.mpr ((hperm.filter _).mem_iff.mpr hnewest)
  exact List.ne_nil_of_mem hmem

/-- The rows an approval contributes. -/
theorem surface_own (happroval : approval ∈ ledger.approvals.rows)
    (hwork : work ∈ ledger.workItems.rows)
    (hon : ReportingStore.worksOn approval work = true) :
    (ledger.surface physical).filter (fun row => row.approvalId == approval.approvalId) =
      if standsUnexecuted approval work then
        (latestOperation physical approval).toList.map fun operation =>
          approval.unexecuted operation.catalogueId
      else [] := by
  unfold surface vwApprovalUnexecutedV1 innerJoin
  rw [List.filterMap_flatMap, filter_flatMap_of_key ledger.approvals.unique ?_ happroval,
    filter_worksOn hwork hon]
  · simp only [List.map_cons, List.map_nil, List.filterMap_cons, List.filterMap_nil]
    cases latestOperation physical approval with
    | none => cases standsUnexecuted approval work <;> rfl
    | some operation => cases standsUnexecuted approval work <;> rfl
  · intro other row hrow
    obtain ⟨joined, hjoined, hrow⟩ := List.mem_filterMap.mp hrow
    obtain ⟨_, _, rfl⟩ := List.mem_map.mp hjoined
    obtain ⟨operation, _, hrow⟩ := Option.bind_eq_some_iff.mp hrow
    split at hrow
    · injection hrow with hrow
      rw [← hrow]
      rfl
    · cases hrow

/-- A row of the view is an approval's that stands over work not executed. -/
theorem mem_surface {row : UnexecutedApprovalRow} (h : row ∈ ledger.surface physical) :
    ∃ approval ∈ ledger.approvals.rows, ∃ work ∈ ledger.workItems.rows, ∃ operation,
      ReportingStore.worksOn approval work = true ∧
        latestOperation physical approval = some operation ∧
        standsUnexecuted approval work = true ∧
        row = approval.unexecuted operation.catalogueId := by
  obtain ⟨joined, hjoined, hrow⟩ := List.mem_filterMap.mp h
  obtain ⟨approval, happroval, hpair⟩ := List.mem_flatMap.mp hjoined
  obtain ⟨work, hwork, rfl⟩ := List.mem_map.mp hpair
  obtain ⟨hwork, hon⟩ := List.mem_filter.mp hwork
  obtain ⟨operation, hoperation, hrow⟩ := Option.bind_eq_some_iff.mp hrow
  split at hrow
  · next hstands =>
      injection hrow with hrow
      exact ⟨approval, happroval, work, hwork, operation, hon, hoperation, hstands, hrow.symm⟩
  · cases hrow

end View

section Shape

variable {ledger : Ledger}

theorem Sound.unattempted (h : ledger.Sound) {approval : ApprovalRow} {work : WorkItemRow}
    (hwork : work ∈ ledger.workItems.rows)
    (hon : ReportingStore.worksOn approval work = true)
    (hnone : approval.workItemId ∉ ledger.attempted) : work.state ≠ .executed := by
  intro hstate
  have hattempt := h.attempts work hwork (by rw [hstate]; rfl)
  rw [(worksOn_iff.mp hon).1] at hattempt
  exact hnone hattempt

/-- What is shown of an approval that stands is what the history says, if the shape is
right. -/
theorem Sound.surfaces (h : ledger.Sound) (hagree : ledger.Agreement) : ledger.Surfaces := by
  constructor
  · intro physical hperm approval happroval houtstanding
    obtain ⟨hverdict, hnone⟩ := houtstanding
    obtain ⟨work, hwork, hon⟩ := h.works approval happroval
    have hagrees := hagree approval happroval hverdict work hwork hon
    rw [Agrees, if_neg hnone] at hagrees
    obtain ⟨operation, hnamed, hsome, hnames⟩ := hagrees
    refine ⟨operation, hnamed, ?_⟩
    have hstands := standsUnexecuted_iff.mpr ⟨hverdict, h.unattempted hwork hon hnone⟩
    obtain ⟨latest, hlatest⟩ := latestOperation_some hperm hsome
    rw [surface_own happroval hwork hon, if_pos hstands, hlatest,
      ← hnames latest (newestFor_of_latest hperm hlatest)]
    rfl
  · intro physical hperm row hrow
    obtain ⟨approval, happroval, work, hwork, operation, hon, hlatest, hstands, rfl⟩ :=
      mem_surface hrow
    obtain ⟨hverdict, hstate⟩ := standsUnexecuted_iff.mp hstands
    refine ⟨approval, happroval, rfl, hverdict, fun hattempted => ?_⟩
    have hagrees := hagree approval happroval hverdict work hwork hon
    rw [Agrees, if_pos hattempted] at hagrees
    rcases hagrees with hexecuted | hnothing
    · exact hstate hexecuted
    · exact hnothing operation (newestFor_of_latest hperm hlatest)

/-- And only then: some physical order shows each newest operation. -/
theorem Sound.agreement (h : ledger.Sound) (hsurfaces : ledger.Surfaces) : ledger.Agreement := by
  intro approval happroval hverdict work hwork hon
  unfold Agrees
  split
  · next hattempted =>
      by_contra hnot
      rw [not_or, not_forall] at hnot
      obtain ⟨hstate, operation, hnewest⟩ := hnot
      obtain ⟨physical, hperm, hlatest⟩ := latest_of_newestFor (not_not.mp hnewest)
      have hrow : approval.unexecuted operation.catalogueId ∈ (ledger.surface physical).filter
          fun row => row.approvalId == approval.approvalId := by
        rw [surface_own happroval hwork hon,
          if_pos (standsUnexecuted_iff.mpr ⟨hverdict, hstate⟩), hlatest]
        exact List.mem_singleton.mpr rfl
      obtain ⟨other, hother, hid, _, hnone⟩ :=
        hsurfaces.hidden physical hperm _ (List.mem_filter.mp hrow).1
      rw [ledger.approvals.eq_of_key hother happroval hid] at hnone
      exact hnone hattempted
  · next hnone =>
      have hstands := standsUnexecuted_iff.mpr ⟨hverdict, h.unattempted hwork hon hnone⟩
      have hnewest : ∀ physical, physical.Perm ledger.operations.rows →
          ∃ operation, ledger.verdictOperation approval.approvalId = some operation ∧
            ∃ latest, latestOperation physical approval = some latest ∧
              latest.catalogueId = operation.catalogueId := by
        intro physical hperm
        obtain ⟨operation, hnamed, hrows⟩ :=
          hsurfaces.shown physical hperm approval happroval ⟨hverdict, hnone⟩
        rw [surface_own happroval hwork hon, if_pos hstands] at hrows
        refine ⟨operation, hnamed, ?_⟩
        cases hlatest : latestOperation physical approval with
        | none =>
            rw [hlatest] at hrows
            cases hrows
        | some latest =>
            rw [hlatest] at hrows
            injection hrows with hrow
            exact ⟨latest, rfl, congrArg UnexecutedApprovalRow.catalogueId hrow⟩
      obtain ⟨operation, hnamed, latest, hlatest, _⟩ := hnewest _ (List.Perm.refl _)
      refine ⟨operation, hnamed, ⟨latest, newestFor_of_latest (List.Perm.refl _) hlatest⟩, ?_⟩
      intro newest hshown
      obtain ⟨physical, hperm, hfirst⟩ := latest_of_newestFor hshown
      obtain ⟨other, hsame, found, hfound, hname⟩ := hnewest physical hperm
      rw [hfirst] at hfound
      rw [hnamed] at hsame
      rw [Option.some.inj hfound, hname, ← Option.some.inj hsame]

end Shape

/-! ## One statement -/

section Statement

variable {ledger : Ledger} {tenant : TenantContext}

theorem agrees_attempted {approval : ApprovalRow} {work : WorkItemRow}
    (h : approval.workItemId ∈ ledger.attempted) :
    ledger.Agrees approval work ↔
      work.state = .executed ∨ ∀ operation, ¬ ledger.NewestFor approval operation := by
  rw [Agrees, if_pos h]

theorem agrees_unattempted {approval : ApprovalRow} {work : WorkItemRow}
    (h : approval.workItemId ∉ ledger.attempted) :
    ledger.Agrees approval work ↔
      ∃ operation, ledger.verdictOperation approval.approvalId = some operation ∧
        (∃ newest, ledger.NewestFor approval newest) ∧
        ∀ newest, ledger.NewestFor approval newest →
          newest.catalogueId = operation.catalogueId := by
  rw [Agrees, if_neg h]

/-- The shape is a matter of the attempt, of what the verdict was over and of the newest
operations; of the work item only where an execution was attempted. -/
theorem Agrees.congr {other : Ledger} {approval : ApprovalRow} {work moved : WorkItemRow}
    (h : ledger.Agrees approval work)
    (hattempted : approval.workItemId ∈ other.attempted ↔
      approval.workItemId ∈ ledger.attempted)
    (hnewest : ∀ operation, other.NewestFor approval operation ↔
      ledger.NewestFor approval operation)
    (hnamed : other.verdictOperation approval.approvalId =
      ledger.verdictOperation approval.approvalId)
    (hstate : approval.workItemId ∈ ledger.attempted → work.state = .executed →
      moved.state = .executed) : other.Agrees approval moved := by
  by_cases hmem : approval.workItemId ∈ ledger.attempted
  · refine (agrees_attempted (hattempted.mpr hmem)).mpr ?_
    rcases (agrees_attempted hmem).mp h with hexecuted | hnothing
    · exact Or.inl (hstate hmem hexecuted)
    · exact Or.inr fun operation hshown => hnothing operation ((hnewest operation).mp hshown)
  · refine (agrees_unattempted (mt hattempted.mp hmem)).mpr ?_
    obtain ⟨operation, hsame, ⟨newest, hshown⟩, hnames⟩ := (agrees_unattempted hmem).mp h
    exact ⟨operation, hnamed.trans hsame, ⟨newest, (hnewest newest).mpr hshown⟩,
      fun newest hshown => hnames newest ((hnewest newest).mp hshown)⟩

theorem Sound.openWork (h : ledger.Sound) {row : WorkItemRow}
    (hstate : row.state.isAttempt = false) : (ledger.openWork row).Sound := by
  unfold Ledger.openWork
  split
  · exact h
  · constructor
    · intro approval happroval
      obtain ⟨work, hwork, hon⟩ := h.works approval happroval
      exact ⟨work, List.mem_append_left _ hwork, hon⟩
    · intro work hwork hattempt
      rcases List.mem_append.mp hwork with hold | hnew
      · exact h.attempts work hold hattempt
      · rw [List.mem_singleton.mp hnew, hstate] at hattempt
        cases hattempt

/-- Nothing is approved for a work item that is only now opened. -/
theorem Sound.agreement_openWork (h : ledger.Sound) (hagree : ledger.Agreement)
    (row : WorkItemRow) : (ledger.openWork row).Agreement := by
  unfold Ledger.openWork
  split
  · exact hagree
  · next hfresh =>
      intro approval happroval hverdict work hwork hon
      rcases List.mem_append.mp hwork with hold | hnew
      · exact hagree approval happroval hverdict work hold hon
      · obtain ⟨old, hold, hold_on⟩ := h.works approval happroval
        rw [List.mem_singleton.mp hnew] at hon
        have hsame := (worksOn_iff.mp hold_on).1.trans (worksOn_iff.mp hon).1.symm
        exact absurd (List.mem_map.mpr ⟨old, hold, hsame⟩) hfresh

theorem Sound.request (h : ledger.Sound) {row : ApprovalRow}
    (htenant : row.tenantId = tenant.tenantId) : (ledger.request tenant row).Sound := by
  unfold Ledger.request
  split
  · next hallowed =>
      refine ⟨fun approval happroval => ?_, h.attempts⟩
      rcases List.mem_append.mp happroval with hold | hnew
      · exact h.works approval hold
      · obtain ⟨work, hwork, hscoped⟩ := hallowed.2
        obtain ⟨hwork_tenant, hid⟩ := WorkItemRow.scopedTo_iff.mp hscoped
        rw [List.mem_singleton.mp hnew]
        exact ⟨work, hwork, worksOn_iff.mpr ⟨hid, hwork_tenant.trans htenant.symm⟩⟩
  · exact h

theorem agreement_request (hagree : ledger.Agreement) {row : ApprovalRow}
    (hundecided : row.verdict = none) : (ledger.request tenant row).Agreement := by
  unfold Ledger.request
  split
  · intro approval happroval hverdict
    rcases List.mem_append.mp happroval with hold | hnew
    · exact hagree approval hold hverdict
    · rw [List.mem_singleton.mp hnew, hundecided] at hverdict
      cases hverdict
  · exact hagree

theorem Sound.claim (h : ledger.Sound) (workItemId : WorkItemId) (claimedBy : String)
    (now databaseNow : Instant) :
    (ledger.claim tenant workItemId claimedBy now databaseNow).Sound := by
  constructor
  · intro approval happroval
    obtain ⟨work, hwork, hon⟩ := h.works approval happroval
    refine ⟨_, WorkItemRepository.mem_claim.mpr ⟨work, hwork, rfl⟩, ?_⟩
    split
    · exact hon
    · exact hon
  · intro work hwork hattempt
    obtain ⟨old, hold, rfl⟩ := WorkItemRepository.mem_claim.mp hwork
    split at hattempt
    · cases hattempt
    · next hother =>
        rw [if_neg hother]
        exact h.attempts old hold hattempt

/-- A claim takes what is authorized, which is not what was executed. -/
theorem agreement_claim (hagree : ledger.Agreement) (workItemId : WorkItemId)
    (claimedBy : String) (now databaseNow : Instant) :
    (ledger.claim tenant workItemId claimedBy now databaseNow).Agreement := by
  intro approval happroval hverdict work hwork hon
  obtain ⟨old, hold, hrow⟩ := WorkItemRepository.mem_claim.mp hwork
  split at hrow
  · next hhit =>
      rw [hrow] at hon
      rw [Bool.and_eq_true, WorkItemRow.claimable_iff] at hhit
      refine (hagree approval happroval hverdict old hold hon).congr Iff.rfl
        (fun _ => Iff.rfl) rfl fun _ hexecuted => ?_
      rw [hhit.2.2.1] at hexecuted
      cases hexecuted
  · rw [hrow] at hon ⊢
    exact hagree approval happroval hverdict old hold hon

theorem Sound.propose (h : ledger.Sound) (row : OperationRow) :
    (ledger.propose tenant row).Sound := by
  unfold Ledger.propose
  split
  · exact ⟨h.works, h.attempts⟩
  · exact h

/-- An operation is on the case of the approvals of its work item, and of no other. -/
theorem proposedOn_iff {row : OperationRow} (htenant : row.tenantId = tenant.tenantId)
    (hwork : ledger.HasWork tenant row.workItemId) {approval : ApprovalRow} {work : WorkItemRow}
    (hmem : work ∈ ledger.workItems.rows)
    (hon : ReportingStore.worksOn approval work = true) :
    approval.proposedOn row = true ↔ approval.workItemId = row.workItemId := by
  rw [ApprovalRow.proposedOn, Bool.and_eq_true, beq_iff_eq, beq_iff_eq]
  constructor
  · intro h
    exact h.1.symm
  · intro hid
    obtain ⟨found, hfound, hscoped⟩ := hwork
    obtain ⟨hfound_tenant, hfound_id⟩ := WorkItemRow.scopedTo_iff.mp hscoped
    obtain ⟨hwork_id, hwork_tenant⟩ := worksOn_iff.mp hon
    have hsame : work = found := ledger.workItems.eq_of_key hmem hfound
      (hwork_id.trans (hid.trans hfound_id.symm))
    refine ⟨hid.symm, ?_⟩
    rw [htenant, ← hfound_tenant, ← hsame, hwork_tenant]

section Propose

variable {row : OperationRow} {approval : ApprovalRow} {operations : List OperationRow}

theorem filter_concat_own (hown : approval.proposedOn row = true) :
    (operations ++ [row]).filter approval.proposedOn =
      operations.filter approval.proposedOn ++ [row] := by
  rw [List.filter_append, List.filter_cons_of_pos hown, List.filter_nil]

theorem filter_concat_other (hother : ¬ approval.proposedOn row = true) :
    (operations ++ [row]).filter approval.proposedOn = operations.filter approval.proposedOn := by
  rw [List.filter_append, List.filter_cons_of_neg hother, List.filter_nil, List.append_nil]

end Propose

/-- One more operation keeps the agreement about an approval exactly when it does not come
to be shown under another name, nor after an execution that is not where it was left. -/
theorem agrees_propose {row : OperationRow} {approval : ApprovalRow} {work : WorkItemRow}
    (hfresh : row.operationId ∉ ledger.operations.rows.map OperationRow.operationId)
    (hown : approval.proposedOn row = true) (hagrees : ledger.Agrees approval work) :
    ({ ledger with operations := ledger.operations.insert row hfresh } : Ledger).Agrees
        approval work ↔
      if approval.workItemId ∈ ledger.attempted then work.state = .executed
      else ∀ newest, ledger.NewestFor approval newest → newest.createdAt ≤ row.createdAt →
        row.catalogueId = newest.catalogueId := by
  have hnewest : ∀ operation,
      ({ ledger with operations := ledger.operations.insert row hfresh } : Ledger).NewestFor
          approval operation ↔
        Newest OperationRow.createdAt
          (ledger.operations.rows.filter approval.proposedOn ++ [row]) operation := by
    intro operation
    show Newest _ ((ledger.operations.rows ++ [row]).filter _) _ ↔ _
    rw [filter_concat_own hown]
  unfold Agrees at hagrees ⊢
  simp only [hnewest]
  split
  · refine or_iff_left fun hnothing => ?_
    have hin := List.mem_append_right (ledger.operations.rows.filter approval.proposedOn)
      (List.mem_singleton_self row)
    obtain ⟨newest, hfound⟩ := @Newest.exists_of_mem _ _ _ OperationRow.createdAt _ _ hin
    exact hnothing newest hfound
  · next hnone =>
      rw [if_neg hnone] at hagrees
      obtain ⟨operation, hnamed, ⟨first, hfirst⟩, hnames⟩ := hagrees
      constructor
      · intro h newest hshown hle
        obtain ⟨other, hother, _, hall⟩ := h
        rw [hnamed] at hother
        have hrow := hall row (newest_concat.mpr
          (Or.inr ⟨rfl, fun older holder => (hshown.2 older holder).trans hle⟩))
        rw [hrow, ← Option.some.inj hother, hnames newest hshown]
      · intro h
        refine ⟨operation, hnamed, Newest.exists_of_mem
          (List.mem_append_right _ (List.mem_singleton_self row)), ?_⟩
        intro newest hshown
        rcases newest_concat.mp hshown with ⟨hold, _⟩ | ⟨rfl, hall⟩
        · exact hnames newest hold
        · rw [h first hfirst (hall first hfirst.1), hnames first hfirst]

theorem agreement_propose (hagree : ledger.Agreement) (row : OperationRow)
    (htenant : row.tenantId = tenant.tenantId) :
    (ledger.propose tenant row).Agreement ↔
      ledger.Keeps (.propose tenant row.operationId row.workItemId row.catalogueId
        row.catalogueVersion row.createdAt) := by
  unfold Ledger.propose
  split
  · next hallowed =>
      obtain ⟨hfresh, hwork⟩ := hallowed
      constructor
      · intro h _ _ approval happroval hverdict hid work hmem hon
        have hown := (proposedOn_iff htenant hwork hmem hon).mpr hid
        have := (agrees_propose hfresh hown (hagree approval happroval hverdict work hmem hon)).mp
          (h approval happroval hverdict work hmem hon)
        rwa [hid] at this
      · intro h approval happroval hverdict work hmem hon
        have hagrees := hagree approval happroval hverdict work hmem hon
        by_cases hid : approval.workItemId = row.workItemId
        · have hown := (proposedOn_iff htenant hwork hmem hon).mpr hid
          refine (agrees_propose hfresh hown hagrees).mpr ?_
          rw [hid]
          exact h hfresh hwork approval happroval hverdict hid work hmem hon
        · have hother := mt (proposedOn_iff htenant hwork hmem hon).mp hid
          refine hagrees.congr Iff.rfl (fun operation => ?_) rfl fun _ h => h
          show Newest _ ((ledger.operations.rows ++ [row]).filter _) _ ↔ _
          rw [filter_concat_other hother]
          exact Iff.rfl
  · next hrefused =>
      refine iff_of_true hagree fun hfresh hwork => ?_
      exact absurd ⟨hfresh, hwork⟩ hrefused

/-! ### A verdict -/

section Verdict

variable {approvalId : ApprovalId} {decidedBy : PrincipalId} {rolesHeld : RoleSet}
  {verdict : ApprovalVerdict} {expiresAt now : Instant}

theorem Sound.recordVerdict (h : ledger.Sound) :
    (ledger.recordVerdict tenant approvalId decidedBy rolesHeld verdict expiresAt now).Sound := by
  refine ⟨fun approval happroval => ?_, h.attempts⟩
  obtain ⟨old, hold, rfl⟩ := ApprovalRepository.mem_recordVerdict.mp happroval
  obtain ⟨work, hwork, hon⟩ := h.works old hold
  refine ⟨work, hwork, ?_⟩
  split
  · exact hon
  · exact hon

/-- The approval a verdict decides is over the operation then current. -/
theorem verdictOperation_decided {approval : ApprovalRow}
    (happroval : approval ∈ ledger.approvals.rows)
    (hundecided : approval.undecided tenant approvalId = true) :
    (ledger.recordVerdict tenant approvalId decidedBy rolesHeld verdict expiresAt
        now).verdictOperation approval.approvalId =
      latestOperation ledger.operations.rows approval := by
  have hfound : ledger.approvals.rows.find? (ApprovalRow.undecided tenant approvalId) =
      some approval := by
    cases hfind : ledger.approvals.rows.find? (ApprovalRow.undecided tenant approvalId) with
    | none => exact absurd hundecided (List.find?_eq_none.mp hfind approval happroval)
    | some found =>
        have hsame : found.approvalId = approval.approvalId :=
          (ApprovalRow.undecided_iff.mp (List.find?_some hfind)).2.1.trans
            (ApprovalRow.undecided_iff.mp hundecided).2.1.symm
        rw [ledger.approvals.eq_of_key (List.mem_of_find?_eq_some hfind) happroval hsame]
  unfold Ledger.recordVerdict
  dsimp only
  rw [hfound]
  exact Function.update_self _ _ _

theorem verdictOperation_other {approval : ApprovalRow}
    (happroval : approval ∈ ledger.approvals.rows)
    (hdecided : ¬ approval.undecided tenant approvalId = true) :
    (ledger.recordVerdict tenant approvalId decidedBy rolesHeld verdict expiresAt
        now).verdictOperation approval.approvalId =
      ledger.verdictOperation approval.approvalId := by
  unfold Ledger.recordVerdict
  dsimp only
  cases hfind : ledger.approvals.rows.find? (ApprovalRow.undecided tenant approvalId) with
  | none => rfl
  | some found =>
      refine Function.update_of_ne (fun hsame => hdecided ?_) _ _
      rw [ledger.approvals.eq_of_key happroval (List.mem_of_find?_eq_some hfind) hsame]
      exact List.find?_some hfind

/-- A verdict agrees with what is shown when the newest operations have one name, or what
was attempted is not shown. -/
theorem agrees_recordVerdict {approval : ApprovalRow} {work : WorkItemRow}
    (happroval : approval ∈ ledger.approvals.rows)
    (hundecided : approval.undecided tenant approvalId = true) :
    (ledger.recordVerdict tenant approvalId decidedBy rolesHeld verdict expiresAt now).Agrees
        (((ApprovalRow.decided decidedBy rolesHeld verdict expiresAt now).managed now).apply
          approval) work ↔
      if approval.workItemId ∈ ledger.attempted then
        work.state = .executed ∨ ∀ operation, ¬ ledger.NewestFor approval operation
      else
        (∃ newest, ledger.NewestFor approval newest) ∧
        ∀ newest other, ledger.NewestFor approval newest →
          ledger.NewestFor approval other → newest.catalogueId = other.catalogueId := by
  split
  · next hattempted => exact agrees_attempted hattempted
  · next hnone =>
      rw [agrees_unattempted]
      · constructor
        · intro h
          obtain ⟨operation, _, hsome, hnames⟩ := h
          exact ⟨hsome, fun newest other hnewest hother =>
            (hnames newest hnewest).trans (hnames other hother).symm⟩
        · intro h
          obtain ⟨hsome, hnames⟩ := h
          obtain ⟨latest, hlatest⟩ := latestOperation_some (List.Perm.refl _) hsome
          refine ⟨latest, (verdictOperation_decided happroval hundecided).trans hlatest, hsome,
            ?_⟩
          exact fun newest hnewest =>
            hnames newest latest hnewest (newestFor_of_latest (List.Perm.refl _) hlatest)
      · exact hnone

theorem agreement_recordVerdict (hagree : ledger.Agreement) :
    (ledger.recordVerdict tenant approvalId decidedBy rolesHeld verdict expiresAt
        now).Agreement ↔
      ledger.Keeps (.recordVerdict tenant approvalId decidedBy rolesHeld verdict expiresAt
        now) := by
  constructor
  · intro h hverdict approval happroval hundecided work hwork hon
    refine (agrees_recordVerdict happroval hundecided).mp (h _ ?_ ?_ work hwork hon)
    · refine ApprovalRepository.mem_recordVerdict.mpr ⟨approval, happroval, ?_⟩
      rw [if_pos hundecided]
    · rw [← hverdict]
      rfl
  · intro h approval happroval hverdict work hwork hon
    obtain ⟨old, hold, hrow⟩ := ApprovalRepository.mem_recordVerdict.mp happroval
    split at hrow
    · next hundecided =>
        rw [hrow] at hverdict hon ⊢
        exact (agrees_recordVerdict hold hundecided).mpr
          (h (Option.some.inj hverdict) old hold hundecided work hwork hon)
    · next hdecided =>
        rw [hrow] at hverdict hon ⊢
        exact (hagree old hold hverdict work hwork hon).congr Iff.rfl (fun _ => Iff.rfl)
          (verdictOperation_other hold hdecided) fun _ h => h

end Verdict

/-! ### A transition -/

section Transition

variable {workItemId : WorkItemId} {state : WorkItemState} {expectedVersion : Int}
  {now : Instant}

/-- A transition finds the row it moves, and then an attempt is one of its work item. -/
theorem attempted_transition {id : WorkItemId} :
    id ∈ (ledger.transition tenant workItemId state expectedVersion now).attempted ↔
      id ∈ ledger.attempted ∨ id = workItemId ∧ state.isAttempt = true ∧
        ∃ work ∈ ledger.workItems.rows, work.scopedTo tenant workItemId = true ∧
          work.version = expectedVersion := by
  unfold Ledger.transition
  dsimp only
  rw [← @WorkItemRepository.transition_won ledger.workItems tenant workItemId now state]
  split
  · next hmoved =>
      rw [Bool.and_eq_true] at hmoved
      rw [List.mem_cons, or_comm]
      simp only [hmoved.1, hmoved.2, and_true]
  · next hnot =>
      refine (or_iff_left fun h => hnot ?_).symm
      rw [Bool.and_eq_true]
      exact ⟨h.2.2, h.2.1⟩

theorem Sound.transition (h : ledger.Sound) :
    (ledger.transition tenant workItemId state expectedVersion now).Sound := by
  constructor
  · intro approval happroval
    obtain ⟨work, hwork, hon⟩ := h.works approval happroval
    refine ⟨_, WorkItemRepository.mem_transition.mpr ⟨work, hwork, rfl⟩, ?_⟩
    split
    · exact hon
    · exact hon
  · intro work hwork hattempt
    obtain ⟨old, hold, hrow⟩ := WorkItemRepository.mem_transition.mp hwork
    rw [attempted_transition]
    split at hrow
    · next hhit =>
        rw [Bool.and_eq_true, beq_iff_eq] at hhit
        rw [hrow] at hattempt ⊢
        exact Or.inr ⟨(WorkItemRow.scopedTo_iff.mp hhit.1).2, hattempt, old, hold, hhit.1,
          hhit.2⟩
    · rw [hrow] at hattempt ⊢
      exact Or.inl (h.attempts old hold hattempt)

/-- The approval of a work item that is moved agrees still exactly when it is moved to
`executed`, or no execution of it was attempted, or it has no operation. -/
theorem agrees_moved {approval : ApprovalRow} {work : WorkItemRow}
    (hagrees : ledger.Agrees approval work) (hwork : work ∈ ledger.workItems.rows)
    (hscoped : work.scopedTo tenant workItemId = true)
    (hversion : work.version = expectedVersion) (hid : approval.workItemId = workItemId) :
    (ledger.transition tenant workItemId state expectedVersion now).Agrees approval
        (((WorkItemRow.movedTo state).managed now).apply work) ↔
      ((workItemId ∈ ledger.attempted ∨ state.isAttempt = true) → state ≠ .executed →
        ∀ operation, ¬ ledger.NewestFor approval operation) := by
  have hmem : approval.workItemId ∈
      (ledger.transition tenant workItemId state expectedVersion now).attempted ↔
        workItemId ∈ ledger.attempted ∨ state.isAttempt = true := by
    rw [attempted_transition, hid]
    refine or_congr_right ?_
    exact ⟨fun h => h.2.1, fun h => ⟨rfl, h, work, hwork, hscoped, hversion⟩⟩
  by_cases hattempted : workItemId ∈ ledger.attempted ∨ state.isAttempt = true
  · rw [agrees_attempted (hmem.mpr hattempted)]
    constructor
    · intro h _ hstate
      exact h.resolve_left hstate
    · intro h
      by_cases hstate : state = .executed
      · exact Or.inl hstate
      · exact Or.inr (h hattempted hstate)
  · refine iff_of_true ?_ fun h => absurd h hattempted
    rw [not_or] at hattempted
    have hunattempted : approval.workItemId ∉ ledger.attempted := by
      rw [hid]
      exact hattempted.1
    refine hagrees.congr ?_ (fun _ => Iff.rfl) rfl fun h => absurd h hunattempted
    exact iff_of_false (fun h => (hmem.mp h).elim hattempted.1 hattempted.2) hunattempted

theorem Sound.agreement_transition (hsound : ledger.Sound) (hagree : ledger.Agreement) :
    (ledger.transition tenant workItemId state expectedVersion now).Agreement ↔
      ledger.Keeps (.transition tenant workItemId state expectedVersion now) := by
  constructor
  · intro h work hwork hscoped hversion hattempted hstate approval happroval hverdict hid
    obtain ⟨found, hfound, hon⟩ := hsound.works approval happroval
    have hsame : found = work := ledger.workItems.eq_of_key hfound hwork
      ((worksOn_iff.mp hon).1.trans (hid.trans (WorkItemRow.scopedTo_iff.mp hscoped).2.symm))
    rw [hsame] at hon
    refine (agrees_moved (hagree approval happroval hverdict work hwork hon) hwork hscoped
      hversion hid).mp (h approval happroval hverdict _ ?_ hon) hattempted hstate
    refine WorkItemRepository.mem_transition.mpr ⟨work, hwork, ?_⟩
    rw [if_pos]
    rw [Bool.and_eq_true, beq_iff_eq]
    exact ⟨hscoped, hversion⟩
  · intro h approval happroval hverdict work hwork hon
    obtain ⟨old, hold, hrow⟩ := WorkItemRepository.mem_transition.mp hwork
    split at hrow
    · next hhit =>
        rw [Bool.and_eq_true, beq_iff_eq] at hhit
        rw [hrow] at hon ⊢
        have hid := (worksOn_iff.mp hon).1.symm.trans (WorkItemRow.scopedTo_iff.mp hhit.1).2
        refine (agrees_moved (hagree approval happroval hverdict old hold hon) hold hhit.1
          hhit.2 hid).mpr ?_
        intro hattempted hstate
        exact h old hold hhit.1 hhit.2 hattempted hstate approval happroval hverdict hid
    · next hmiss =>
        rw [hrow] at hon ⊢
        refine (hagree approval happroval hverdict old hold hon).congr ?_ (fun _ => Iff.rfl) rfl
          fun _ h => h
        rw [attempted_transition]
        refine or_iff_left fun hmoved => hmiss ?_
        obtain ⟨hid, _, found, hfound, hscoped, hversion⟩ := hmoved
        have hsame : old = found := ledger.workItems.eq_of_key hold hfound
          ((worksOn_iff.mp hon).1.trans
            (hid.trans (WorkItemRow.scopedTo_iff.mp hscoped).2.symm))
        rw [hsame, Bool.and_eq_true, beq_iff_eq]
        exact ⟨hscoped, hversion⟩

end Transition

/-! ### Any statement -/

theorem Sound.execute (h : ledger.Sound) (statement : LedgerStatement) :
    (ledger.execute statement).Sound := by
  cases statement with
  | openWork tenant workItemId sessionId requestedByOid expiresAt now => exact h.openWork rfl
  | propose tenant operationId workItemId catalogueId catalogueVersion now => exact h.propose _
  | request tenant approvalId workItemId now => exact h.request rfl
  | recordVerdict tenant approvalId decidedBy rolesHeld verdict expiresAt now =>
      exact h.recordVerdict
  | claim tenant workItemId claimedBy now databaseNow => exact h.claim _ _ _ _
  | transition tenant workItemId state expectedVersion now => exact h.transition

/-- Where the tables and the history agreed, they agree after a statement exactly if it
keeps to what it must. -/
theorem Sound.agreement_execute (h : ledger.Sound) (hagree : ledger.Agreement)
    (statement : LedgerStatement) :
    (ledger.execute statement).Agreement ↔ ledger.Keeps statement := by
  cases statement with
  | openWork tenant workItemId sessionId requestedByOid expiresAt now =>
      exact iff_of_true (h.agreement_openWork hagree _) trivial
  | propose tenant operationId workItemId catalogueId catalogueVersion now =>
      exact agreement_propose hagree _ rfl
  | request tenant approvalId workItemId now =>
      exact iff_of_true (agreement_request hagree rfl) trivial
  | recordVerdict tenant approvalId decidedBy rolesHeld verdict expiresAt now =>
      exact agreement_recordVerdict hagree
  | claim tenant workItemId claimedBy now databaseNow =>
      exact iff_of_true (agreement_claim hagree _ _ _ _) trivial
  | transition tenant workItemId state expectedVersion now =>
      exact h.agreement_transition hagree

end Statement

/-! ## Whole histories -/

section History

theorem Sound.start : Ledger.start.Sound :=
  ⟨fun _ h => absurd h List.not_mem_nil, fun _ h => absurd h List.not_mem_nil⟩

theorem agreement_start : Ledger.start.Agreement := fun _ h => absurd h List.not_mem_nil

variable {ledger last : Ledger} {statements : List LedgerStatement}

theorem Sound.run (h : ledger.Sound) (hrun : Machine.run step ledger statements = some last) :
    last.Sound :=
  Machine.invariant_run (fun _ statement _ hinv hnext => by
    injection hnext with hnext
    rw [← hnext]
    exact hinv.execute statement) h hrun

theorem Sound.agreement_run (h : ledger.Sound) (hagree : ledger.Agreement)
    (hrun : Machine.run step ledger statements = some last)
    (hkeeps : Machine.Along step Keeps ledger statements) : last.Agreement := by
  have hstep : ∀ current statement next, current.Sound ∧ current.Agreement →
      Keeps current statement → step current statement = some next →
      next.Sound ∧ next.Agreement := by
    intro current statement next hinv hkeep hnext
    injection hnext with hnext
    rw [← hnext]
    exact ⟨hinv.1.execute statement, (hinv.1.agreement_execute hinv.2 statement).mpr hkeep⟩
  exact (Machine.invariant_along hstep ⟨h, hagree⟩ hrun hkeeps).2

/-- **The dead-letter surface.** In every state a history reaches it holds one row for each
approval that stands over work no execution was attempted of, by the operation of its
verdict, and no other, exactly if each statement of the history kept to what it must. -/
theorem surfaces_throughout_iff (statements : List LedgerStatement) :
    (∀ before after ledger, statements = before ++ after →
      Machine.run step .start before = some ledger → ledger.Surfaces) ↔
    Machine.Along step Keeps .start statements := by
  constructor
  · intro h
    refine Machine.along_of_forall fun before statement after middle hsplit hrun => ?_
    have hsound := Sound.start.run hrun
    have hagree := hsound.agreement (h before (statement :: after) middle hsplit hrun)
    refine (hsound.agreement_execute hagree statement).mp
      ((hsound.execute statement).agreement (h (before ++ [statement]) after _ ?_ ?_))
    · rw [hsplit, List.append_assoc]
      rfl
    · exact Machine.run_append.mpr ⟨middle, hrun, rfl⟩
  · intro h before after ledger hsplit hrun
    rw [hsplit] at h
    exact (Sound.start.run hrun).surfaces
      (Sound.start.agreement_run agreement_start hrun (Machine.along_before h))

end History

end Ledger

namespace SampleLedger

def tenant : TenantContext := ⟨⟨1⟩, ⟨2⟩, .active, .workItem⟩

def roles : RoleSet := ⟨{.technician}⟩

/-- Work is opened, proposed and approved, claimed and attempted; the attempt fails. -/
def statements : List LedgerStatement :=
  [.openWork tenant ⟨3⟩ ⟨4⟩ ⟨5⟩ (some 900000000) 0,
    .propose tenant ⟨6⟩ ⟨3⟩ "restart-service" 1 0,
    .request tenant ⟨7⟩ ⟨3⟩ 0,
    .recordVerdict tenant ⟨7⟩ ⟨8⟩ roles .approved 900000000 60000000,
    .transition tenant ⟨3⟩ .authorized 1 60000000,
    .claim tenant ⟨3⟩ "worker" 60000000 60000000,
    .transition tenant ⟨3⟩ .failed 3 120000000]

/-- Where they lead. -/
def failed : Ledger := statements.foldl Ledger.execute .start

/-- The surface still shows it as never executed. -/
theorem failed_execution_shown :
    ¬ ∀ before after ledger, statements = before ++ after →
      Machine.run Ledger.step .start before = some ledger → ledger.Surfaces := by
  intro h
  have hsurfaces : failed.Surfaces :=
    h statements [] failed (List.append_nil _).symm rfl
  have hattempted : ∀ approval ∈ failed.approvals.rows,
      approval.workItemId ∈ failed.attempted := by decide +kernel
  have hshown : (⟨⟨7⟩, ⟨3⟩, ⟨1⟩, "restart-service", some 60000000, some ⟨8⟩, some 900000000, 2⟩ :
      UnexecutedApprovalRow) ∈ failed.surface failed.operations.rows := by decide +kernel
  obtain ⟨approval, happroval, _, _, hnone⟩ :=
    hsurfaces.hidden _ (List.Perm.refl _) _ hshown
  exact hnone (hattempted approval happroval)

end SampleLedger

end Synthia
