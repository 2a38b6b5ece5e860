import Synthia.Integrations.Jobs

/-!
# Where the two services agree on what may execute

RagCore writes a work item in its own vocabulary — nine work states and five
approval states — and the Integrations Service tests the published strings
against sets of its own. The sets do not match the vocabulary. `closed`,
`auto_authorized` and `consented` are states RagCore does not have, and
`executed` and `escalated` are terminal states the refusal set leaves out.

So the two answers are compared on every row the column types admit, whatever
sequence of writes left it there, and the rows on which they agree are
described exactly. Everything is first read back from strings to RagCore's
enumerations; the comparison is then a case split over the work state.
-/

namespace Synthia

/-! ## The strings, read back -/

theorem workState_refused (state : WorkItemState) :
    ["cancelled", "expired", "closed", "failed"].contains state.value = true ↔
      state = .cancelled ∨ state = .expired ∨ state = .failed := by
  cases state <;> decide

/-- Of the three approval states the check accepts, RagCore has one. -/
theorem approvalState_accepted (state : ApprovalState) :
    ["approved", "auto_authorized", "consented"].contains state.value = true ↔
      state = .approved := by
  cases state <;> decide

theorem tenantStatus_accepted (status : TenantStatus) :
    (status.value == "active") = true ↔ status = .active := by
  cases status <;> decide

/-- What `is_executable_at` asks, in RagCore's own terms. -/
theorem isExecutableAt_iff (job : IntegrationJobRow) (work : WorkItemRow)
    (tenant : TenantMappingRow) (now : Instant) :
    (JobInstruction.ofRows job work tenant).isExecutableAt now = true ↔
      tenant.status = .active ∧
        ¬ (work.state = .cancelled ∨ work.state = .expired ∨ work.state = .failed) ∧
        work.approvalState = .approved ∧ now < work.expiresAt.getD job.expiresAt := by
  rw [← workState_refused, ← approvalState_accepted, ← tenantStatus_accepted,
    Bool.not_eq_true]
  simp only [JobInstruction.isExecutableAt, Bool.and_eq_true, Bool.not_eq_true',
    decide_eq_true_eq, and_assoc]
  rfl

/-- A loaded instruction is built from a job row and the rows it names. -/
theorem load_rows {jobs : List IntegrationJobRow} {workItems : WorkItemTable}
    {tenants : List TenantMappingRow} {jobId : IntegrationJobId}
    {instruction : JobInstruction}
    (h : JobRepository.load jobs workItems tenants jobId = some instruction) :
    ∃ job ∈ jobs, ∃ work ∈ workItems.rows, ∃ tenant ∈ tenants,
      job.jobId = jobId ∧ work.workItemId = job.workItemId ∧
      tenant.tenantId = job.tenantId ∧
      instruction = JobInstruction.ofRows job work tenant := by
  have hmem := List.mem_of_head? h
  simp only [List.bind_eq_flatMap, List.mem_flatMap, List.mem_filter, beq_iff_eq,
    List.pure_def, List.mem_singleton] at hmem
  obtain ⟨job, ⟨hjob, hjobId⟩, work, ⟨hwork, hworkId⟩, tenant, ⟨htenant, htenantId⟩, rfl⟩ :=
    hmem
  exact ⟨job, hjob, work, hwork, tenant, htenant, hjobId, hworkId, htenantId, rfl⟩

/-! ## RagCore's own answer, and where the two meet -/

/-- RagCore regards the item as authorised, unexpired and not terminal, for an
organisation it admits. -/
structure RagCoreRegards (work : WorkItemRow) (tenant : TenantMappingRow)
    (now : Instant) : Prop where
  admitted : tenant.status = .active
  authorized : work.state = .authorized ∨ work.state = .claimed
  unexpired : ∃ expiresAt, work.expiresAt = some expiresAt ∧ now < expiresAt
  running : work.state ∉ completedWorkStates

/-- The rows the two services read alike: nothing is open any more, or the work
state is one on which the vocabularies meet. While work is authorised they meet
on an `approved` item with a window of its own and on an unapproved one
without; on the states the refusal set should have named, and on those before
authorisation, only where nothing was approved. -/
def ReadAlike (job : IntegrationJobRow) (work : WorkItemRow)
    (tenant : TenantMappingRow) (now : Instant) : Prop :=
  tenant.status ≠ .active ∨ work.expiresAt.getD job.expiresAt ≤ now ∨
    match work.state with
    | .cancelled | .expired | .failed => True
    | .authorized | .claimed =>
        (work.expiresAt.isSome = true ↔ work.approvalState = .approved)
    | .open | .awaitingDecision | .executed | .escalated =>
        work.approvalState ≠ .approved

theorem not_regards_of_state {work : WorkItemRow} {tenant : TenantMappingRow}
    {now : Instant} (h : work.state ≠ .authorized ∧ work.state ≠ .claimed) :
    ¬ RagCoreRegards work tenant now := by
  intro hregards
  rcases hregards.authorized with hauthorized | hclaimed
  · exact h.1 hauthorized
  · exact h.2 hclaimed

/-- For an active organisation, authorised or claimed work: RagCore asks for a
window of the item's own, still open. -/
theorem regards_of_authorized {work : WorkItemRow} {tenant : TenantMappingRow}
    {now : Instant} (hactive : tenant.status = .active)
    (hstate : work.state = .authorized ∨ work.state = .claimed) :
    RagCoreRegards work tenant now ↔
      ∃ expiresAt, work.expiresAt = some expiresAt ∧ now < expiresAt := by
  constructor
  · exact RagCoreRegards.unexpired
  · intro hwindow
    refine ⟨hactive, hstate, hwindow, ?_⟩
    rcases hstate with hstate | hstate
    · rw [hstate]
      decide
    · rw [hstate]
      decide

/-- **The two services agree exactly on the rows they read alike.** -/
theorem isExecutableAt_agrees_iff (job : IntegrationJobRow) (work : WorkItemRow)
    (tenant : TenantMappingRow) (now : Instant) :
    ((JobInstruction.ofRows job work tenant).isExecutableAt now = true ↔
      RagCoreRegards work tenant now) ↔ ReadAlike job work tenant now := by
  rw [isExecutableAt_iff]
  unfold ReadAlike
  by_cases hactive : tenant.status = .active
  · by_cases hclosed : work.expiresAt.getD job.expiresAt ≤ now
    · have hregards : ¬ RagCoreRegards work tenant now := by
        intro hregards
        obtain ⟨expiresAt, hexpires, hopen⟩ := hregards.unexpired
        rw [hexpires, Option.getD_some] at hclosed
        exact absurd hopen (Int.not_lt.mpr hclosed)
      simp [hclosed, hregards, Int.not_lt.mpr hclosed]
    · have hopen : now < work.expiresAt.getD job.expiresAt :=
        Int.not_le.mp hclosed
      -- only the work state is left to decide it
      cases hstate : work.state with
      | authorized | claimed =>
          rw [regards_of_authorized hactive (by simp [hstate])]
          cases hexpires : work.expiresAt with
          | none => simp_all
          | some expiresAt => simp_all
      | cancelled | expired | failed =>
          have := @not_regards_of_state work tenant now (by simp [hstate])
          simp [this]
      | «open» | awaitingDecision | executed | escalated =>
          have := @not_regards_of_state work tenant now (by simp [hstate])
          simp_all
  · have hregards : ¬ RagCoreRegards work tenant now :=
      fun hregards => hactive hregards.admitted
    simp [hactive, hregards]

/-- An authorised item with an open window, before anyone has claimed it. -/
def authorizedItem (approvalState : ApprovalState) : WorkItemRow where
  workItemId := ⟨1⟩
  tenantId := ⟨1⟩
  sessionId := ⟨1⟩
  requestedByOid := ⟨7⟩
  state := .authorized
  approvalState
  expiresAt := some 100
  claimedAt := none
  claimedBy := none
  version := 1
  updatedAt := 0
  claimNamed := WorkItemRow.unclaimed

def authorizedItems (approvalState : ApprovalState) : WorkItemTable :=
  ⟨[authorizedItem approvalState], List.nodup_singleton _⟩

def activeTenant : TenantContext := ⟨⟨1⟩, ⟨1⟩, .active, .workItem⟩

def executionJob : IntegrationJobRow := ⟨⟨1⟩, ⟨1⟩, ⟨1⟩, ⟨1⟩, "unlock_account", 1, 100⟩

/-- Both directions fail inside an open window. An approved item that was
claimed and moved to `executed` is accepted again; an item authorised without a
staff approval is refused. -/
theorem isExecutableAt_disagrees :
    (let claimed := WorkItemRepository.claim (authorizedItems .approved) activeTenant ⟨1⟩
        "workload" 10 10
      let executed := WorkItemRepository.transition claimed.2 activeTenant ⟨1⟩ .executed 2 20
      claimed.1 = true ∧ executed.1 = true ∧
        ∀ work ∈ executed.2.rows,
          (JobInstruction.ofRows executionJob work ⟨⟨1⟩, .active⟩).isExecutableAt 30 = true ∧
            ¬ RagCoreRegards work ⟨⟨1⟩, .active⟩ 30) ∧
    (JobInstruction.ofRows executionJob (authorizedItem .none)
        ⟨⟨1⟩, .active⟩).isExecutableAt 30 = false ∧
      RagCoreRegards (authorizedItem .none) ⟨⟨1⟩, .active⟩ 30 := by
  refine ⟨⟨by decide, by decide, ?_⟩, by decide, rfl, Or.inl rfl, ⟨100, rfl, by decide⟩,
    by decide⟩
  intro work hwork
  have hexecuted : work.state = .executed := by
    revert work
    decide
  refine ⟨?_, ?_⟩
  · revert work
    decide
  · apply not_regards_of_state
    rw [hexecuted]
    decide

end Synthia
