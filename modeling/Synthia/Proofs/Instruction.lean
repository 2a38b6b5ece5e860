import Synthia.Persistence.IntegrationJobs

/-!
# Whose authority a job spends

The Integrations Service reads a job row beside the work item and the organisation
the row names, and asks of each what it asks: that the item is approved, live and
inside its window, that the organisation is active, entitled and bound. It asks
neither whether the item is the organisation's, nor whether there is an operation
of that name, nor what that operation was.

`request_iff` says exactly when a request leaves and what is in it, column by column
from the arguments `dispatch` was given. So a request is authorised exactly when
those arguments agree with the rows nobody compares them to.
-/

namespace Synthia

open Integrations Relational Text

variable {sha256 : List CodePoint → List CodePoint} {state : DeliveryState}
  {now started : Instant} {command : MessageEnvelope} {request : CapabilityRequest}

/-! ## The leg, backwards from the request -/

/-- The instruction three rows give. -/
structure Reads (state : DeliveryState) (jobId : IntegrationJobId)
    (instruction : Instruction) : Prop where
  rows : ∃ job work tenant, state.jobs.find jobId = some job ∧
    state.workItems.find job.workItemId = some work ∧
    (state.tenants.find? fun row => row.tenantId == job.tenantId) = some tenant ∧
    instruction.toJobInstruction =
      JobInstruction.ofRows job.toIntegrationJobRow work tenant ∧
    instruction.parameters = job.parameters

/-- The join finds a row where all three are there. -/
theorem JobRepository.load_eq (jobs : JobTable) (workItems : WorkItemTable)
    (tenants : List TenantMappingRow) (jobId : IntegrationJobId) :
    JobRepository.load (jobs.rows.map IntegrationJob.toIntegrationJobRow) workItems tenants
        jobId =
      (jobs.find jobId).bind fun job =>
        (workItems.find job.workItemId).bind fun work =>
          (tenants.find? fun row => row.tenantId == job.tenantId).map fun tenant =>
            JobInstruction.ofRows job.toIntegrationJobRow work tenant := by
  have hjobs : (jobs.rows.map IntegrationJob.toIntegrationJobRow).filter
      (fun job => job.jobId == jobId) =
        (jobs.rows.filter fun job => job.jobId == jobId).map
          IntegrationJob.toIntegrationJobRow := List.filter_map
  simp only [JobRepository.load, hjobs, List.bind_eq_flatMap, List.pure_def]
  cases hjob : jobs.find jobId with
  | none =>
      rw [Table.filter_of_find_none hjob]
      rfl
  | some job =>
      rw [Table.filter_of_find hjob]
      simp only [List.map_cons, List.map_nil, List.flatMap_cons, List.flatMap_nil,
        List.append_nil, Option.bind_some]
      cases hwork : workItems.find job.workItemId with
      | none =>
          rw [Table.filter_of_find_none hwork]
          rfl
      | some work =>
          rw [Table.filter_of_find hwork]
          simp only [List.flatMap_cons, List.flatMap_nil, List.append_nil, Option.bind_some]
          rw [← List.head?_filter, ← List.map_eq_flatMap, List.head?_map]

theorem Instruction.load_eq_some {instruction : Instruction} {jobId : IntegrationJobId} :
    Instruction.load state.jobs state.workItems state.tenants jobId = .ok (some instruction) ↔
      Reads state jobId instruction := by
  unfold Instruction.load
  rw [JobRepository.load_eq]
  constructor
  · intro h
    cases hjob : state.jobs.find jobId with
    | none =>
        rw [hjob] at h
        cases h
    | some job =>
        rw [hjob, Option.bind_some] at h
        cases hwork : state.workItems.find job.workItemId with
        | none =>
            rw [hwork] at h
            cases h
        | some work =>
            rw [hwork, Option.bind_some] at h
            cases htenant : state.tenants.find? fun row => row.tenantId == job.tenantId with
            | none =>
                rw [htenant] at h
                cases h
            | some tenant =>
                rw [htenant, Option.map_some] at h
                dsimp only at h
                split at h
                · cases h
                · split at h
                  · cases h
                  · injection h with h
                    injection h with h
                    exact ⟨job, work, tenant, hjob, hwork, htenant, by rw [← h], by rw [← h]⟩
  · rintro ⟨job, work, tenant, hjob, hwork, htenant, hrows, hparameters⟩
    obtain ⟨base, parameters, hnamed, hversioned⟩ := instruction
    dsimp only at hrows hparameters
    subst hrows hparameters
    rw [hjob, Option.bind_some, hwork, Option.bind_some, htenant, Option.map_some]
    dsimp only
    rw [dif_neg hnamed, dif_neg (Int.not_lt.mpr hversioned)]

/-- What has to hold of what is read for a request to leave. -/
structure Passes (sha256 : List CodePoint → List CodePoint) (state : DeliveryState)
    (now : Instant) (instruction : Instruction) (binding : ConnectorBinding) : Prop where
  executable : instruction.isExecutableAt now = true
  allowed : AccessPolicy.evaluate state.catalogue state.registry instruction.tenantId
    instruction.identity = .allow binding
  unexecuted : ∀ key, keyFor sha256 instruction binding = some key →
    ∀ execution ∈ state.executions, execution.idempotencyKey ≠ key

/-- A binding is given for the identity it was asked for. -/
theorem ConnectorRegistry.identity_bindingFor {registry : ConnectorRegistry}
    {identity : OperationIdentity} {binding : ConnectorBinding}
    (h : registry.bindingFor identity = some binding) : binding.identity = identity := by
  have hmem := List.mem_of_head? h
  simp only [List.bind_eq_flatMap, List.mem_flatMap, List.pure_def, List.mem_singleton] at hmem
  obtain ⟨_, _, _, _, rfl⟩ := hmem
  rfl

theorem AccessPolicy.evaluate_cases (catalogue : CatalogueRepository)
    (registry : ConnectorRegistry) (tenantId : TenantId) (identity : OperationIdentity) :
    (∃ refusal, AccessPolicy.evaluate catalogue registry tenantId identity = .refuse refusal) ∨
      ∃ binding, AccessPolicy.evaluate catalogue registry tenantId identity = .allow binding ∧
        binding.identity = identity := by
  unfold AccessPolicy.evaluate
  split
  · exact Or.inl ⟨_, rfl⟩
  · split
    · exact Or.inl ⟨_, rfl⟩
    · split
      · exact Or.inl ⟨_, rfl⟩
      · split
        · exact Or.inl ⟨_, rfl⟩
        · next hbinding =>
            exact Or.inr ⟨_, rfl, ConnectorRegistry.identity_bindingFor hbinding⟩

theorem ExecutionLeg.load_loaded {instruction : Instruction} {read : Instant} :
    ExecutionLeg.load state.jobs state.workItems state.tenants now command =
        .loaded instruction read ↔
      Reads state command.jobId instruction ∧ instruction.isExecutableAt now = true ∧
        read = now := by
  unfold ExecutionLeg.load
  rw [← Instruction.load_eq_some]
  cases hload : Instruction.load state.jobs state.workItems state.tenants command.jobId with
  | error error => simp [Stage.raised]
  | ok found =>
      cases found with
      | none => simp [Stage.reported]
      | some other =>
          dsimp only
          by_cases hexecutable : other.isExecutableAt now = true
          · simp [hexecutable]
            grind
          · simp [hexecutable]
            grind

theorem ExecutionLeg.evaluate_admitted {instruction other : Instruction}
    {binding : ConnectorBinding} :
    ExecutionLeg.evaluate state.catalogue state.registry command instruction now =
        .admitted other binding ↔
      AccessPolicy.evaluate state.catalogue state.registry instruction.tenantId
        instruction.identity = .allow binding ∧ other = instruction := by
  unfold ExecutionLeg.evaluate
  dsimp only
  rcases AccessPolicy.evaluate_cases state.catalogue state.registry instruction.tenantId
    instruction.identity with ⟨refusal, hrefuse⟩ | ⟨allowed, hallow, _⟩
  · have hpermitted := congrArg AccessDecision.permitted hrefuse
    rw [if_pos (by rw [hpermitted]; rfl)]
    constructor
    · intro h
      cases h
    · intro h
      rw [hrefuse] at h
      cases h.1
  · have hpermitted := congrArg AccessDecision.permitted hallow
    have hbinding := congrArg AccessDecision.binding hallow
    rw [if_neg (by rw [hpermitted]; exact Bool.false_ne_true), hbinding, hallow]
    simp [AccessDecision.allow, eq_comm, and_comm]

theorem ExecutionLeg.lookUp_cleared {executions : List Integrations.ExecutionRecord}
    {instruction other : Instruction} {binding found : ConnectorBinding} {read : Instant} :
    ExecutionLeg.lookUp sha256 executions instruction binding started =
        .cleared other found read ↔
      (∀ key, keyFor sha256 instruction binding = some key →
        ∀ execution ∈ executions, execution.idempotencyKey ≠ key) ∧
      other = instruction ∧ found = binding ∧ read = started := by
  unfold ExecutionLeg.lookUp
  cases hkey : keyFor sha256 instruction binding with
  | none => simp [eq_comm]
  | some key =>
      dsimp only
      by_cases hseen : (executions.any fun row => row.idempotencyKey == key) = true
      · rw [if_pos hseen]
        obtain ⟨execution, hexecution, hsame⟩ := List.any_eq_true.mp hseen
        constructor
        · intro h
          cases h
        · intro h
          exact absurd (beq_iff_eq.mp hsame) (h.1 key rfl execution hexecution)
      · rw [if_neg hseen]
        have hnone : ∀ execution ∈ executions, execution.idempotencyKey ≠ key := by
          intro execution hexecution hsame
          exact hseen (List.any_eq_true.mpr ⟨execution, hexecution, beq_iff_eq.mpr hsame⟩)
        simp only [Stage.cleared.injEq, Option.some.injEq]
        constructor
        · rintro ⟨rfl, rfl, rfl⟩
          exact ⟨fun other hother => by rw [← hother]; exact hnone, rfl, rfl, rfl⟩
        · rintro ⟨_, rfl, rfl, rfl⟩
          exact ⟨rfl, rfl, rfl⟩

/-- A request leaves exactly for an instruction that was read and passed. -/
theorem ExecutionLeg.request_iff :
    ExecutionLeg.request sha256 state now started command = some request ↔
      Reads state command.jobId request.instruction ∧
        Passes sha256 state now request.instruction request.binding ∧
        request.key = keyFor sha256 request.instruction request.binding := by
  constructor
  · intro h
    simp only [ExecutionLeg.request] at h
    split at h
    · next instruction read hload =>
        obtain ⟨hreads, hexecutable, rfl⟩ := ExecutionLeg.load_loaded.mp hload
        split at h
        · next other binding hevaluate =>
            obtain ⟨hallowed, rfl⟩ := ExecutionLeg.evaluate_admitted.mp hevaluate
            split at h
            · next last found at_ hlookUp =>
                obtain ⟨hunexecuted, rfl, rfl, rfl⟩ := ExecutionLeg.lookUp_cleared.mp hlookUp
                injection h with h
                rw [← h]
                exact ⟨hreads, ⟨hexecutable, hallowed, hunexecuted⟩, rfl⟩
            · cases h
        · cases h
    · cases h
  · rintro ⟨hreads, hpasses, hkey⟩
    have hload : ExecutionLeg.load state.jobs state.workItems state.tenants now command =
        .loaded request.instruction now :=
      ExecutionLeg.load_loaded.mpr ⟨hreads, hpasses.executable, rfl⟩
    have hevaluate : ExecutionLeg.evaluate state.catalogue state.registry command
        request.instruction now = .admitted request.instruction request.binding :=
      ExecutionLeg.evaluate_admitted.mpr ⟨hpasses.allowed, rfl⟩
    have hlookUp : ExecutionLeg.lookUp sha256 state.executions request.instruction
        request.binding started = .cleared request.instruction request.binding started :=
      ExecutionLeg.lookUp_cleared.mpr ⟨hpasses.unexecuted, rfl, rfl, rfl⟩
    simp only [ExecutionLeg.request, hload, hevaluate, hlookUp, ← hkey]

/-! ## The two sides -/

/-- The item is the organisation's, and what is invoked is the operation of the item
that a person approved. -/
structure CapabilityRequest.Authorised (state : DeliveryState)
    (request : CapabilityRequest) : Prop where
  work : ∃ work ∈ state.workItems.rows, work.workItemId = request.instruction.workItemId ∧
    work.tenantId = request.instruction.tenantId
  operation : ∃ approval ∈ state.approvals.rows, ∃ operation,
    approval.workItemId = request.instruction.workItemId ∧
    approval.verdict = some .approved ∧
    decidedOperation state.operations.rows approval = some operation ∧
    operation.operationId = request.instruction.operationId ∧
    operation.workItemId = request.instruction.workItemId ∧
    operation.identity = request.binding.identity ∧
    operation.parameters = request.instruction.parameters

/-- The arguments name an item of the organisation they name, and repeat the operation
of it that was approved. -/
structure DispatchArguments.Matches (state : DeliveryState)
    (arguments : DispatchArguments) : Prop where
  work : ∃ work ∈ state.workItems.rows, work.workItemId = arguments.workItemId ∧
    work.tenantId = arguments.tenantId
  operation : ∃ approval ∈ state.approvals.rows, ∃ operation,
    approval.workItemId = arguments.workItemId ∧
    approval.verdict = some .approved ∧
    decidedOperation state.operations.rows approval = some operation ∧
    operation.operationId = arguments.operationId ∧
    operation.workItemId = arguments.workItemId ∧
    operation.identity = arguments.identity ∧
    operation.parameters = arguments.parameters

/-- The job row reads as `dispatch` wrote it; the other service may write only the
result columns. -/
def DispatchArguments.Stand (arguments : DispatchArguments) (state : DeliveryState)
    (jobId : IntegrationJobId) : Prop :=
  ∃ job, state.jobs.find jobId = some job ∧ job.toIntegrationJobRow = arguments.row jobId ∧
    job.parameters = arguments.parameters

/-- Everything the other service does check, about the arguments. -/
def DispatchArguments.Admitted (sha256 : List CodePoint → List CodePoint)
    (state : DeliveryState) (now : Instant) (jobId : IntegrationJobId)
    (arguments : DispatchArguments) : Prop :=
  strip (ofString arguments.catalogueId) ≠ [] ∧
    ∃ work tenant binding, state.workItems.find arguments.workItemId = some work ∧
      (state.tenants.find? fun row => row.tenantId == arguments.tenantId) = some tenant ∧
      (JobInstruction.ofRows (arguments.row jobId) work tenant).isExecutableAt now = true ∧
      AccessPolicy.evaluate state.catalogue state.registry arguments.tenantId
        arguments.identity = .allow binding ∧
      (binding.idempotencyPolicy = .derivedKey → ∀ execution ∈ state.executions,
        execution.idempotencyKey ≠
          (operationOf (arguments.row jobId)).key sha256)

/-- A request carries the arguments' own columns. -/
theorem request_columns {arguments : DispatchArguments} {jobId : IntegrationJobId}
    (hstand : arguments.Stand state jobId) {instruction : Instruction}
    (hreads : Reads state jobId instruction) :
    instruction.workItemId = arguments.workItemId ∧ instruction.tenantId = arguments.tenantId ∧
      instruction.operationId = arguments.operationId ∧
      instruction.identity = arguments.identity ∧
      instruction.parameters = arguments.parameters := by
  obtain ⟨job, hjob, hrow, hparameters⟩ := hstand
  obtain ⟨read, work, tenant, hread, _, _, hinstruction, hread_parameters⟩ := hreads
  rw [hjob, Option.some.injEq] at hread
  subst hread
  rw [hinstruction, hread_parameters, hparameters, hrow]
  exact ⟨rfl, rfl, rfl, rfl, rfl⟩

/-- The checks of the leg, read on the arguments. -/
theorem admitted_of_request {arguments : DispatchArguments}
    (hstand : arguments.Stand state command.jobId)
    (hrequest : ExecutionLeg.request sha256 state now started command = some request) :
    arguments.Admitted sha256 state now command.jobId := by
  obtain ⟨hreads, hpasses, _⟩ := ExecutionLeg.request_iff.mp hrequest
  obtain ⟨hwork_id, htenant_id, hoperation_id, hidentity, _⟩ := request_columns hstand hreads
  have hnamed := request.instruction.named
  obtain ⟨job, hjob, hrow, _⟩ := hstand
  obtain ⟨read, work, tenant, hread, hwork, htenant, hinstruction, _⟩ := hreads
  rw [hjob, Option.some.injEq] at hread
  subst hread
  have hexecutable := hpasses.executable
  rw [hinstruction, hrow] at hexecutable
  have hcolumns : job.workItemId = arguments.workItemId ∧ job.tenantId = arguments.tenantId := by
    rw [hrow]
    exact ⟨rfl, rfl⟩
  rw [hcolumns.1] at hwork
  rw [hcolumns.2] at htenant
  have hallowed := hpasses.allowed
  rw [htenant_id, hidentity] at hallowed
  rw [hidentity] at hnamed
  refine ⟨hnamed, work, tenant, request.binding, hwork, htenant, hexecutable, hallowed, ?_⟩
  intro hpolicy
  have hoperation : request.instruction.operation = operationOf (arguments.row command.jobId) := by
    rw [Instruction.operation, htenant_id, hwork_id, hoperation_id]
    rfl
  have hkey : keyFor sha256 request.instruction request.binding =
      some ((operationOf (arguments.row command.jobId)).key sha256) := by
    rw [keyFor, if_pos hpolicy, hoperation]
  exact hpasses.unexecuted _ hkey

/-- Arguments that pass the checks make a request. -/
theorem request_of_admitted (command : MessageEnvelope) {arguments : DispatchArguments}
    (hversion : 1 ≤ arguments.catalogueVersion)
    (hstand : arguments.Stand state command.jobId)
    (hadmitted : arguments.Admitted sha256 state now command.jobId) (started : Instant) :
    ∃ request, ExecutionLeg.request sha256 state now started command = some request := by
  obtain ⟨hnamed, work, tenant, binding, hwork, htenant, hexecutable, hallowed, hunexecuted⟩ :=
    hadmitted
  obtain ⟨job, hjob, hrow, hparameters⟩ := hstand
  let instruction : Instruction :=
    { JobInstruction.ofRows (arguments.row command.jobId) work tenant with
      parameters := job.parameters, named := hnamed, versioned := hversion }
  refine ⟨⟨instruction, binding, keyFor sha256 instruction binding⟩,
    ExecutionLeg.request_iff.mpr ⟨⟨job, work, tenant, hjob, ?_, ?_, ?_, rfl⟩, ⟨hexecutable,
      hallowed, ?_⟩, rfl⟩⟩
  · have hcolumn : job.workItemId = arguments.workItemId := by rw [hrow]; rfl
    rw [hcolumn]
    exact hwork
  · have hcolumn : job.tenantId = arguments.tenantId := by rw [hrow]; rfl
    rw [hcolumn]
    exact htenant
  · rw [hrow]
  · intro key hkey
    simp only [keyFor] at hkey
    split at hkey
    · next hpolicy =>
        injection hkey with hkey
        rw [← hkey]
        exact hunexecuted hpolicy
    · cases hkey

/-- A binding that was allowed is for the identity that was asked about. -/
theorem AccessPolicy.identity_of_allow {tenantId : TenantId} {identity : OperationIdentity}
    {binding : ConnectorBinding}
    (h : AccessPolicy.evaluate state.catalogue state.registry tenantId identity =
      .allow binding) : binding.identity = identity := by
  rcases AccessPolicy.evaluate_cases state.catalogue state.registry tenantId identity with
    ⟨refusal, hrefuse⟩ | ⟨allowed, hallow, hidentity⟩
  · rw [h] at hrefuse
    cases hrefuse
  · rw [h] at hallow
    injection hallow with hallow
    injection hallow with hallow
    rw [hallow, hidentity]

/-- What a request does is authorised if and only if the arguments match, since it
carries nothing but them. -/
theorem authorised_iff_matches {arguments : DispatchArguments}
    (hstand : arguments.Stand state command.jobId)
    (hrequest : ExecutionLeg.request sha256 state now started command = some request) :
    request.Authorised state ↔ arguments.Matches state := by
  obtain ⟨hreads, hpasses, _⟩ := ExecutionLeg.request_iff.mp hrequest
  obtain ⟨hwork, htenant, hoperation, hidentity, hparameters⟩ := request_columns hstand hreads
  have hbinding : request.binding.identity = arguments.identity :=
    (AccessPolicy.identity_of_allow hpasses.allowed).trans hidentity
  constructor
  · intro h
    have hitem := h.work
    have hdecided := h.operation
    rw [hwork, htenant] at hitem
    rw [hwork, hoperation, hbinding, hparameters] at hdecided
    exact ⟨hitem, hdecided⟩
  · intro h
    refine ⟨?_, ?_⟩
    · rw [hwork, htenant]
      exact h.work
    · rw [hwork, hoperation, hbinding, hparameters]
      exact h.operation

/-- A job's request is authorised exactly when arguments that pass the other service's
checks also agree with the rows it does not look at. -/
theorem request_authorised_iff (sha256 : List CodePoint → List CodePoint) {jobs : JobTable}
    {workItems : WorkItemTable} {jobId : IntegrationJobId} {arguments : DispatchArguments}
    {dispatched : Dispatched}
    (hdispatch : IntegrationDispatcher.dispatch jobs workItems jobId arguments = some dispatched)
    {state : DeliveryState} (hstand : arguments.Stand state jobId) (now started : Instant) :
    (∀ request, ExecutionLeg.request sha256 state now started dispatched.announcement =
        some request → request.Authorised state) ↔
      (arguments.Admitted sha256 state now jobId → arguments.Matches state) := by
  unfold IntegrationDispatcher.dispatch at hdispatch
  split at hdispatch
  · split at hdispatch
    · next hwritable =>
        injection hdispatch with hdispatch
        subst hdispatch
        simp only [DispatchArguments.writable, Bool.and_eq_true, decide_eq_true_eq] at hwritable
        have hversion := hwritable.1.2
        constructor
        · intro h hadmitted
          obtain ⟨request, hrequest⟩ := request_of_admitted
            ⟨jobId, arguments.correlationId, .execute⟩ hversion hstand hadmitted started
          exact (authorised_iff_matches hstand hrequest).mp (h request hrequest)
        · intro h request hrequest
          exact (authorised_iff_matches hstand hrequest).mpr
            (h (admitted_of_request hstand hrequest))
    · cases hdispatch
  · cases hdispatch

/-! ## Another organisation's work item -/

namespace ConfusedDeputy

/-- An item of the first organisation, approved and within its window. -/
def approvedItem : WorkItemRow :=
  ⟨⟨10⟩, ⟨1⟩, ⟨11⟩, ⟨12⟩, .authorized, .approved, some 100, none, none, 1, 0,
    WorkItemRow.unclaimed⟩

/-- The operation proposed on it. -/
def proposed : OperationWithParameters :=
  { operationId := ⟨20⟩, tenantId := ⟨1⟩, workItemId := ⟨10⟩, catalogueId := "reset",
    catalogueVersion := 1, createdAt := 1, parameters := "{}" }

theorem decidedNamed : (some 2 : Option Instant).isNone = (some ApprovalVerdict.approved).isNone ∧
    (some 2 : Option Instant).isNone = (some (⟨13⟩ : PrincipalId)).isNone := ⟨rfl, rfl⟩

def approval : ApprovalRow :=
  ⟨⟨30⟩, ⟨1⟩, ⟨10⟩, 1, some 2, some ⟨13⟩, some [], some .approved, some 100, 2, 2, decidedNamed⟩

theorem oneItem : ([approvedItem].map WorkItemRow.workItemId).Nodup := List.nodup_singleton _

theorem oneOperation : ([proposed].map fun operation => operation.operationId).Nodup :=
  List.nodup_singleton _

theorem oneApproval : ([approval].map ApprovalRow.approvalId).Nodup := List.nodup_singleton _

theorem oneEach : ([approval].map ApprovalRow.workItemId).Nodup := List.nodup_singleton _

/-- Two organisations, both active and entitled to the capability. -/
def delivered (dispatched : Dispatched) : DeliveryState where
  jobs := dispatched.jobs
  workItems := ⟨[approvedItem], oneItem⟩
  tenants := [⟨⟨1⟩, .active⟩, ⟨⟨2⟩, .active⟩]
  operations := ⟨[proposed], oneOperation⟩
  approvals := ⟨⟨[approval], oneApproval⟩, oneEach⟩
  catalogue :=
    ⟨[⟨⟨1⟩, "reset", true⟩, ⟨⟨2⟩, "reset", true⟩], [⟨"reset", 1, .action⟩]⟩
  registry := ⟨[⟨"reset", 1, "c", "/", none, .none⟩], [⟨"c", "https://c", false⟩]⟩
  executions := []

/-- The arguments, but for the organisation. -/
def asking (tenantId : TenantId) : DispatchArguments :=
  ⟨⟨⟨1⟩, ⟨40⟩, .active, .workItem⟩, ⟨10⟩, ⟨20⟩, tenantId, "reset", 1, "{}", 100, []⟩

def noJobs : JobTable := ⟨[], List.nodup_nil⟩

theorem noneSuch : (⟨50⟩ : IntegrationJobId) ∉ noJobs.rows.map fun job => job.jobId :=
  List.not_mem_nil

def written (tenantId : TenantId) : Dispatched where
  jobs := noJobs.insert
    { toIntegrationJobRow := (asking tenantId).row ⟨50⟩, parameters := "\x7b\x7d" } noneSuch
  outboxTenantId := ⟨1⟩
  announcement := ⟨⟨50⟩, [], .execute⟩
  job := ⟨⟨50⟩, ⟨10⟩⟩

theorem dispatch_written (tenantId : TenantId) :
    IntegrationDispatcher.dispatch noJobs ⟨[approvedItem], oneItem⟩ ⟨50⟩ (asking tenantId) =
      some (written tenantId) := by
  have hwritable : (asking tenantId).writable ⟨[approvedItem], oneItem⟩ = true := by
    show (((⟨[approvedItem], oneItem⟩ : WorkItemTable).find ⟨10⟩).isSome &&
      decide ((1 : Int) ≤ 1) && decide ("reset".length ≤ 128)) = true
    decide +kernel
  unfold IntegrationDispatcher.dispatch
  rw [dif_pos noneSuch, if_pos hwritable]
  rfl

theorem stand_written (tenantId : TenantId) :
    (asking tenantId).Stand (delivered (written tenantId)) ⟨50⟩ :=
  ⟨_, rfl, rfl, rfl⟩

/-- Dispatched for the second organisation, the first one's approved item is spent: the
capability is invoked for an organisation the item does not belong to. -/
theorem spends_another_item :
    ∃ request, IntegrationDispatcher.dispatch noJobs ⟨[approvedItem], oneItem⟩ ⟨50⟩ (asking ⟨2⟩) =
        some (written ⟨2⟩) ∧
      ExecutionLeg.request (fun text => text) (delivered (written ⟨2⟩)) 3 3
        (written ⟨2⟩).announcement = some request ∧
      ¬ request.Authorised (delivered (written ⟨2⟩)) := by
  have hleaves : (ExecutionLeg.request (fun text => text) (delivered (written ⟨2⟩)) 3 3
      (written ⟨2⟩).announcement).isSome = true := by decide +kernel
  obtain ⟨request, hrequest⟩ := Option.isSome_iff_exists.mp hleaves
  refine ⟨request, dispatch_written ⟨2⟩, hrequest, ?_⟩
  rw [authorised_iff_matches (stand_written ⟨2⟩) hrequest]
  rintro ⟨⟨work, hwork, _, htenant⟩, _⟩
  rw [List.mem_singleton.mp hwork] at htenant
  revert htenant
  decide

/-- Dispatched for its own, it is invoked, and on its authority. -/
theorem spends_its_own :
    (ExecutionLeg.request (fun text => text) (delivered (written ⟨1⟩)) 3 3
        (written ⟨1⟩).announcement).isSome = true ∧
      ∀ request, ExecutionLeg.request (fun text => text) (delivered (written ⟨1⟩)) 3 3
        (written ⟨1⟩).announcement = some request →
          request.Authorised (delivered (written ⟨1⟩)) := by
  refine ⟨by decide +kernel, ?_⟩
  refine (request_authorised_iff (fun text => text) (dispatch_written ⟨1⟩) (stand_written ⟨1⟩)
    3 3).mpr fun _ => ⟨?_, ?_⟩
  · exact ⟨approvedItem, List.mem_singleton_self _, rfl, rfl⟩
  · exact ⟨approval, List.mem_singleton_self _, proposed, rfl, rfl, by decide +kernel, rfl, rfl,
      rfl, rfl⟩

end ConfusedDeputy

end Synthia
