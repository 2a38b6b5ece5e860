import Synthia.Integrations.Credentials
import Synthia.Proofs.Answers
import Synthia.Proofs.Instruction

/-!
# A command without a credential

The access check asks whether an organisation may use a capability, and the resolver whether
it holds a credential for it. Where the first says yes and the second no, the resolver raises
an error that the leg does not know, so the consumer abandons the delivery with nothing
recorded, and does the same with the next.

Over runs in which nothing else fails, one invariant says what becomes of a delivery of the
job's command: before the client it can only be refused, or suppressed because its operation
has been executed; at the client it can only raise. So a delivery that ends, ends with a
recorded refusal and an announcement exactly where it stopped short of the client, and no
other job's execution stands under its operation's key.
-/

namespace Synthia.Integrations

open Text

/-- No reference is held for the capability by the organisation. -/
def Lacks (view : List CredentialReferenceRow) (tenantId : TenantId) (catalogueId : String) :
    Prop :=
  ∀ row ∈ view, row.tenantId = tenantId → row.catalogueId = catalogueId →
    row.credentialReference = ""

instance (view : List CredentialReferenceRow) (tenantId : TenantId) (catalogueId : String) :
    Decidable (Lacks view tenantId catalogueId) :=
  inferInstanceAs (Decidable (∀ row ∈ view, _))

/-- A missing reference is a refusal, whatever the vault holds. -/
theorem Lacks.resolve {view : List CredentialReferenceRow} {tenantId : TenantId}
    {catalogueId : String} (h : Lacks view tenantId catalogueId) (secrets : SecretResolver) :
    TenantCredentialResolver.resolve view secrets tenantId catalogueId =
      .error (.notEntitled ⟨tenantId, catalogueId⟩) := by
  unfold TenantCredentialResolver.resolve
  split
  · rfl
  · next row hfind =>
      have hmatch := List.find?_some hfind
      rw [Bool.and_eq_true, beq_iff_eq, beq_iff_eq] at hmatch
      rw [if_pos (h row (List.mem_of_find?_eq_some hfind) hmatch.1 hmatch.2)]

/-- An execution stands under the key of the job's operation. -/
def World.Executed (sha256 : List CodePoint → List CodePoint) (world : World)
    (jobId : IntegrationJobId) : Prop :=
  ∃ operation, world.Names jobId operation ∧
    operation.key sha256 ∈ world.executions.rows.map fun row => row.idempotencyKey

/-- A refusal of the job is recorded, on the job too, and announced. -/
def World.RefusalAnnounced (world : World) (jobId : IntegrationJobId) : Prop :=
  ∃ record ∈ world.executions.rows, record.jobId = jobId ∧ record.outcome.isRefusal = true ∧
    (∃ job ∈ world.jobs.rows, job.jobId = jobId ∧ job.result.status = some "failed" ∧
      job.result.executionId = some record.executionId) ∧
    ∃ message ∈ world.outbox, message.jobId = jobId ∧ message.kind = .failed

/-! ## What a delivery of the command can come to -/

/-- `reaches` says whether the delivery may get as far as the client. -/
def Stage.Refusing (sha256 : List CodePoint → List CodePoint)
    (view : List CredentialReferenceRow) (world : World) (command : MessageEnvelope)
    (reaches : Prop) : Stage → Prop
  | .commanded => True
  | .loaded instruction _ => Lacks view instruction.tenantId instruction.identity.catalogueId
  | .admitted instruction binding =>
      Lacks view instruction.tenantId binding.identity.catalogueId
  | .cleared instruction binding _ =>
      reaches ∧ Lacks view instruction.tenantId binding.identity.catalogueId
  | .awaiting _ _ _ | .lost => False
  | .concluded attempt => attempt.outcome.isRefusal = true
  | .recording transaction _ _ => transaction.record.outcome.isRefusal = true
  | .duplicate transaction =>
      transaction.record.idempotencyKey ∈ world.executions.rows.map fun row => row.idempotencyKey
  | .settled message => command.kind = .execute →
      (reaches ∧ message = .transient) ∨
        (message.disposition = .complete ∧ world.Executed sha256 command.jobId)

structure World.Refusing (sha256 : List CodePoint → List CodePoint)
    (view : List CredentialReferenceRow) (jobId : IntegrationJobId)
    (reaches : DeliveryId → Prop) (world : World) : Prop where
  jobs : ∀ job ∈ world.jobs.rows, job.jobId = jobId → Lacks view job.tenantId job.catalogueId
  stages : ∀ id command stage, world.At id command stage → command.jobId = jobId →
    stage.Refusing sha256 view world command (reaches id)
  committed : ∀ transaction ∈ world.committed, transaction.record.jobId = jobId →
    transaction.record.outcome.isRefusal = true

/-- A step in which nothing fails but what a credential makes fail. -/
structure Quiet (sha256 : List CodePoint → List CodePoint) (view : List CredentialReferenceRow)
    (secrets : SecretResolver) (jobId : IntegrationJobId) (reaches : DeliveryId → Prop)
    (world : World) (action : Action) : Prop where
  undisturbed : world.undisturbed view secrets jobId action = true
  short : ∀ id, ¬ reaches id → world.stopsShort sha256 jobId id action = true
  lacks : ∀ job parameters, action = .dispatch job parameters → job.jobId = jobId →
    Lacks view job.tenantId job.catalogueId

section

variable {sha256 : List CodePoint → List CodePoint} {view : List CredentialReferenceRow}
  {secrets : SecretResolver} {jobId : IntegrationJobId} {reaches : DeliveryId → Prop}
  {world next : World} {command : MessageEnvelope} {id : DeliveryId}

theorem World.stageOf_eq {stage : Stage} (hat : world.At id command stage)
    (hjob : command.jobId = jobId) : world.stageOf jobId id = some stage := by
  rw [World.At] at hat
  rw [World.stageOf, hat]
  exact if_pos hjob

theorem Stage.Refusing.mono {stage : Stage} {able : Prop}
    (h : stage.Refusing sha256 view world command able)
    (hkeys : ∀ key ∈ world.executions.rows.map (fun row => row.idempotencyKey),
      key ∈ next.executions.rows.map fun row => row.idempotencyKey)
    (hnames : ∀ jobId operation, world.Names jobId operation → next.Names jobId operation) :
    stage.Refusing sha256 view next command able := by
  cases stage with
  | commanded | loaded | admitted | cleared | awaiting | lost | concluded | recording => exact h
  | duplicate transaction => exact hkeys _ h
  | settled message =>
      intro hkind
      rcases h hkind with hraised | ⟨hcomplete, operation, hoperation, hkey⟩
      · exact .inl hraised
      · exact .inr ⟨hcomplete, operation, hnames _ _ hoperation, hkeys _ hkey⟩

/-! ### Each stage from the one before -/

theorem CommandConsumer.handle_refusing (able : Prop) :
    (CommandConsumer.handle (some command)).Refusing sha256 view world command able := by
  unfold CommandConsumer.handle
  dsimp only
  split
  · next hkind => exact fun h => absurd h hkind
  · trivial

/-- The organisation and the capability of an instruction are its job row's. -/
theorem Instruction.load_lacks {workItems : WorkItemTable} {tenants : List TenantMappingRow}
    {instruction : Instruction}
    (hjobs : ∀ job ∈ world.jobs.rows, job.jobId = jobId →
      Lacks view job.tenantId job.catalogueId)
    (h : Instruction.load world.jobs workItems tenants jobId = .ok (some instruction)) :
    Lacks view instruction.tenantId instruction.identity.catalogueId := by
  obtain ⟨job, hmem, hjobId, work, tenant, hrows⟩ := Instruction.load_row h
  rw [hrows]
  exact hjobs job hmem hjobId

theorem ExecutionLeg.load_refusing {workItems : WorkItemTable} {tenants : List TenantMappingRow}
    {now : Instant} {able : Prop} (hjob : command.jobId = jobId)
    (hjobs : ∀ job ∈ world.jobs.rows, job.jobId = jobId →
      Lacks view job.tenantId job.catalogueId)
    (hload : ∃ instruction,
      Instruction.load world.jobs workItems tenants jobId = .ok (some instruction)) :
    (ExecutionLeg.load world.jobs workItems tenants now command).Refusing sha256 view world
      command able := by
  obtain ⟨instruction, hinstruction⟩ := hload
  unfold ExecutionLeg.load
  rw [hjob, hinstruction]
  dsimp only
  split
  · rfl
  · exact Instruction.load_lacks hjobs hinstruction

theorem ExecutionLeg.evaluate_refusing {catalogue : CatalogueRepository}
    {registry : ConnectorRegistry} {instruction : Instruction} {now : Instant} {able : Prop}
    (h : Lacks view instruction.tenantId instruction.identity.catalogueId) :
    (ExecutionLeg.evaluate catalogue registry command instruction now).Refusing sha256 view
      world command able := by
  unfold ExecutionLeg.evaluate
  dsimp only
  rcases AccessPolicy.evaluate_cases catalogue registry instruction.tenantId
    instruction.identity with ⟨refusal, hdecision⟩ | ⟨binding, hdecision, hidentity⟩
  · rw [if_pos (by rw [hdecision]; rfl)]
    dsimp only [Stage.Refusing]
    rw [hdecision]
    cases refusal <;> rfl
  · rw [if_neg (by rw [hdecision]; exact Bool.false_ne_true), hdecision]
    show Lacks view instruction.tenantId binding.identity.catalogueId
    rw [hidentity]
    exact h

theorem ExecutionLeg.lookUp_refusing {instruction : Instruction} {binding : ConnectorBinding}
    {started : Instant} {able : Prop} (hfollows : world.Follows command instruction)
    (h : Lacks view instruction.tenantId binding.identity.catalogueId)
    (hshort : ¬ able → ((keyFor sha256 instruction binding).any fun key =>
      world.executions.rows.any fun row => row.idempotencyKey == key) = true) :
    (ExecutionLeg.lookUp sha256 world.executions.rows instruction binding started).Refusing
      sha256 view world command able := by
  unfold ExecutionLeg.lookUp
  split
  · next key hkey =>
      split
      · next hany =>
          obtain ⟨row, hrow, hmatch⟩ := List.any_eq_true.mp hany
          refine fun _ => .inr ⟨rfl, instruction.operation, hfollows.2, ?_⟩
          rw [← eq_key_of_keyFor hkey, ← beq_iff_eq.mp hmatch]
          exact List.mem_map_of_mem hrow
      · next hany =>
          refine ⟨?_, h⟩
          by_contra hable
          have hfound := hshort hable
          rw [hkey, Option.any_some] at hfound
          exact hany hfound
  · next hkey =>
      refine ⟨?_, h⟩
      by_contra hable
      have hfound := hshort hable
      rw [hkey] at hfound
      cases hfound

/-! ### What an undisturbed step is -/

theorem World.undisturbed_load {workItems : WorkItemTable} {tenants : List TenantMappingRow}
    {now : Instant} {stage : Stage}
    (h : world.undisturbed view secrets jobId (.load id workItems tenants now) = true)
    (hstage : world.stageOf jobId id = some stage) :
    ∃ instruction, Instruction.load world.jobs workItems tenants jobId =
      .ok (some instruction) := by
  rw [World.undisturbed, hstage] at h
  split at h
  · next hnone => cases hnone
  · next instruction _ hload => exact ⟨instruction, hload⟩
  · cases h

/-- What raises is the client, where it was given no credential. -/
theorem World.undisturbed_raise {stage : Stage}
    (h : world.undisturbed view secrets jobId (.raise id) = true)
    (hstage : world.stageOf jobId id = some stage) :
    ∃ instruction binding started, stage = .cleared instruction binding started := by
  rw [World.undisturbed, hstage] at h
  split at h
  · next hnone => cases hnone
  · next instruction binding started hcleared =>
      injection hcleared with hcleared
      exact ⟨instruction, binding, started, hcleared⟩
  · cases h

theorem World.undisturbed_crash
    (h : world.undisturbed view secrets jobId (.crash id) = true) :
    world.stageOf jobId id = none :=
  Option.isNone_iff_eq_none.mp h

theorem World.undisturbed_commit {acknowledged : Bool} {stage : Stage}
    (h : world.undisturbed view secrets jobId (.commit id acknowledged) = true)
    (hstage : world.stageOf jobId id = some stage) : acknowledged = true := by
  rw [World.undisturbed, hstage, Option.isNone_some, Bool.or_false] at h
  exact h

/-- The client neither sends nor answers where no reference is held. -/
theorem World.undisturbed_client {instruction : Instruction} {binding : ConnectorBinding}
    {started : Instant} {action : Action}
    (haction : action = .send id ∨ ∃ answer, action = .answer id answer)
    (h : world.undisturbed view secrets jobId action = true)
    (hstage : world.stageOf jobId id = some (.cleared instruction binding started)) :
    ¬ Lacks view instruction.tenantId binding.identity.catalogueId := by
  intro hlacks
  rcases haction with haction | ⟨answer, haction⟩
  all_goals
    rw [haction, World.undisturbed, hstage] at h
    dsimp only [McpClient.credential] at h
    rw [hlacks.resolve secrets] at h
    cases h

/-! ### The invariant -/

theorem World.Refusing.moved (h : world.Refusing sha256 view jobId reaches)
    {received : Option MessageEnvelope} {after : Stage}
    (hdeliveries : next.deliveries =
      Function.update world.deliveries id (some ⟨received, after⟩))
    (hjobs : next.jobs = world.jobs) (hexecutions : next.executions = world.executions)
    (hcommitted : next.committed = world.committed)
    (hafter : ∀ command, received = some command → command.jobId = jobId →
      after.Refusing sha256 view world command (reaches id)) :
    next.Refusing sha256 view jobId reaches := by
  have hnames : ∀ jobId operation, world.Names jobId operation →
      next.Names jobId operation := by
    intro jobId operation hoperation
    rw [World.Names, hjobs]
    exact hoperation
  refine ⟨by rw [hjobs]; exact h.jobs, ?_, by rw [hcommitted]; exact h.committed⟩
  intro other following stage hat hjob
  have hbefore : stage.Refusing sha256 view world following (reaches other) := by
    rcases (World.at_iff hdeliveries).mp hat with ⟨hother, hreceived, hstage⟩ | ⟨_, hold⟩
    · rw [hother, hstage]
      exact hafter following hreceived hjob
    · exact h.stages other following stage hold hjob
  exact hbefore.mono (by rw [hexecutions]; exact fun _ hkey => hkey) hnames

/-- A command's delivery moves on, and nothing durable does. -/
theorem World.Refusing.advanced (h : world.Refusing sha256 view jobId reaches) {after : Stage}
    (hdeliveries : next.deliveries =
      Function.update world.deliveries id (some ⟨some command, after⟩))
    (hjobs : next.jobs = world.jobs) (hexecutions : next.executions = world.executions)
    (hcommitted : next.committed = world.committed)
    (hafter : command.jobId = jobId →
      after.Refusing sha256 view world command (reaches id)) :
    next.Refusing sha256 view jobId reaches := by
  refine h.moved hdeliveries hjobs hexecutions hcommitted ?_
  intro following hfollowing
  injection hfollowing with hfollowing
  rw [← hfollowing]
  exact hafter

theorem World.Refusing.commit (h : world.Refusing sha256 view jobId reaches)
    (hsound : world.Sound sha256) {acknowledged : Bool} {transaction : Transaction}
    {written : List Write} {durable : World}
    (hat : world.At id command (.recording transaction written []))
    (hdurable : world.apply transaction written = some durable)
    (hacknowledged : command.jobId = jobId → acknowledged = true) :
    World.Refusing sha256 view jobId reaches { (durable.release id).advance id command
        (if acknowledged then
          .reported { executed := true, outcome := some transaction.record.outcome }
        else
          .raised) with
      committed := world.committed ++ [transaction] } := by
  obtain ⟨hbegun, htransaction, hwritten⟩ := hsound.stages _ _ _ hat
  rw [List.append_nil] at hwritten
  rw [hwritten] at hdurable
  obtain ⟨hfresh, rfl⟩ := World.apply_writes hdurable
  refine ⟨?_, ?_, ?_⟩
  · intro row hrow hjob
    obtain ⟨old, hold, rfl⟩ := Relational.mem_updateRows.mp hrow
    split at hjob
    · next hmatch =>
        rw [if_pos hmatch]
        exact h.jobs old hold hjob
    · next hmatch =>
        rw [if_neg hmatch]
        exact h.jobs old hold hjob
  · intro other following stage hother hjob
    rcases (World.at_iff rfl).mp hother with ⟨_, hfollowing, rfl⟩ | ⟨_, hold⟩
    · injection hfollowing with hfollowing
      rw [← hfollowing] at hjob ⊢
      rw [hacknowledged hjob]
      obtain ⟨operation, hnames, hkey⟩ := hsound.begun transaction hbegun
      rw [htransaction] at hnames
      refine fun _ => .inr ⟨rfl, operation, hnames.update, ?_⟩
      rw [← hkey]
      exact List.mem_map_of_mem (List.mem_append_right _ (List.mem_singleton_self _))
    · refine (h.stages other following stage hold hjob).mono ?_ fun _ _ hnames => hnames.update
      intro key hkey
      obtain ⟨row, hrow, hrowKey⟩ := List.mem_map.mp hkey
      exact List.mem_map.mpr ⟨row, List.mem_append_left _ hrow, hrowKey⟩
  · intro other hother hjob
    rcases List.mem_append.mp hother with hold | hlast
    · exact h.committed other hold hjob
    · rw [List.mem_singleton.mp hlast] at hjob ⊢
      exact h.stages _ _ _ hat (htransaction.symm.trans hjob)

theorem World.Refusing.step (h : world.Refusing sha256 view jobId reaches)
    (hsound : world.Sound sha256) {action : Action}
    (hquiet : Quiet sha256 view secrets jobId reaches world action)
    (hstep : Step sha256 world action next) : next.Refusing sha256 view jobId reaches := by
  have hundisturbed := hquiet.undisturbed
  cases hstep with
  | @dispatch job parameters hfresh =>
      refine ⟨?_, ?_, h.committed⟩
      · intro row hrow hjob
        rcases List.mem_append.mp hrow with hold | hnew
        · exact h.jobs row hold hjob
        · rw [List.mem_singleton.mp hnew] at hjob ⊢
          exact hquiet.lacks job parameters rfl hjob
      · intro id command stage hat hjob
        exact (h.stages id command stage hat hjob).mono (fun _ hkey => hkey)
          fun _ _ hnames => hnames.insert
  | deliver hnew =>
      refine h.moved rfl rfl rfl rfl fun command hreceived _ => ?_
      rw [hreceived]
      exact CommandConsumer.handle_refusing _
  | load hat =>
      refine h.advanced rfl rfl rfl rfl fun hjob => ?_
      exact ExecutionLeg.load_refusing hjob h.jobs
        (World.undisturbed_load hundisturbed (World.stageOf_eq hat hjob))
  | evaluate hat =>
      refine h.advanced rfl rfl rfl rfl fun hjob => ?_
      exact ExecutionLeg.evaluate_refusing (h.stages _ _ _ hat hjob)
  | @lookUp id started command instruction binding hat =>
      refine h.advanced rfl rfl rfl rfl fun hjob => ?_
      refine ExecutionLeg.lookUp_refusing (hsound.stages _ _ _ hat) (h.stages _ _ _ hat hjob) ?_
      intro hreaches
      have hshort := hquiet.short id hreaches
      rw [World.stopsShort, if_pos rfl, World.stageOf_eq hat hjob] at hshort
      exact hshort
  | send hat =>
      refine h.advanced rfl rfl rfl rfl fun hjob => ?_
      exact absurd (h.stages _ _ _ hat hjob).2
        (World.undisturbed_client (.inl rfl) hundisturbed (World.stageOf_eq hat hjob))
  | @answer id answer command instruction binding started hat =>
      refine h.advanced rfl rfl rfl rfl fun hjob => ?_
      rcases hat with hcleared | hawaiting
      · exact absurd (h.stages _ _ _ hcleared hjob).2 (World.undisturbed_client
          (.inr ⟨answer, rfl⟩) hundisturbed (World.stageOf_eq hcleared hjob))
      · exact False.elim (h.stages _ _ _ hawaiting hjob)
  | record hat hdrawn =>
      refine h.advanced rfl rfl rfl rfl fun hjob => ?_
      have hrefusal := h.stages _ _ _ hat hjob
      exact hrefusal
  | refused hat hkey => exact h.advanced rfl rfl rfl rfl fun _ => hkey
  | insert hat hfree hkey =>
      refine h.advanced rfl rfl rfl rfl fun hjob => ?_
      have hrefusal := h.stages _ _ _ hat hjob
      exact hrefusal
  | statement hat hwrite =>
      refine h.advanced rfl rfl rfl rfl fun hjob => ?_
      have hrefusal := h.stages _ _ _ hat hjob
      exact hrefusal
  | commit hat hdurable =>
      refine h.commit hsound hat hdurable fun hjob => ?_
      exact World.undisturbed_commit hundisturbed (World.stageOf_eq hat hjob)
  | @rollBack id command transaction hat =>
      refine h.advanced rfl rfl rfl rfl fun hjob _ => .inr ⟨rfl, ?_⟩
      obtain ⟨hbegun, htransaction⟩ := hsound.stages _ _ _ hat
      obtain ⟨operation, hnames, hkey⟩ := hsound.begun transaction hbegun
      rw [htransaction] at hnames
      refine ⟨operation, hnames, ?_⟩
      rw [← hkey]
      exact h.stages _ _ _ hat hjob
  | raise hat hrunning =>
      refine h.advanced rfl rfl rfl rfl fun hjob _ => ?_
      obtain ⟨instruction, binding, started, hcleared⟩ :=
        World.undisturbed_raise hundisturbed (World.stageOf_eq hat hjob)
      rw [hcleared] at hat
      exact .inl ⟨(h.stages _ _ _ hat hjob).1, rfl⟩
  | crash hat hrunning =>
      refine h.advanced rfl rfl rfl rfl fun hjob => ?_
      have hnone := World.undisturbed_crash hundisturbed
      rw [World.stageOf_eq hat hjob] at hnone
      cases hnone
  | land hsent => exact ⟨h.jobs, fun id command stage hat hjob =>
      (h.stages id command stage hat hjob).mono (fun _ hkey => hkey) fun _ _ hnames => hnames,
      h.committed⟩

theorem World.refusing_start : World.Refusing sha256 view jobId reaches {} where
  jobs _ h := absurd h List.not_mem_nil
  stages _ _ _ h := nomatch h
  committed _ h := absurd h List.not_mem_nil

theorem World.refusing_run {actions : List Action}
    (hrun : Machine.run (World.step sha256) {} actions = some next)
    (hquiet : Machine.Along (World.step sha256)
      (Quiet sha256 view secrets jobId reaches) {} actions) :
    next.Refusing sha256 view jobId reaches ∧ next.Sound sha256 := by
  have hkeeps : ∀ world action next,
      world.Refusing sha256 view jobId reaches ∧ world.Sound sha256 →
      Quiet sha256 view secrets jobId reaches world action →
      World.step sha256 world action = some next →
      next.Refusing sha256 view jobId reaches ∧ next.Sound sha256 := by
    intro world action next hboth hnow hstep
    have hstep := World.step_of_eq_some hstep
    exact ⟨hboth.1.step hboth.2 hnow hstep, hboth.2.step hstep⟩
  exact Machine.invariant_along hkeeps ⟨World.refusing_start, World.sound_start⟩ hrun hquiet

/-! ### At the client -/

/-- The delivery has got as far as the client, or was abandoned there. -/
def World.AtClient (world : World) (id : DeliveryId) (command : MessageEnvelope) : Prop :=
  world.At id command .raised ∨
    ∃ instruction binding started, world.At id command (.cleared instruction binding started)

/-- A delivery at the client stays there until the client is done with it, or it ends. -/
theorem Step.leaves_client {action : Action} (hstep : Step sha256 world action next)
    {instruction : Instruction} {binding : ConnectorBinding} {started : Instant}
    (hat : world.At id command (.cleared instruction binding started)) :
    next.At id command (.cleared instruction binding started) ∨ action = .send id ∨
      (∃ answer, action = .answer id answer) ∨ action = .crash id ∨
      next.At id command .raised := by
  have hkeep : ∀ {other : DeliveryId} {received : Option MessageEnvelope} {after : Stage},
      next.deliveries = Function.update world.deliveries other (some ⟨received, after⟩) →
      id ≠ other → next.At id command (.cleared instruction binding started) :=
    fun hdeliveries hother => (World.at_iff hdeliveries).mpr (.inr ⟨hother, hat⟩)
  cases hstep with
  | dispatch hfresh => exact .inl hat
  | deliver hnew =>
      refine .inl (hkeep rfl ?_)
      rintro rfl
      rw [World.At, hnew] at hat
      cases hat
  | load hother | evaluate hother | lookUp hother | record hother | refused hother
  | insert hother | statement hother | rollBack hother =>
      refine .inl (hkeep rfl ?_)
      rintro rfl
      cases (hat.unique hother).2
  | @send other =>
      by_cases hother : id = other
      · exact .inr (.inl (by rw [hother]))
      · exact .inl (hkeep rfl hother)
  | @answer other answer =>
      by_cases hother : id = other
      · exact .inr (.inr (.inl ⟨answer, by rw [hother]⟩))
      · exact .inl (hkeep rfl hother)
  | @commit other acknowledged following transaction written durable hother hdurable =>
      have hdeliveries := (World.apply_keeps hdurable).1
      refine .inl ((World.at_iff (by rw [← hdeliveries]; rfl)).mpr (.inr ⟨?_, hat⟩))
      rintro rfl
      cases (hat.unique hother).2
  | @raise other following stage hother =>
      by_cases hsame : id = other
      · rw [hsame] at hat ⊢
        rw [(hat.unique hother).1]
        exact .inr (.inr (.inr (.inr ((World.at_iff rfl).mpr (.inl ⟨rfl, rfl, rfl⟩)))))
      · exact .inl (hkeep rfl hsame)
  | @crash other =>
      by_cases hother : id = other
      · exact .inr (.inr (.inr (.inl (by rw [hother]))))
      · exact .inl (hkeep rfl hother)
  | land hsent => exact .inl hat

theorem World.AtClient.step (h : world.AtClient id command) (hjob : command.jobId = jobId)
    (hrefusing : world.Refusing sha256 view jobId reaches) {action : Action}
    (hundisturbed : world.undisturbed view secrets jobId action = true)
    (hstep : Step sha256 world action next) : next.AtClient id command := by
  rcases h with hraised | ⟨instruction, binding, started, hat⟩
  · exact .inl (hstep.settled hraised)
  · have hstage := World.stageOf_eq hat hjob
    have hlacks := (hrefusing.stages _ _ _ hat hjob).2
    rcases hstep.leaves_client hat with hstays | hsend | hanswer | hcrash | hraised
    · exact .inr ⟨instruction, binding, started, hstays⟩
    · exact absurd hlacks (World.undisturbed_client (.inl hsend) hundisturbed hstage)
    · exact absurd hlacks (World.undisturbed_client (.inr hanswer) hundisturbed hstage)
    · rw [hcrash] at hundisturbed
      rw [World.undisturbed_crash hundisturbed] at hstage
      cases hstage
    · exact .inl hraised

theorem World.atClient_run (hrefusing : world.Refusing sha256 view jobId reaches)
    (hsound : world.Sound sha256) (hjob : command.jobId = jobId)
    (h : world.AtClient id command) {actions : List Action}
    (hrun : Machine.run (World.step sha256) world actions = some next)
    (hquiet : Machine.Along (World.step sha256)
      (Quiet sha256 view secrets jobId reaches) world actions) : next.AtClient id command := by
  have hkeeps : ∀ world action next,
      (world.Refusing sha256 view jobId reaches ∧ world.Sound sha256) ∧
        world.AtClient id command →
      Quiet sha256 view secrets jobId reaches world action →
      World.step sha256 world action = some next →
      (next.Refusing sha256 view jobId reaches ∧ next.Sound sha256) ∧
        next.AtClient id command := by
    intro world action next hall hnow hstep
    obtain ⟨⟨hrefusing, hsound⟩, hthere⟩ := hall
    have hstep := World.step_of_eq_some hstep
    exact ⟨⟨hrefusing.step hsound hnow hstep, hsound.step hstep⟩,
      hthere.step hjob hrefusing hnow.undisturbed hstep⟩
  exact (Machine.invariant_along hkeeps ⟨⟨hrefusing, hsound⟩, h⟩ hrun hquiet).2

/-- A look-up that finds nothing clears the way to the client. -/
theorem Step.reaches_client {action : Action} (hstep : Step sha256 world action next)
    (hshort : ¬ world.stopsShort sha256 jobId id action = true) :
    ∃ command, command.jobId = jobId ∧ next.AtClient id command := by
  cases hstep with
  | @lookUp other started command instruction binding hat =>
      rw [World.stopsShort] at hshort
      split at hshort
      · next hother =>
          rw [hother] at hat
          by_cases hjob : command.jobId = jobId
          · refine ⟨command, hjob, .inr ⟨instruction, binding, started, ?_⟩⟩
            rw [World.stageOf_eq hat hjob] at hshort
            refine (World.at_iff rfl).mpr (.inl ⟨hother.symm, rfl, ?_⟩)
            unfold ExecutionLeg.lookUp
            dsimp only at hshort
            cases hkey : keyFor sha256 instruction binding with
            | none => rfl
            | some key =>
                rw [hkey, Option.any_some] at hshort
                exact (if_neg hshort).symm
          · rw [World.At] at hat
            rw [World.stageOf, hat] at hshort
            simp only [if_neg hjob, not_true_eq_false] at hshort
      · exact absurd rfl hshort
  | _ => exact absurd rfl hshort

/-! ### What is recorded -/

theorem World.Sound.refusalAnnounced (hsound : world.Sound sha256) {transaction : Transaction}
    (h : transaction ∈ world.committed) (hjob : transaction.record.jobId = jobId)
    (hrefusal : transaction.record.outcome.isRefusal = true) : world.RefusalAnnounced jobId := by
  obtain ⟨hexecution, hannouncement, _, job, hmem, hjobId, hresult⟩ := hsound.recorded h
  have hfailed : transaction.record.outcome ≠ .succeeded := by
    intro hsucceeded
    rw [hsucceeded] at hrefusal
    cases hrefusal
  refine ⟨transaction.record, hexecution, hjob, hrefusal,
    ⟨job, hmem, hjobId.trans hjob, ?_, ?_⟩, transaction.outboxMessage, hannouncement, hjob, ?_⟩
  · rw [hresult]
    exact congrArg some (if_neg hfailed)
  · rw [hresult]
    rfl
  · exact if_neg hfailed

/-- An execution under the operation's key that is this job's is a refusal, announced. -/
theorem World.Refusing.announced (h : world.Refusing sha256 view jobId reaches)
    (hsound : world.Sound sha256) (hexecuted : world.Executed sha256 jobId)
    (hown : ∀ operation, world.Names jobId operation →
      world.ownExecutions jobId (operation.key sha256) = true) :
    world.RefusalAnnounced jobId := by
  obtain ⟨operation, hnames, hkey⟩ := hexecuted
  obtain ⟨row, hrow, hrowKey⟩ := List.mem_map.mp hkey
  have hjob := World.ownExecutions_eq_true.mp (hown operation hnames) row hrow hrowKey
  rw [hsound.executions] at hrow
  obtain ⟨transaction, htransaction, rfl⟩ := List.mem_map.mp hrow
  exact hsound.refusalAnnounced htransaction hjob (h.committed transaction htransaction hjob)

/-- A recorded job's key is its own. -/
theorem World.Sound.own_of_announced (hsound : world.Sound sha256)
    (h : world.RefusalAnnounced jobId) {operation : Operation}
    (hnames : world.Names jobId operation) :
    world.ownExecutions jobId (operation.key sha256) = true := by
  obtain ⟨record, hrecord, hjob, _⟩ := h
  refine World.ownExecutions_eq_true.mpr fun row hrow hkey => ?_
  have hmem := hrecord
  rw [hsound.executions] at hmem
  obtain ⟨transaction, htransaction, rfl⟩ := List.mem_map.mp hmem
  obtain ⟨other, hother, hotherKey⟩ :=
    hsound.begun transaction (hsound.committed transaction htransaction)
  rw [hjob] at hother
  rw [hother.unique hnames, ← hkey] at hotherKey
  rw [← world.executions.eq_of_key hrecord hrow hotherKey]
  exact hjob

/-! ### The deliveries of a run -/

/-- Over runs in which nothing fails of the deliveries of a job's command but what a missing
credential makes fail, and its organisation holds none for the capability: a delivery that
ends completes, with a refusal recorded on the job and announced, exactly where it stopped
short of the client and no other job's execution stands under the operation's key. -/
theorem missing_credential_ends_iff {actions : List Action} {last : World}
    (hrun : Machine.run (World.step sha256) {} actions = some last)
    (hundisturbed : Machine.Along (World.step sha256)
      (fun world action => world.undisturbed view secrets jobId action = true) {} actions)
    (hlacks : ∀ job parameters, Action.dispatch job parameters ∈ actions → job.jobId = jobId →
      Lacks view job.tenantId job.catalogueId)
    {message : HandledMessage} (hverdict : last.verdict id = some (command, message))
    (hjob : command.jobId = jobId) (hkind : command.kind = .execute) :
    (message.disposition = .complete ∧ last.RefusalAnnounced jobId) ↔
      Machine.Along (World.step sha256)
        (fun world action => world.stopsShort sha256 jobId id action = true) {} actions ∧
      ∀ operation, last.Names jobId operation →
        last.ownExecutions jobId (operation.key sha256) = true := by
  have hat := World.at_of_verdict hverdict
  have hquiet : ∀ {reaches : DeliveryId → Prop} {before after : List Action} {action : Action}
      {middle : World}, actions = before ++ action :: after →
      Machine.run (World.step sha256) {} before = some middle →
      (∀ id, ¬ reaches id → middle.stopsShort sha256 jobId id action = true) →
      Quiet sha256 view secrets jobId reaches middle action := by
    intro reaches before after action middle hsplit hbefore hshort
    refine ⟨?_, hshort, ?_⟩
    · rw [hsplit] at hundisturbed
      have hnow := Machine.along_at hundisturbed hbefore
      exact hnow
    · intro job parameters haction
      refine hlacks job parameters ?_
      rw [hsplit, haction]
      exact List.mem_append_right _ List.mem_cons_self
  constructor
  · rintro ⟨hcomplete, hannounced⟩
    refine ⟨Machine.along_of_forall ?_,
      fun operation hnames => (World.sound_run hrun).own_of_announced hannounced hnames⟩
    intro before action after middle hsplit hbefore
    by_contra hshort
    have halways : Machine.Along (World.step sha256)
        (Quiet sha256 view secrets jobId fun _ => True) {} actions :=
      Machine.along_of_forall fun before action after middle hsplit hbefore =>
        hquiet hsplit hbefore fun _ h => absurd trivial h
    rw [hsplit] at hrun halways
    obtain ⟨reached, hreached, hrest⟩ := Machine.run_append.mp hrun
    rw [hbefore] at hreached
    injection hreached with hreached
    rw [← hreached] at hrest
    obtain ⟨next, hnext, hrest⟩ := Machine.run_cons.mp hrest
    obtain ⟨hnow, hlater⟩ := Machine.along_cons (Machine.along_after halways hbefore) hnext
    have hstep := World.step_of_eq_some hnext
    obtain ⟨hrefusing, hsound⟩ := World.refusing_run hbefore (Machine.along_before halways)
    -- whoever the look-up let through is at the client, and stays there until it is abandoned
    obtain ⟨following, hfollowing, hclient⟩ := hstep.reaches_client hshort
    have hstays := World.atClient_run (hrefusing.step hsound hnow hstep) (hsound.step hstep)
      hfollowing hclient hrest hlater
    rcases hstays with hraised | ⟨instruction, binding, started, hcleared⟩
    · have hmessage := (hat.unique hraised).2
      injection hmessage with hmessage
      rw [hmessage] at hcomplete
      cases hcomplete
    · cases (hat.unique hcleared).2
  · rintro ⟨hshort, hown⟩
    have hnever : Machine.Along (World.step sha256)
        (Quiet sha256 view secrets jobId fun other => other ≠ id) {} actions := by
      refine Machine.along_of_forall fun before action after middle hsplit hbefore => ?_
      refine hquiet hsplit hbefore fun other hother => ?_
      rw [not_not.mp hother]
      rw [hsplit] at hshort
      have hnow := Machine.along_at hshort hbefore
      exact hnow
    obtain ⟨hrefusing, hsound⟩ := World.refusing_run hrun hnever
    rcases hrefusing.stages id command _ hat hjob hkind with ⟨hself, _⟩ | ⟨hcomplete, hexecuted⟩
    · exact absurd rfl hself
    · rw [hjob] at hexecuted
      exact ⟨hcomplete, hrefusing.announced hsound hexecuted hown⟩

end

/-! ### An organisation entitled without a credential, and one not entitled -/

/-- The row a capability is entitled with has a column for the reference, which may be
null. -/
def uncredentialed (enabled : Bool) : List TenantEntitlement :=
  [⟨⟨1⟩, "unlock_account", enabled, none⟩]

/-- A delivery of the command, up to the look-up or to a refusal of access. -/
def commanded (enabled : Bool) (id : DeliveryId) : List Action :=
  [.deliver id (some ⟨⟨5⟩, ofString "journey", .execute⟩),
   .load id sampleWorkItems [⟨⟨1⟩, .active⟩] 10,
   .evaluate id ⟨tenantEntitlementView (uncredentialed enabled), [⟨"unlock_account", 1, .action⟩]⟩
     (sampleRegistry .derivedKey)]

/-- Not entitled: the first delivery records the refusal, the second finds it recorded. -/
def refusedTwice : List Action :=
  .dispatch (sampleJob 5) "\x7b\x7d" ::
    (commanded false 0 ++ [.record 0 12 7 8 9, .statement 0, .statement 0, .statement 0,
      .statement 0, .commit 0 true] ++
    commanded false 1 ++ [.record 1 22 17 18 19, .statement 1, .rollBack 1])

theorem refusedTwice_runs :
    (Machine.run (World.step sampleSha256) {} refusedTwice).isSome = true := by
  decide +kernel

theorem refused_command_ends :
    HandledMessage.disposition ⟨.complete, ""⟩ = .complete ∧
      ((Machine.run (World.step sampleSha256) {} refusedTwice).get
        refusedTwice_runs).RefusalAnnounced ⟨5⟩ := by
  have hown : ∀ row ∈ ((Machine.run (World.step sampleSha256) {} refusedTwice).get
      refusedTwice_runs).executions.rows, row.jobId = ⟨5⟩ := by
    decide +kernel
  refine (@missing_credential_ends_iff sampleSha256
    (credentialReferenceView (uncredentialed false)) (fun _ => none) ⟨5⟩
    ⟨⟨5⟩, ofString "journey", .execute⟩ 1 _ _ (Option.some_get refusedTwice_runs).symm
    (by decide +kernel) ?_ _ (by decide +kernel) rfl rfl).mpr ⟨by decide +kernel, ?_⟩
  · exact fun _ _ _ _ row hrow => nomatch hrow
  · exact fun _ _ => World.ownExecutions_eq_true.mpr fun row hrow _ => hown row hrow

/-- Entitled: every delivery the queue makes is let through the access check, and gets no
further. -/
def abandonedEachTime : List Action :=
  .dispatch (sampleJob 5) "\x7b\x7d" ::
    (List.range 5).flatMap fun id => commanded true id ++ [.lookUp id 11, .raise id]

theorem abandonedEachTime_runs :
    (Machine.run (World.step sampleSha256) {} abandonedEachTime).isSome = true := by
  decide +kernel

theorem abandoned_each_time :
    Machine.Along (World.step sampleSha256) (fun world action => world.undisturbed
        (credentialReferenceView (uncredentialed true)) some ⟨5⟩ action = true) {}
        abandonedEachTime ∧
      (∀ id < 5, ((Machine.run (World.step sampleSha256) {} abandonedEachTime).get
        abandonedEachTime_runs).verdict id =
          some (⟨⟨5⟩, ofString "journey", .execute⟩, .transient)) ∧
      ¬ ((Machine.run (World.step sampleSha256) {} abandonedEachTime).get
        abandonedEachTime_runs).RefusalAnnounced ⟨5⟩ := by
  refine ⟨by decide +kernel, by decide +kernel, ?_⟩
  rintro ⟨record, hrecord, _⟩
  revert record
  decide +kernel

end Synthia.Integrations
