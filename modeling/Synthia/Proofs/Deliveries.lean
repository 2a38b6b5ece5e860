import Synthia.Integrations.Deliveries
import Synthia.Proofs.Authority

/-!
# What a delivery's step does

One relation says what each step reads and changes, and everything proved about
runs of deliveries is proved by cases on it. The stages between them carry what
the code carries in its locals; `Names` is the one fact about them that the job
table answers for, and it never stops holding, because nothing rewrites the
columns a key is derived from.
-/

namespace Synthia.Integrations

open Text

/-- A command's delivery stands here. -/
def World.At (world : World) (id : DeliveryId) (command : MessageEnvelope) (stage : Stage) :
    Prop :=
  world.deliveries id = some ⟨some command, stage⟩

/-- What a step does. -/
inductive Step (sha256 : List CodePoint → List CodePoint) (world : World) :
    Action → World → Prop where
  | dispatch {job : IntegrationJobRow} {parameters : String}
      (hfresh : job.jobId ∉ world.jobs.rows.map fun row => row.jobId) :
      Step sha256 world (.dispatch job parameters)
        { world with jobs := world.jobs.insert { toIntegrationJobRow := job, parameters } hfresh }
  | deliver {id : DeliveryId} {received : Option MessageEnvelope}
      (hnew : world.deliveries id = none) :
      Step sha256 world (.deliver id received)
        (world.become id ⟨received, CommandConsumer.handle received⟩)
  | load {id : DeliveryId} {workItems : WorkItemTable} {tenants : List TenantMappingRow}
      {now : Instant} {command : MessageEnvelope} (hat : world.At id command .commanded) :
      Step sha256 world (.load id workItems tenants now)
        (world.advance id command (ExecutionLeg.load world.jobs workItems tenants now command))
  | evaluate {id : DeliveryId} {catalogue : CatalogueRepository} {registry : ConnectorRegistry}
      {command : MessageEnvelope} {instruction : Instruction} {now : Instant}
      (hat : world.At id command (.loaded instruction now)) :
      Step sha256 world (.evaluate id catalogue registry)
        { world.advance id command
            (ExecutionLeg.evaluate catalogue registry command instruction now) with
          admitted := world.admitted ++ World.admissionOf id
            (ExecutionLeg.evaluate catalogue registry command instruction now) }
  | lookUp {id : DeliveryId} {started : Instant} {command : MessageEnvelope}
      {instruction : Instruction} {binding : ConnectorBinding}
      (hat : world.At id command (.admitted instruction binding)) :
      Step sha256 world (.lookUp id started)
        (world.advance id command
          (ExecutionLeg.lookUp sha256 world.executions.rows instruction binding started))
  | send {id : DeliveryId} {command : MessageEnvelope} {instruction : Instruction}
      {binding : ConnectorBinding} {started : Instant}
      (hat : world.At id command (.cleared instruction binding started)) :
      Step sha256 world (.send id)
        { world.advance id command (.awaiting instruction binding started) with
          sent := world.sent ++ [⟨id, instruction, binding, keyFor sha256 instruction binding,
            command.correlationId⟩] }
  | answer {id : DeliveryId} {answer : ExecutionLeg.Answer} {command : MessageEnvelope}
      {instruction : Instruction} {binding : ConnectorBinding} {started : Instant}
      (hat : world.At id command (.cleared instruction binding started) ∨
        world.At id command (.awaiting instruction binding started)) :
      Step sha256 world (.answer id answer)
        (world.advance id command (.concluded
          (ExecutionLeg.conclude sha256 command instruction binding started answer)))
  | record {id : DeliveryId} {completed : Instant} {executionId messageId auditId : Uuid}
      {command : MessageEnvelope} {attempt : Attempt}
      (hat : world.At id command (.concluded attempt))
      (hdrawn : ∀ other ∈ world.begun, other.record.executionId ≠ executionId ∧
        other.messageId ≠ messageId ∧ other.auditId ≠ auditId) :
      Step sha256 world (.record id completed executionId messageId auditId)
        { world.advance id command (.recording
            (attempt.transaction sha256 completed executionId messageId auditId) [] writes) with
          begun := world.begun ++
            [attempt.transaction sha256 completed executionId messageId auditId] }
  | refused {id : DeliveryId} {command : MessageEnvelope} {transaction : Transaction}
      {written left : List Write}
      (hat : world.At id command (.recording transaction written (.execution :: left)))
      (hkey : transaction.record.idempotencyKey ∈
        world.executions.rows.map fun row => row.idempotencyKey) :
      Step sha256 world (.statement id) (world.advance id command (.duplicate transaction))
  | insert {id : DeliveryId} {command : MessageEnvelope} {transaction : Transaction}
      {written left : List Write}
      (hat : world.At id command (.recording transaction written (.execution :: left)))
      (hfree : world.locked id transaction.record.idempotencyKey = false)
      (hkey : transaction.record.idempotencyKey ∉
        world.executions.rows.map fun row => row.idempotencyKey) :
      Step sha256 world (.statement id)
        { world.advance id command (.recording transaction (written ++ [.execution]) left) with
          locks := (id, transaction.record.idempotencyKey) :: world.locks }
  | statement {id : DeliveryId} {command : MessageEnvelope} {transaction : Transaction}
      {written left : List Write} {write : Write}
      (hat : world.At id command (.recording transaction written (write :: left)))
      (hwrite : write ≠ .execution) :
      Step sha256 world (.statement id)
        (world.advance id command (.recording transaction (written ++ [write]) left))
  | commit {id : DeliveryId} {acknowledged : Bool} {command : MessageEnvelope}
      {transaction : Transaction} {written : List Write} {durable : World}
      (hat : world.At id command (.recording transaction written []))
      (hdurable : world.apply transaction written = some durable) :
      Step sha256 world (.commit id acknowledged)
        { (durable.release id).advance id command
            (if acknowledged then
              .reported { executed := true, outcome := some transaction.record.outcome }
            else
              .raised) with
          committed := world.committed ++ [transaction] }
  | rollBack {id : DeliveryId} {command : MessageEnvelope} {transaction : Transaction}
      (hat : world.At id command (.duplicate transaction)) :
      Step sha256 world (.rollBack id) ((world.release id).advance id command
        (.reported { executed := false, outcome := none }))
  | raise {id : DeliveryId} {command : MessageEnvelope} {stage : Stage}
      (hat : world.At id command stage) (hrunning : stage.running = true) :
      Step sha256 world (.raise id) ((world.release id).advance id command .raised)
  | crash {id : DeliveryId} {command : MessageEnvelope} {stage : Stage}
      (hat : world.At id command stage) (hrunning : stage.running = true) :
      Step sha256 world (.crash id) ((world.release id).advance id command .lost)
  | land {request : Nat} {invocation : Invocation}
      (hsent : world.sent[request]? = some invocation) :
      Step sha256 world (.land request) { world with effects := world.effects ++ [invocation] }

section Inversion

variable {sha256 : List CodePoint → List CodePoint} {world next : World}

theorem World.stop_eq_some {id : DeliveryId} {stage : Stage}
    (h : world.stop id stage = some next) :
    ∃ command current, world.At id command current ∧ current.running = true ∧
      next = (world.release id).advance id command stage := by
  unfold World.stop at h
  split at h
  · next command current hat =>
      split at h
      · next hrunning =>
          injection h with h
          exact ⟨command, current, hat, hrunning, h.symm⟩
      · cases h
  · cases h

theorem World.record_step {id : DeliveryId} {completed : Instant}
    {executionId messageId auditId : Uuid}
    (h : world.record sha256 id completed executionId messageId auditId = some next) :
    Step sha256 world (.record id completed executionId messageId auditId) next := by
  unfold World.record at h
  split at h
  · next command attempt hat =>
      split at h
      · next hall =>
          injection h with h
          rw [← h]
          refine .record hat ?_
          intro other hother
          have hdrawn := List.all_eq_true.mp hall other hother
          rw [Bool.and_eq_true, Bool.and_eq_true, bne_iff_ne, bne_iff_ne, bne_iff_ne] at hdrawn
          exact ⟨hdrawn.1.1, hdrawn.1.2, hdrawn.2⟩
      · cases h
  · cases h

theorem World.statement_step {id : DeliveryId} (h : world.statement id = some next) :
    Step sha256 world (.statement id) next := by
  unfold World.statement at h
  split at h
  · next command transaction written write left hat =>
      dsimp only at h
      split at h
      · next hwrite =>
          rw [hwrite] at hat
          split at h
          · cases h
          · next hfree =>
              split at h
              · next hkey =>
                  injection h with h
                  rw [← h]
                  exact .refused hat hkey
              · next hkey =>
                  injection h with h
                  rw [← h, hwrite]
                  exact .insert hat (Bool.eq_false_iff.mpr hfree) hkey
      · next hwrite =>
          injection h with h
          rw [← h]
          exact .statement hat hwrite
  · cases h

theorem World.commit_step {id : DeliveryId} {acknowledged : Bool}
    (h : world.commit id acknowledged = some next) :
    Step sha256 world (.commit id acknowledged) next := by
  unfold World.commit at h
  split at h
  · next command transaction written hat =>
      obtain ⟨durable, hdurable, h⟩ := Option.bind_eq_some_iff.mp h
      injection h with h
      rw [← h]
      exact .commit hat hdurable
  · cases h

theorem World.answer_step {id : DeliveryId} {answer : ExecutionLeg.Answer}
    (h : world.answer sha256 id answer = some next) :
    Step sha256 world (.answer id answer) next := by
  unfold World.answer at h
  split at h
  · next hat =>
      injection h with h
      rw [← h]
      exact .answer (Or.inl hat)
  · next hat =>
      injection h with h
      rw [← h]
      exact .answer (Or.inr hat)
  · cases h

theorem World.step_of_eq_some {action : Action} (h : world.step sha256 action = some next) :
    Step sha256 world action next := by
  cases action with
  | dispatch job parameters =>
      change world.dispatch job parameters = _ at h
      unfold World.dispatch at h
      split at h
      · next hfresh =>
          injection h with h
          rw [← h]
          exact .dispatch hfresh
      · cases h
  | deliver id received =>
      change world.deliver id received = _ at h
      unfold World.deliver at h
      split at h
      · next hnew =>
          injection h with h
          rw [← h]
          exact .deliver (Option.isNone_iff_eq_none.mp hnew)
      · cases h
  | load id workItems tenants now =>
      change world.load id workItems tenants now = _ at h
      unfold World.load at h
      split at h
      · next hat =>
          injection h with h
          rw [← h]
          exact .load hat
      · cases h
  | evaluate id catalogue registry =>
      change world.evaluate id catalogue registry = _ at h
      unfold World.evaluate at h
      split at h
      · next hat =>
          injection h with h
          rw [← h]
          exact .evaluate hat
      · cases h
  | lookUp id started =>
      change world.lookUp sha256 id started = _ at h
      unfold World.lookUp at h
      split at h
      · next hat =>
          injection h with h
          rw [← h]
          exact .lookUp hat
      · cases h
  | send id =>
      change world.send sha256 id = _ at h
      unfold World.send at h
      split at h
      · next hat =>
          injection h with h
          rw [← h]
          exact .send hat
      · cases h
  | answer id answer => exact World.answer_step h
  | record id completed executionId messageId auditId => exact World.record_step h
  | statement id => exact World.statement_step h
  | commit id acknowledged => exact World.commit_step h
  | rollBack id =>
      change world.rollBack id = _ at h
      unfold World.rollBack at h
      split at h
      · next hat =>
          injection h with h
          rw [← h]
          exact .rollBack hat
      · cases h
  | raise id =>
      obtain ⟨command, current, hat, hrunning, rfl⟩ := World.stop_eq_some h
      exact .raise hat hrunning
  | crash id =>
      obtain ⟨command, current, hat, hrunning, rfl⟩ := World.stop_eq_some h
      exact .crash hat hrunning
  | land request =>
      obtain ⟨invocation, hget, h⟩ := Option.bind_eq_some_iff.mp h
      injection h with h
      rw [← h]
      exact .land hget

end Inversion

/-! ## Deliveries, one and the others -/

/-- A transaction writes tables, and nothing else. -/
theorem World.apply_keeps {world durable : World} {transaction : Transaction}
    {written : List Write} (h : world.apply transaction written = some durable) :
    durable.deliveries = world.deliveries ∧ durable.admitted = world.admitted ∧
      durable.sent = world.sent ∧ durable.effects = world.effects := by
  induction written generalizing world with
  | nil =>
      injection h with h
      rw [← h]
      exact ⟨rfl, rfl, rfl, rfl⟩
  | cons write written ih =>
      unfold World.apply at h
      rw [List.foldlM_cons] at h
      obtain ⟨middle, hmiddle, hrest⟩ := Option.bind_eq_some_iff.mp h
      have hwrite : middle.deliveries = world.deliveries ∧ middle.admitted = world.admitted ∧
          middle.sent = world.sent ∧ middle.effects = world.effects := by
        cases write with
        | execution =>
            dsimp only [World.write] at hmiddle
            split at hmiddle
            · injection hmiddle with hmiddle
              rw [← hmiddle]
              exact ⟨rfl, rfl, rfl, rfl⟩
            · cases hmiddle
        | announcement | audit =>
            injection hmiddle with hmiddle
            rw [← hmiddle]
            exact ⟨rfl, rfl, rfl, rfl⟩
        | result =>
            obtain ⟨jobs, _, hmiddle⟩ := Option.bind_eq_some_iff.mp hmiddle
            injection hmiddle with hmiddle
            rw [← hmiddle]
            exact ⟨rfl, rfl, rfl, rfl⟩
      obtain ⟨hdeliveries, hadmitted, hsent, heffects⟩ := ih hrest
      rw [hdeliveries, hadmitted, hsent, heffects]
      exact hwrite

section Become

variable {world next : World} {id other : DeliveryId} {command following : MessageEnvelope}
  {stage after : Stage}

/-- One delivery has moved: it stands where it was moved to, and the others stand
where they stood. -/
theorem World.at_iff {received : Option MessageEnvelope}
    (h : next.deliveries = Function.update world.deliveries id (some ⟨received, after⟩)) :
    next.At other command stage ↔
      (other = id ∧ received = some command ∧ stage = after) ∨
        (other ≠ id ∧ world.At other command stage) := by
  rw [World.At, World.At, h]
  by_cases hother : other = id
  · rw [hother, Function.update_self, Option.some.injEq, Delivery.mk.injEq]
    simp [eq_comm]
  · rw [Function.update_of_ne hother]
    simp [hother]

theorem World.At.unique (h : world.At id command stage) (h' : world.At id following after) :
    command = following ∧ stage = after := by
  rw [World.At, h] at h'
  injection h' with h'
  injection h' with hcommand hstage
  injection hcommand with hcommand
  exact ⟨hcommand, hstage⟩

/-- A step moves one delivery at most, and one that is new or under way. -/
theorem Step.moves {sha256 : List CodePoint → List CodePoint} {action : Action}
    (hstep : Step sha256 world action next) :
    next.deliveries = world.deliveries ∨
      ∃ id received after,
        next.deliveries = Function.update world.deliveries id (some ⟨received, after⟩) ∧
          (world.deliveries id = none ∨
            ∃ command stage, world.At id command stage ∧ stage.running = true) := by
  cases hstep with
  | dispatch hfresh => exact Or.inl rfl
  | deliver hnew => exact Or.inr ⟨_, _, _, rfl, Or.inl hnew⟩
  | load hat => exact Or.inr ⟨_, _, _, rfl, Or.inr ⟨_, _, hat, rfl⟩⟩
  | evaluate hat => exact Or.inr ⟨_, _, _, rfl, Or.inr ⟨_, _, hat, rfl⟩⟩
  | lookUp hat => exact Or.inr ⟨_, _, _, rfl, Or.inr ⟨_, _, hat, rfl⟩⟩
  | send hat => exact Or.inr ⟨_, _, _, rfl, Or.inr ⟨_, _, hat, rfl⟩⟩
  | answer hat =>
      rcases hat with hat | hat
      · exact Or.inr ⟨_, _, _, rfl, Or.inr ⟨_, _, hat, rfl⟩⟩
      · exact Or.inr ⟨_, _, _, rfl, Or.inr ⟨_, _, hat, rfl⟩⟩
  | record hat hdrawn => exact Or.inr ⟨_, _, _, rfl, Or.inr ⟨_, _, hat, rfl⟩⟩
  | refused hat hkey => exact Or.inr ⟨_, _, _, rfl, Or.inr ⟨_, _, hat, rfl⟩⟩
  | insert hat hfree hkey => exact Or.inr ⟨_, _, _, rfl, Or.inr ⟨_, _, hat, rfl⟩⟩
  | statement hat hwrite => exact Or.inr ⟨_, _, _, rfl, Or.inr ⟨_, _, hat, rfl⟩⟩
  | @commit id acknowledged command transaction written durable hat hdurable =>
      have hkeeps := (World.apply_keeps hdurable).1
      refine Or.inr ⟨id, some command, if acknowledged then
        .reported { executed := true, outcome := some transaction.record.outcome }
        else .raised, ?_, Or.inr ⟨_, _, hat, rfl⟩⟩
      rw [← hkeeps]
      rfl
  | rollBack hat => exact Or.inr ⟨_, _, _, rfl, Or.inr ⟨_, _, hat, rfl⟩⟩
  | raise hat hrunning => exact Or.inr ⟨_, _, _, rfl, Or.inr ⟨_, _, hat, hrunning⟩⟩
  | crash hat hrunning => exact Or.inr ⟨_, _, _, rfl, Or.inr ⟨_, _, hat, hrunning⟩⟩
  | land hsent => exact Or.inl rfl

/-- A verdict is final. -/
theorem Step.settled {sha256 : List CodePoint → List CodePoint} {action : Action}
    (hstep : Step sha256 world action next) {message : HandledMessage}
    (hat : world.At id command (.settled message)) : next.At id command (.settled message) := by
  rcases hstep.moves with hsame | ⟨moved, received, after, hupdate, hwas⟩
  · rw [World.At, hsame]
    exact hat
  · refine (World.at_iff hupdate).mpr (Or.inr ⟨?_, hat⟩)
    rintro rfl
    rcases hwas with hnone | ⟨following, stage, hstage, hrunning⟩
    · rw [World.At, hnone] at hat
      cases hat
    · rw [← (hat.unique hstage).2] at hrunning
      cases hrunning

end Become

/-! ## What the job row answers for -/

/-- The job table has this row, and it is about this operation. -/
def World.Names (world : World) (jobId : IntegrationJobId) (operation : Operation) : Prop :=
  ∃ job ∈ world.jobs.rows, job.jobId = jobId ∧ operationOf job.toIntegrationJobRow = operation

/-- An instruction is the one its command names. -/
def World.Follows (world : World) (command : MessageEnvelope) (instruction : Instruction) :
    Prop :=
  instruction.jobId = command.jobId ∧ world.Names command.jobId instruction.operation

theorem World.Names.unique {world : World} {jobId : IntegrationJobId}
    {operation other : Operation} (h : world.Names jobId operation)
    (h' : world.Names jobId other) : operation = other := by
  obtain ⟨job, hjob, hjobId, rfl⟩ := h
  obtain ⟨job', hjob', hjobId', rfl⟩ := h'
  rw [world.jobs.eq_of_key hjob hjob' (hjobId.trans hjobId'.symm)]

/-- An instruction is read from its job's row, and the rows that row names. -/
theorem Instruction.load_row {jobs : JobTable} {workItems : WorkItemTable}
    {tenants : List TenantMappingRow} {jobId : IntegrationJobId} {instruction : Instruction}
    (h : Instruction.load jobs workItems tenants jobId = .ok (some instruction)) :
    ∃ job ∈ jobs.rows, job.jobId = jobId ∧ ∃ work tenant,
      instruction.toJobInstruction = JobInstruction.ofRows job.toIntegrationJobRow work tenant := by
  unfold Instruction.load at h
  split at h
  · next loaded job hload _ =>
      split at h
      · cases h
      · split at h
        · cases h
        · injection h with h
          injection h with h
          obtain ⟨row, hrow, work, _, tenant, _, hjobId, _, _, rfl⟩ := load_rows hload
          obtain ⟨found, hfound, rfl⟩ := List.mem_map.mp hrow
          rw [← h]
          exact ⟨found, hfound, hjobId, work, tenant, rfl⟩
  · cases h

theorem Instruction.load_names {world : World} {workItems : WorkItemTable}
    {tenants : List TenantMappingRow} {jobId : IntegrationJobId} {instruction : Instruction}
    (h : Instruction.load world.jobs workItems tenants jobId = .ok (some instruction)) :
    instruction.jobId = jobId ∧ world.Names jobId instruction.operation := by
  obtain ⟨job, hmem, hjobId, work, tenant, hrows⟩ := Instruction.load_row h
  rw [Instruction.operation, hrows]
  exact ⟨hjobId, job, hmem, hjobId, rfl⟩

end Synthia.Integrations
