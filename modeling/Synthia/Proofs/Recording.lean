import Synthia.Proofs.Deliveries
import Synthia.Proofs.Keys

/-!
# Recorded whole or not at all

The four tables the transaction of `_record` writes are, row for row, the
transactions that committed: the statements are issued in one order, the commit
comes after the last, and every other way out of the transaction discards what it
had written. That every transaction carries the key of its job's operation, and
that the keys of executions are unique, is what keeps a job row from being
answered twice.
-/

namespace Synthia.Integrations

open Text

/-- What a stage owes the job row its command names: an instruction says what the
row says, and what is about to be recorded carries the key derived from it. -/
def Stage.Sound (sha256 : List CodePoint → List CodePoint) (world : World)
    (command : MessageEnvelope) : Stage → Prop
  | .commanded | .settled _ | .lost => True
  | .loaded instruction _ | .admitted instruction _ | .cleared instruction _ _
  | .awaiting instruction _ _ => world.Follows command instruction
  | .concluded attempt =>
      world.Follows command attempt.instruction ∧
        ∀ key, attempt.key = some key → key = attempt.instruction.operation.key sha256
  | .recording transaction written left =>
      transaction ∈ world.begun ∧ transaction.record.jobId = command.jobId ∧
        written ++ left = writes
  | .duplicate transaction =>
      transaction ∈ world.begun ∧ transaction.record.jobId = command.jobId

structure World.Sound (sha256 : List CodePoint → List CodePoint) (world : World) : Prop where
  stages : ∀ id command stage, world.At id command stage → stage.Sound sha256 world command
  begun : ∀ transaction ∈ world.begun, ∃ operation,
    world.Names transaction.record.jobId operation ∧
      transaction.record.idempotencyKey = operation.key sha256
  /-- No two transactions share an identifier. -/
  executionIds : (world.begun.map fun transaction => transaction.record.executionId).Nodup
  messageIds : (world.begun.map Transaction.messageId).Nodup
  auditIds : (world.begun.map Transaction.auditId).Nodup
  /-- The tables are the committed transactions, row for row. -/
  committed : ∀ transaction ∈ world.committed, transaction ∈ world.begun
  executions : world.executions.rows = world.committed.map Transaction.record
  outbox : world.outbox = world.committed.map Transaction.outboxMessage
  audit : world.audit = world.committed.map Transaction.auditEvent
  /-- A job row is unanswered, or answered by the transaction that names it. -/
  results : ∀ job ∈ world.jobs.rows,
    (job.result = {} ∧ ∀ transaction ∈ world.committed,
      transaction.record.jobId ≠ job.jobId) ∨
      ∃ transaction ∈ world.committed, transaction.record.jobId = job.jobId ∧
        job.result = transaction.result

section

variable {sha256 : List CodePoint → List CodePoint} {world next : World}
  {command : MessageEnvelope}

theorem Stage.Sound.mono {stage : Stage} (h : stage.Sound sha256 world command)
    (hnames : ∀ jobId operation, world.Names jobId operation → next.Names jobId operation)
    (hbegun : ∀ transaction ∈ world.begun, transaction ∈ next.begun) :
    stage.Sound sha256 next command := by
  cases stage with
  | commanded | settled | lost => trivial
  | loaded | admitted | cleared | awaiting => exact ⟨h.1, hnames _ _ h.2⟩
  | concluded attempt => exact ⟨⟨h.1.1, hnames _ _ h.1.2⟩, h.2⟩
  | recording transaction written left => exact ⟨hbegun _ h.1, h.2⟩
  | duplicate transaction => exact ⟨hbegun _ h.1, h.2⟩

/-! ## Each stage follows from the one before -/

theorem ExecutionLeg.load_sound {workItems : WorkItemTable} {tenants : List TenantMappingRow}
    {now : Instant} :
    (ExecutionLeg.load world.jobs workItems tenants now command).Sound sha256 world command := by
  unfold ExecutionLeg.load
  split
  · trivial
  · trivial
  · next instruction hload =>
      have hfollows : world.Follows command instruction := Instruction.load_names hload
      split
      · exact ⟨hfollows, fun _ h => nomatch h⟩
      · exact hfollows

theorem ExecutionLeg.evaluate_sound {catalogue : CatalogueRepository}
    {registry : ConnectorRegistry} {instruction : Instruction} {now : Instant}
    (h : world.Follows command instruction) :
    (ExecutionLeg.evaluate catalogue registry command instruction now).Sound sha256 world
      command := by
  unfold ExecutionLeg.evaluate
  dsimp only
  split
  · exact ⟨h, fun _ h => nomatch h⟩
  · split
    · exact h
    · trivial

theorem ExecutionLeg.lookUp_sound {instruction : Instruction} {binding : ConnectorBinding}
    {started : Instant} (h : world.Follows command instruction) :
    (ExecutionLeg.lookUp sha256 world.executions.rows instruction binding started).Sound sha256
      world command := by
  unfold ExecutionLeg.lookUp
  split
  · split
    · trivial
    · exact h
  · exact h

theorem eq_key_of_keyFor {instruction : Instruction} {binding : ConnectorBinding}
    {key : List CodePoint} (h : keyFor sha256 instruction binding = some key) :
    key = instruction.operation.key sha256 := by
  unfold keyFor at h
  split at h
  · injection h with h
    exact h.symm
  · cases h

theorem ExecutionLeg.conclude_sound {instruction : Instruction} {binding : ConnectorBinding}
    {started : Instant} {answer : ExecutionLeg.Answer}
    (h : world.Follows command instruction) :
    (Stage.concluded (ExecutionLeg.conclude sha256 command instruction binding started
      answer)).Sound sha256 world command := by
  cases answer with
  | returned succeeded externalReference payload => exact ⟨h, fun _ => eq_key_of_keyFor⟩
  | egressError => exact ⟨h, fun _ h => nomatch h⟩
  | boundaryValidationError => exact ⟨h, fun _ h => nomatch h⟩

theorem Stage.Sound.statement {transaction : Transaction} {written left : List Write}
    {write : Write}
    (h : (Stage.recording transaction written (write :: left)).Sound sha256 world command) :
    (Stage.recording transaction (written ++ [write]) left).Sound sha256 world command := by
  obtain ⟨hbegun, hjobId, hwrites⟩ := h
  refine ⟨hbegun, hjobId, ?_⟩
  rw [List.append_assoc]
  exact hwrites

/-- Whatever key `_record` was called with, the record carries the derived one. -/
theorem Attempt.idempotencyKey_transaction {attempt : Attempt} {completed : Instant}
    {executionId messageId auditId : Uuid}
    (h : ∀ key, attempt.key = some key → key = attempt.instruction.operation.key sha256) :
    (attempt.transaction sha256 completed executionId messageId auditId).record.idempotencyKey =
      attempt.instruction.operation.key sha256 := by
  show (attempt.key.filter fun key => !key.isEmpty).getD _ = _
  cases hkey : attempt.key with
  | none => rfl
  | some key =>
      rw [Option.filter_some]
      split
      · exact h key hkey
      · rfl

/-! ## The commit -/

/-- The four writes, made durable together. -/
theorem World.apply_writes {transaction : Transaction} {durable : World}
    (h : world.apply transaction writes = some durable) :
    ∃ hfresh, durable = { world with
      executions := world.executions.insert transaction.record hfresh
      outbox := world.outbox ++ [transaction.outboxMessage]
      audit := world.audit ++ [transaction.auditEvent]
      jobs := world.jobs.update (fun job => job.jobId == transaction.record.jobId)
        (writeResult transaction.result) } := by
  unfold World.apply writes at h
  rw [List.foldlM_cons] at h
  obtain ⟨inserted, hinserted, h⟩ := Option.bind_eq_some_iff.mp h
  dsimp only [World.write] at hinserted
  split at hinserted
  · next hfresh =>
      injection hinserted with hinserted
      refine ⟨hfresh, ?_⟩
      rw [← hinserted] at h
      simp only [List.foldlM_cons, List.foldlM_nil, World.write, JobRepository.recordResult_eq,
        Option.bind_eq_bind, Option.bind_some, Option.pure_def, Option.some.injEq] at h
      exact h.symm
  · cases hinserted

theorem World.Names.insert {jobId : IntegrationJobId} {operation : Operation}
    (h : world.Names jobId operation) {job : IntegrationJob}
    {hfresh : job.jobId ∉ world.jobs.rows.map fun row => row.jobId} :
    World.Names { world with jobs := world.jobs.insert job hfresh } jobId operation := by
  obtain ⟨row, hrow, hnames⟩ := h
  exact ⟨row, List.mem_append.mpr (Or.inl hrow), hnames⟩

/-- An answer leaves a job row about what it was about. -/
theorem World.Names.update {jobId answered : IntegrationJobId} {operation : Operation}
    (h : world.Names jobId operation) {columns : ResultColumns} :
    World.Names { world with
      jobs := world.jobs.update (fun job => job.jobId == answered) (writeResult columns) }
      jobId operation := by
  obtain ⟨row, hrow, hjobId, hoperation⟩ := h
  refine ⟨_, Relational.mem_updateRows.mpr ⟨row, hrow, rfl⟩, ?_⟩
  split
  · exact ⟨hjobId, hoperation⟩
  · exact ⟨hjobId, hoperation⟩

/-- Two committed transactions of one job are one. -/
theorem World.Sound.committed_unique (hsound : world.Sound sha256) {first second : Transaction}
    (hfirst : first ∈ world.committed) (hsecond : second ∈ world.committed)
    (hjob : first.record.jobId = second.record.jobId) : first = second := by
  obtain ⟨operation, hnames, hkey⟩ := hsound.begun _ (hsound.committed _ hfirst)
  obtain ⟨other, hnames', hkey'⟩ := hsound.begun _ (hsound.committed _ hsecond)
  rw [hjob] at hnames
  rw [← hnames.unique hnames'] at hkey'
  have hunique : (world.committed.map fun transaction =>
      transaction.record.idempotencyKey).Nodup := by
    have := world.executions.unique
    rw [hsound.executions, List.map_map] at this
    exact this
  exact List.inj_on_of_nodup_map hunique hfirst hsecond (hkey.trans hkey'.symm)

/-! ## Preservation -/

theorem World.sound_start : World.Sound sha256 {} where
  stages _ _ _ h := nomatch h
  begun _ h := absurd h List.not_mem_nil
  executionIds := List.nodup_nil
  messageIds := List.nodup_nil
  auditIds := List.nodup_nil
  committed _ h := absurd h List.not_mem_nil
  executions := rfl
  outbox := rfl
  audit := rfl
  results _ h := absurd h List.not_mem_nil

/-- A delivery moves, and nothing durable does. -/
theorem World.Sound.moved (hsound : world.Sound sha256) {id : DeliveryId}
    {received : Option MessageEnvelope} {after : Stage}
    (locks : List (DeliveryId × List CodePoint)) (admitted : List Admission)
    (sent effects : List Invocation)
    (hafter : ∀ command, received = some command → after.Sound sha256 world command) :
    World.Sound sha256 { world with
      deliveries := Function.update world.deliveries id (some ⟨received, after⟩)
      locks, admitted, sent, effects } := by
  refine ⟨?_, hsound.begun, hsound.executionIds, hsound.messageIds, hsound.auditIds,
    hsound.committed, hsound.executions, hsound.outbox, hsound.audit, hsound.results⟩
  intro other command stage hat
  have hkeep : ∀ {stage : Stage}, stage.Sound sha256 world command →
      stage.Sound sha256 { world with
        deliveries := Function.update world.deliveries id (some ⟨received, after⟩)
        locks, admitted, sent, effects } command :=
    fun h => h.mono (fun _ _ h => h) fun _ h => h
  rcases (World.at_iff rfl).mp hat with ⟨_, hreceived, rfl⟩ | ⟨_, hold⟩
  · exact hkeep (hafter command hreceived)
  · exact hkeep (hsound.stages other command stage hold)

/-- A command's delivery moves on, and nothing durable does. -/
theorem World.Sound.advanced (hsound : world.Sound sha256) {id : DeliveryId} {after : Stage}
    (locks : List (DeliveryId × List CodePoint)) (admitted : List Admission)
    (sent effects : List Invocation) (hafter : after.Sound sha256 world command) :
    World.Sound sha256 { world.advance id command after with
      locks, admitted, sent, effects } := by
  refine hsound.moved locks admitted sent effects ?_
  intro following hfollowing
  injection hfollowing with hfollowing
  rw [← hfollowing]
  exact hafter

theorem World.Sound.dispatch (hsound : world.Sound sha256) {job : IntegrationJob}
    (hresult : job.result = {})
    (hfresh : job.jobId ∉ world.jobs.rows.map fun row => row.jobId) :
    World.Sound sha256 { world with jobs := world.jobs.insert job hfresh } := by
  refine ⟨?_, ?_, hsound.executionIds, hsound.messageIds, hsound.auditIds,
    hsound.committed, hsound.executions, hsound.outbox, hsound.audit, ?_⟩
  · intro id command stage hat
    exact (hsound.stages id command stage hat).mono (fun _ _ h => h.insert) fun _ h => h
  · intro transaction htransaction
    obtain ⟨operation, hnames, hkey⟩ := hsound.begun transaction htransaction
    exact ⟨operation, hnames.insert, hkey⟩
  · intro row hrow
    rcases List.mem_append.mp hrow with hold | hnew
    · exact hsound.results row hold
    · rw [List.mem_singleton.mp hnew]
      refine Or.inl ⟨hresult, ?_⟩
      intro transaction htransaction hjobId
      obtain ⟨_, ⟨named, hnamed, hnamedId, _⟩, _⟩ :=
        hsound.begun transaction (hsound.committed transaction htransaction)
      exact hfresh (List.mem_map.mpr ⟨named, hnamed, hnamedId.trans hjobId⟩)

/-- A new identifier on a list of different ones. -/
theorem nodup_map_append {column : Transaction → Uuid} {transactions : List Transaction}
    {transaction : Transaction} (hnodup : (transactions.map column).Nodup)
    (hfresh : ∀ other ∈ transactions, column other ≠ column transaction) :
    ((transactions ++ [transaction]).map column).Nodup := by
  rw [List.map_append, List.map_singleton, List.nodup_append]
  refine ⟨hnodup, List.nodup_singleton _, ?_⟩
  intro value hvalue other hother heq
  obtain ⟨old, hold, rfl⟩ := List.mem_map.mp hvalue
  exact hfresh old hold (heq.trans (List.mem_singleton.mp hother))

theorem World.Sound.record (hsound : world.Sound sha256) {id : DeliveryId}
    {command : MessageEnvelope} {attempt : Attempt} {completed : Instant}
    {executionId messageId auditId : Uuid}
    (hat : world.At id command (.concluded attempt))
    (hdrawn : ∀ other ∈ world.begun, other.record.executionId ≠ executionId ∧
      other.messageId ≠ messageId ∧ other.auditId ≠ auditId) :
    World.Sound sha256 { world.advance id command (.recording
        (attempt.transaction sha256 completed executionId messageId auditId) [] writes) with
      begun := world.begun ++
        [attempt.transaction sha256 completed executionId messageId auditId] } := by
  obtain ⟨⟨hjobId, hnames⟩, hkey⟩ := hsound.stages id command _ hat
  refine ⟨?_, ?_, nodup_map_append hsound.executionIds fun other h => (hdrawn other h).1,
    nodup_map_append hsound.messageIds fun other h => (hdrawn other h).2.1,
    nodup_map_append hsound.auditIds fun other h => (hdrawn other h).2.2, ?_,
    hsound.executions, hsound.outbox, hsound.audit, hsound.results⟩
  · intro other following stage hother
    rcases (World.at_iff rfl).mp hother with ⟨_, hreceived, rfl⟩ | ⟨_, hold⟩
    · injection hreceived with hreceived
      rw [← hreceived]
      exact ⟨List.mem_append.mpr (Or.inr List.mem_cons_self), hjobId, rfl⟩
    · exact (hsound.stages other following stage hold).mono (fun _ _ h => h)
        fun _ h => List.mem_append.mpr (Or.inl h)
  · intro transaction htransaction
    rcases List.mem_append.mp htransaction with hold | hnew
    · exact hsound.begun transaction hold
    · rw [List.mem_singleton.mp hnew]
      refine ⟨attempt.instruction.operation, ?_, Attempt.idempotencyKey_transaction hkey⟩
      show world.Names attempt.instruction.jobId _
      rw [hjobId]
      exact hnames
  · intro transaction htransaction
    exact List.mem_append.mpr (Or.inl (hsound.committed transaction htransaction))

theorem World.Sound.commit (hsound : world.Sound sha256) {id : DeliveryId}
    {command : MessageEnvelope} {transaction : Transaction} {written : List Write}
    {durable : World} {after : Stage}
    (hat : world.At id command (.recording transaction written []))
    (hdurable : world.apply transaction written = some durable)
    (hafter : ∀ world : World, after.Sound sha256 world command) :
    World.Sound sha256 { (durable.release id).advance id command after with
      committed := world.committed ++ [transaction] } := by
  obtain ⟨hbegun, hjobId, hwritten⟩ := hsound.stages id command _ hat
  rw [List.append_nil] at hwritten
  rw [hwritten] at hdurable
  obtain ⟨hfresh, rfl⟩ := World.apply_writes hdurable
  have hnew : ∀ old ∈ world.committed, old.record.jobId ≠ transaction.record.jobId := by
    intro old hold hjob
    obtain ⟨operation, hnames, hkey⟩ := hsound.begun transaction hbegun
    obtain ⟨other, hnames', hkey'⟩ := hsound.begun old (hsound.committed old hold)
    rw [hjob] at hnames'
    rw [← hnames.unique hnames', ← hkey] at hkey'
    refine hfresh (List.mem_map.mpr ⟨old.record, ?_, hkey'⟩)
    rw [hsound.executions]
    exact List.mem_map_of_mem hold
  refine ⟨?_, ?_, hsound.executionIds, hsound.messageIds, hsound.auditIds, ?_, ?_, ?_, ?_, ?_⟩
  · intro other following stage hother
    rcases (World.at_iff rfl).mp hother with ⟨_, hreceived, rfl⟩ | ⟨_, hold⟩
    · injection hreceived with hreceived
      rw [← hreceived]
      exact hafter _
    · exact (hsound.stages other following stage hold).mono (fun _ _ h => h.update)
        fun _ h => h
  · intro other hother
    obtain ⟨operation, hnames, hkey⟩ := hsound.begun other hother
    exact ⟨operation, hnames.update, hkey⟩
  · intro other hother
    rcases List.mem_append.mp hother with hold | hlast
    · exact hsound.committed other hold
    · rw [List.mem_singleton.mp hlast]
      exact hbegun
  · show world.executions.rows ++ [transaction.record] = _
    rw [hsound.executions, List.map_append, List.map_singleton]
  · show world.outbox ++ [transaction.outboxMessage] = _
    rw [hsound.outbox, List.map_append, List.map_singleton]
  · show world.audit ++ [transaction.auditEvent] = _
    rw [hsound.audit, List.map_append, List.map_singleton]
  · intro job hjob
    obtain ⟨row, hrow, rfl⟩ := Relational.mem_updateRows.mp hjob
    split
    · next hselected =>
        refine Or.inr ⟨transaction, List.mem_append.mpr (Or.inr List.mem_cons_self), ?_, rfl⟩
        exact (beq_iff_eq.mp hselected).symm
    · next hother =>
        rcases hsound.results row hrow with ⟨hempty, hnone⟩ | ⟨old, hold, hresult⟩
        · refine Or.inl ⟨hempty, ?_⟩
          intro other hmem
          rcases List.mem_append.mp hmem with hold | hlast
          · exact hnone other hold
          · rw [List.mem_singleton.mp hlast]
            exact fun h => hother (beq_iff_eq.mpr h.symm)
        · exact Or.inr ⟨old, List.mem_append.mpr (Or.inl hold), hresult⟩

theorem World.Sound.step (hsound : world.Sound sha256) {action : Action}
    (hstep : Step sha256 world action next) : next.Sound sha256 := by
  cases hstep with
  | dispatch hfresh => exact hsound.dispatch rfl hfresh
  | @deliver id received hnew =>
      refine hsound.moved _ _ _ _ ?_
      intro command hreceived
      rw [hreceived, CommandConsumer.handle]
      split
      · trivial
      · trivial
  | load hat => exact hsound.advanced _ _ _ _ ExecutionLeg.load_sound
  | evaluate hat =>
      exact hsound.advanced _ _ _ _ (ExecutionLeg.evaluate_sound (hsound.stages _ _ _ hat))
  | lookUp hat =>
      exact hsound.advanced _ _ _ _ (ExecutionLeg.lookUp_sound (hsound.stages _ _ _ hat))
  | send hat =>
      have hfollows := hsound.stages _ _ _ hat
      exact hsound.advanced _ _ _ _ hfollows
  | answer hat =>
      refine hsound.advanced _ _ _ _ ?_
      rcases hat with hat | hat
      · exact ExecutionLeg.conclude_sound (hsound.stages _ _ _ hat)
      · exact ExecutionLeg.conclude_sound (hsound.stages _ _ _ hat)
  | record hat hdrawn => exact hsound.record hat hdrawn
  | refused hat hkey =>
      obtain ⟨hbegun, hjobId, _⟩ := hsound.stages _ _ _ hat
      exact hsound.advanced _ _ _ _ ⟨hbegun, hjobId⟩
  | insert hat hfree hkey =>
      exact hsound.advanced _ _ _ _ (Stage.Sound.statement (hsound.stages _ _ _ hat))
  | statement hat hwrite =>
      exact hsound.advanced _ _ _ _ (Stage.Sound.statement (hsound.stages _ _ _ hat))
  | commit hat hdurable =>
      refine hsound.commit hat hdurable ?_
      intro _
      split
      · trivial
      · trivial
  | rollBack hat => exact hsound.advanced _ _ _ _ trivial
  | raise hat hrunning => exact hsound.advanced _ _ _ _ trivial
  | crash hat hrunning => exact hsound.advanced _ _ _ _ trivial
  | land hsent =>
      refine ⟨?_, hsound.begun, hsound.executionIds, hsound.messageIds, hsound.auditIds,
        hsound.committed, hsound.executions, hsound.outbox, hsound.audit, hsound.results⟩
      intro id command stage hat
      exact (hsound.stages id command stage hat).mono (fun _ _ h => h) fun _ h => h

theorem World.sound_run {actions : List Action}
    (hrun : Machine.run (World.step sha256) {} actions = some next) : next.Sound sha256 :=
  Machine.invariant_run (fun _ _ _ hsound hstep => hsound.step (World.step_of_eq_some hstep))
    World.sound_start hrun

/-! ## Why a commit is not refused

An insert waits for whoever holds its key. So a transaction that has inserted is the
only one holding that key, nobody has committed it, and the check its commit makes
again finds nothing. -/

/-- The transaction a delivery is in. -/
def Stage.transaction : Stage → Option Transaction
  | .recording transaction _ _ | .duplicate transaction => some transaction
  | _ => none

theorem CommandConsumer.transaction_handle (received : Option MessageEnvelope) :
    (CommandConsumer.handle received).transaction = none := by
  unfold CommandConsumer.handle
  split
  · rfl
  · split
    · rfl
    · rfl

theorem ExecutionLeg.transaction_load {jobs : JobTable} {workItems : WorkItemTable}
    {tenants : List TenantMappingRow} {now : Instant} :
    (ExecutionLeg.load jobs workItems tenants now command).transaction = none := by
  unfold ExecutionLeg.load
  split
  · rfl
  · rfl
  · split
    · rfl
    · rfl

theorem ExecutionLeg.transaction_evaluate {catalogue : CatalogueRepository}
    {registry : ConnectorRegistry} {instruction : Instruction} {now : Instant} :
    (ExecutionLeg.evaluate catalogue registry command instruction now).transaction = none := by
  unfold ExecutionLeg.evaluate
  dsimp only
  split
  · rfl
  · split
    · rfl
    · rfl

theorem ExecutionLeg.transaction_lookUp {executions : List ExecutionRecord}
    {instruction : Instruction} {binding : ConnectorBinding} {started : Instant} :
    (ExecutionLeg.lookUp sha256 executions instruction binding started).transaction = none := by
  unfold ExecutionLeg.lookUp
  split
  · split
    · rfl
    · rfl
  · rfl

structure World.Held (world : World) : Prop where
  inserted : ∀ id command transaction written left,
    world.At id command (.recording transaction written left) → .execution ∈ written →
      (id, transaction.record.idempotencyKey) ∈ world.locks ∧
        transaction.record.idempotencyKey ∉
          world.executions.rows.map fun row => row.idempotencyKey
  alone : ∀ id other key, (id, key) ∈ world.locks → (other, key) ∈ world.locks → id = other

theorem World.held_start : World.Held {} where
  inserted _ _ _ _ _ h := nomatch h
  alone _ _ _ h := absurd h List.not_mem_nil

/-- One delivery moves and takes no lock. -/
theorem World.Held.moved (h : world.Held) {id : DeliveryId}
    {received : Option MessageEnvelope} {after : Stage}
    (hdeliveries : next.deliveries =
      Function.update world.deliveries id (some ⟨received, after⟩))
    (hexecutions : next.executions = world.executions)
    (hkept : ∀ lock ∈ world.locks, lock.1 ≠ id → lock ∈ next.locks)
    (hold : ∀ lock ∈ next.locks, lock ∈ world.locks)
    (hafter : ∀ transaction written left, after = .recording transaction written left →
      .execution ∈ written → (id, transaction.record.idempotencyKey) ∈ next.locks ∧
        transaction.record.idempotencyKey ∉
          world.executions.rows.map fun row => row.idempotencyKey) : next.Held := by
  refine ⟨?_, fun first second key hfirst hsecond =>
    h.alone first second key (hold _ hfirst) (hold _ hsecond)⟩
  intro other command transaction written left hat hwritten
  rw [hexecutions]
  rcases (World.at_iff hdeliveries).mp hat with ⟨hother, _, hstage⟩ | ⟨hother, hbefore⟩
  · rw [hother]
    exact hafter transaction written left hstage.symm hwritten
  · obtain ⟨hlock, hfresh⟩ := h.inserted other command transaction written left hbefore hwritten
    exact ⟨hkept _ hlock hother, hfresh⟩

/-- One delivery moves to where it is in no transaction, and gives up what it held
or held nothing. -/
theorem World.Held.released (h : world.Held) {id : DeliveryId}
    {received : Option MessageEnvelope} {after : Stage}
    (hdeliveries : next.deliveries =
      Function.update world.deliveries id (some ⟨received, after⟩))
    (hexecutions : next.executions = world.executions)
    (hlocks : next.locks = world.locks ∨
      next.locks = world.locks.filter fun lock => lock.1 != id)
    (hafter : after.transaction = none) : next.Held := by
  refine h.moved hdeliveries hexecutions ?_ ?_ ?_
  · intro lock hlock hother
    rcases hlocks with hsame | hfiltered
    · rw [hsame]
      exact hlock
    · rw [hfiltered]
      exact List.mem_filter.mpr ⟨hlock, bne_iff_ne.mpr hother⟩
  · intro lock hlock
    rcases hlocks with hsame | hfiltered
    · rw [hsame] at hlock
      exact hlock
    · rw [hfiltered] at hlock
      exact List.mem_of_mem_filter hlock
  · intro transaction written left hstage _
    rw [hstage] at hafter
    cases hafter

theorem World.Held.insert (h : world.Held) {id : DeliveryId} {transaction : Transaction}
    {written left : List Write}
    (hfree : world.locked id transaction.record.idempotencyKey = false)
    (hkey : transaction.record.idempotencyKey ∉
      world.executions.rows.map fun row => row.idempotencyKey) :
    World.Held { world.advance id command (.recording transaction written left) with
      locks := (id, transaction.record.idempotencyKey) :: world.locks } := by
  -- whoever holds this key already is this delivery
  have hself : ∀ other, (other, transaction.record.idempotencyKey) ∈ world.locks →
      other = id := by
    intro other hlock
    rw [World.locked, List.any_eq_false] at hfree
    by_contra hother
    refine hfree _ hlock ?_
    rw [Bool.and_eq_true, bne_iff_ne]
    exact ⟨hother, beq_self_eq_true _⟩
  refine ⟨?_, ?_⟩
  · intro other following begun written' left' hat hwritten
    rcases (World.at_iff rfl).mp hat with ⟨rfl, _, hstage⟩ | ⟨_, hbefore⟩
    · injection hstage with hbegun
      rw [hbegun]
      exact ⟨List.mem_cons_self, hkey⟩
    · obtain ⟨hlock, hfresh⟩ := h.inserted other following begun written' left' hbefore hwritten
      exact ⟨List.mem_cons_of_mem _ hlock, hfresh⟩
  · intro first second key hfirst hsecond
    rcases List.mem_cons.mp hfirst with heq | hfirst
    · injection heq with hid hsame
      rcases List.mem_cons.mp hsecond with heq' | hsecond
      · injection heq' with hid' _
        exact hid.trans hid'.symm
      · rw [hsame] at hsecond
        exact hid.trans (hself second hsecond).symm
    · rcases List.mem_cons.mp hsecond with heq' | hsecond
      · injection heq' with hid' hsame
        rw [hsame] at hfirst
        exact (hself first hfirst).trans hid'.symm
      · exact h.alone first second key hfirst hsecond

theorem World.Held.commit (h : world.Held) {id : DeliveryId} {transaction : Transaction}
    {durable : World} {after : Stage}
    (hat : world.At id command (.recording transaction writes []))
    (hdurable : world.apply transaction writes = some durable)
    (hafter : ∀ transaction written left, after ≠ .recording transaction written left) :
    World.Held { (durable.release id).advance id command after with
      committed := world.committed ++ [transaction] } := by
  obtain ⟨hfresh, rfl⟩ := World.apply_writes hdurable
  refine ⟨?_, fun first second key hfirst hsecond =>
    h.alone first second key (List.mem_of_mem_filter hfirst) (List.mem_of_mem_filter hsecond)⟩
  intro other following begun written left hother hwritten
  rcases (World.at_iff rfl).mp hother with ⟨_, _, hstage⟩ | ⟨hdiffer, hbefore⟩
  · exact absurd hstage.symm (hafter begun written left)
  · obtain ⟨hlock, hbegun⟩ := h.inserted other following begun written left hbefore hwritten
    refine ⟨List.mem_filter.mpr ⟨hlock, bne_iff_ne.mpr hdiffer⟩, ?_⟩
    show _ ∉ (world.executions.rows ++ [transaction.record]).map _
    rw [List.map_append, List.map_singleton, List.mem_append, List.mem_singleton]
    intro hmem
    rcases hmem with hold | hsame
    · exact hbegun hold
    · -- both would hold one key
      obtain ⟨hmine, _⟩ := h.inserted id command transaction writes [] hat List.mem_cons_self
      rw [hsame] at hlock
      exact hdiffer (h.alone other id _ hlock hmine)

theorem World.Held.step (h : world.Held) (hsound : world.Sound sha256) {action : Action}
    (hstep : Step sha256 world action next) : next.Held := by
  cases hstep with
  | dispatch hfresh => exact ⟨h.inserted, h.alone⟩
  | deliver hnew =>
      exact h.released rfl rfl (Or.inl rfl) (CommandConsumer.transaction_handle _)
  | load hat => exact h.released rfl rfl (Or.inl rfl) ExecutionLeg.transaction_load
  | evaluate hat => exact h.released rfl rfl (Or.inl rfl) ExecutionLeg.transaction_evaluate
  | lookUp hat => exact h.released rfl rfl (Or.inl rfl) ExecutionLeg.transaction_lookUp
  | send hat => exact h.released rfl rfl (Or.inl rfl) rfl
  | answer hat => exact h.released rfl rfl (Or.inl rfl) rfl
  | record hat hdrawn =>
      refine h.moved rfl rfl (fun _ hlock _ => hlock) (fun _ hlock => hlock) ?_
      intro transaction written left hstage hwritten
      injection hstage with _ hnothing
      rw [← hnothing] at hwritten
      exact absurd hwritten List.not_mem_nil
  | refused hat hkey =>
      exact h.moved rfl rfl (fun _ hlock _ => hlock) (fun _ hlock => hlock)
        fun _ _ _ hstage => nomatch hstage
  | insert hat hfree hkey => exact h.insert hfree hkey
  | @statement id command transaction written left write hat hwrite =>
      refine h.moved rfl rfl (fun _ hlock _ => hlock) (fun _ hlock => hlock) ?_
      intro other after' left' hstage hwritten
      injection hstage with htransaction hafter
      rw [← hafter] at hwritten
      rw [← htransaction]
      rcases List.mem_append.mp hwritten with hbefore | hnew
      · exact h.inserted id command transaction written (write :: left) hat hbefore
      · exact absurd (List.mem_singleton.mp hnew).symm hwrite
  | commit hat hdurable =>
      obtain ⟨_, _, hwritten⟩ := hsound.stages _ _ _ hat
      rw [List.append_nil] at hwritten
      rw [hwritten] at hat hdurable
      refine h.commit hat hdurable ?_
      intro transaction written left
      split
      · exact nofun
      · exact nofun
  | rollBack hat => exact h.released rfl rfl (Or.inr rfl) rfl
  | raise hat hrunning => exact h.released rfl rfl (Or.inr rfl) rfl
  | crash hat hrunning => exact h.released rfl rfl (Or.inr rfl) rfl
  | land hsent => exact ⟨h.inserted, h.alone⟩

theorem World.held_run {actions : List Action}
    (hrun : Machine.run (World.step sha256) {} actions = some next) : next.Held := by
  have hkeeps : ∀ world action next, world.Held ∧ world.Sound sha256 →
      World.step sha256 world action = some next → next.Held ∧ next.Sound sha256 := by
    intro world action next hboth hstep
    have hstep := World.step_of_eq_some hstep
    exact ⟨hboth.1.step hboth.2 hstep, hboth.2.step hstep⟩
  exact (Machine.invariant_run hkeeps ⟨World.held_start, World.sound_start⟩ hrun).1

/-- A transaction that has written all it writes can commit, whatever the others
have done. -/
theorem World.commit_isSome {actions : List Action} {last : World}
    (hrun : Machine.run (World.step sha256) {} actions = some last) {id : DeliveryId}
    {transaction : Transaction} {written : List Write}
    (hat : last.At id command (.recording transaction written [])) (acknowledged : Bool) :
    (last.commit id acknowledged).isSome = true := by
  obtain ⟨_, _, hwritten⟩ := (World.sound_run hrun).stages _ _ _ hat
  rw [List.append_nil] at hwritten
  rw [hwritten] at hat
  obtain ⟨_, hfresh⟩ := (World.held_run hrun).inserted _ _ _ _ _ hat List.mem_cons_self
  rw [World.At] at hat
  rw [World.commit, hat]
  simp only [World.apply, writes, List.foldlM_cons, List.foldlM_nil, World.write, dif_pos hfresh,
    JobRepository.recordResult_eq, Option.bind_eq_bind, Option.bind_some, Option.pure_def,
    Option.isSome_some]

/-! ## All or nothing -/

/-- The four rows of a transaction are all there. -/
structure World.Recorded (world : World) (transaction : Transaction) : Prop where
  execution : transaction.record ∈ world.executions.rows
  announcement : transaction.outboxMessage ∈ world.outbox
  audit : transaction.auditEvent ∈ world.audit
  result : ∃ job ∈ world.jobs.rows, job.jobId = transaction.record.jobId ∧
    job.result = transaction.result

/-- None of them is. -/
structure World.Unrecorded (world : World) (transaction : Transaction) : Prop where
  execution : ∀ row ∈ world.executions.rows,
    row.executionId ≠ transaction.record.executionId
  announcement : ∀ row ∈ world.outbox, row.messageId ≠ transaction.messageId
  audit : ∀ row ∈ world.audit, row.auditId ≠ transaction.auditId
  result : ∀ job ∈ world.jobs.rows,
    job.result.executionId ≠ some transaction.record.executionId

theorem World.Sound.recorded (hsound : world.Sound sha256) {transaction : Transaction}
    (h : transaction ∈ world.committed) : world.Recorded transaction := by
  refine ⟨?_, ?_, ?_, ?_⟩
  · rw [hsound.executions]
    exact List.mem_map_of_mem h
  · rw [hsound.outbox]
    exact List.mem_map_of_mem h
  · rw [hsound.audit]
    exact List.mem_map_of_mem h
  · obtain ⟨operation, ⟨job, hjob, hjobId, _⟩, _⟩ :=
      hsound.begun transaction (hsound.committed transaction h)
    refine ⟨job, hjob, hjobId, ?_⟩
    rcases hsound.results job hjob with ⟨_, hnone⟩ | ⟨other, hother, hotherId, hresult⟩
    · exact absurd hjobId.symm (hnone transaction h)
    · rw [hresult, hsound.committed_unique hother h (hotherId.trans hjobId)]

theorem World.Sound.unrecorded (hsound : world.Sound sha256) {transaction : Transaction}
    (hbegun : transaction ∈ world.begun) (h : transaction ∉ world.committed) :
    world.Unrecorded transaction := by
  have hdiffer : ∀ {column : Transaction → Uuid} (_ : (world.begun.map column).Nodup),
      ∀ other ∈ world.committed, column other ≠ column transaction := by
    intro column hnodup other hother heq
    rw [List.inj_on_of_nodup_map hnodup (hsound.committed other hother) hbegun heq] at hother
    exact h hother
  refine ⟨?_, ?_, ?_, ?_⟩
  · rw [hsound.executions]
    exact List.forall_mem_map.mpr (hdiffer hsound.executionIds)
  · rw [hsound.outbox]
    exact List.forall_mem_map.mpr (hdiffer hsound.messageIds)
  · rw [hsound.audit]
    exact List.forall_mem_map.mpr (hdiffer hsound.auditIds)
  · intro job hjob heq
    rcases hsound.results job hjob with ⟨hempty, _⟩ | ⟨other, hother, _, hresult⟩
    · rw [hempty] at heq
      cases heq
    · rw [hresult] at heq
      exact hdiffer hsound.executionIds other hother (Option.some.inj heq)

/-- **Recorded whole or not at all.** In every state of every run, whatever the
deliveries, their interleaving, what raises and what crashes: of the four rows a
transaction of `_record` writes, all are there or none is. -/
theorem recorded_whole_or_not {actions : List Action} {last : World}
    (hrun : Machine.run (World.step sha256) {} actions = some last) :
    ∀ transaction ∈ last.begun, last.Recorded transaction ∨ last.Unrecorded transaction := by
  intro transaction hbegun
  have hsound := World.sound_run hrun
  by_cases hcommitted : transaction ∈ last.committed
  · exact Or.inl (hsound.recorded hcommitted)
  · exact Or.inr (hsound.unrecorded hbegun hcommitted)

end

/-! ### One command, delivered once -/

def sampleJob (jobId : Uuid) : IntegrationJobRow :=
  ⟨⟨jobId⟩, ⟨2⟩, ⟨3⟩, ⟨1⟩, "unlock_account", 1, 100⟩

def sampleWorkItems : WorkItemTable :=
  ⟨[⟨⟨2⟩, ⟨1⟩, ⟨0⟩, ⟨0⟩, .authorized, .approved, some 100, none, none, 1, 0,
      WorkItemRow.unclaimed⟩],
    List.nodup_singleton _⟩

/-- An entitled action. -/
def sampleCatalogue : CatalogueRepository :=
  ⟨[⟨⟨1⟩, "unlock_account", true⟩], [⟨"unlock_account", 1, .action⟩]⟩

def sampleRegistry (policy : IdempotencyPolicy) : ConnectorRegistry :=
  ⟨[⟨"unlock_account", 1, "directory", "/unlock", none, policy⟩],
    [⟨"directory", "https://directory.invalid", true⟩]⟩

/-- A delivery of a job's command, up to its request. -/
def requested (id : DeliveryId) (jobId : Uuid) (policy : IdempotencyPolicy) : List Action :=
  [.deliver id (some ⟨⟨jobId⟩, ofString "journey", .execute⟩),
   .load id sampleWorkItems [⟨⟨1⟩, .active⟩] 10,
   .evaluate id sampleCatalogue (sampleRegistry policy), .lookUp id 11, .send id]

/-- The delivery from there to its verdict. -/
def answered (id : DeliveryId) (drawn : Uuid) : List Action :=
  [.answer id (.returned true (some "done") (.object [])),
   .record id 12 drawn (drawn + 1) (drawn + 2), .statement id, .statement id, .statement id,
   .statement id, .commit id true]

def oneDelivery : List Action :=
  .dispatch (sampleJob 5) "\x7b\x7d" :: (requested 0 5 .derivedKey ++ answered 0 7)

theorem oneDelivery_runs :
    (Machine.run (World.step sampleSha256) {} oneDelivery).isSome = true := by
  decide +kernel

theorem one_delivery_recorded :
    ((Machine.run (World.step sampleSha256) {} oneDelivery).get oneDelivery_runs).begun.length
        = 1 ∧
      ∀ transaction ∈
          ((Machine.run (World.step sampleSha256) {} oneDelivery).get oneDelivery_runs).begun,
        ((Machine.run (World.step sampleSha256) {} oneDelivery).get
            oneDelivery_runs).Recorded transaction ∨
          ((Machine.run (World.step sampleSha256) {} oneDelivery).get
            oneDelivery_runs).Unrecorded transaction :=
  ⟨by decide +kernel, recorded_whole_or_not (Option.some_get oneDelivery_runs).symm⟩

end Synthia.Integrations
