import Synthia.Proofs.Recording

/-!
# Completed and answered

A delivery is completed in three ways: its own transaction committed, the look-up
found an execution under its key, or its insert was refused by one. The first
wrote the job's result. The other two rely on somebody having written it, and
whoever wrote that execution wrote the result of the job it names. Two jobs of one
operation have one key, so the execution found may name the other job, and then
nothing ever writes this one's result.
-/

namespace Synthia.Integrations

open Text

/-- The job's row carries a result. -/
def World.HasResult (world : World) (jobId : IntegrationJobId) : Prop :=
  ∃ job ∈ world.jobs.rows, job.jobId = jobId ∧ job.result.status.isSome = true ∧
    job.result.recordedAt.isSome = true

/-- Every completed command's job carries a result. -/
def World.CompletesAnswered (world : World) : Prop :=
  ∀ id command message, world.At id command (.settled message) →
    message.disposition = .complete → world.HasResult command.jobId

/-- The executions under a key are this job's. -/
def World.ownExecutions (world : World) (jobId : IntegrationJobId) (key : List CodePoint) :
    Bool :=
  world.executions.rows.all fun row => row.idempotencyKey != key || row.jobId == jobId

/-- Where a delivery is about to be completed because of an execution under its
key, that execution is its own job's. -/
def suppressedByOwn (sha256 : List CodePoint → List CodePoint) (world : World) :
    Action → Bool
  | .lookUp id _ =>
      match world.deliveries id with
      | some ⟨some command, .admitted instruction binding⟩ =>
          match keyFor sha256 instruction binding with
          | some key => world.ownExecutions command.jobId key
          | none => true
      | _ => true
  | .rollBack id =>
      match world.deliveries id with
      | some ⟨some command, .duplicate transaction⟩ =>
          world.ownExecutions command.jobId transaction.record.idempotencyKey
      | _ => true
  | _ => true

section

variable {sha256 : List CodePoint → List CodePoint} {world next : World}

/-! ## What stays -/

/-- The tables after a transaction's four writes, or as they were. -/
theorem Step.durable {action : Action} (hsound : world.Sound sha256)
    (hstep : Step sha256 world action next) :
    (∃ job hfresh, next.jobs = world.jobs.insert job hfresh ∧
        next.executions = world.executions) ∨
      (∃ transaction : Transaction, ∃ hfresh,
        next.executions = world.executions.insert transaction.record hfresh ∧
        next.jobs = world.jobs.update (fun job => job.jobId == transaction.record.jobId)
          (writeResult transaction.result)) ∨
      (next.jobs = world.jobs ∧ next.executions = world.executions) := by
  cases hstep with
  | dispatch hfresh => exact Or.inl ⟨_, hfresh, rfl, rfl⟩
  | commit hat hdurable =>
      obtain ⟨_, _, hwritten⟩ := hsound.stages _ _ _ hat
      rw [List.append_nil] at hwritten
      rw [hwritten] at hdurable
      obtain ⟨hfresh, rfl⟩ := World.apply_writes hdurable
      exact Or.inr (Or.inl ⟨_, hfresh, rfl, rfl⟩)
  | _ => exact Or.inr (Or.inr ⟨rfl, rfl⟩)

theorem Step.hasResult {action : Action} (hsound : world.Sound sha256)
    (hstep : Step sha256 world action next) {jobId : IntegrationJobId}
    (h : world.HasResult jobId) : next.HasResult jobId := by
  obtain ⟨job, hjob, hjobId, hstatus, hrecorded⟩ := h
  rcases hstep.durable hsound with ⟨_, _, hjobs, _⟩ | ⟨_, _, _, hjobs⟩ | ⟨hjobs, _⟩
  · refine ⟨job, ?_, hjobId, hstatus, hrecorded⟩
    rw [hjobs]
    exact List.mem_append.mpr (Or.inl hjob)
  · rw [World.HasResult, hjobs]
    refine ⟨_, Relational.mem_updateRows.mpr ⟨job, hjob, rfl⟩, ?_⟩
    split
    · exact ⟨hjobId, rfl, rfl⟩
    · exact ⟨hjobId, hstatus, hrecorded⟩
  · refine ⟨job, ?_, hjobId, hstatus, hrecorded⟩
    rw [hjobs]
    exact hjob

theorem Step.executions {action : Action} (hsound : world.Sound sha256)
    (hstep : Step sha256 world action next) {row : ExecutionRecord}
    (h : row ∈ world.executions.rows) : row ∈ next.executions.rows := by
  rcases hstep.durable hsound with ⟨_, _, _, hrows⟩ | ⟨_, _, hrows, _⟩ | ⟨_, hrows⟩
  · rw [hrows]
    exact h
  · rw [hrows]
    exact List.mem_append.mpr (Or.inl h)
  · rw [hrows]
    exact h

theorem Step.names {action : Action} (hsound : world.Sound sha256)
    (hstep : Step sha256 world action next) {jobId : IntegrationJobId} {operation : Operation}
    (h : world.Names jobId operation) : next.Names jobId operation := by
  rcases hstep.durable hsound with ⟨_, hfresh, hjobs, _⟩ | ⟨_, _, _, hjobs⟩ | ⟨hjobs, _⟩
  · rw [World.Names, hjobs]
    exact @World.Names.insert _ _ _ h _ hfresh
  · rw [World.Names, hjobs]
    exact h.update
  · rw [World.Names, hjobs]
    exact h

/-! ## Who wrote the execution -/

/-- An execution's job carries a result. -/
theorem World.Sound.hasResult (hsound : world.Sound sha256) {row : ExecutionRecord}
    (h : row ∈ world.executions.rows) : world.HasResult row.jobId := by
  rw [hsound.executions] at h
  obtain ⟨transaction, htransaction, rfl⟩ := List.mem_map.mp h
  obtain ⟨job, hjob, hjobId, hresult⟩ := (hsound.recorded htransaction).result
  refine ⟨job, hjob, hjobId, ?_⟩
  rw [hresult]
  exact ⟨rfl, rfl⟩

/-- A job whose key another job's execution has is never answered. -/
theorem World.Sound.unanswered (hsound : world.Sound sha256) {jobId : IntegrationJobId}
    {operation : Operation} (hnames : world.Names jobId operation) {row : ExecutionRecord}
    (hrow : row ∈ world.executions.rows)
    (hkey : row.idempotencyKey = operation.key sha256) (hother : row.jobId ≠ jobId) :
    ¬ world.HasResult jobId := by
  rintro ⟨job, hjob, hjobId, hstatus, _⟩
  rcases hsound.results job hjob with ⟨hempty, _⟩ | ⟨transaction, htransaction, hnamed, _⟩
  · rw [hempty] at hstatus
    cases hstatus
  · -- its own transaction would have committed under the same key
    obtain ⟨named, hnames', hkey'⟩ :=
      hsound.begun transaction (hsound.committed transaction htransaction)
    rw [hnamed, hjobId] at hnames'
    rw [← hnames.unique hnames', ← hkey] at hkey'
    have hrecord := (hsound.recorded htransaction).execution
    rw [← world.executions.eq_of_key hrecord hrow hkey', hnamed] at hother
    exact hother hjobId

theorem World.ownExecutions_eq_true {jobId : IntegrationJobId} {key : List CodePoint} :
    world.ownExecutions jobId key = true ↔
      ∀ row ∈ world.executions.rows, row.idempotencyKey = key → row.jobId = jobId := by
  unfold World.ownExecutions
  rw [List.all_eq_true]
  refine forall₂_congr fun row _ => ?_
  rw [Bool.or_eq_true, bne_iff_ne, beq_iff_eq, or_iff_not_imp_left, not_not]

theorem World.ownExecutions_eq_false {jobId : IntegrationJobId} {key : List CodePoint}
    (h : ¬ world.ownExecutions jobId key = true) :
    ∃ row ∈ world.executions.rows, row.idempotencyKey = key ∧ row.jobId ≠ jobId := by
  rw [World.ownExecutions_eq_true] at h
  push Not at h
  exact h

/-! ## Which stages complete -/

/-- Not completed, and not about to be because of an execution that is there. -/
def Stage.Incomplete : Stage → Prop
  | .settled message => message.disposition ≠ .complete
  | .duplicate _ => False
  | _ => True

theorem CommandConsumer.handle_incomplete (received : Option MessageEnvelope) :
    (CommandConsumer.handle received).Incomplete := by
  unfold CommandConsumer.handle
  split
  · rintro ⟨⟩
  · split
    · rintro ⟨⟩
    · trivial

theorem ExecutionLeg.load_incomplete {jobs : JobTable} {workItems : WorkItemTable}
    {tenants : List TenantMappingRow} {now : Instant} {command : MessageEnvelope} :
    (ExecutionLeg.load jobs workItems tenants now command).Incomplete := by
  unfold ExecutionLeg.load
  split
  · rintro ⟨⟩
  · rintro ⟨⟩
  · split
    · trivial
    · trivial

theorem ExecutionLeg.evaluate_incomplete {catalogue : CatalogueRepository}
    {registry : ConnectorRegistry} {command : MessageEnvelope} {instruction : Instruction}
    {now : Instant} :
    (ExecutionLeg.evaluate catalogue registry command instruction now).Incomplete := by
  unfold ExecutionLeg.evaluate
  dsimp only
  split
  · trivial
  · split
    · trivial
    · rintro ⟨⟩

/-- The look-up completes a delivery whose key some execution has. -/
theorem ExecutionLeg.lookUp_eq_settled {executions : List ExecutionRecord}
    {instruction : Instruction} {binding : ConnectorBinding} {started : Instant}
    {message : HandledMessage} :
    ExecutionLeg.lookUp sha256 executions instruction binding started = .settled message ↔
      message = .ofReport { executed := false, outcome := none } ∧
        ∃ key, keyFor sha256 instruction binding = some key ∧
          ∃ row ∈ executions, row.idempotencyKey = key := by
  unfold ExecutionLeg.lookUp
  cases hkey : keyFor sha256 instruction binding with
  | none =>
      constructor
      · intro h
        cases h
      · rintro ⟨_, key, h, _⟩
        cases h
  | some key =>
      dsimp only
      split
      · next hany =>
          obtain ⟨row, hrow, hmatch⟩ := List.any_eq_true.mp hany
          constructor
          · intro h
            injection h with h
            exact ⟨h.symm, key, rfl, row, hrow, beq_iff_eq.mp hmatch⟩
          · rintro ⟨rfl, _⟩
            rfl
      · next hnone =>
          constructor
          · intro h
            cases h
          · rintro ⟨_, other, hother, row, hrow, hmatch⟩
            injection hother with hother
            refine absurd (List.any_eq_true.mpr ⟨row, hrow, ?_⟩) hnone
            rw [hother]
            exact beq_iff_eq.mpr hmatch

/-! ## Preservation -/

/-- What is kept while every suppression is by the delivery's own execution. -/
structure World.Answered (world : World) : Prop where
  completes : world.CompletesAnswered
  /-- An insert was refused by an execution that is there. -/
  refused : ∀ id command transaction, world.At id command (.duplicate transaction) →
    ∃ row ∈ world.executions.rows, row.idempotencyKey = transaction.record.idempotencyKey

theorem World.Answered.moved (h : world.Answered) (hsound : world.Sound sha256) {action : Action}
    (hstep : Step sha256 world action next) {id : DeliveryId}
    {received : Option MessageEnvelope} {after : Stage}
    (hdeliveries : next.deliveries =
      Function.update world.deliveries id (some ⟨received, after⟩))
    (hcompletes : ∀ command message, received = some command → after = .settled message →
      message.disposition = .complete → next.HasResult command.jobId)
    (hrefused : ∀ transaction, after = .duplicate transaction →
      ∃ row ∈ world.executions.rows,
        row.idempotencyKey = transaction.record.idempotencyKey) : next.Answered := by
  refine ⟨?_, ?_⟩
  · intro other command message hat hcomplete
    rcases (World.at_iff hdeliveries).mp hat with ⟨_, hreceived, hstage⟩ | ⟨_, hold⟩
    · exact hcompletes command message hreceived hstage.symm hcomplete
    · exact hstep.hasResult hsound (h.completes other command message hold hcomplete)
  · intro other command transaction hat
    have hrow : ∃ row ∈ world.executions.rows,
        row.idempotencyKey = transaction.record.idempotencyKey := by
      rcases (World.at_iff hdeliveries).mp hat with ⟨_, _, hstage⟩ | ⟨_, hold⟩
      · exact hrefused transaction hstage.symm
      · exact h.refused other command transaction hold
    obtain ⟨row, hrow, hkey⟩ := hrow
    exact ⟨row, hstep.executions hsound hrow, hkey⟩

theorem World.Answered.still (h : world.Answered) (hsound : world.Sound sha256) {action : Action}
    (hstep : Step sha256 world action next) (hdeliveries : next.deliveries = world.deliveries) :
    next.Answered := by
  have hat : ∀ {id command stage}, next.At id command stage → world.At id command stage := by
    intro id command stage hat
    rw [World.At, hdeliveries] at hat
    exact hat
  refine ⟨?_, ?_⟩
  · intro id command message hsettled hcomplete
    exact hstep.hasResult hsound (h.completes id command message (hat hsettled) hcomplete)
  · intro id command transaction hduplicate
    obtain ⟨row, hrow, hkey⟩ := h.refused id command transaction (hat hduplicate)
    exact ⟨row, hstep.executions hsound hrow, hkey⟩

theorem World.Answered.incomplete (h : world.Answered) (hsound : world.Sound sha256)
    {action : Action} (hstep : Step sha256 world action next) {id : DeliveryId}
    {received : Option MessageEnvelope} {after : Stage}
    (hdeliveries : next.deliveries =
      Function.update world.deliveries id (some ⟨received, after⟩))
    (hafter : after.Incomplete) : next.Answered := by
  refine h.moved hsound hstep hdeliveries ?_ ?_
  · rintro command message _ rfl hcomplete
    exact absurd hcomplete hafter
  · rintro transaction rfl
    exact hafter.elim

theorem World.Answered.step (h : world.Answered) (hsound : world.Sound sha256)
    {action : Action} (hgood : suppressedByOwn sha256 world action = true)
    (hstep : Step sha256 world action next) : next.Answered := by
  have hmoved := @World.Answered.moved sha256 world next h hsound action hstep
  have hincomplete := @World.Answered.incomplete sha256 world next h hsound action hstep
  have hstill := h.still hsound hstep
  cases hstep with
  | dispatch hfresh => exact hstill rfl
  | deliver hnew => exact hincomplete rfl (CommandConsumer.handle_incomplete _)
  | load hat => exact hincomplete rfl ExecutionLeg.load_incomplete
  | evaluate hat => exact hincomplete rfl ExecutionLeg.evaluate_incomplete
  | @lookUp id started command instruction binding hat =>
      refine hmoved rfl ?_ ?_
      · intro following message hreceived hstage _
        injection hreceived with hreceived
        obtain ⟨_, key, hkey, row, hrow, hmatch⟩ := ExecutionLeg.lookUp_eq_settled.mp hstage
        rw [suppressedByOwn, show world.deliveries id = _ from hat] at hgood
        dsimp only at hgood
        rw [hkey] at hgood
        rw [← hreceived, ← World.ownExecutions_eq_true.mp hgood row hrow hmatch]
        exact hsound.hasResult hrow
      · intro transaction hstage
        have hnone := @ExecutionLeg.transaction_lookUp sha256 world.executions.rows instruction
          binding started
        rw [hstage] at hnone
        cases hnone
  | send hat => exact hincomplete rfl trivial
  | answer hat => exact hincomplete rfl trivial
  | record hat hdrawn => exact hincomplete rfl trivial
  | refused hat hkey =>
      refine hmoved rfl (fun _ _ _ hstage => nomatch hstage) ?_
      intro transaction hstage
      injection hstage with hstage
      rw [← hstage]
      exact List.mem_map.mp hkey
  | insert hat hfree hkey => exact hincomplete rfl trivial
  | statement hat hwrite => exact hincomplete rfl trivial
  | @commit id acknowledged command transaction written durable hat hdurable =>
      refine hmoved (congrArg (Function.update · _ _) (World.apply_keeps hdurable).1) ?_ ?_
      · intro following message hreceived _ _
        injection hreceived with hreceived
        obtain ⟨_, hjobId, hwritten⟩ := hsound.stages _ _ _ hat
        have hnext := hsound.step (@Step.commit _ _ _ acknowledged _ _ _ _ hat hdurable)
        have hrow := (hnext.recorded (List.mem_append.mpr (Or.inr List.mem_cons_self))).execution
        have hresult := hnext.hasResult hrow
        rw [← hreceived, ← hjobId]
        exact hresult
      · intro other hstage
        split at hstage
        · cases hstage
        · cases hstage
  | @rollBack id command transaction hat =>
      refine hmoved rfl ?_ fun _ hstage => nomatch hstage
      intro following message hreceived _ _
      injection hreceived with hreceived
      obtain ⟨row, hrow, hkey⟩ := h.refused _ _ _ hat
      rw [suppressedByOwn, show world.deliveries id = _ from hat] at hgood
      dsimp only at hgood
      rw [← hreceived, ← World.ownExecutions_eq_true.mp hgood row hrow hkey]
      exact hsound.hasResult hrow
  | raise hat hrunning => exact hincomplete rfl nofun
  | crash hat hrunning => exact hincomplete rfl trivial
  | land hsent => exact hstill rfl

/-! ## The other direction -/

/-- A delivery completed because of another job's execution. -/
structure World.Misattributed (sha256 : List CodePoint → List CodePoint) (world : World)
    (id : DeliveryId) (command : MessageEnvelope) (operation : Operation)
    (row : ExecutionRecord) : Prop where
  completed : world.At id command (.settled (.ofReport { executed := false, outcome := none }))
  named : world.Names command.jobId operation
  found : row ∈ world.executions.rows
  keyed : row.idempotencyKey = operation.key sha256
  other : row.jobId ≠ command.jobId

theorem Step.misattributed {action : Action} (hsound : world.Sound sha256)
    (hstep : Step sha256 world action next)
    (hbad : ¬ suppressedByOwn sha256 world action = true) :
    ∃ id command operation row, next.Misattributed sha256 id command operation row := by
  have hnames := @Step.names sha256 world next action hsound hstep
  have hrows := @Step.executions sha256 world next action hsound hstep
  cases hstep with
  | @lookUp id started command instruction binding hat =>
      rw [suppressedByOwn, show world.deliveries id = _ from hat] at hbad
      dsimp only at hbad
      cases hkey : keyFor sha256 instruction binding with
      | none =>
          rw [hkey] at hbad
          exact absurd rfl hbad
      | some key =>
          rw [hkey] at hbad
          obtain ⟨row, hrow, hmatch, hother⟩ := World.ownExecutions_eq_false hbad
          refine ⟨id, command, instruction.operation, row, ?_, hnames (hsound.stages _ _ _ hat).2,
            hrows hrow, hmatch.trans (eq_key_of_keyFor hkey), hother⟩
          exact (World.at_iff rfl).mpr (Or.inl ⟨rfl, rfl,
            (ExecutionLeg.lookUp_eq_settled.mpr ⟨rfl, key, hkey, row, hrow, hmatch⟩).symm⟩)
  | @rollBack id command transaction hat =>
      rw [suppressedByOwn, show world.deliveries id = _ from hat] at hbad
      obtain ⟨row, hrow, hmatch, hother⟩ := World.ownExecutions_eq_false hbad
      obtain ⟨hbegun, hjobId⟩ := hsound.stages _ _ _ hat
      obtain ⟨operation, hnamed, hkey⟩ := hsound.begun transaction hbegun
      rw [hjobId] at hnamed
      exact ⟨id, command, operation, row, (World.at_iff rfl).mpr (Or.inl ⟨rfl, rfl, rfl⟩),
        hnames hnamed, hrows hrow, hmatch.trans hkey, hother⟩
  | _ => exact absurd rfl hbad

theorem World.Misattributed.step {action : Action} (hsound : world.Sound sha256)
    (hstep : Step sha256 world action next) {id : DeliveryId} {command : MessageEnvelope}
    {operation : Operation} {row : ExecutionRecord}
    (h : world.Misattributed sha256 id command operation row) :
    next.Misattributed sha256 id command operation row :=
  ⟨hstep.settled h.completed, hstep.names hsound h.named, hstep.executions hsound h.found,
    h.keyed, h.other⟩

/-- **Completed and answered.** Over a run, every completed command's job carries a
result, if and only if wherever a delivery was completed because of an execution
under its key, that execution was its own job's. -/
theorem completes_answered_iff {actions : List Action} {last : World}
    (hrun : Machine.run (World.step sha256) {} actions = some last) :
    last.CompletesAnswered ↔
      Machine.Along (World.step sha256)
        (fun world action => suppressedByOwn sha256 world action = true) {} actions := by
  constructor
  · intro h
    refine Machine.along_of_forall ?_
    rintro before action after middle rfl hbefore
    by_contra hbad
    -- from that step on the delivery stays completed, and its job without a result
    obtain ⟨reached, hreached, hrest⟩ := Machine.run_append.mp hrun
    rw [hbefore] at hreached
    injection hreached with hreached
    rw [← hreached] at hrest
    obtain ⟨next, hnext, hrest⟩ := Machine.run_cons.mp hrest
    have hmiddle := World.sound_run hbefore
    have hnext := World.step_of_eq_some hnext
    obtain ⟨id, command, operation, row, hwrong⟩ := hnext.misattributed hmiddle hbad
    have hstays : ∀ world action next, world.Sound sha256 ∧
        world.Misattributed sha256 id command operation row →
        World.step sha256 world action = some next →
        next.Sound sha256 ∧ next.Misattributed sha256 id command operation row := by
      intro world action next hboth hstep
      have hstep := World.step_of_eq_some hstep
      exact ⟨hboth.1.step hstep, hboth.2.step hboth.1 hstep⟩
    obtain ⟨hsound, hlast⟩ := Machine.invariant_run hstays ⟨hmiddle.step hnext, hwrong⟩ hrest
    exact hsound.unanswered hlast.named hlast.found hlast.keyed hlast.other
      (h id command _ hlast.completed rfl)
  · intro hgood
    have hkeeps : ∀ world action next, world.Answered ∧ world.Sound sha256 →
        suppressedByOwn sha256 world action = true → World.step sha256 world action = some next →
        next.Answered ∧ next.Sound sha256 := by
      intro world action next hboth hnow hstep
      have hstep := World.step_of_eq_some hstep
      exact ⟨hboth.1.step hboth.2 hnow hstep, hboth.2.step hstep⟩
    have hstart : World.Answered {} ∧ World.Sound sha256 {} :=
      ⟨⟨fun _ _ _ hat => (nomatch hat), fun _ _ _ hat => (nomatch hat)⟩, World.sound_start⟩
    exact (Machine.invariant_along hkeeps hstart hrun hgood).1.completes

end

/-! ### One job, and two of one operation -/

theorem one_job_answered :
    ((Machine.run (World.step sampleSha256) {} oneDelivery).get
      oneDelivery_runs).CompletesAnswered :=
  (completes_answered_iff (Option.some_get oneDelivery_runs).symm).mpr (by decide +kernel)

/-- The second job's command is delivered when the first's has been executed. -/
def twoJobs : List Action :=
  .dispatch (sampleJob 6) "\x7b\x7d" :: (oneDelivery ++ (requested 1 6 .derivedKey).take 4)

theorem twoJobs_runs : (Machine.run (World.step sampleSha256) {} twoJobs).isSome = true := by
  decide +kernel

/-- What `handle` answered a delivery. -/
def World.verdict (world : World) (id : DeliveryId) :
    Option (MessageEnvelope × HandledMessage) :=
  match world.deliveries id with
  | some ⟨some command, .settled message⟩ => some (command, message)
  | _ => none

theorem World.at_of_verdict {world : World} {id : DeliveryId} {command : MessageEnvelope}
    {message : HandledMessage} (h : world.verdict id = some (command, message)) :
    world.At id command (.settled message) := by
  unfold World.verdict at h
  split at h
  · next hat =>
      injection h with h
      injection h with hcommand hmessage
      rw [← hcommand, ← hmessage]
      exact hat
  · cases h

theorem second_job_unanswered :
    ¬ ((Machine.run (World.step sampleSha256) {} twoJobs).get twoJobs_runs).CompletesAnswered := by
  intro h
  have hverdict : ((Machine.run (World.step sampleSha256) {} twoJobs).get twoJobs_runs).verdict
      1 = some (⟨⟨6⟩, ofString "journey", .execute⟩, ⟨.complete, ""⟩) := by
    decide +kernel
  refine absurd (h 1 _ _ (World.at_of_verdict hverdict) rfl) ?_
  unfold World.HasResult
  decide +kernel

end Synthia.Integrations
