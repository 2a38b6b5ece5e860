import Synthia.Lib.Machine
import Synthia.Persistence.Governance

/-!
# An outcome recorded again

`record_outcome` is an update by primary key. It asks nothing of the row but that it is the
organisation's, so a second delivery, a late verification or a retry writes over what the
first recorded, and stamps it with its own instant.

What a run of calls leaves of a recorded outcome is settled call by call: one that reaches
the row keeps the outcome exactly if it says it again, the instant included. No call
touches a work item, and none moves an operation to another.
-/

namespace Synthia

open Relational Machine

/-- A call of `record_outcome`, at the instant its transaction began. -/
structure OutcomeCall where
  tenant : TenantContext
  operationId : OperationId
  verification : VerificationOutcome
  detail : String
  databaseNow : Instant
  deriving DecidableEq

structure OutcomeWorld where
  operations : OperationTable
  workItems : WorkItemTable

/-- What is recorded of an operation: an outcome, the status with it, and its time. -/
structure RecordedOutcome where
  verification : VerificationOutcome
  status : OperationStatus
  executedAt : Option Instant
  deriving DecidableEq

def OperationRecord.recorded (row : OperationRecord) : Option RecordedOutcome :=
  row.verification.map fun verification => ⟨verification, row.status, row.executedAt⟩

namespace OutcomeWorld

/-- A call that raises writes nothing. -/
def step (world : OutcomeWorld) (call : OutcomeCall) : Option OutcomeWorld :=
  some
    { world with
      operations := (OperationRepository.recordOutcome world.operations call.tenant
        call.operationId call.verification call.detail call.databaseNow).getD
          world.operations }

def recorded (world : OutcomeWorld) (operationId : OperationId) : Option RecordedOutcome :=
  (world.operations.find operationId).bind OperationRecord.recorded

/-- The state of the work item an operation is part of. -/
def concluded (world : OutcomeWorld) (operationId : OperationId) : Option WorkItemState :=
  (world.operations.find operationId).bind fun row =>
    (world.workItems.find row.workItemId).map WorkItemRow.state

/-- What was recorded before is what is recorded after. -/
def Keeps (before after : OutcomeWorld) : Prop :=
  ∀ operationId outcome, before.recorded operationId = some outcome →
    after.recorded operationId = some outcome ∧
      after.concluded operationId = before.concluded operationId

/-- Between any two moments of the run. -/
def Final (world : OutcomeWorld) (calls : List OutcomeCall) : Prop :=
  ∀ before between later middle last, calls = before ++ between ++ later →
    run step world before = some middle → run step middle between = some last →
    middle.Keeps last

/-- The call reaches no operation with an outcome, or repeats it to the instant. -/
def Repeats (world : OutcomeWorld) (call : OutcomeCall) : Prop :=
  ∀ status row outcome, OperationStatus.ofValue call.detail = some status →
    row ∈ world.operations.rows →
    OperationRepository.scopedTo call.tenant call.operationId row = true →
    row.recorded = some outcome →
    outcome = ⟨call.verification, status, some call.databaseNow⟩

/-! ## One call -/

section Call

variable {world next : OutcomeWorld} {call : OutcomeCall}

theorem Keeps.refl (world : OutcomeWorld) : world.Keeps world := fun _ _ h => ⟨h, rfl⟩

theorem Keeps.trans {first second third : OutcomeWorld} (h : first.Keeps second)
    (hlater : second.Keeps third) : first.Keeps third := by
  intro operationId outcome hrecorded
  obtain ⟨hkept, hconcluded⟩ := h operationId outcome hrecorded
  obtain ⟨hlast, hstill⟩ := hlater operationId outcome hkept
  exact ⟨hlast, hstill.trans hconcluded⟩

/-- An operation after a call: rewritten where the call reaches it, and as it was
otherwise. -/
theorem find_step (hstep : world.step call = some next) {operationId : OperationId}
    {row : OperationRecord} (hrow : world.operations.find operationId = some row) :
    (OperationStatus.ofValue call.detail = none ∧
        next.operations.find operationId = some row) ∨
      ∃ status, OperationStatus.ofValue call.detail = some status ∧
        next.operations.find operationId = some
          (if OperationRepository.scopedTo call.tenant call.operationId row then
            (OperationRepository.outcome call.verification status call.databaseNow).apply row
          else row) := by
  injection hstep with hstep
  rw [← hstep]
  unfold OperationRepository.recordOutcome
  cases hstatus : OperationStatus.ofValue call.detail with
  | none => exact Or.inl ⟨rfl, hrow⟩
  | some status => exact Or.inr ⟨status, rfl, Table.find_update hrow⟩

theorem workItems_step (hstep : world.step call = some next) :
    next.workItems = world.workItems := by
  injection hstep with hstep
  rw [← hstep]

theorem keeps_step_iff (hstep : world.step call = some next) :
    world.Keeps next ↔ world.Repeats call := by
  constructor
  · intro hkeeps status row outcome hstatus hrow hscoped hrecorded
    have hfound := Table.find_of_mem hrow
    have hbefore : world.recorded row.operationId = some outcome := by
      unfold recorded
      rw [hfound]
      exact hrecorded
    have hafter := (hkeeps row.operationId outcome hbefore).1
    rcases find_step hstep hfound with ⟨hnone, _⟩ | ⟨other, hother, hnext⟩
    · rw [hstatus] at hnone
      cases hnone
    · rw [hstatus] at hother
      injection hother with hother
      rw [if_pos hscoped] at hnext
      unfold recorded at hafter
      rw [hnext, ← hother] at hafter
      exact (Option.some.inj hafter).symm
  · intro hrepeats operationId outcome hrecorded
    unfold recorded at hrecorded
    obtain ⟨row, hfound, hrow⟩ := Option.bind_eq_some_iff.mp hrecorded
    have hsame : ∃ after, next.operations.find operationId = some after ∧
        after.recorded = some outcome ∧ after.workItemId = row.workItemId := by
      rcases find_step hstep hfound with ⟨_, hnext⟩ | ⟨status, hstatus, hnext⟩
      · exact ⟨row, hnext, hrow, rfl⟩
      · refine ⟨_, hnext, ?_⟩
        split
        · next hscoped =>
            rw [hrepeats status row outcome hstatus (Table.find_eq_some.mp hfound).1 hscoped
              hrow]
            exact ⟨rfl, rfl⟩
        · exact ⟨hrow, rfl⟩
    obtain ⟨after, hafter, hkept, hitem⟩ := hsame
    unfold recorded concluded
    rw [hafter, hfound, workItems_step hstep]
    refine ⟨hkept, ?_⟩
    show Option.map _ (world.workItems.find after.workItemId) = _
    rw [hitem]
    rfl

end Call

/-! ## Every run -/

/-- **A recorded outcome is final exactly while it is only repeated.** Over any calls in
any order: no outcome, time or concluded state that was recorded at one moment has changed
by another, if and only if every call that reaches an operation with an outcome, and whose
text is a status, says what is recorded, to the instant. -/
theorem final_iff (world : OutcomeWorld) (calls : List OutcomeCall) :
    world.Final calls ↔ Along step Repeats world calls := by
  constructor
  · intro hfinal
    apply along_of_forall
    intro before call after middle hsplit hrun
    obtain ⟨next, hnext⟩ : ∃ next, middle.step call = some next := ⟨_, rfl⟩
    rw [← keeps_step_iff hnext]
    refine hfinal before [call] after middle next ?_ hrun ?_
    · rw [hsplit, List.append_assoc]
      rfl
    · exact run_cons.mpr ⟨next, hnext, rfl⟩
  · intro hrepeats before between later middle last hsplit hrun hlast
    rw [hsplit, List.append_assoc] at hrepeats
    have hbetween : Along step Repeats middle between :=
      along_before (along_after hrepeats hrun)
    have hstep : ∀ state call next, middle.Keeps state → Repeats state call →
        state.step call = some next → middle.Keeps next := by
      intro state call next hkept hrepeated hnext
      exact hkept.trans ((keeps_step_iff hnext).mpr hrepeated)
    exact invariant_along hstep (Keeps.refl middle) hlast hbetween

end OutcomeWorld

/-! ### A failure, and a late success -/

namespace SampleOutcome

open OutcomeWorld

def unlockOperation : OperationRecord :=
  { operationId := ⟨4⟩
    tenantId := ⟨1⟩
    workItemId := ⟨2⟩
    catalogueId := "unlock_account"
    catalogueVersion := 1
    createdAt := 5
    status := .authorized
    verification := none
    executedAt := none
    version := 1
    updatedAt := 5 }

/-- The item the operation is part of, claimed by whoever carries it out. -/
def unlockItem : WorkItemRow :=
  ⟨⟨2⟩, ⟨1⟩, ⟨3⟩, ⟨7⟩, .claimed, .approved, none, some 5, some "executor", 2, 5, rfl⟩

def unlockWorld : OutcomeWorld where
  operations := ⟨[unlockOperation], List.nodup_singleton _⟩
  workItems := ⟨[unlockItem], List.nodup_singleton _⟩

def unlockTenant : TenantContext := ⟨⟨1⟩, ⟨1⟩, .active, .endUserIdentity⟩

def failedCall : OutcomeCall := ⟨unlockTenant, ⟨4⟩, .contradicted, "failed", 10⟩

def lateCall : OutcomeCall := ⟨unlockTenant, ⟨4⟩, .clientAttested, "executed", 20⟩

/-- A contradicted operation that is reported again, as executed, is recorded as that. -/
theorem failure_overwritten : ¬ unlockWorld.Final [failedCall, lateCall] := by
  intro hfinal
  have hmiddle : ∃ middle, run step unlockWorld [failedCall] = some middle ∧
      middle.recorded ⟨4⟩ = some ⟨.contradicted, .failed, some 10⟩ := ⟨_, rfl, by decide⟩
  obtain ⟨middle, hrun, hrecorded⟩ := hmiddle
  have hlast : ∃ last, run step middle [lateCall] = some last := ⟨_, rfl⟩
  obtain ⟨last, hlater⟩ := hlast
  have hkept := (hfinal [failedCall] [lateCall] [] middle last rfl hrun hlater ⟨4⟩ _
    hrecorded).1
  have hwhole : (run step unlockWorld ([failedCall] ++ [lateCall])).bind
      (fun world => world.recorded ⟨4⟩) = some ⟨.clientAttested, .executed, some 20⟩ := by
    decide
  rw [run_append.mpr ⟨middle, hrun, hlater⟩, Option.bind_some, hkept] at hwhole
  cases hwhole

end SampleOutcome

end Synthia
