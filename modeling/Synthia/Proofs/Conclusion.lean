import Synthia.Workers.IntegrationResult

/-!
# What is concluded from a result

The Integrations Service writes an outcome as a status and a verification, and
RagCore reads the two back as text. `concluded_from` looks at the verification only
to tell a confirmation from everything else, so an execution that a read contradicted
is concluded as one nobody has checked. The worker's own tests have it so, and what a
conclusion means here is what they have it mean; the docstring of `Conclusion.FAILED`
counts the contradicted execution among the failures.

`conclusion_says_iff` says that every conclusion means what is stored, and that the two
readings part over the contradicted execution alone, over any results delivered for any
jobs in any order.
-/

namespace Synthia

/-- One result the Integrations Service delivers into a job's row. -/
structure DeliveredResult where
  jobId : IntegrationJobId
  outcome : ExecutionOutcome
  verification : VerificationOutcome
  executionId : Uuid
  recordedAt : Instant
  deriving DecidableEq

def deliver (jobs : JobTable) (delivered : DeliveredResult) : Option JobTable :=
  JobRepository.recordResult jobs delivered.jobId delivered.outcome delivered.verification
    delivered.executionId delivered.recordedAt

/-- Results delivered one after the other. -/
def deliverAll (jobs : JobTable) (deliveries : List DeliveredResult) : Option JobTable :=
  deliveries.foldlM deliver jobs

/-- The last of the deliveries into a job's row. -/
def lastFor (deliveries : List DeliveredResult) (jobId : IntegrationJobId) :
    Option DeliveredResult :=
  (deliveries.filter fun delivered => delivered.jobId == jobId).getLast?

/-- The result a job's row was last given, if there is such a row. -/
def storedFor (jobs : JobTable) (deliveries : List DeliveredResult)
    (jobId : IntegrationJobId) : Option DeliveredResult :=
  if (jobs.find jobId).isSome then lastFor deliveries jobId else none

/-- What each conclusion means of the result stored: whatever was executed and not
confirmed is acted upon and unverified. -/
def Conclusion.Means (stored : Option DeliveredResult) : Conclusion → Prop
  | .pending => stored = none
  | .failed => ∃ delivered, stored = some delivered ∧ delivered.outcome ≠ .succeeded
  | .resolved => ∃ delivered, stored = some delivered ∧
      delivered.outcome = .succeeded ∧ delivered.verification = .serverConfirmed
  | .actedUnverified => ∃ delivered, stored = some delivered ∧
      delivered.outcome = .succeeded ∧ delivered.verification ≠ .serverConfirmed

/-- What each conclusion says of the result stored, where a contradicted execution counts
as a failure. -/
def Conclusion.Says (stored : Option DeliveredResult) : Conclusion → Prop
  | .pending => stored = none
  | .failed => ∃ delivered, stored = some delivered ∧
      (delivered.outcome ≠ .succeeded ∨ delivered.verification = .contradicted)
  | .resolved => ∃ delivered, stored = some delivered ∧
      delivered.outcome = .succeeded ∧ delivered.verification = .serverConfirmed
  | .actedUnverified => ∃ delivered, stored = some delivered ∧
      delivered.outcome = .succeeded ∧ delivered.verification ≠ .serverConfirmed ∧
      delivered.verification ≠ .contradicted

/-- The columns a stored result stands in. -/
def DeliveredResult.columns (delivered : DeliveredResult) : ResultColumns :=
  .of delivered.outcome delivered.verification delivered.executionId delivered.recordedAt

/-! ## From the delivery to the row -/

theorem deliver_eq (jobs : JobTable) (delivered : DeliveredResult) :
    deliver jobs delivered = some (jobs.update (fun job => job.jobId == delivered.jobId)
      (writeResult delivered.columns)) :=
  JobRepository.recordResult_eq _ _ _ _ _ _

theorem find_update (jobs : JobTable) (jobId written : IntegrationJobId)
    (columns : ResultColumns) :
    (jobs.update (fun job => job.jobId == written) (writeResult columns)).find jobId =
      (jobs.find jobId).map fun job =>
        if written = jobId then { job with result := columns } else job := by
  cases hfound : jobs.find jobId with
  | none =>
      rw [Option.map_none]
      unfold Relational.Table.find at hfound ⊢
      rw [List.find?_eq_none] at hfound ⊢
      intro job hjob
      obtain ⟨old, hold, rfl⟩ := Relational.mem_updateRows.mp hjob
      have hother := hfound old hold
      split
      · exact hother
      · exact hother
  | some job =>
      obtain ⟨hjob, hkey⟩ := Relational.Table.find_eq_some.mp hfound
      rw [Option.map_some, Relational.Table.find_eq_some]
      refine ⟨?_, ?_⟩
      · refine Relational.mem_updateRows.mpr ⟨job, hjob, ?_⟩
        have hsame : (job.jobId == written) = true ↔ written = jobId := by
          rw [beq_iff_eq]
          constructor
          · intro h
            exact h.symm.trans hkey
          · intro h
            exact Eq.trans hkey h.symm
        simp only [hsame]
        rfl
      · split <;> exact hkey

theorem lastFor_concat (deliveries : List DeliveredResult) (delivered : DeliveredResult)
    (jobId : IntegrationJobId) :
    lastFor (deliveries ++ [delivered]) jobId =
      if delivered.jobId = jobId then some delivered else lastFor deliveries jobId := by
  unfold lastFor
  rw [List.filter_append]
  split
  · next hjob => simp [hjob]
  · next hjob => simp [hjob]

/-- What the row of a job holds behind a sequence of deliveries. -/
theorem find_deliverAll {jobs last : JobTable} {deliveries : List DeliveredResult}
    (hdelivered : deliverAll jobs deliveries = some last) (jobId : IntegrationJobId) :
    last.find jobId = (jobs.find jobId).map fun job =>
      { job with result := ((lastFor deliveries jobId).map
          DeliveredResult.columns).getD job.result } := by
  induction deliveries using List.reverseRecOn generalizing last with
  | nil =>
      injection hdelivered with hdelivered
      rw [← hdelivered]
      cases jobs.find jobId <;> rfl
  | append_singleton deliveries delivered ih =>
      rw [deliverAll, List.foldlM_append] at hdelivered
      obtain ⟨middle, hmiddle, hlast⟩ := Option.bind_eq_some_iff.mp hdelivered
      rw [List.foldlM_cons, deliver_eq] at hlast
      injection hlast with hlast
      rw [← hlast, find_update, ih hmiddle, lastFor_concat, Option.map_map]
      apply congrArg (fun change => (jobs.find jobId).map change)
      funext job
      dsimp only [Function.comp_apply]
      split <;> rfl

theorem deliverAll_total (jobs : JobTable) (deliveries : List DeliveredResult) :
    ∃ last, deliverAll jobs deliveries = some last := by
  induction deliveries generalizing jobs with
  | nil => exact ⟨jobs, rfl⟩
  | cons delivered deliveries ih =>
      obtain ⟨last, hlast⟩ := ih (jobs.update (fun job => job.jobId == delivered.jobId)
        (writeResult delivered.columns))
      refine ⟨last, ?_⟩
      rw [deliverAll, List.foldlM_cons, deliver_eq]
      exact hlast

/-! ## From the row to the conclusion -/

/-- What a stored result comes to. -/
def DeliveredResult.conclusion (delivered : DeliveredResult) : Conclusion :=
  if delivered.outcome ≠ .succeeded then .failed
  else if delivered.verification = .serverConfirmed then .resolved
  else .actedUnverified

/-- It is what is concluded from the columns the result was written to. -/
theorem concludedFrom_columns (delivered : DeliveredResult) :
    concludedFrom (some ⟨delivered.columns.status == some "executed",
        delivered.columns.verification, delivered.columns.executionId,
        delivered.columns.recordedAt⟩) = delivered.conclusion := by
  obtain ⟨jobId, outcome, verification, executionId, recordedAt⟩ := delivered
  cases outcome <;> cases verification <;> rfl

theorem concludedOn_stored {jobs last : JobTable} {deliveries : List DeliveredResult}
    (hfresh : ∀ job ∈ jobs.rows, job.result = {})
    (hdelivered : deliverAll jobs deliveries = some last) (message : ConsumedResult) :
    concludedOn last message =
      (storedFor jobs deliveries message.jobId).elim .pending DeliveredResult.conclusion := by
  rw [concludedOn, readResult, find_deliverAll hdelivered, storedFor]
  cases hfound : jobs.find message.jobId with
  | none => rfl
  | some job =>
      rw [Option.isSome_some, if_pos rfl, Option.map_some, Option.map_some]
      show _ = Option.elim (lastFor deliveries message.jobId) _ _
      cases lastFor deliveries message.jobId with
      | none =>
          have hempty := hfresh job (Relational.Table.find_eq_some.mp hfound).1
          dsimp only [Option.map_none, Option.getD_none]
          rw [hempty]
          rfl
      | some delivered => exact concludedFrom_columns delivered

section Readings

variable (stored : Option DeliveredResult)

/-- The conclusions are told apart by what they mean. -/
theorem means_iff (conclusion : Conclusion) :
    stored.elim .pending DeliveredResult.conclusion = conclusion ↔ conclusion.Means stored := by
  cases stored with
  | none => cases conclusion <;> simp [Conclusion.Means]
  | some delivered =>
      by_cases hsucceeded : delivered.outcome = .succeeded
      · by_cases hconfirmed : delivered.verification = .serverConfirmed
        · cases conclusion <;>
            simp [DeliveredResult.conclusion, Conclusion.Means, hsucceeded, hconfirmed]
        · cases conclusion <;>
            simp [DeliveredResult.conclusion, Conclusion.Means, hsucceeded, hconfirmed]
      · cases conclusion <;> simp [DeliveredResult.conclusion, Conclusion.Means, hsucceeded]

/-- What a conclusion means is what it says, but for one result. -/
theorem means_iff_says {delivered : DeliveredResult}
    (h : ¬ (delivered.outcome = .succeeded ∧ delivered.verification = .contradicted))
    (conclusion : Conclusion) :
    conclusion.Means (some delivered) ↔ conclusion.Says (some delivered) := by
  have hother : delivered.outcome = .succeeded → delivered.verification ≠ .contradicted :=
    not_and.mp h
  cases conclusion with
  | pending | resolved => exact Iff.rfl
  | failed =>
      simp only [Conclusion.Means, Conclusion.Says, Option.some.injEq, exists_eq_left']
      exact ⟨Or.inl, fun hor => hor.elim id fun hverification hsucceeded =>
        hother hsucceeded hverification⟩
  | actedUnverified =>
      simp only [Conclusion.Means, Conclusion.Says, Option.some.injEq, exists_eq_left']
      exact ⟨fun ⟨hsucceeded, hnot⟩ => ⟨hsucceeded, hnot, hother hsucceeded⟩,
        fun ⟨hsucceeded, hnot, _⟩ => ⟨hsucceeded, hnot⟩⟩

/-- So they are told apart by what they say, but for that one. -/
theorem says_iff :
    (∀ conclusion, stored.elim .pending DeliveredResult.conclusion = conclusion ↔
      conclusion.Says stored) ↔
      ¬ ∃ delivered, stored = some delivered ∧ delivered.outcome = .succeeded ∧
        delivered.verification = .contradicted := by
  cases stored with
  | none =>
      refine iff_of_true ?_ (fun ⟨_, h, _⟩ => nomatch h)
      intro conclusion
      cases conclusion <;> simp [Conclusion.Says]
  | some delivered =>
      by_cases h : delivered.outcome = .succeeded ∧ delivered.verification = .contradicted
      · obtain ⟨hsucceeded, hverification⟩ := h
        refine iff_of_false ?_ (not_not_intro ⟨delivered, rfl, hsucceeded, hverification⟩)
        intro hall
        have hfailed := (hall .failed).mpr ⟨delivered, rfl, Or.inr hverification⟩
        simp [DeliveredResult.conclusion, hsucceeded, hverification] at hfailed
      · refine iff_of_true ?_ ?_
        · intro conclusion
          rw [means_iff, means_iff_says h]
        · rintro ⟨other, hsame, hexecuted⟩
          rw [Option.some.inj hsame] at h
          exact h hexecuted

end Readings

/-- **A conclusion says what happened.** For any results delivered in any order into the
rows of any jobs, and any message: each conclusion is drawn exactly when it means what is
stored for the job the message names, whatever else the message carries. Counting the
contradicted execution among the failures says the same, if and only if what is stored
there is not an execution that was contradicted. -/
theorem conclusion_says_iff (jobs : JobTable) (hfresh : ∀ job ∈ jobs.rows, job.result = {})
    (deliveries : List DeliveredResult) :
    ∃ last, deliverAll jobs deliveries = some last ∧
      ∀ message : ConsumedResult,
        (∀ conclusion, concludedOn last message = conclusion ↔
          conclusion.Means (storedFor jobs deliveries message.jobId)) ∧
        (∀ other : ConsumedResult, other.jobId = message.jobId →
          concludedOn last other = concludedOn last message) ∧
        ((∀ conclusion, concludedOn last message = conclusion ↔
            conclusion.Says (storedFor jobs deliveries message.jobId)) ↔
          ¬ ∃ delivered, storedFor jobs deliveries message.jobId = some delivered ∧
            delivered.outcome = .succeeded ∧ delivered.verification = .contradicted) := by
  obtain ⟨last, hlast⟩ := deliverAll_total jobs deliveries
  refine ⟨last, hlast, ?_⟩
  intro message
  rw [concludedOn_stored hfresh hlast message]
  refine ⟨means_iff _, ?_, says_iff _⟩
  intro other hother
  rw [concludedOn_stored hfresh hlast other, hother]

/-! ### One job, confirmed and contradicted -/

def mfaJobs : JobTable where
  rows := [{ jobId := ⟨9⟩, workItemId := ⟨2⟩, operationId := ⟨3⟩, tenantId := ⟨1⟩,
             catalogueId := "reset_mfa", catalogueVersion := 1, expiresAt := 100,
             parameters := "" }]
  unique := List.nodup_singleton _

def mfaResult (verification : VerificationOutcome) : DeliveredResult :=
  ⟨⟨9⟩, .succeeded, verification, 4, 50⟩

def mfaMessage : ConsumedResult := ⟨⟨9⟩, .string [], .completed, ⟨[], [], []⟩⟩

/-- Confirmed, the work is resolved; contradicted, it is acted upon and unverified. -/
theorem confirmed_is_resolved :
    (∃ last, deliverAll mfaJobs [mfaResult .serverConfirmed] = some last ∧
      concludedOn last mfaMessage = .resolved) ∧
    ∃ last, deliverAll mfaJobs [mfaResult .contradicted] = some last ∧
      concludedOn last mfaMessage = .actedUnverified := by
  have hfresh : ∀ job ∈ mfaJobs.rows, job.result = {} := by
    intro job hjob
    rw [List.mem_singleton.mp hjob]
  constructor
  · obtain ⟨last, hlast, hmessages⟩ :=
      conclusion_says_iff mfaJobs hfresh [mfaResult .serverConfirmed]
    refine ⟨last, hlast, ((hmessages mfaMessage).1 .resolved).mpr ?_⟩
    exact ⟨mfaResult .serverConfirmed, rfl, rfl, rfl⟩
  · obtain ⟨last, hlast, hmessages⟩ :=
      conclusion_says_iff mfaJobs hfresh [mfaResult .contradicted]
    refine ⟨last, hlast, ((hmessages mfaMessage).1 .actedUnverified).mpr ?_⟩
    exact ⟨mfaResult .contradicted, rfl, rfl, by decide⟩

/-- A server-side read disagreed, and the work is concluded as not yet checked. -/
theorem contradicted_is_unverified :
    (deliverAll mfaJobs [mfaResult .contradicted]).map (concludedOn · mfaMessage) =
        some .actedUnverified ∧
      Conclusion.failed.Says
        (storedFor mfaJobs [mfaResult .contradicted] mfaMessage.jobId) ∧
      ¬ ∀ last, deliverAll mfaJobs [mfaResult .contradicted] = some last →
        ∀ conclusion, concludedOn last mfaMessage = conclusion ↔
          conclusion.Says (storedFor mfaJobs [mfaResult .contradicted] mfaMessage.jobId) := by
  have hconcluded : (deliverAll mfaJobs [mfaResult .contradicted]).map
      (concludedOn · mfaMessage) = some .actedUnverified := by decide +kernel
  have hsays : Conclusion.failed.Says
      (storedFor mfaJobs [mfaResult .contradicted] mfaMessage.jobId) :=
    ⟨mfaResult .contradicted, rfl, Or.inr rfl⟩
  refine ⟨hconcluded, hsays, ?_⟩
  intro h
  obtain ⟨last, hlast, hunverified⟩ := Option.map_eq_some_iff.mp hconcluded
  rw [(h last hlast .failed).mpr hsays] at hunverified
  cases hunverified

end Synthia
