import Synthia.Messaging.SampleFlow
import Synthia.Proofs.Claiming

/-!
# At most one delivery has an effect

A claim that writes leaves the work item in a state no claim writes to, and nothing
a delivery does brings it back. So among all the claims that stand, those of open
and of committed deliveries, at most one has written, in whatever order the
deliveries interleave. Where a delivery stands says whether it is the one: from the
claim to its return it has a claim that wrote, unless the claim told it to stop. A
report is let out by the commit, and the claim behind it is committed with it.

A crash before the commit takes the claim back, and a redelivery may win it; after
the commit a redelivery finds the item claimed. Either way one report has an effect.
-/

namespace Synthia.SampleFlow

open Text

variable {sha256 : List CodePoint → List CodePoint} {trigger : Trigger} {initial : Store}
  {world next : World} {delivery : DeliveryId} {event : Event} {databaseNow : Instant}

/-! ## Where a delivery stands -/

/-- A delivery's claim succeeded, in a transaction that is still open. -/
def World.HasClaim (world : World) (trigger : Trigger) (delivery : DeliveryId) : Prop :=
  ∃ databaseNow,
    ⟨delivery, .claim (trigger.now delivery) databaseNow, true⟩ ∈ world.store.opened

/-- The same, committed. -/
def World.Claimed (world : World) (trigger : Trigger) (delivery : DeliveryId) : Prop :=
  ∃ databaseNow,
    ⟨delivery, .claim (trigger.now delivery) databaseNow, true⟩ ∈ world.store.settled

/-- A delivery has written nothing it has not committed. -/
def World.WroteNothing (world : World) (delivery : DeliveryId) : Prop :=
  ∀ pending, world.store.holder ≠ some (delivery, pending)

/-- The claim told the delivery to stop. -/
def World.LostClaim (world : World) (delivery : DeliveryId) : Prop :=
  ∃ result, world.stage delivery = .returned result ∧ result.claimWon = false

/-- What a delivery's stage says about its claim. -/
def World.Sound (world : World) (trigger : Trigger) (delivery : DeliveryId) : Prop :=
  match world.stage delivery with
  | .received => world.WroteNothing delivery
  | .returned result =>
      (result.claimWon = true ∧ world.HasClaim trigger delivery) ∨
        (result.claimWon = false ∧ result.hadEffect = false ∧ world.WroteNothing delivery)
  | .finished => True
  | .claimed | .executing | .performed _ | .recorded => world.HasClaim trigger delivery

structure World.Inv (sha256 : List CodePoint → List CodePoint) (trigger : Trigger)
    (initial : Store) (world : World) : Prop where
  serial : RowLock.Serial (trigger.execute sha256) initial world.store
  sound : ∀ delivery, world.Sound trigger delivery
  reported : ∀ report ∈ world.reports, world.stage report.1 = .finished ∧
    (report.2.hadEffect = true → world.Claimed trigger report.1)
  once : (world.reports.map Prod.fst).Nodup

/-! ## The claim closes the work item -/

/-- No claim writes to this store. -/
def Store.Taken (store : Store) (workItemId : WorkItemId) : Prop :=
  ∀ row ∈ store.workItems.rows, row.workItemId = workItemId → row.state ≠ .authorized

def Statement.isClaim : Statement → Bool
  | .claim _ _ => true
  | .remember _ => false

section Claim

variable {store written : Store} {statement : Statement}

theorem execute_claim (hclaim : statement.isClaim = true)
    (h : trigger.execute sha256 store statement = some written) :
    written.Taken trigger.workItemId := by
  cases statement with
  | remember outcome => cases hclaim
  | claim now databaseNow =>
      obtain ⟨items, hitems, rfl⟩ := Option.map_eq_some_iff.mp h
      obtain ⟨hwon, rfl⟩ := wrote_eq_some.mp hitems
      intro row hrow hid hstate
      rw [ExpirySweep.claim_won_state hwon hrow hid] at hstate
      cases hstate

theorem execute_taken (htaken : store.Taken trigger.workItemId)
    (hclaim : statement.isClaim = true) : trigger.execute sha256 store statement = none := by
  cases statement with
  | remember outcome => cases hclaim
  | claim now databaseNow =>
      refine Option.map_eq_none_iff.mpr (wrote_eq_none.mpr ?_)
      rw [← Bool.not_eq_true, WorkItemRepository.claim_won]
      intro hwon
      obtain ⟨row, hrow, hscoped, hclaimable⟩ := hwon
      exact htaken row hrow (WorkItemRow.scopedTo_iff.mp hscoped).2
        (WorkItemRow.claimable_iff.mp hclaimable).2.1

theorem execute_keeps (htaken : store.Taken trigger.workItemId)
    (h : trigger.execute sha256 store statement = some written) :
    written.Taken trigger.workItemId := by
  cases hclaim : statement.isClaim with
  | true =>
      rw [execute_taken htaken hclaim] at h
      cases h
  | false =>
      cases statement with
      | claim now databaseNow => cases hclaim
      | remember outcome =>
          rw [Trigger.execute] at h
          split at h
          · injection h with h
            exact h ▸ htaken
          · cases h

/-- Two claims that wrote, and stand, are one. -/
theorem same_claim (hserial : RowLock.Serial (trigger.execute sha256) initial world.store)
    {other : DeliveryId} (hclaimed : world.Claimed trigger delivery)
    (hother : world.Claimed trigger other) : delivery = other := by
  obtain ⟨databaseNow, hcall⟩ := hclaimed
  obtain ⟨otherNow, hcallOther⟩ := hother
  have hsame := hserial.same_winner (fun _ _ _ => execute_claim) (fun _ _ _ => execute_keeps)
    (fun _ _ => execute_taken) (List.mem_append_left _ hcall)
    (List.mem_append_left _ hcallOther) rfl rfl rfl rfl
  injection hsame

end Claim

/-! ## What each event does -/

section Steps

@[simp] theorem advance_store (stage : Stage) :
    (world.advance delivery stage).store = world.store := rfl

@[simp] theorem advance_reports (stage : Stage) :
    (world.advance delivery stage).reports = world.reports := rfl

@[simp] theorem advance_effects (stage : Stage) :
    (world.advance delivery stage).effects = world.effects := rfl

@[simp] theorem advance_stage (stage : Stage) :
    (world.advance delivery stage).stage delivery = stage := by
  show Function.update world.stage delivery stage delivery = stage
  rw [Function.update_self]

theorem advance_other {other : DeliveryId} (stage : Stage) (hother : other ≠ delivery) :
    (world.advance delivery stage).stage other = world.stage other := by
  show Function.update world.stage delivery stage other = world.stage other
  rw [Function.update_of_ne hother]

/-- The claim is refused, and the delivery told to stop; or it has written. -/
theorem claim_cases (h : world.claim sha256 trigger delivery databaseNow = some next) :
    world.stage delivery = .received ∧
      RowLock.step (trigger.execute sha256) world.store
        (.call delivery (.claim (trigger.now delivery) databaseNow)) = some next.store ∧
      ((next.store.opened = world.store.opened ++
            [⟨delivery, .claim (trigger.now delivery) databaseNow, false⟩] ∧
          next = { world with store := next.store }.advance delivery
            (.returned ⟨trigger.workItemId.value.toText, false, false, false⟩)) ∨
        (next.store.opened = world.store.opened ++
            [⟨delivery, .claim (trigger.now delivery) databaseNow, true⟩] ∧
          next = { world with store := next.store }.advance delivery .claimed)) := by
  unfold World.claim at h
  split at h
  · next hstage =>
      obtain ⟨store, hstore, rfl⟩ := Option.map_eq_some_iff.mp h
      refine ⟨hstage, hstore, ?_⟩
      rcases RowLock.call_cases (RowLock.step_cases hstore).2 with
        ⟨hrefused, rfl⟩ | ⟨written, hwritten, hfree, rfl⟩
      · refine Or.inl ⟨rfl, ?_⟩
        rw [hrefused]
        rfl
      · refine Or.inr ⟨rfl, ?_⟩
        rw [RowLock.World.seenBy_free hfree, hwritten]
        rfl
  · cases h

theorem begin_cases (h : world.begin sha256 trigger delivery = some next) :
    world.stage delivery = .claimed ∧
      (next = world.advance delivery
          (.returned ⟨trigger.workItemId.value.toText, false, true, true⟩) ∨
        next = world.advance delivery .executing) := by
  unfold World.begin at h
  split at h
  · next hstage =>
      injection h with h
      refine ⟨hstage, ?_⟩
      rw [← h]
      split
      · exact Or.inl rfl
      · exact Or.inr rfl
  · cases h

theorem perform_cases (h : world.perform trigger delivery = some next) :
    world.stage delivery = .executing ∧
      next = { world with effects := world.effects ++ [delivery] }.advance delivery
        (.performed (performInertOperation trigger.workItemId trigger.correlationId)) := by
  unfold World.perform at h
  split at h
  · next hstage =>
      injection h with h
      exact ⟨hstage, h.symm⟩
  · cases h

theorem complete_cases (h : world.complete sha256 trigger delivery = some next) :
    ∃ outcome, world.stage delivery = .performed outcome ∧
      RowLock.step (trigger.execute sha256) world.store
        (.call delivery (.remember (stored outcome))) = some next.store ∧
      next = { world with store := next.store }.advance delivery .recorded := by
  unfold World.complete at h
  split at h
  · next outcome hstage =>
      obtain ⟨store, hstore, rfl⟩ := Option.map_eq_some_iff.mp h
      exact ⟨outcome, hstage, hstore, rfl⟩
  · cases h

theorem notify_cases (h : world.notify trigger delivery = some next) :
    world.stage delivery = .recorded ∧
      ∃ notified, next = { world with notified }.advance delivery
        (.returned ⟨trigger.workItemId.value.toText, true, false, true⟩) := by
  unfold World.notify at h
  split at h
  · next hstage =>
      injection h with h
      exact ⟨hstage, _, h.symm⟩
  · cases h

theorem commit_cases (h : world.commit sha256 trigger delivery = some next) :
    ∃ result, world.stage delivery = .returned result ∧
      RowLock.step (trigger.execute sha256) world.store (.commit delivery) = some next.store ∧
      next = { world with
          store := next.store
          reports := world.reports ++ [(delivery, result)] }.advance delivery .finished := by
  unfold World.commit at h
  split at h
  · next result hstage =>
      obtain ⟨store, hstore, rfl⟩ := Option.map_eq_some_iff.mp h
      exact ⟨result, hstage, hstore, rfl⟩
  · cases h

theorem crash_cases (h : world.crash sha256 trigger delivery = some next) :
    RowLock.step (trigger.execute sha256) world.store (.rollback delivery) = some next.store ∧
      next = { world with store := next.store }.advance delivery .finished := by
  unfold World.crash at h
  obtain ⟨store, hstore, rfl⟩ := Option.map_eq_some_iff.mp h
  exact ⟨hstore, rfl⟩

/-- To the store every event is at most one event of the delivery's transaction, and
to the stages at most a move of the delivery. -/
theorem step_shape (h : world.step sha256 trigger event = some next) :
    (next.store = world.store ∨ ∃ row, RowLock.World.transactionOf row = event.delivery ∧
      RowLock.step (trigger.execute sha256) world.store row = some next.store) ∧
    ∀ other, other ≠ event.delivery → next.stage other = world.stage other := by
  cases event with
  | claim delivery databaseNow =>
      obtain ⟨_, hstore, hnext⟩ := claim_cases h
      refine ⟨Or.inr ⟨_, rfl, hstore⟩, ?_⟩
      intro other hother
      rcases hnext with ⟨_, hnext⟩ | ⟨_, hnext⟩
      · rw [hnext]
        exact advance_other _ hother
      · rw [hnext]
        exact advance_other _ hother
  | begin delivery =>
      rcases (begin_cases h).2 with rfl | rfl
      · exact ⟨Or.inl rfl, fun _ => advance_other _⟩
      · exact ⟨Or.inl rfl, fun _ => advance_other _⟩
  | perform delivery =>
      obtain ⟨_, rfl⟩ := perform_cases h
      exact ⟨Or.inl rfl, fun _ => advance_other _⟩
  | complete delivery =>
      obtain ⟨_, _, hstore, hnext⟩ := complete_cases h
      refine ⟨Or.inr ⟨_, rfl, hstore⟩, ?_⟩
      intro other hother
      rw [hnext]
      exact advance_other _ hother
  | notify delivery =>
      obtain ⟨_, _, rfl⟩ := notify_cases h
      exact ⟨Or.inl rfl, fun _ => advance_other _⟩
  | commit delivery =>
      obtain ⟨_, _, hstore, hnext⟩ := commit_cases h
      refine ⟨Or.inr ⟨_, rfl, hstore⟩, ?_⟩
      intro other hother
      rw [hnext]
      exact advance_other _ hother
  | crash delivery =>
      obtain ⟨hstore, hnext⟩ := crash_cases h
      refine ⟨Or.inr ⟨_, rfl, hstore⟩, ?_⟩
      intro other hother
      rw [hnext]
      exact advance_other _ hother

/-- Only a commit lets a report out, and only `perform` has an effect. -/
theorem step_frame (h : world.step sha256 trigger event = some next) :
    (next.reports = world.reports ∨ ∃ delivery, event = .commit delivery) ∧
      (next.effects = world.effects ∨ ∃ delivery, event = .perform delivery) := by
  cases event with
  | claim delivery databaseNow =>
      rcases (claim_cases h).2.2 with ⟨_, hnext⟩ | ⟨_, hnext⟩
      · exact ⟨Or.inl (hnext ▸ rfl), Or.inl (hnext ▸ rfl)⟩
      · exact ⟨Or.inl (hnext ▸ rfl), Or.inl (hnext ▸ rfl)⟩
  | begin delivery =>
      rcases (begin_cases h).2 with rfl | rfl
      · exact ⟨Or.inl rfl, Or.inl rfl⟩
      · exact ⟨Or.inl rfl, Or.inl rfl⟩
  | perform delivery =>
      rw [(perform_cases h).2]
      exact ⟨Or.inl rfl, Or.inr ⟨delivery, rfl⟩⟩
  | complete delivery =>
      obtain ⟨_, _, _, hnext⟩ := complete_cases h
      exact ⟨Or.inl (hnext ▸ rfl), Or.inl (hnext ▸ rfl)⟩
  | notify delivery =>
      obtain ⟨_, _, rfl⟩ := notify_cases h
      exact ⟨Or.inl rfl, Or.inl rfl⟩
  | commit delivery =>
      obtain ⟨_, _, _, hnext⟩ := commit_cases h
      exact ⟨Or.inr ⟨delivery, rfl⟩, Or.inl (hnext ▸ rfl)⟩
  | crash delivery =>
      rw [(crash_cases h).2]
      exact ⟨Or.inl rfl, Or.inl rfl⟩

/-- A delivery that has returned can commit or crash, and a finished one crash. -/
theorem step_from (h : world.step sha256 trigger event = some next) :
    event = .crash event.delivery ∨
      world.stage event.delivery ≠ .finished ∧
        ((∀ result, world.stage event.delivery ≠ .returned result) ∨
          event = .commit event.delivery) := by
  have hstarts : ∀ stage, world.stage event.delivery = stage → stage ≠ .finished →
      (∀ result, stage ≠ .returned result) →
      world.stage event.delivery ≠ .finished ∧
        ((∀ result, world.stage event.delivery ≠ .returned result) ∨
          event = .commit event.delivery) := by
    intro stage hstage hfinished hreturned
    rw [hstage]
    exact ⟨hfinished, Or.inl hreturned⟩
  cases event with
  | claim delivery databaseNow =>
      exact Or.inr (hstarts _ (claim_cases h).1 (by simp) (by simp))
  | begin delivery => exact Or.inr (hstarts _ (begin_cases h).1 (by simp) (by simp))
  | perform delivery => exact Or.inr (hstarts _ (perform_cases h).1 (by simp) (by simp))
  | complete delivery =>
      obtain ⟨_, hstage, _⟩ := complete_cases h
      exact Or.inr (hstarts _ hstage (by simp) (by simp))
  | notify delivery => exact Or.inr (hstarts _ (notify_cases h).1 (by simp) (by simp))
  | commit delivery =>
      obtain ⟨_, hstage, _⟩ := commit_cases h
      refine Or.inr ⟨?_, Or.inr rfl⟩
      show world.stage delivery ≠ .finished
      rw [hstage]
      simp
  | crash delivery => exact Or.inl rfl

end Steps

/-! ## The invariant -/

section Invariant

/-- Another delivery's event leaves where a delivery stands. -/
theorem sound_other (h : world.step sha256 trigger event = some next)
    (hother : delivery ≠ event.delivery) (hsound : world.Sound trigger delivery) :
    next.Sound trigger delivery := by
  obtain ⟨hstore, hstage⟩ := step_shape h
  have hclaim : world.HasClaim trigger delivery → next.HasClaim trigger delivery := by
    intro hclaim
    obtain ⟨databaseNow, hcall⟩ := hclaim
    refine ⟨databaseNow, ?_⟩
    rcases hstore with hsame | ⟨row, hrow, hstep⟩
    · rw [hsame]
      exact hcall
    · exact RowLock.opened_kept hstep hcall (hrow ▸ hother)
  have hnothing : world.WroteNothing delivery → next.WroteNothing delivery := by
    intro hnothing pending hheld
    rcases hstore with hsame | ⟨row, hrow, hstep⟩
    · rw [hsame] at hheld
      exact hnothing pending hheld
    · exact hnothing pending (RowLock.holder_before hstep (hrow ▸ hother) hheld)
  unfold World.Sound at hsound ⊢
  rw [hstage delivery hother]
  split at hsound
  · exact hnothing hsound
  · rcases hsound with ⟨hwon, hclaimed⟩ | ⟨hlost, hinert, hwrote⟩
    · exact Or.inl ⟨hwon, hclaim hclaimed⟩
    · exact Or.inr ⟨hlost, hinert, hnothing hwrote⟩
  · trivial
  · exact hclaim hsound
  · exact hclaim hsound
  · exact hclaim hsound
  · exact hclaim hsound

theorem sound_advance {stage : Stage} :
    (world.advance delivery stage).Sound trigger delivery ↔
      match stage with
      | .received => world.WroteNothing delivery
      | .returned result =>
          (result.claimWon = true ∧ world.HasClaim trigger delivery) ∨
            (result.claimWon = false ∧ result.hadEffect = false ∧ world.WroteNothing delivery)
      | .finished => True
      | .claimed | .executing | .performed _ | .recorded => world.HasClaim trigger delivery := by
  unfold World.Sound
  rw [advance_stage]
  cases stage <;> rfl

/-- A delivery's own event moves it to where it is said to stand. -/
theorem sound_own (h : world.step sha256 trigger event = some next)
    (hsound : world.Sound trigger event.delivery) : next.Sound trigger event.delivery := by
  cases event with
  | claim delivery databaseNow =>
      obtain ⟨hstage, hstore, hnext⟩ := claim_cases h
      rw [World.Sound, show world.stage (Event.claim delivery databaseNow).delivery = _ from hstage]
        at hsound
      rcases hnext with ⟨hopened, hnext⟩ | ⟨hopened, hnext⟩
      · rw [hnext]
        refine sound_advance.mpr (Or.inr ⟨rfl, rfl, ?_⟩)
        intro pending hheld
        rw [show World.store _ = next.store from rfl, (RowLock.call_lost hstore hopened).2] at hheld
        exact hsound pending hheld
      · rw [hnext]
        refine sound_advance.mpr ⟨databaseNow, ?_⟩
        show _ ∈ next.store.opened
        rw [hopened]
        exact List.mem_append_right _ List.mem_cons_self
  | begin delivery =>
      obtain ⟨hstage, hnext⟩ := begin_cases h
      rw [World.Sound, show world.stage (Event.begin delivery).delivery = _ from hstage] at hsound
      rcases hnext with rfl | rfl
      · exact sound_advance.mpr (Or.inl ⟨rfl, hsound⟩)
      · exact sound_advance.mpr hsound
  | perform delivery =>
      obtain ⟨hstage, rfl⟩ := perform_cases h
      rw [World.Sound, show world.stage (Event.perform delivery).delivery = _ from hstage]
        at hsound
      exact sound_advance.mpr hsound
  | complete delivery =>
      obtain ⟨outcome, hstage, hstore, hnext⟩ := complete_cases h
      rw [World.Sound, show world.stage (Event.complete delivery).delivery = _ from hstage]
        at hsound
      obtain ⟨databaseNow, hcall⟩ := hsound
      obtain ⟨won, hopened⟩ := RowLock.call_opened hstore
      rw [hnext]
      refine sound_advance.mpr ⟨databaseNow, ?_⟩
      show _ ∈ next.store.opened
      rw [hopened]
      exact List.mem_append_left _ hcall
  | notify delivery =>
      obtain ⟨hstage, notified, rfl⟩ := notify_cases h
      rw [World.Sound, show world.stage (Event.notify delivery).delivery = _ from hstage]
        at hsound
      exact sound_advance.mpr (Or.inl ⟨rfl, hsound⟩)
  | commit delivery =>
      obtain ⟨result, _, _, hnext⟩ := commit_cases h
      rw [hnext]
      exact sound_advance.mpr trivial
  | crash delivery =>
      obtain ⟨_, hnext⟩ := crash_cases h
      rw [hnext]
      exact sound_advance.mpr trivial

theorem sound_step (h : world.step sha256 trigger event = some next)
    (hsound : ∀ delivery, world.Sound trigger delivery) (delivery : DeliveryId) :
    next.Sound trigger delivery := by
  by_cases hother : delivery = event.delivery
  · rw [hother]
    exact sound_own h (hsound event.delivery)
  · exact sound_other h hother (hsound delivery)

theorem finished_step (h : world.step sha256 trigger event = some next)
    (hfinished : world.stage delivery = .finished) : next.stage delivery = .finished := by
  by_cases hother : delivery = event.delivery
  · rw [hother] at hfinished
    rcases step_from h with hcrash | ⟨hunfinished, _⟩
    · rw [hcrash] at h
      rw [hother, (crash_cases h).2]
      exact advance_stage .finished
    · exact absurd hfinished hunfinished
  · rw [(step_shape h).2 delivery hother]
    exact hfinished

/-- What a commit reports is what the delivery returned. -/
theorem reports_step (h : world.step sha256 trigger event = some next) :
    next.reports = world.reports ∨
      ∃ delivery result, event = .commit delivery ∧ world.stage delivery = .returned result ∧
        next.reports = world.reports ++ [(delivery, result)] := by
  rcases (step_frame h).1 with hsame | ⟨delivery, rfl⟩
  · exact Or.inl hsame
  · obtain ⟨result, hstage, _, hnext⟩ := commit_cases h
    exact Or.inr ⟨delivery, result, rfl, hstage, hnext ▸ rfl⟩

theorem claimed_step (h : world.step sha256 trigger event = some next)
    (hclaimed : world.Claimed trigger delivery) : next.Claimed trigger delivery := by
  obtain ⟨databaseNow, hcall⟩ := hclaimed
  refine ⟨databaseNow, ?_⟩
  rcases (step_shape h).1 with hsame | ⟨row, _, hstep⟩
  · rw [hsame]
    exact hcall
  · exact RowLock.settled_kept hstep hcall

theorem inv_start (store : Store) : (start store).Inv sha256 trigger store where
  serial := RowLock.serial_start
  sound _ := fun _ hheld => by cases hheld
  reported _ hreport := absurd hreport List.not_mem_nil
  once := List.nodup_nil

theorem inv_step (h : world.Inv sha256 trigger initial)
    (hstep : world.step sha256 trigger event = some next) :
    next.Inv sha256 trigger initial := by
  have hserial : RowLock.Serial (trigger.execute sha256) initial next.store := by
    rcases (step_shape hstep).1 with hsame | ⟨row, _, hrow⟩
    · rw [hsame]
      exact h.serial
    · exact h.serial.step hrow
  have hbefore : ∀ report ∈ world.reports, next.stage report.1 = .finished ∧
      (report.2.hadEffect = true → next.Claimed trigger report.1) := by
    intro report hreport
    obtain ⟨hfinished, hclaimed⟩ := h.reported report hreport
    exact ⟨finished_step hstep hfinished, fun heffect => claimed_step hstep (hclaimed heffect)⟩
  rcases reports_step hstep with hsame | ⟨delivery, result, rfl, hstage, hreports⟩
  · refine ⟨hserial, sound_step hstep h.sound, ?_, ?_⟩
    · rw [hsame]
      exact hbefore
    · rw [hsame]
      exact h.once
  · refine ⟨hserial, sound_step hstep h.sound, ?_, ?_⟩
    · rw [hreports]
      intro report hreport
      rcases List.mem_append.mp hreport with hold | hnew
      · exact hbefore report hold
      · rw [List.mem_singleton.mp hnew]
        obtain ⟨_, _, hstore, hnext⟩ := commit_cases hstep
        refine ⟨hnext ▸ advance_stage .finished, ?_⟩
        intro heffect
        have hsound := h.sound delivery
        rw [World.Sound, hstage] at hsound
        rcases hsound with ⟨_, databaseNow, hcall⟩ | ⟨_, hinert, _⟩
        · exact ⟨databaseNow, RowLock.commit_settled hstore hcall rfl⟩
        · rw [hinert] at heffect
          cases heffect
    · rw [hreports, List.map_append, List.nodup_append]
      refine ⟨h.once, List.nodup_singleton _, ?_⟩
      intro reported hreported other hother
      obtain ⟨report, hreport, rfl⟩ := List.mem_map.mp hreported
      rw [List.mem_singleton.mp hother]
      intro hsame
      have hfinished := (h.reported report hreport).1
      rw [hsame, hstage] at hfinished
      cases hfinished

theorem inv_run {events : List Event}
    (hrun : Machine.run (World.step sha256 trigger) (start initial) events = some world) :
    world.Inv sha256 trigger initial :=
  Machine.invariant_run (fun _ _ _ => inv_step) (inv_start initial) hrun

end Invariant

/-! ## One effect -/

section OneEffect

theorem World.Inv.one_report (h : world.Inv sha256 trigger initial) :
    world.reports.countP (fun report => report.2.hadEffect) ≤ 1 := by
  rw [List.countP_eq_length_filter]
  have hreported : ∀ report ∈ world.reports.filter fun report => report.2.hadEffect,
      world.Claimed trigger report.1 := by
    intro report hreport
    obtain ⟨hmem, heffect⟩ := List.mem_filter.mp hreport
    exact (h.reported report hmem).2 heffect
  have honce := h.once.sublist
    (List.filter_sublist.map Prod.fst : ((world.reports.filter
      fun report => report.2.hadEffect).map Prod.fst).Sublist _)
  match hreports : world.reports.filter fun report => report.2.hadEffect with
  | [] =>
      rw [hreports]
      exact Nat.zero_le 1
  | [_] =>
      rw [hreports]
      exact Nat.le_refl 1
  | first :: second :: _ =>
      rw [hreports] at hreported honce
      have hsame := same_claim h.serial (hreported first List.mem_cons_self)
        (hreported second (List.mem_cons_of_mem _ List.mem_cons_self))
      rw [List.map_cons, List.map_cons, hsame] at honce
      exact absurd List.mem_cons_self (List.nodup_cons.mp honce).1

/-- The operation is performed by a delivery whose claim has succeeded. -/
theorem World.Inv.effect_claimed (h : world.Inv sha256 trigger initial)
    (hstep : world.step sha256 trigger event = some next) :
    next.effects = world.effects ∨ ∃ delivery, next.effects = world.effects ++ [delivery] ∧
      world.HasClaim trigger delivery := by
  rcases (step_frame hstep).2 with hsame | ⟨delivery, rfl⟩
  · exact Or.inl hsame
  · obtain ⟨hstage, rfl⟩ := perform_cases hstep
    have hsound := h.sound delivery
    rw [World.Sound, hstage] at hsound
    exact Or.inr ⟨delivery, rfl, hsound⟩

/-- A delivery told to stop ends its unit of work, one way or the other. -/
theorem lost_ends (hstep : world.step sha256 trigger event = some next)
    (hlost : world.LostClaim event.delivery) :
    ∃ row, RowLock.step (trigger.execute sha256) world.store row = some next.store ∧
      (row = .commit event.delivery ∨ row = .rollback event.delivery) := by
  obtain ⟨result, hstage, _⟩ := hlost
  rcases step_from hstep with hcrash | ⟨_, hstarted | hcommit⟩
  · rw [hcrash] at hstep
    exact ⟨_, (crash_cases hstep).1, Or.inr rfl⟩
  · exact absurd hstage (hstarted result)
  · rw [hcommit] at hstep
    obtain ⟨_, _, hstore, _⟩ := commit_cases hstep
    exact ⟨_, hstore, Or.inl rfl⟩

theorem lostClaim_advance {stage : Stage} :
    (world.advance delivery stage).LostClaim delivery ↔
      ∃ result, stage = .returned result ∧ result.claimWon = false := by
  unfold World.LostClaim
  rw [advance_stage]

/-- It is the claim that tells a delivery to stop. -/
theorem lost_claims (hstep : world.step sha256 trigger event = some next)
    (hlost : next.LostClaim event.delivery) :
    ∃ statement, RowLock.step (trigger.execute sha256) world.store
        (.call event.delivery statement) = some next.store ∧
      next.store.opened = world.store.opened ++ [⟨event.delivery, statement, false⟩] := by
  cases event with
  | claim delivery databaseNow =>
      obtain ⟨_, hstore, hnext⟩ := claim_cases hstep
      rcases hnext with ⟨hopened, _⟩ | ⟨_, hnext⟩
      · exact ⟨_, hstore, hopened⟩
      · rw [hnext] at hlost
        obtain ⟨_, hstage, _⟩ := lostClaim_advance.mp hlost
        cases hstage
  | begin delivery =>
      rcases (begin_cases hstep).2 with rfl | rfl
      · obtain ⟨_, hstage, hwon⟩ := lostClaim_advance.mp hlost
        injection hstage with hstage
        rw [← hstage] at hwon
        cases hwon
      · obtain ⟨_, hstage, _⟩ := lostClaim_advance.mp hlost
        cases hstage
  | perform delivery =>
      rw [(perform_cases hstep).2] at hlost
      obtain ⟨_, hstage, _⟩ := lostClaim_advance.mp hlost
      cases hstage
  | complete delivery =>
      obtain ⟨_, _, _, hnext⟩ := complete_cases hstep
      rw [hnext] at hlost
      obtain ⟨_, hstage, _⟩ := lostClaim_advance.mp hlost
      cases hstage
  | notify delivery =>
      obtain ⟨_, _, rfl⟩ := notify_cases hstep
      obtain ⟨_, hstage, hwon⟩ := lostClaim_advance.mp hlost
      injection hstage with hstage
      rw [← hstage] at hwon
      cases hwon
  | commit delivery =>
      obtain ⟨_, _, _, hnext⟩ := commit_cases hstep
      rw [hnext] at hlost
      obtain ⟨_, hstage, _⟩ := lostClaim_advance.mp hlost
      cases hstage
  | crash delivery =>
      rw [(crash_cases hstep).2] at hlost
      obtain ⟨_, hstage, _⟩ := lostClaim_advance.mp hlost
      cases hstage

/-- The step on which a delivery loses the claim, and every step it takes after. -/
theorem World.Inv.lost_untouched (h : world.Inv sha256 trigger initial)
    (hstep : world.step sha256 trigger event = some next)
    (hlost : world.LostClaim event.delivery ∨ next.LostClaim event.delivery) :
    next.store.committed = world.store.committed ∧ next.store.holder = world.store.holder := by
  rcases hlost with hlost | hlost
  · obtain ⟨row, hrow, hends⟩ := lost_ends hstep hlost
    obtain ⟨result, hstage, hstopped⟩ := hlost
    have hsound := h.sound event.delivery
    rw [World.Sound, hstage] at hsound
    rcases hsound with ⟨hwon, _⟩ | ⟨_, _, hnothing⟩
    · rw [hstopped] at hwon
      cases hwon
    · exact RowLock.ends_untouched hrow hends hnothing
  · obtain ⟨statement, hrow, hopened⟩ := lost_claims hstep hlost
    exact RowLock.call_lost hrow hopened

end OneEffect

/-- **At most one delivery has an effect.** In every state that any number of
deliveries of one trigger reach, crashes and redeliveries included: at most one
reported an effect; where a step performs the operation, it is a delivery's whose
claim has succeeded; and a delivery that loses the claim leaves the work items, the
idempotency records and the audit trail, committed and pending, as they were, on
that step and on every step it takes after. -/
theorem one_delivery_has_effect {events : List Event}
    (hrun : Machine.run (World.step sha256 trigger) (start initial) events = some world) :
    world.reports.countP (fun report => report.2.hadEffect) ≤ 1 ∧
    ∀ event next, world.step sha256 trigger event = some next →
      (next.effects = world.effects ∨ ∃ delivery,
        next.effects = world.effects ++ [delivery] ∧ world.HasClaim trigger delivery) ∧
      (world.LostClaim event.delivery ∨ next.LostClaim event.delivery →
        next.store.committed = world.store.committed ∧
        next.store.current = world.store.current) := by
  have h := inv_run hrun
  refine ⟨h.one_report, ?_⟩
  intro event next hstep
  refine ⟨h.effect_claimed hstep, ?_⟩
  intro hlost
  obtain ⟨hcommitted, hholder⟩ := h.lost_untouched hstep hlost
  refine ⟨hcommitted, ?_⟩
  rw [RowLock.World.current, RowLock.World.current, hcommitted, hholder]

/-! ### A crash, a redelivery and a duplicate -/

/-- The digest of the one text derived below. -/
def reservedSha256 (_ : List CodePoint) : List CodePoint :=
  ofString "3c7440775da616025f73c0255ccc00e3fce96ac133a38e18cab8dcbed155d297"

def reservedTrigger : Trigger where
  tenant := ⟨⟨1⟩, ⟨1⟩, .active, .workItem⟩
  workItemId := ⟨2⟩
  operationId := ⟨3⟩
  requester := ⟨7⟩
  correlationId := ofString "corr-duplicate-1"
  notifications := true
  now _ := 50

def reservedItem : WorkItemRow :=
  ⟨⟨2⟩, ⟨1⟩, ⟨4⟩, ⟨7⟩, .authorized, .none, some 100, none, none, 1, 0, WorkItemRow.unclaimed⟩

/-- One work item inside its window, and the reserved row of its key. -/
def reservedStore : Store where
  workItems := ⟨[reservedItem], List.nodup_singleton _⟩
  records := ⟨[⟨reservedTrigger.key reservedSha256, ⟨1⟩, ⟨3⟩, none⟩], List.nodup_singleton _⟩
  audit := ⟨[], List.nodup_nil⟩

/-- The first delivery crashes with its claim uncommitted; the second runs through,
and the third finds the item claimed. -/
def threeDeliveries : List Event :=
  [.claim 0 51, .begin 0, .perform 0, .crash 0, .claim 1 52, .begin 1, .perform 1, .complete 1,
    .notify 1, .commit 1, .claim 2 53, .commit 2]

theorem three_deliveries_one_effect :
    ∃ world, Machine.run (World.step reservedSha256 reservedTrigger) (start reservedStore)
        threeDeliveries = some world ∧
      world.reports.map Prod.fst = [1, 2] ∧
      world.reports.countP (fun report => report.2.hadEffect) ≤ 1 := by
  refine ⟨_, rfl, by rfl, ?_⟩
  exact (one_delivery_has_effect (show Machine.run (World.step reservedSha256 reservedTrigger)
    (start reservedStore) threeDeliveries = some _ from rfl)).1

end Synthia.SampleFlow
