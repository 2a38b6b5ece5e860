import Synthia.Proofs.Recording

/-!
# What was sent, and by which delivery

A delivery sends at most one request, after it was let through the access check
and before anything is recorded of it. That much is so on every run. Two things the
code says of itself are not: that a delivery it abandons has sent nothing, and that
a capability without a key is not invoked again.
-/

namespace Synthia.Integrations

open Text

/-! ## The trace a delivery has left -/

/-- What is remembered of a delivery that stands here. -/
def Stage.Traced (sent : List Invocation) (admitted : List Admission) (id : DeliveryId) :
    Stage → Prop
  | .commanded | .loaded _ _ =>
      id ∉ sent.map Invocation.delivery ∧ id ∉ admitted.map Admission.delivery
  | .admitted instruction binding | .cleared instruction binding _ =>
      id ∉ sent.map Invocation.delivery ∧
        ⟨id, instruction.operation, binding.idempotencyPolicy⟩ ∈ admitted
  | .awaiting instruction binding _ =>
      ⟨id, instruction.operation, binding.idempotencyPolicy⟩ ∈ admitted
  | _ => True

structure World.Traced (sha256 : List CodePoint → List CodePoint) (world : World) : Prop where
  stages : ∀ id command stage, world.At id command stage →
    stage.Traced world.sent world.admitted id
  fresh : ∀ id, world.deliveries id = none →
    id ∉ world.sent.map Invocation.delivery ∧ id ∉ world.admitted.map Admission.delivery
  /-- A request went out of a delivery that had been let through. -/
  admitted : ∀ invocation ∈ world.sent,
    ⟨invocation.delivery, invocation.instruction.operation,
      invocation.binding.idempotencyPolicy⟩ ∈ world.admitted
  once : (world.sent.map Invocation.delivery).Nodup
  /-- It carried the key its binding asks for. -/
  keyed : ∀ invocation ∈ world.sent,
    invocation.key = keyFor sha256 invocation.instruction invocation.binding

section

variable {sha256 : List CodePoint → List CodePoint} {world next : World}

theorem World.traced_start : World.Traced sha256 {} where
  stages _ _ _ h := nomatch h
  fresh _ _ := ⟨List.not_mem_nil, List.not_mem_nil⟩
  admitted _ h := absurd h List.not_mem_nil
  once := List.nodup_nil
  keyed _ h := absurd h List.not_mem_nil

/-- A delivery's trace does not change when another's does. -/
theorem Stage.Traced.other {stage : Stage} {id other : DeliveryId} {sent : List Invocation}
    {admitted : List Admission} (h : stage.Traced sent admitted other) (hother : other ≠ id)
    {requests : List Invocation} (hrequests : ∀ request ∈ requests, request.delivery = id)
    {admissions : List Admission}
    (hadmissions : ∀ admission ∈ admissions, admission.delivery = id) :
    stage.Traced (sent ++ requests) (admitted ++ admissions) other := by
  have hunsent : other ∉ sent.map Invocation.delivery →
      other ∉ (sent ++ requests).map Invocation.delivery := by
    intro hno hyes
    obtain ⟨request, hrequest, hdelivery⟩ := List.mem_map.mp hyes
    rcases List.mem_append.mp hrequest with hold | hnew
    · exact hno (List.mem_map.mpr ⟨request, hold, hdelivery⟩)
    · exact hother (hdelivery.symm.trans (hrequests request hnew))
  have hunadmitted : other ∉ admitted.map Admission.delivery →
      other ∉ (admitted ++ admissions).map Admission.delivery := by
    intro hno hyes
    obtain ⟨admission, hadmission, hdelivery⟩ := List.mem_map.mp hyes
    rcases List.mem_append.mp hadmission with hold | hnew
    · exact hno (List.mem_map.mpr ⟨admission, hold, hdelivery⟩)
    · exact hother (hdelivery.symm.trans (hadmissions admission hnew))
  cases stage with
  | commanded | loaded => exact ⟨hunsent h.1, hunadmitted h.2⟩
  | admitted | cleared => exact ⟨hunsent h.1, List.mem_append.mpr (Or.inl h.2)⟩
  | awaiting => exact List.mem_append.mpr (Or.inl h)
  | concluded | recording | duplicate | settled | lost => trivial

/-- One delivery moves, and leaves what trace it leaves. -/
theorem World.Traced.moved (h : world.Traced sha256) {id : DeliveryId}
    {received : Option MessageEnvelope} {after : Stage} {requests : List Invocation}
    {admissions : List Admission}
    (hdeliveries : next.deliveries =
      Function.update world.deliveries id (some ⟨received, after⟩))
    (hsent : next.sent = world.sent ++ requests)
    (hrequests : ∀ request ∈ requests, request.delivery = id)
    (hadmitted : next.admitted = world.admitted ++ admissions)
    (hadmissions : ∀ admission ∈ admissions, admission.delivery = id)
    (hafter : ∀ command, received = some command → after.Traced next.sent next.admitted id)
    (hgranted : ∀ invocation ∈ requests,
      ⟨invocation.delivery, invocation.instruction.operation,
        invocation.binding.idempotencyPolicy⟩ ∈ next.admitted)
    (honce : (next.sent.map Invocation.delivery).Nodup)
    (hkeyed : ∀ invocation ∈ requests,
      invocation.key = keyFor sha256 invocation.instruction invocation.binding) :
    next.Traced sha256 := by
  refine ⟨?_, ?_, ?_, honce, ?_⟩
  · intro other command stage hat
    rcases (World.at_iff hdeliveries).mp hat with ⟨rfl, hreceived, rfl⟩ | ⟨hother, hold⟩
    · exact hafter command hreceived
    · rw [hsent, hadmitted]
      exact (h.stages other command stage hold).other hother hrequests hadmissions
  · intro other hnone
    have hother : other ≠ id := by
      rintro rfl
      rw [hdeliveries, Function.update_self] at hnone
      cases hnone
    rw [hdeliveries, Function.update_of_ne hother] at hnone
    have hnever : Stage.commanded.Traced world.sent world.admitted other := h.fresh other hnone
    rw [hsent, hadmitted]
    exact hnever.other hother hrequests hadmissions
  · intro invocation hinvocation
    rw [hsent] at hinvocation
    rcases List.mem_append.mp hinvocation with hold | hnew
    · rw [hadmitted]
      exact List.mem_append.mpr (Or.inl (h.admitted invocation hold))
    · exact hgranted invocation hnew
  · intro invocation hinvocation
    rw [hsent] at hinvocation
    rcases List.mem_append.mp hinvocation with hold | hnew
    · exact h.keyed invocation hold
    · exact hkeyed invocation hnew

/-- One delivery moves and leaves none. -/
theorem World.Traced.quiet (h : world.Traced sha256) {id : DeliveryId}
    {received : Option MessageEnvelope} {after : Stage}
    (hdeliveries : next.deliveries =
      Function.update world.deliveries id (some ⟨received, after⟩))
    (hsent : next.sent = world.sent) (hadmitted : next.admitted = world.admitted)
    (hafter : ∀ command, received = some command →
      after.Traced world.sent world.admitted id) : next.Traced sha256 := by
  refine @World.Traced.moved _ _ _ h _ _ _ [] [] hdeliveries ?_ (fun _ h => nomatch h) ?_
    (fun _ h => nomatch h) ?_ (fun _ h => nomatch h) ?_ fun _ h => nomatch h
  · rw [hsent, List.append_nil]
  · rw [hadmitted, List.append_nil]
  · rw [hsent, hadmitted]
    exact hafter
  · rw [hsent]
    exact h.once

theorem ExecutionLeg.load_traced {jobs : JobTable} {workItems : WorkItemTable}
    {tenants : List TenantMappingRow} {now : Instant} {command : MessageEnvelope}
    {sent : List Invocation} {admitted : List Admission} {id : DeliveryId}
    (h : Stage.commanded.Traced sent admitted id) :
    (ExecutionLeg.load jobs workItems tenants now command).Traced sent admitted id := by
  unfold ExecutionLeg.load
  split
  · trivial
  · trivial
  · split
    · trivial
    · exact h

theorem ExecutionLeg.lookUp_traced {executions : List ExecutionRecord}
    {instruction : Instruction} {binding : ConnectorBinding} {started : Instant}
    {sent : List Invocation} {admitted : List Admission} {id : DeliveryId}
    (h : (Stage.admitted instruction binding).Traced sent admitted id) :
    (ExecutionLeg.lookUp sha256 executions instruction binding started).Traced sent admitted
      id := by
  unfold ExecutionLeg.lookUp
  split
  · split
    · trivial
    · exact h
  · exact h

theorem World.delivery_of_mem_admissionOf {id : DeliveryId} {stage : Stage}
    {admission : Admission} (h : admission ∈ World.admissionOf id stage) :
    admission.delivery = id := by
  cases stage with
  | admitted instruction binding => rw [List.mem_singleton.mp h]
  | _ => exact absurd h List.not_mem_nil

theorem ExecutionLeg.evaluate_traced {catalogue : CatalogueRepository}
    {registry : ConnectorRegistry} {command : MessageEnvelope} {instruction : Instruction}
    {now : Instant} {sent : List Invocation} {admitted : List Admission} {id : DeliveryId}
    (h : id ∉ sent.map Invocation.delivery) :
    (ExecutionLeg.evaluate catalogue registry command instruction now).Traced sent
      (admitted ++ World.admissionOf id
        (ExecutionLeg.evaluate catalogue registry command instruction now)) id := by
  unfold ExecutionLeg.evaluate
  dsimp only
  split
  · trivial
  · split
    · exact ⟨h, List.mem_append.mpr (Or.inr List.mem_cons_self)⟩
    · trivial

theorem World.Traced.step (h : world.Traced sha256) {action : Action}
    (hstep : Step sha256 world action next) : next.Traced sha256 := by
  cases hstep with
  | dispatch hfresh => exact ⟨h.stages, h.fresh, h.admitted, h.once, h.keyed⟩
  | deliver hnew =>
      refine h.quiet rfl rfl rfl ?_
      rintro command rfl
      unfold CommandConsumer.handle
      dsimp only
      split
      · trivial
      · exact h.fresh _ hnew
  | load hat => exact h.quiet rfl rfl rfl fun _ _ => ExecutionLeg.load_traced (h.stages _ _ _ hat)
  | evaluate hat =>
      refine h.moved rfl (List.append_nil _).symm (fun _ h => nomatch h) rfl
        (fun _ => World.delivery_of_mem_admissionOf) ?_ (fun _ h => nomatch h) h.once
        fun _ h => nomatch h
      exact fun _ _ => ExecutionLeg.evaluate_traced (h.stages _ _ _ hat).1
  | lookUp hat =>
      exact h.quiet rfl rfl rfl fun _ _ => ExecutionLeg.lookUp_traced (h.stages _ _ _ hat)
  | send hat =>
      obtain ⟨hunsent, hadmitted⟩ := h.stages _ _ _ hat
      refine h.moved rfl rfl ?_ (List.append_nil _).symm (fun _ h => nomatch h)
        (fun _ _ => hadmitted) ?_ ?_ ?_
      · intro request hrequest
        rw [List.mem_singleton.mp hrequest]
      · intro request hrequest
        rw [List.mem_singleton.mp hrequest]
        exact hadmitted
      · show ((world.sent ++ [_]).map Invocation.delivery).Nodup
        rw [List.map_append, List.map_singleton, List.nodup_append]
        refine ⟨h.once, List.nodup_singleton _, ?_⟩
        intro delivery hdelivery other hother heq
        rw [List.mem_singleton.mp hother] at heq
        rw [heq] at hdelivery
        exact hunsent hdelivery
      · intro request hrequest
        rw [List.mem_singleton.mp hrequest]
  | answer hat => exact h.quiet rfl rfl rfl fun _ _ => trivial
  | record hat hdrawn => exact h.quiet rfl rfl rfl fun _ _ => trivial
  | refused hat hkey => exact h.quiet rfl rfl rfl fun _ _ => trivial
  | insert hat hfree hkey => exact h.quiet rfl rfl rfl fun _ _ => trivial
  | statement hat hwrite => exact h.quiet rfl rfl rfl fun _ _ => trivial
  | commit hat hdurable =>
      obtain ⟨hdeliveries, hadmitted, hsent, _⟩ := World.apply_keeps hdurable
      refine h.quiet (congrArg (Function.update · _ _) hdeliveries) hsent hadmitted ?_
      intro _ _
      split <;> trivial
  | rollBack hat => exact h.quiet rfl rfl rfl fun _ _ => trivial
  | raise hat hrunning => exact h.quiet rfl rfl rfl fun _ _ => trivial
  | crash hat hrunning => exact h.quiet rfl rfl rfl fun _ _ => trivial
  | land hsent => exact ⟨h.stages, h.fresh, h.admitted, h.once, h.keyed⟩

theorem World.traced_run {actions : List Action}
    (hrun : Machine.run (World.step sha256) {} actions = some next) : next.Traced sha256 :=
  Machine.invariant_run (fun _ _ _ h hstep => h.step (World.step_of_eq_some hstep))
    World.traced_start hrun

/-! ## Abandoned deliveries -/

/-- No delivery that was abandoned has sent anything. -/
def World.AbandonsUnsent (world : World) : Prop :=
  ∀ id command message, world.At id command (.settled message) →
    message.disposition = .abandon → id ∉ world.sent.map Invocation.delivery

/-- No exception leaves a delivery whose request has left: the invoker raises
nothing the leg does not catch, and recording does not fail. -/
def RaisedInTime (world : World) : Action → Prop
  | .raise id => id ∉ world.sent.map Invocation.delivery
  | .commit id acknowledged =>
      acknowledged = true ∨ id ∉ world.sent.map Invocation.delivery
  | _ => True

instance (world : World) : DecidablePred (RaisedInTime world)
  | .raise _ => inferInstanceAs (Decidable (_ ∉ _))
  | .commit _ _ => inferInstanceAs (Decidable (_ ∨ _))
  | .dispatch _ _ | .deliver _ _ | .load _ _ _ _ | .evaluate _ _ _ | .lookUp _ _ | .send _
  | .answer _ _ | .record _ _ _ _ _ | .statement _ | .rollBack _ | .crash _ | .land _ =>
      isTrue trivial

theorem not_abandon_ofReport (report : ExecutionReport) :
    (HandledMessage.ofReport report).disposition ≠ .abandon := by
  unfold HandledMessage.ofReport
  split
  · exact nofun
  · exact nofun

/-- A delivery moves to a stage that is no abandonment, or had sent nothing. -/
theorem World.AbandonsUnsent.moved (h : world.AbandonsUnsent) {id : DeliveryId}
    {received : Option MessageEnvelope} {after : Stage}
    (hdeliveries : next.deliveries =
      Function.update world.deliveries id (some ⟨received, after⟩))
    (hsent : next.sent = world.sent)
    (hafter : ∀ message, after = .settled message → message.disposition = .abandon →
      id ∉ world.sent.map Invocation.delivery) : next.AbandonsUnsent := by
  intro other command message hat habandon
  rw [hsent]
  rcases (World.at_iff hdeliveries).mp hat with ⟨rfl, _, hstage⟩ | ⟨_, hold⟩
  · exact hafter message hstage.symm habandon
  · exact h other command message hold habandon

theorem World.AbandonsUnsent.step (h : world.AbandonsUnsent) (htraced : world.Traced sha256)
    {action : Action} (hgood : RaisedInTime world action) (hstep : Step sha256 world action next) :
    next.AbandonsUnsent := by
  cases hstep with
  | dispatch hfresh => exact h
  | deliver hnew => exact h.moved rfl rfl fun _ _ _ => (htraced.fresh _ hnew).1
  | load hat => exact h.moved rfl rfl fun _ _ _ => (htraced.stages _ _ _ hat).1
  | evaluate hat => exact h.moved rfl rfl fun _ _ _ => (htraced.stages _ _ _ hat).1
  | lookUp hat => exact h.moved rfl rfl fun _ _ _ => (htraced.stages _ _ _ hat).1
  | @send id command instruction binding started hat =>
      -- the others sent nothing new, and this one is not settled
      intro other following message hsettled habandon hmem
      rcases (World.at_iff rfl).mp hsettled with ⟨_, _, hstage⟩ | ⟨hother, hold⟩
      · cases hstage
      · obtain ⟨request, hrequest, hdelivery⟩ := List.mem_map.mp hmem
        rcases List.mem_append.mp hrequest with hbefore | hnew
        · exact h other following message hold habandon
            (List.mem_map.mpr ⟨request, hbefore, hdelivery⟩)
        · rw [List.mem_singleton.mp hnew] at hdelivery
          exact hother hdelivery.symm
  | answer hat => exact h.moved rfl rfl fun _ hstage => nomatch hstage
  | record hat hdrawn => exact h.moved rfl rfl fun _ hstage => nomatch hstage
  | refused hat hkey => exact h.moved rfl rfl fun _ hstage => nomatch hstage
  | insert hat hfree hkey => exact h.moved rfl rfl fun _ hstage => nomatch hstage
  | statement hat hwrite => exact h.moved rfl rfl fun _ hstage => nomatch hstage
  | @commit id acknowledged command transaction written durable hat hdurable =>
      obtain ⟨hdeliveries, _, hsent, _⟩ := World.apply_keeps hdurable
      refine h.moved (congrArg (Function.update · _ _) hdeliveries) hsent ?_
      intro message hstage habandon
      rcases hgood with rfl | hunsent
      · rw [if_pos rfl] at hstage
        injection hstage with hstage
        rw [← hstage] at habandon
        exact absurd habandon (not_abandon_ofReport _)
      · exact hunsent
  | rollBack hat =>
      refine h.moved rfl rfl ?_
      intro message hstage habandon
      injection hstage with hstage
      rw [← hstage] at habandon
      exact absurd habandon (not_abandon_ofReport _)
  | raise hat hrunning => exact h.moved rfl rfl fun _ _ _ => hgood
  | crash hat hrunning => exact h.moved rfl rfl fun _ hstage => nomatch hstage
  | land hsent => exact h

theorem Step.sent {action : Action} (hstep : Step sha256 world action next) :
    ∀ id ∈ world.sent.map Invocation.delivery, id ∈ next.sent.map Invocation.delivery := by
  intro id hid
  cases hstep with
  | send hat =>
      show id ∈ (world.sent ++ [_]).map Invocation.delivery
      rw [List.map_append]
      exact List.mem_append.mpr (Or.inl hid)
  | commit hat hdurable =>
      show id ∈ _
      rw [← (World.apply_keeps hdurable).2.2.1] at hid
      exact hid
  | _ => exact hid

/-- A delivery that raised after it had sent is abandoned, and has sent. -/
theorem Step.abandoned {action : Action} (hstep : Step sha256 world action next)
    (hlate : ¬ RaisedInTime world action) :
    ∃ id command, next.At id command (.settled .transient) ∧
      id ∈ next.sent.map Invocation.delivery := by
  cases hstep with
  | @raise id command stage hat hrunning =>
      exact ⟨id, command, (World.at_iff rfl).mpr (Or.inl ⟨rfl, rfl, rfl⟩), not_not.mp hlate⟩
  | @commit id acknowledged command transaction written durable hat hdurable =>
      cases acknowledged with
      | true => exact absurd (Or.inl rfl) hlate
      | false =>
          refine ⟨id, command, (World.at_iff rfl).mpr (Or.inl ⟨rfl, rfl, rfl⟩), ?_⟩
          show id ∈ durable.sent.map Invocation.delivery
          rw [(World.apply_keeps hdurable).2.2.1]
          by_contra hunsent
          exact hlate (Or.inr hunsent)
  | _ => exact absurd trivial hlate

/-- **Abandoned and unsent.** Over a run, no delivery that was abandoned has sent a
request, if and only if at no step an exception left a delivery after its request
had. -/
theorem abandons_unsent_iff {actions : List Action} {last : World}
    (hrun : Machine.run (World.step sha256) {} actions = some last) :
    last.AbandonsUnsent ↔ Machine.Along (World.step sha256) RaisedInTime {} actions := by
  constructor
  · intro h
    refine Machine.along_of_forall ?_
    rintro before action after middle rfl hbefore
    by_contra hlate
    -- the verdict and the request both stay
    obtain ⟨reached, hreached, hrest⟩ := Machine.run_append.mp hrun
    rw [hbefore] at hreached
    injection hreached with hreached
    rw [← hreached] at hrest
    obtain ⟨next, hnext, hrest⟩ := Machine.run_cons.mp hrest
    obtain ⟨id, command, hat, hsent⟩ := (World.step_of_eq_some hnext).abandoned hlate
    have hstays : ∀ world action next, world.At id command (.settled .transient) ∧
        id ∈ world.sent.map Invocation.delivery → World.step sha256 world action = some next →
        next.At id command (.settled .transient) ∧ id ∈ next.sent.map Invocation.delivery := by
      intro world action next hboth hstep
      have hstep := World.step_of_eq_some hstep
      exact ⟨hstep.settled hboth.1, hstep.sent id hboth.2⟩
    obtain ⟨habandoned, hmem⟩ := Machine.invariant_run hstays ⟨hat, hsent⟩ hrest
    exact h id command _ habandoned rfl hmem
  · intro hgood
    have hkeeps : ∀ world action next, world.AbandonsUnsent ∧ world.Traced sha256 →
        RaisedInTime world action → World.step sha256 world action = some next →
        next.AbandonsUnsent ∧ next.Traced sha256 := by
      intro world action next hboth hnow hstep
      have hstep := World.step_of_eq_some hstep
      exact ⟨hboth.1.step hboth.2 hnow hstep, hboth.2.step hstep⟩
    have hstart : World.AbandonsUnsent {} ∧ World.Traced sha256 {} :=
      ⟨fun _ _ _ hat => (nomatch hat), World.traced_start⟩
    exact (Machine.invariant_along hkeeps hstart hrun hgood).1

/-! ## Requests without a key -/

/-- A delivery is let through under a binding without a key only if no delivery of
its operation was let through before. -/
def letThroughOnce (world : World) : Action → Bool
  | .evaluate id catalogue registry =>
      match world.deliveries id with
      | some ⟨some command, .loaded instruction now⟩ =>
          (World.admissionOf id
            (ExecutionLeg.evaluate catalogue registry command instruction now)).all
            fun admission => admission.policy != .none ||
              world.admitted.all fun earlier => earlier.operation != admission.operation
      | _ => true
  | _ => true

/-- No operation was let through twice under a binding without a key. -/
def World.AdmitsOnce (world : World) : Prop :=
  ((world.admitted.filter fun admission => admission.policy == .none).map
    Admission.operation).Nodup

theorem Step.admitsOnce {action : Action} (h : world.AdmitsOnce)
    (hgood : letThroughOnce world action = true) (hstep : Step sha256 world action next) :
    next.AdmitsOnce := by
  cases hstep with
  | @evaluate id catalogue registry command instruction now hat =>
      rw [letThroughOnce, show world.deliveries id = _ from hat] at hgood
      dsimp only at hgood
      rw [List.all_eq_true] at hgood
      show ((List.filter _ (world.admitted ++ _)).map _).Nodup
      rw [List.filter_append, List.map_append, List.nodup_append]
      generalize hstage : ExecutionLeg.evaluate catalogue registry command instruction now =
        stage at hgood
      refine ⟨h, ?_, ?_⟩
      · cases stage with
        | admitted granted binding =>
            exact List.Nodup.map_on (fun a ha b hb _ =>
              (List.mem_singleton.mp (List.mem_of_mem_filter ha)).trans
                (List.mem_singleton.mp (List.mem_of_mem_filter hb)).symm)
              ((List.nodup_singleton _).filter _)
        | _ => exact List.nodup_nil
      · intro operation hold other hnew heq
        obtain ⟨earlier, hearlier, rfl⟩ := List.mem_map.mp hold
        obtain ⟨admission, hadmission, rfl⟩ := List.mem_map.mp hnew
        obtain ⟨hadmission, hpolicy⟩ := List.mem_filter.mp hadmission
        have hnone := hgood admission hadmission
        rw [bne, hpolicy, Bool.not_true, Bool.false_or, List.all_eq_true] at hnone
        have hdiffer := hnone earlier (List.mem_of_mem_filter hearlier)
        rw [bne_iff_ne] at hdiffer
        exact hdiffer heq
  | @commit id acknowledged command transaction written durable hat hdurable =>
      show ((List.filter _ durable.admitted).map _).Nodup
      rw [(World.apply_keeps hdurable).2.1]
      exact h
  | _ => exact h

/-- Elements that are told apart by something they agree on are at most one. -/
theorem length_le_one_of_agree {α β : Type*} {f : α → β} {list : List α}
    (hnodup : (list.map f).Nodup) (hagree : ∀ a ∈ list, ∀ b ∈ list, f a = f b) :
    list.length ≤ 1 := by
  match list with
  | [] => exact Nat.zero_le 1
  | [_] => exact Nat.le_refl 1
  | a :: b :: rest =>
      rw [List.map_cons, List.nodup_cons] at hnodup
      refine absurd ?_ hnodup.1
      rw [hagree a List.mem_cons_self b (List.mem_cons_of_mem _ List.mem_cons_self)]
      exact List.mem_cons_self

/-- **Invoked once without a key.** Over a run in which no operation is let through
again under a binding without a key, an operation whose requests carry no key is
requested at most once. -/
theorem unkeyed_invoked_once {actions : List Action} {last : World}
    (hrun : Machine.run (World.step sha256) {} actions = some last)
    (hgood : Machine.Along (World.step sha256)
      (fun world action => letThroughOnce world action = true) {} actions)
    (operation : Operation)
    (hunkeyed : ∀ invocation ∈ last.sent, invocation.instruction.operation = operation →
      invocation.binding.idempotencyPolicy = .none) :
    last.sent.countP (fun invocation => invocation.instruction.operation == operation) ≤ 1 := by
  have htraced := World.traced_run hrun
  have honce : last.AdmitsOnce :=
    Machine.invariant_along
      (fun _ _ _ h hnow hstep => (World.step_of_eq_some hstep).admitsOnce h hnow)
      (show World.AdmitsOnce {} from List.nodup_nil) hrun hgood
  rw [List.countP_eq_length_filter]
  refine length_le_one_of_agree ((List.filter_sublist.map Invocation.delivery).nodup
    htraced.once) ?_
  -- each request's delivery was let through for this operation, and only one was
  have hadmission : ∀ invocation ∈ last.sent.filter fun invocation =>
      invocation.instruction.operation == operation,
      (⟨invocation.delivery, operation, .none⟩ : Admission) ∈
        last.admitted.filter fun admission => admission.policy == .none := by
    intro invocation hinvocation
    obtain ⟨hsent, hoperation⟩ := List.mem_filter.mp hinvocation
    have hoperation := beq_iff_eq.mp hoperation
    have hadmitted := htraced.admitted invocation hsent
    rw [hoperation, hunkeyed invocation hsent hoperation] at hadmitted
    exact List.mem_filter.mpr ⟨hadmitted, rfl⟩
  intro first hfirst second hsecond
  have hsame := List.inj_on_of_nodup_map honce (hadmission first hfirst)
    (hadmission second hsecond) rfl
  exact congrArg Admission.delivery hsame

end

/-! ### A delivery that fails late, and a command delivered twice -/

/-- The request leaves and the insert fails. -/
def failedLate : List Action :=
  .dispatch (sampleJob 5) "\x7b\x7d" :: (requested 0 5 .derivedKey ++
    [.answer 0 (.returned true none (.object [])), .record 0 12 7 8 9, .raise 0])

theorem failedLate_runs :
    (Machine.run (World.step sampleSha256) {} failedLate).isSome = true := by
  decide +kernel

theorem late_failure_abandoned :
    ¬ ((Machine.run (World.step sampleSha256) {} failedLate).get
      failedLate_runs).AbandonsUnsent := by
  intro h
  refine h 0 ⟨⟨5⟩, ofString "journey", .execute⟩ .transient rfl rfl ?_
  decide +kernel

theorem one_delivery_not_abandoned :
    ((Machine.run (World.step sampleSha256) {} oneDelivery).get
      oneDelivery_runs).AbandonsUnsent := by
  refine (abandons_unsent_iff (Option.some_get oneDelivery_runs).symm).mpr ?_
  decide +kernel

/-- One command of an action without a key, delivered once. -/
def oneUnkeyed : List Action :=
  .dispatch (sampleJob 5) "\x7b\x7d" :: (requested 0 5 .none ++ answered 0 7)

theorem oneUnkeyed_runs :
    (Machine.run (World.step sampleSha256) {} oneUnkeyed).isSome = true := by
  decide +kernel

theorem one_unkeyed_invoked_once :
    ((Machine.run (World.step sampleSha256) {} oneUnkeyed).get oneUnkeyed_runs).sent.countP
      (fun invocation => invocation.instruction.operation == ⟨⟨1⟩, ⟨2⟩, ⟨3⟩⟩) ≤ 1 :=
  unkeyed_invoked_once (Option.some_get oneUnkeyed_runs).symm (by decide +kernel) _
    (by decide +kernel)

/-- The first delivery's process goes after its request has left. -/
theorem unkeyed_redelivered :
    (Machine.run (World.step sampleSha256) {} (.dispatch (sampleJob 5) "\x7b\x7d" ::
      (requested 0 5 .none ++ .crash 0 :: requested 1 5 .none))).map
        (fun last => last.sent.countP fun invocation =>
          invocation.instruction.operation == ⟨⟨1⟩, ⟨2⟩, ⟨3⟩⟩) = some 2 := by
  decide +kernel

end Synthia.Integrations

/-!
## One effect for one operation

Deliveries can pass the look-up together, so a request may leave more than once.
Each of them carries the one key its operation derives, and a far side that acts on
a key once acts once; whatever the far side does, the unique key lets one execution
be recorded, and its announcement with it.
-/

namespace Synthia.Integrations

open Text

/-- The far side applies a request with a key only if it has not applied one with
that key. -/
def appliesKeyOnce (world : World) : Action → Bool
  | .land request =>
      match world.sent[request]? with
      | some invocation =>
          invocation.key.isNone ||
            world.effects.all fun effect => effect.key != invocation.key
      | none => true
  | _ => true

/-- The message announces an execution of a job of this operation. -/
def World.announces (world : World) (operation : Operation) (message : OutboxMessage) : Bool :=
  world.jobs.rows.any fun job =>
    job.jobId == message.jobId && operationOf job.toIntegrationJobRow == operation

/-- Every effect is of a request that left, and no two are of one key. -/
structure World.AppliedOnce (world : World) : Prop where
  sent : ∀ effect ∈ world.effects, effect ∈ world.sent
  once : ∀ key, world.effects.countP (fun effect => effect.key == some key) ≤ 1

section

variable {sha256 : List CodePoint → List CodePoint} {world next : World}

theorem World.AppliedOnce.land (h : world.AppliedOnce) {request : Nat} {invocation : Invocation}
    (hsent : world.sent[request]? = some invocation)
    (hgood : appliesKeyOnce world (.land request) = true) :
    World.AppliedOnce { world with effects := world.effects ++ [invocation] } := by
  refine ⟨?_, ?_⟩
  · intro effect heffect
    rcases List.mem_append.mp heffect with hold | hnew
    · exact h.sent effect hold
    · rw [List.mem_singleton.mp hnew]
      exact List.mem_of_getElem? hsent
  · intro key
    show (world.effects ++ [invocation]).countP _ ≤ 1
    rw [List.countP_append, List.countP_singleton]
    by_cases hkey : invocation.key = some key
    · -- the far side had applied none with this key
      rw [appliesKeyOnce, hsent] at hgood
      dsimp only at hgood
      rw [hkey, Option.isNone_some, Bool.false_or, List.all_eq_true] at hgood
      have hnone : world.effects.countP (fun effect => effect.key == some key) = 0 := by
        rw [List.countP_eq_zero]
        intro effect heffect
        have hdiffer := hgood effect heffect
        rw [bne, Bool.not_eq_true'] at hdiffer
        exact Bool.eq_false_iff.mp hdiffer
      rw [hnone, if_pos (beq_iff_eq.mpr hkey)]
    · rw [if_neg fun heq => hkey (beq_iff_eq.mp heq)]
      exact h.once key

theorem World.AppliedOnce.step (h : world.AppliedOnce) {action : Action}
    (hgood : appliesKeyOnce world action = true) (hstep : Step sha256 world action next) :
    next.AppliedOnce := by
  cases hstep with
  | send hat => exact ⟨fun effect heffect => List.mem_append.mpr (Or.inl (h.sent effect heffect)),
      h.once⟩
  | @commit id acknowledged command transaction written durable hat hdurable =>
      obtain ⟨_, _, hsent, heffects⟩ := World.apply_keeps hdurable
      refine ⟨?_, ?_⟩
      · show ∀ effect ∈ durable.effects, effect ∈ durable.sent
        rw [hsent, heffects]
        exact h.sent
      · show ∀ key, durable.effects.countP _ ≤ 1
        rw [heffects]
        exact h.once
  | land hsent => exact h.land hsent hgood
  | _ => exact ⟨h.sent, h.once⟩

theorem countP_key_le_one (executions : Relational.Table ExecutionRecord fun row =>
    row.idempotencyKey) (key : List CodePoint) :
    executions.rows.countP (fun row => row.idempotencyKey == key) ≤ 1 :=
  executions.rowsAffected_le_one fun _ h => beq_iff_eq.mp h

/-- The announcements of an operation are no more than the executions under its
key. -/
theorem World.Sound.announcements_le (hsound : world.Sound sha256) (operation : Operation) :
    world.outbox.countP (world.announces operation) ≤
      world.executions.rows.countP fun row => row.idempotencyKey == operation.key sha256 := by
  rw [hsound.outbox, hsound.executions, List.countP_map, List.countP_map]
  refine List.countP_mono_left ?_
  intro transaction htransaction hannounces
  obtain ⟨job, hjob, hmatch⟩ := List.any_eq_true.mp hannounces
  rw [Bool.and_eq_true, beq_iff_eq, beq_iff_eq] at hmatch
  obtain ⟨other, hnames, hkey⟩ :=
    hsound.begun transaction (hsound.committed transaction htransaction)
  have hthis : world.Names transaction.record.jobId operation :=
    ⟨job, hjob, hmatch.1, hmatch.2⟩
  show (transaction.record.idempotencyKey == _) = true
  rw [hkey, hthis.unique hnames, beq_self_eq_true]

/-- **One effect for one operation.** Over every run in which the far side applies
a key once, and for every operation whose requests go out under a derived key: the
far side has applied at most one, all of them carried the same key, and under that
key there is at most one execution, and of that operation at most one
announcement. -/
theorem one_effect {actions : List Action} {last : World}
    (hrun : Machine.run (World.step sha256) {} actions = some last)
    (hfar : Machine.Along (World.step sha256)
      (fun world action => appliesKeyOnce world action = true) {} actions)
    (operation : Operation)
    (hderived : ∀ invocation ∈ last.sent, invocation.instruction.operation = operation →
      invocation.binding.idempotencyPolicy = .derivedKey) :
    last.effects.countP (fun effect => effect.instruction.operation == operation) ≤ 1 ∧
      (∀ invocation ∈ last.sent, invocation.instruction.operation = operation →
        invocation.key = some (operation.key sha256)) ∧
      last.executions.rows.countP
        (fun row => row.idempotencyKey == operation.key sha256) ≤ 1 ∧
      last.outbox.countP (last.announces operation) ≤ 1 := by
  have happlied : last.AppliedOnce :=
    Machine.invariant_along
      (fun _ _ _ h hnow hstep => h.step hnow (World.step_of_eq_some hstep))
      (show World.AppliedOnce {} from ⟨fun _ h => (nomatch h), fun _ => Nat.zero_le 1⟩) hrun hfar
  have hkeyed : ∀ invocation ∈ last.sent, invocation.instruction.operation = operation →
      invocation.key = some (operation.key sha256) := by
    intro invocation hinvocation hoperation
    rw [(World.traced_run hrun).keyed invocation hinvocation, keyFor,
      if_pos (hderived invocation hinvocation hoperation), hoperation]
  have hexecutions := countP_key_le_one last.executions (operation.key sha256)
  refine ⟨?_, hkeyed, hexecutions,
    ((World.sound_run hrun).announcements_le operation).trans hexecutions⟩
  refine (List.countP_mono_left ?_).trans (happlied.once (operation.key sha256))
  intro effect heffect hoperation
  rw [hkeyed effect (happlied.sent effect heffect) (beq_iff_eq.mp hoperation)]
  exact beq_self_eq_true _

end

/-! ### Two deliveries that pass the look-up together -/

/-- Both requests leave before either execution is recorded; the far side applies
one. -/
def together : List Action :=
  .dispatch (sampleJob 5) "\x7b\x7d" :: (requested 0 5 .derivedKey ++
    requested 1 5 .derivedKey ++ .land 1 :: answered 0 7)

theorem together_runs :
    (Machine.run (World.step sampleSha256) {} together).isSome = true := by
  decide +kernel

theorem together_one_effect :
    ((Machine.run (World.step sampleSha256) {} together).get together_runs).sent.length = 2 ∧
      ((Machine.run (World.step sampleSha256) {} together).get together_runs).effects.countP
        (fun effect => effect.instruction.operation == ⟨⟨1⟩, ⟨2⟩, ⟨3⟩⟩) ≤ 1 :=
  ⟨by decide +kernel,
    (one_effect (Option.some_get together_runs).symm (by decide +kernel) ⟨⟨1⟩, ⟨2⟩, ⟨3⟩⟩
      (by decide +kernel)).1⟩

end Synthia.Integrations
