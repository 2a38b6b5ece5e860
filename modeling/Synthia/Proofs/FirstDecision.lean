import Synthia.Lib.Machine
import Synthia.Proofs.Consent
import Synthia.Proofs.Mirroring

/-!
# The decision in the conversation and the decision in the database

Three things say what was decided on a work item. The thread's channel keeps the first
decision mirrored into it. The consent reader answers with the newest consent, the
verdict reader with the one verdict. And `govern` acts on the verdict where there is
one and on the consent otherwise.

Nothing keeps a second consent out. So a refusal after a grant, once the grant has been
mirrored, leaves the conversation showing what the gate no longer acts on; and a verdict
beside a consent is what the gate acts on whichever of them came first.

They agree, on the first decision recorded, as long as nothing recorded later can be
read in its place. After a decision none is recorded but a consent after a consent, and
that one is dated before the first; and the work item has an operation by then, since
both readers join one.
-/

namespace Synthia

open Relational

/-- The channel, both readers and `govern` have the first decision recorded or none.
`govern` has it as soon as there is one; so has the channel once a thread suspended for
a decision of its kind is resumed. -/
structure DecisionWorld.Agrees (item : DecidedItem) (world : DecisionWorld) : Prop where
  channel : ∀ held, world.thread.state.decision = some held → world.recorded.head? = some held
  verdict : ∀ tenant : TenantContext, tenant.tenantId = item.tenantId →
    ∃ read, ApprovalRepository.decisionFor world.approvals world.operations tenant
        item.workItemId = .ok read ∧
      ∀ verdict, read = some verdict →
        world.recorded.head? = some (RecordedDecision.staff verdict).mirrored
  consent : ∀ tenant : TenantContext, tenant.tenantId = item.tenantId →
    ∀ physical : List ConsentRow, physical.Perm world.consents.rows →
      ∀ consent, ConsentRepository.decisionFor physical world.operations tenant
          item.workItemId = some consent →
        world.recorded.head? = some (RecordedDecision.endUser consent).mirrored
  govern : ∀ deps (context : RunContext), context.tenant.tenantId = item.tenantId →
    context.workItemId = some item.workItemId →
      (recordedDecision (world.reads deps) context).map RecordedDecision.mirrored =
        world.recorded.head?
  resumed : ∀ deps (context : RunContext) payload, context.tenant.tenantId = item.tenantId →
    context.workItemId = some item.workItemId →
      ∀ first, world.recorded.head? = some first →
        world.thread.position =
            .suspended (if first.isConsent then .awaitConsent else .awaitApproval) →
          (world.thread.step (world.readsFor (.resume context deps payload))).state.decision =
            some first

/-! ## What coherent tables answer -/

/-- The invariant of a run. -/
structure DecisionWorld.Coherent (item : DecidedItem) (world : DecisionWorld) : Prop where
  standing : Standing item world.approvals world.consents world.recorded.head?
  operation : world.recorded ≠ [] → ∃ row ∈ world.operations, item.hasOperation row = true
  channel : ∀ held, world.thread.state.decision = some held → world.recorded.head? = some held
  bound : ∀ node context, world.thread.position = .running node context →
    item.binds context = true

section Reading

variable {item : DecidedItem} {world : DecisionWorld} {tenant : TenantContext}

theorem DecisionWorld.Coherent.operation_of_some (h : world.Coherent item)
    {first : HumanDecisionRecord} (hfirst : world.recorded.head? = some first) :
    ∃ row ∈ world.operations, item.hasOperation row = true := by
  refine h.operation ?_
  intro hempty
  rw [hempty] at hfirst
  cases hfirst

/-- What the two reads give, by what stands. -/
theorem DecisionWorld.Coherent.reads_cases (h : world.Coherent item)
    (htenant : tenant.tenantId = item.tenantId) :
    (world.recorded.head? = none ∧
      ApprovalRepository.decisionFor world.approvals world.operations tenant item.workItemId =
        .ok none ∧
      ∀ physical : List ConsentRow, physical.Perm world.consents.rows →
        ConsentRepository.decisionFor physical world.operations tenant item.workItemId = none) ∨
    (∃ consent : EndUserConsent,
      world.recorded.head? = some (RecordedDecision.endUser consent).mirrored ∧
      ApprovalRepository.decisionFor world.approvals world.operations tenant item.workItemId =
        .ok none ∧
      ∀ physical : List ConsentRow, physical.Perm world.consents.rows →
        ConsentRepository.decisionFor physical world.operations tenant item.workItemId =
          some consent) ∨
    ∃ verdict : StaffVerdict,
      world.recorded.head? = some (RecordedDecision.staff verdict).mirrored ∧
      ApprovalRepository.decisionFor world.approvals world.operations tenant item.workItemId =
        .ok (some verdict) ∧
      ∀ physical : List ConsentRow, physical.Perm world.consents.rows →
        ConsentRepository.decisionFor physical world.operations tenant item.workItemId = none := by
  have hstanding := h.standing
  cases hhead : world.recorded.head? with
  | none =>
      rw [hhead] at hstanding
      cases hstanding with
      | undecided hconsents happrovals =>
          refine Or.inl ⟨rfl, verdictFor_none htenant happrovals, ?_⟩
          intro physical hperm
          exact consentFor_none htenant fun row hrow => hconsents row (hperm.mem_iff.mp hrow)
  | some first =>
      obtain ⟨bound, hbound⟩ := boundOperation_some htenant (h.operation_of_some hhead)
      rw [hhead] at hstanding
      cases hstanding with
      | consented row hrow hconsent hlater happrovals =>
          refine Or.inr (Or.inl ⟨⟨row.consentId, row.consentedByOid, row.verdict, bound.identity,
            row.decidedAt, none⟩, rfl, verdictFor_none htenant happrovals, ?_⟩)
          intro physical hperm
          refine consentFor_first htenant (hperm.mem_iff.mpr hrow) hconsent ?_ hbound
          intro other hother
          exact hlater other (hperm.mem_iff.mp hother)
      | approved row _ hrow happroval hdecided hconsents =>
          obtain ⟨verdict, hread, hmirrored⟩ :=
            verdictFor_decided htenant hrow happroval hdecided hbound
          refine Or.inr (Or.inr ⟨verdict, by rw [hmirrored], hread, ?_⟩)
          intro physical hperm
          exact consentFor_none htenant fun row hrow => hconsents row (hperm.mem_iff.mp hrow)

/-- Coherent tables and a coherent thread agree. -/
theorem DecisionWorld.Coherent.agrees (h : world.Coherent item) : world.Agrees item where
  channel := h.channel
  verdict := by
    intro tenant htenant
    rcases h.reads_cases htenant with ⟨_, hread, _⟩ | ⟨_, _, hread, _⟩ |
      ⟨verdict, hhead, hread, _⟩
    · exact ⟨none, hread, fun _ hnone => absurd hnone (by simp)⟩
    · exact ⟨none, hread, fun _ hnone => absurd hnone (by simp)⟩
    · refine ⟨some verdict, hread, ?_⟩
      intro other hother
      rw [hhead, Option.some.inj hother]
  consent := by
    intro tenant htenant physical hperm consent hconsent
    rcases h.reads_cases htenant with ⟨_, _, hread⟩ | ⟨first, hhead, _, hread⟩ | ⟨_, _, _, hread⟩
    · rw [hread physical hperm] at hconsent
      cases hconsent
    · rw [hread physical hperm] at hconsent
      rw [hhead, Option.some.inj hconsent]
    · rw [hread physical hperm] at hconsent
      cases hconsent
  govern := by
    intro deps context htenant hitem
    have hreads := h.reads_cases htenant
    unfold recordedDecision DecisionWorld.reads
    rw [hitem]
    dsimp only
    rcases hreads with ⟨hhead, hverdict, hconsent⟩ | ⟨consent, hhead, hverdict, hconsent⟩ |
      ⟨verdict, hhead, hverdict, _⟩
    · rw [hverdict, hconsent _ (List.Perm.refl _), hhead]
      rfl
    · rw [hverdict, hconsent _ (List.Perm.refl _), hhead]
      rfl
    · rw [hverdict, hhead]
      rfl
  resumed := by
    intro deps context payload htenant hitem first hfirst hposition
    have hbind : ∀ β (read : WorkItemId → Option β),
        context.workItemId.bind read = read item.workItemId := by
      intro β read
      rw [hitem, Option.bind_some]
    have hsealed : ∀ update : Option HumanDecisionRecord, update = some first →
        sealHumanDecision world.thread.state.decision update = some first := by
      intro update hupdate
      cases hheld : world.thread.state.decision with
      | none => exact hupdate
      | some held => exact (h.channel held hheld).symm.trans hfirst
    rcases h.reads_cases htenant with ⟨hhead, _, _⟩ | ⟨consent, hhead, _, hconsent⟩ |
      ⟨verdict, hhead, hverdict, _⟩
    · rw [hhead] at hfirst
      cases hfirst
    · have hread := hconsent _ (List.Perm.refl _)
      obtain rfl := Option.some.inj (hhead.symm.trans hfirst)
      exact (Thread.resume_consent hposition ((hbind _ _).trans hread)).trans
        (hsealed _ rfl)
    · obtain rfl := Option.some.inj (hhead.symm.trans hfirst)
      have hread : (world.reads deps).verdictFor context.tenant item.workItemId =
          some verdict := by
        unfold DecisionWorld.reads
        dsimp only
        rw [hverdict]
      exact (Thread.resume_verdict hposition ((hbind _ _).trans hread)).trans (hsealed _ rfl)

end Reading

/-! ## One step -/

/-- A decision is recorded where the readers find it and go on finding the first: the
work item has an operation, and the decision is its first or is, as the first is, a
consent, and dated before it. -/
def DecisionWorld.FirstStands (item : DecidedItem) (world : DecisionWorld)
    (event : DecisionEvent) : Prop :=
  ∀ decision, world.decisionOn item event = some decision →
    (∃ row ∈ world.operations, item.hasOperation row = true) ∧
      ∀ first, world.recorded.head? = some first →
        first.isConsent = true ∧ decision.isConsent = true ∧
          decision.decidedAt < first.decidedAt

namespace DecisionWorld.Coherent

variable {item : DecidedItem} {world : DecisionWorld} {event : DecisionEvent}

/-- A write to the tables that leaves the thread alone needs an argument only for what
stands. -/
theorem of_tables {after : DecisionWorld} (h : world.Coherent item)
    (hgood : world.FirstStands item event) (hthread : after.thread = world.thread)
    (hoperations : ∀ row ∈ world.operations, row ∈ after.operations)
    (hstanding : Standing item after.approvals after.consents
      (world.recorded.head?.or (world.decisionOn item event))) :
    DecisionWorld.Coherent item
      { after with recorded := world.recorded ++ (world.decisionOn item event).toList } where
  standing := by
    show Standing item after.approvals after.consents (world.recorded ++ _).head?
    rw [List.head?_append, Option.head?_toList]
    exact hstanding
  operation := by
    intro hsome
    have hbefore : ∃ row ∈ world.operations, item.hasOperation row = true := by
      cases hdecision : world.decisionOn item event with
      | some decision => exact (hgood decision hdecision).1
      | none =>
          rw [hdecision, Option.toList_none, List.append_nil] at hsome
          exact h.operation hsome
    obtain ⟨row, hrow, hits⟩ := hbefore
    exact ⟨row, hoperations row hrow, hits⟩
  channel := by
    intro held hheld
    rw [show after.thread.state = world.thread.state by rw [hthread]] at hheld
    show (world.recorded ++ _).head? = some held
    rw [List.head?_append, h.channel held hheld]
    rfl
  bound := by
    intro node context hposition
    rw [show after.thread.position = world.thread.position by rw [hthread]] at hposition
    exact h.bound node context hposition

/-- What the graph mirrors is what stands. -/
theorem mirrors {action : Action} {held : HumanDecisionRecord} (h : world.Coherent item)
    (hhosts : item.hosts action = true)
    (hheld : (world.thread.step (world.readsFor action)).state.decision = some held) :
    world.recorded.head? = some held := by
  rcases Thread.step_decision hheld with hold | ⟨node, deps, context, payload, update, hperforms,
    hrun, hupdate⟩
  · exact h.channel held hold
  have hbinds := item.binds_performed (DecisionWorld.hosts_readsFor hhosts) h.bound hperforms
  obtain ⟨own, hdeps⟩ := DecisionWorld.performs_reads hperforms
  unfold DecidedItem.binds at hbinds
  rw [Bool.and_eq_true, beq_iff_eq] at hbinds
  obtain ⟨htenant, hitem⟩ := hbinds
  have hworkItem : ∀ workItemId, context.workItemId = some workItemId →
      workItemId = item.workItemId := by
    intro workItemId hsome
    rw [hsome, Option.all_some, beq_iff_eq] at hitem
    exact hitem
  rcases Node.run_decision hrun hupdate with ⟨consent, hread, hheld⟩ | ⟨verdict, hread, hheld⟩
  · rw [Option.bind_eq_some_iff] at hread
    obtain ⟨workItemId, hsome, hread⟩ := hread
    rw [hdeps, hworkItem workItemId hsome] at hread
    rw [hheld]
    exact h.agrees.consent context.tenant htenant _ (List.Perm.refl _) consent hread
  · rw [Option.bind_eq_some_iff] at hread
    obtain ⟨workItemId, hsome, hread⟩ := hread
    rw [hdeps, hworkItem workItemId hsome] at hread
    obtain ⟨read, hdecision, hfirst⟩ := h.agrees.verdict context.tenant htenant
    unfold DecisionWorld.reads at hread
    dsimp only at hread
    rw [hdecision] at hread
    rw [hheld]
    exact hfirst verdict hread

/-- What a consent leaves standing. -/
theorem records_consent {tenant : TenantContext} {consentId : ConsentId}
    {workItemId : WorkItemId} {consentedBy : PrincipalId} {verdict : ConsentVerdict}
    {databaseNow : Instant} {after : DecisionWorld} (h : world.Coherent item)
    (hgood : world.FirstStands item
      (.consent tenant consentId workItemId consentedBy verdict databaseNow))
    (hwritten : world.written item
      (.consent tenant consentId workItemId consentedBy verdict databaseNow) = some after) :
    after.thread = world.thread ∧ after.operations = world.operations ∧
      Standing item after.approvals after.consents
        (world.recorded.head?.or (world.decisionOn item
          (.consent tenant consentId workItemId consentedBy verdict databaseNow))) := by
  rw [DecisionWorld.written] at hwritten
  rcases ConsentRepository.record_cases world.consents world.workItems tenant consentId workItemId
    consentedBy verdict databaseNow with ⟨hwork, hfresh, hrecord⟩ | ⟨hrefused, hrecord⟩
  · rw [hrecord] at hwritten
    obtain rfl := Option.some.inj hwritten
    refine ⟨rfl, rfl, ?_⟩
    by_cases hits : tenant.tenantId = item.tenantId ∧ workItemId = item.workItemId
    · -- a consent of the work item's
      have hdecision : world.decisionOn item
          (.consent tenant consentId workItemId consentedBy verdict databaseNow) =
            some ⟨consentId.value, consentedBy, .consent verdict, databaseNow, none⟩ := by
        rw [DecisionWorld.decisionOn, if_pos ⟨hits.1, hits.2, hwork, hfresh⟩]
      rw [hdecision]
      refine Standing.recordsConsent ⟨consentId, tenant.tenantId, workItemId, consentedBy,
        databaseNow, verdict⟩ h.standing hfresh ?_ ?_
      · unfold DecidedItem.hasConsent
        rw [Bool.and_eq_true, beq_iff_eq, beq_iff_eq]
        exact hits
      · intro first hfirst
        obtain ⟨hkind, _, hearlier⟩ := (hgood _ hdecision).2 first hfirst
        exact ⟨hkind, hearlier⟩
    · have hdecision : world.decisionOn item
          (.consent tenant consentId workItemId consentedBy verdict databaseNow) = none := by
        rw [DecisionWorld.decisionOn, if_neg]
        intro hall
        exact hits ⟨hall.1, hall.2.1⟩
      rw [hdecision, Option.or_none]
      refine h.standing.of_consents ?_
      intro row hrow
      show row ∈ world.consents.rows ++ [_] ↔ _
      rw [List.mem_append, List.mem_singleton]
      refine ⟨?_, Or.inl⟩
      intro hmem
      rcases hmem with hold | hnew
      · exact hold
      · rw [hnew, DecidedItem.hasConsent, Bool.and_eq_true, beq_iff_eq, beq_iff_eq] at hrow
        exact absurd hrow hits
  · have hdecision : world.decisionOn item
        (.consent tenant consentId workItemId consentedBy verdict databaseNow) = none := by
      rw [DecisionWorld.decisionOn, if_neg]
      intro hall
      exact hrefused hall.2.2
    rw [hdecision, Option.or_none]
    rcases hrecord with hrecord | hrecord
    · rw [hrecord] at hwritten
      obtain rfl := Option.some.inj hwritten
      exact ⟨rfl, rfl, h.standing⟩
    · rw [hrecord] at hwritten
      obtain rfl := Option.some.inj hwritten
      exact ⟨rfl, rfl, h.standing⟩

/-- What a verdict leaves standing. -/
theorem records_verdict {tenant : TenantContext} {approvalId : ApprovalId}
    {decidedBy : PrincipalId} {rolesHeld : RoleSet} {verdict : ApprovalVerdict}
    {expiresAt databaseNow : Instant} (h : world.Coherent item)
    (hgood : world.FirstStands item
      (.verdict tenant approvalId decidedBy rolesHeld verdict expiresAt databaseNow)) :
    Standing item
      (ApprovalRepository.recordVerdict world.approvals tenant approvalId decidedBy rolesHeld
        verdict expiresAt databaseNow).2
      world.consents
      (world.recorded.head?.or (world.decisionOn item
        (.verdict tenant approvalId decidedBy rolesHeld verdict expiresAt databaseNow))) := by
  by_cases hhit : ∃ row ∈ world.approvals.rows, row.undecided tenant approvalId = true ∧
      item.hasApproval row = true
  · have hdecision : world.decisionOn item
        (.verdict tenant approvalId decidedBy rolesHeld verdict expiresAt databaseNow) =
          some ⟨approvalId.value, decidedBy, .approval verdict, databaseNow, none⟩ := by
      rw [DecisionWorld.decisionOn, if_pos hhit]
    -- a verdict is never a consent, so it can only be the first
    have hfirst : world.recorded.head? = none := by
      cases hhead : world.recorded.head? with
      | none => rfl
      | some first => cases ((hgood _ hdecision).2 first hhead).2.1
    have hstanding := h.standing
    rw [hfirst] at hstanding
    rw [hdecision, hfirst]
    obtain ⟨hit, hrow, hundecided, happroval⟩ := hhit
    exact hstanding.recordsVerdict hrow hundecided happroval
  · have hdecision : world.decisionOn item
        (.verdict tenant approvalId decidedBy rolesHeld verdict expiresAt databaseNow) =
          none := by
      rw [DecisionWorld.decisionOn, if_neg hhit]
    rw [hdecision, Option.or_none]
    exact h.standing.skipsVerdict hhit

/-- **The step lemma.** -/
theorem step {next : DecisionWorld} (h : world.Coherent item)
    (hgood : world.FirstStands item event) (hstep : world.step item event = some next) :
    next.Coherent item := by
  rw [DecisionWorld.step, Option.map_eq_some_iff] at hstep
  obtain ⟨after, hwritten, rfl⟩ := hstep
  cases event with
  | consent tenant consentId workItemId consentedBy verdict databaseNow =>
      obtain ⟨hthread, hoperations, hstanding⟩ := h.records_consent hgood hwritten
      exact h.of_tables hgood hthread (fun row hrow => hoperations ▸ hrow) hstanding
  | verdict =>
      obtain rfl := Option.some.inj hwritten
      exact h.of_tables hgood rfl (fun row hrow => hrow) (h.records_verdict hgood)
  | approvalRequested requested =>
      rw [DecisionWorld.written] at hwritten
      split at hwritten
      · next hfree =>
          obtain rfl := Option.some.inj hwritten
          refine h.of_tables hgood rfl (fun row hrow => hrow) ?_
          rw [show world.decisionOn item (.approvalRequested requested) = none from rfl,
            Option.or_none]
          refine h.standing.of_approvals ?_ ?_
          · intro row hrow _
            rcases List.mem_append.mp hrow with hold | hnew
            · exact Or.inl hold
            · rw [List.mem_singleton.mp hnew]
              exact Or.inr hfree.1
          · intro row hrow _ _
            exact List.mem_append_left _ hrow
      · cases hwritten
  | operationProposed proposed =>
      obtain rfl := Option.some.inj hwritten
      refine h.of_tables hgood rfl (fun row hrow => List.mem_append_left _ hrow) ?_
      rw [show world.decisionOn item (.operationProposed proposed) = none from rfl,
        Option.or_none]
      exact h.standing
  | workWritten workItems =>
      obtain rfl := Option.some.inj hwritten
      refine h.of_tables hgood rfl (fun row hrow => hrow) ?_
      rw [show world.decisionOn item (.workWritten workItems) = none from rfl, Option.or_none]
      exact h.standing
  | graph action =>
      rw [DecisionWorld.written] at hwritten
      split at hwritten
      · next hhosts =>
          obtain rfl := Option.some.inj hwritten
          rw [show world.decisionOn item (.graph action) = none from rfl, Option.toList_none,
            List.append_nil]
          exact
            { standing := h.standing
              operation := h.operation
              channel := fun held hheld => h.mirrors hhosts hheld
              bound := fun node context hposition =>
                item.binds_step (DecisionWorld.hosts_readsFor hhosts) h.bound hposition }
      · cases hwritten

end DecisionWorld.Coherent

/-! ## Every run -/

/-- A work item nothing has been decided on. -/
structure DecisionWorld.Undecided (item : DecidedItem) (world : DecisionWorld) : Prop where
  recorded : world.recorded = []
  consents : ∀ row ∈ world.consents.rows, item.hasConsent row = false
  approvals : ∀ row ∈ world.approvals.rows, item.hasApproval row = true → row.decidedAt = none
  channel : world.thread.state.decision = none
  bound : ∀ node context, world.thread.position = .running node context →
    item.binds context = true

theorem DecisionWorld.Undecided.coherent {item : DecidedItem} {world : DecisionWorld}
    (h : world.Undecided item) : world.Coherent item where
  standing := by
    rw [h.recorded]
    exact .undecided h.consents h.approvals
  operation := fun hsome => absurd h.recorded hsome
  channel := by
    intro held hheld
    rw [h.channel] at hheld
    cases hheld
  bound := h.bound

/-- **The first decision stands.** In every run from an undecided work item, of consents
and verdicts in any order on this work item and on others, operations and approval
requests coming in between, and any steps of the conversation: where each decision is
recorded as `FirstStands` has it, the channel, the readers and `govern` agree on the
first decision recorded, in every state the run reaches. -/
theorem first_decision_stands {item : DecidedItem} {world last : DecisionWorld}
    {events : List DecisionEvent} (hstart : world.Undecided item)
    (hgood : Machine.Along (DecisionWorld.step item) (DecisionWorld.FirstStands item) world
      events)
    (hrun : Machine.run (DecisionWorld.step item) world events = some last) :
    last.Agrees item :=
  (Machine.invariant_along (fun _ _ _ hcoherent hstands hstep => hcoherent.step hstands hstep)
    hstart.coherent hrun hgood).agrees

instance {item : DecidedItem} {world : DecisionWorld} {event : DecisionEvent} :
    Decidable (world.FirstStands item event) :=
  decidable_of_iff
    ((world.decisionOn item event).all (fun decision =>
      decide (∃ row ∈ world.operations, item.hasOperation row = true) &&
        world.recorded.head?.all fun first =>
          first.isConsent && decision.isConsent &&
            decide (decision.decidedAt < first.decidedAt)) = true) (by
    unfold DecisionWorld.FirstStands
    cases world.decisionOn item event <;> cases world.recorded.head? <;> simp [and_assoc])

/-! ### A consent refused after it was granted -/

def mfaCase : DecidedItem := ⟨⟨1⟩, ⟨2⟩⟩

theorem mfaItem_alone : ([mfaItem].map WorkItemRow.workItemId).Nodup := List.nodup_singleton _

def mfaWorld : DecisionWorld where
  workItems := ⟨[mfaItem], mfaItem_alone⟩
  operations := [mfaRow]

def mfaTurn : TurnInput where
  conversation := [⟨"m-1", .endUser, Text.ofString "Please reset my MFA", 0⟩]
  proposal := some (some mfaProposal)

/-- The turn up to its interrupt, the requester's grant, and the graph resumed on it. -/
def grantedEvents : List DecisionEvent :=
  .graph (.turn mfaContext mfaTurn) :: List.replicate 9 (.graph (.node mfaDependencies)) ++
    [.consent mfaContext.tenant ⟨6⟩ ⟨2⟩ ⟨7⟩ .granted 100,
      .graph (.resume mfaContext mfaDependencies ⟨none, none⟩)]

/-- A refusal of the requester's, a moment later. -/
def refusedEvents : List DecisionEvent :=
  grantedEvents ++ [.consent mfaContext.tenant ⟨8⟩ ⟨2⟩ ⟨7⟩ .refused 200]

theorem mfaWorld_undecided : mfaWorld.Undecided mfaCase where
  recorded := rfl
  consents := fun _ hrow => absurd hrow List.not_mem_nil
  approvals := fun _ hrow => absurd hrow List.not_mem_nil
  channel := rfl
  bound := fun _ _ hposition => by cases hposition

theorem granted_stands :
    ∃ last, Machine.run (DecisionWorld.step mfaCase) mfaWorld grantedEvents = some last ∧
      last.thread.state.decision = some ⟨6, ⟨7⟩, .consent .granted, 100, none⟩ ∧
      last.Agrees mfaCase := by
  have hshown : (Machine.run (DecisionWorld.step mfaCase) mfaWorld grantedEvents).map
      (fun last => last.thread.state.decision) =
        some (some ⟨6, ⟨7⟩, .consent .granted, 100, none⟩) := by decide +kernel
  obtain ⟨last, hrun, hchannel⟩ := Option.map_eq_some_iff.mp hshown
  have hgood : Machine.Along (DecisionWorld.step mfaCase) (DecisionWorld.FirstStands mfaCase)
      mfaWorld grantedEvents := by decide +kernel
  exact ⟨last, hrun, hchannel, first_decision_stands mfaWorld_undecided hgood hrun⟩

/-- The conversation shows the grant; the consent read back, which the gate acts on, is
the refusal. -/
theorem refusal_replaces_grant :
    mfaWorld.Undecided mfaCase ∧
      ∃ last, Machine.run (DecisionWorld.step mfaCase) mfaWorld refusedEvents = some last ∧
        last.thread.state.decision = some ⟨6, ⟨7⟩, .consent .granted, 100, none⟩ ∧
        (recordedDecision (last.reads mfaDependencies) mfaContext).map
            RecordedDecision.mirrored =
          some ⟨8, ⟨7⟩, .consent .refused, 200, none⟩ ∧
        ¬ last.Agrees mfaCase := by
  have hshown : (Machine.run (DecisionWorld.step mfaCase) mfaWorld refusedEvents).map
      (fun last => (last.thread.state.decision,
        (recordedDecision (last.reads mfaDependencies) mfaContext).map
          RecordedDecision.mirrored)) =
        some (some ⟨6, ⟨7⟩, .consent .granted, 100, none⟩,
          some ⟨8, ⟨7⟩, .consent .refused, 200, none⟩) := by decide +kernel
  obtain ⟨last, hrun, hlast⟩ := Option.map_eq_some_iff.mp hshown
  obtain ⟨hchannel, hgovern⟩ := Prod.mk.inj hlast
  refine ⟨mfaWorld_undecided, last, hrun, hchannel, hgovern, ?_⟩
  intro hagrees
  have hfirst := hagrees.govern mfaDependencies mfaContext rfl rfl
  rw [hgovern, hagrees.channel _ hchannel] at hfirst
  cases hfirst

end Synthia
