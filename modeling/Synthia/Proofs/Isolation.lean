import Synthia.Lib.Restriction
import Synthia.Proofs.TenantRows

/-!
# One organisation's calls and the others' rows

A tenant's calls do to its own rows what they do to them in the whole store, so two
stores with the same rows of an organisation are told apart by nothing it calls. One
step of that is a call; unwinding makes it a property of any sequence of calls and
units of work, in two databases side by side.

Three things are shared all the same. The catalogue belongs to no organisation. The
outbox draws its numbers from one counter. And a unique identifier is unique in the
whole store, so an insert of one that another organisation's row already has is
refused in the store with that row and not in the one without it.
-/

namespace Synthia

open Relational Text

namespace Store

/-! ## What a tenant sees -/

def withoutNumber : Change OutboxRow.outboxId where
  apply row := { row with sequence := 0 }
  keeps_key _ := rfl

/-- The store with the outbox numbers taken out. -/
def unnumbered (store : Store) : Store :=
  { store with outbox := store.outbox.update (fun _ => true) withoutNumber }

/-- All that a tenant's calls depend on. -/
def seenBy (tenant : TenantContext) (store : Store) : Store := (store.own tenant).unnumbered

section Seen

variable {tenant : TenantContext} {store : Store} {n : Nat}

theorem insertMessage_unnumbered (row bare : OutboxRow)
    (hbare : { row with sequence := 0 } = bare) :
    Outbox.insertMessage store.unnumbered.outbox bare =
      (Outbox.insertMessage store.outbox row).map fun written =>
        written.update (fun _ => true) withoutNumber := by
  have hkeys : store.unnumbered.outbox.rows.map OutboxRow.outboxId =
      store.outbox.rows.map OutboxRow.outboxId := map_updateRows fun _ => rfl
  rw [← hbare]
  unfold Outbox.insertMessage
  by_cases hfresh : row.outboxId ∉ store.outbox.rows.map OutboxRow.outboxId
  · have hsame : row.outboxId ∉ store.unnumbered.outbox.rows.map OutboxRow.outboxId := by
      rw [hkeys]
      exact hfresh
    rw [dif_pos hfresh, dif_pos hsame]
    refine congrArg Except.ok (Table.eq_of_rows ?_)
    show _ = updateRows _ _ (store.outbox.rows ++ [row])
    unfold updateRows
    rw [List.map_append]
    rfl
  · have hsame : ¬ row.outboxId ∉ store.unnumbered.outbox.rows.map OutboxRow.outboxId := by
      rw [hkeys]
      exact hfresh
    rw [dif_neg hfresh, dif_neg hsame]
    rfl

theorem enqueue_unnumbered {envelope : TriggerEnvelope} {outboxId : Uuid}
    {now : Instant} :
    Outbox.enqueue store.unnumbered.outbox tenant envelope outboxId 0 now =
      (Outbox.enqueue store.outbox tenant envelope outboxId n now).map fun written =>
        written.update (fun _ => true) withoutNumber := by
  unfold Outbox.enqueue
  cases correlationText envelope.correlationId with
  | none => rfl
  | some correlationId => exact insertMessage_unnumbered _ _ rfl

theorem enqueueIntegrationCommand_unnumbered {envelope : IntegrationCommandEnvelope}
    {outboxId : Uuid} {now : Instant} :
    Outbox.enqueueIntegrationCommand store.unnumbered.outbox tenant envelope outboxId 0 now =
      (Outbox.enqueueIntegrationCommand store.outbox tenant envelope outboxId n now).map
        fun written => written.update (fun _ => true) withoutNumber := by
  unfold Outbox.enqueueIntegrationCommand
  cases correlationText envelope.correlationId with
  | none => rfl
  | some correlationId => exact insertMessage_unnumbered _ _ rfl

theorem Query.answer_unnumbered (query : Query) :
    query.answer store.unnumbered tenant = query.answer store tenant := by
  cases query <;> rfl

/-- No call reads a number, and the one that writes it writes nothing else by it. -/
theorem Write.perform_unnumbered (write : Write) :
    write.perform store.unnumbered tenant 0 =
      (write.perform store tenant n).map fun written =>
        (written.1, written.2.unnumbered) := by
  cases write with
  | transitionSession | claim | transitionWorkItem | recordVerdict | remember
  | withdrawFeedback => rfl
  | recordConsent consentId workItemId consentedBy verdict databaseNow =>
      unfold Write.perform
      dsimp only [unnumbered]
      cases ConsentRepository.record store.consents store.workItems tenant consentId workItemId
        consentedBy verdict databaseNow <;> rfl
  | recordOutcome operationId verification detail databaseNow =>
      unfold Write.perform
      dsimp only [unnumbered]
      cases OperationRepository.recordOutcome store.operations tenant operationId verification
        detail databaseNow <;> rfl
  | enqueue envelope outboxId databaseNow =>
      unfold Write.perform
      dsimp only
      rw [enqueue_unnumbered (n := n)]
      cases Outbox.enqueue store.outbox tenant envelope outboxId n databaseNow <;> rfl
  | enqueueIntegrationCommand envelope outboxId databaseNow =>
      unfold Write.perform
      dsimp only
      rw [enqueueIntegrationCommand_unnumbered (n := n)]
      cases Outbox.enqueueIntegrationCommand store.outbox tenant envelope outboxId n
        databaseNow <;> rfl
  | recordAudit eventId correlationId actorChain detail workItemId retainUntil overrides
      databaseNow =>
      unfold Write.perform
      dsimp only [unnumbered]
      cases AuditSink.record store.auditEvents tenant eventId correlationId actorChain detail
        workItemId retainUntil overrides databaseNow <;> rfl
  | recordFeedback messageId givenBy signal feedbackId =>
      unfold Write.perform
      dsimp only [unnumbered]
      cases FeedbackRepository.record store.messages store.sessions store.feedback tenant messageId
        givenBy signal feedbackId <;> rfl

theorem Query.answer_seen (query : Query) :
    query.answer (store.seenBy tenant) tenant = query.answer store tenant := by
  unfold seenBy
  rw [Query.answer_unnumbered, Query.answer_own]

theorem Write.perform_seen {write : Write} (hfree : write.Free tenant store) :
    write.perform (store.seenBy tenant) tenant 0 =
      (write.perform store tenant n).map fun written =>
        (written.1, written.2.seenBy tenant) := by
  unfold seenBy
  rw [Write.perform_unnumbered write, Write.perform_own hfree]
  cases write.perform store tenant n <;> rfl

end Seen

/-! ## Two stores a tenant cannot tell apart -/

section TwoRuns

variable {tenant : TenantContext} {left right : Store}

theorem Query.answer_agree (hagree : left.seenBy tenant = right.seenBy tenant) (query : Query) :
    query.answer left tenant = query.answer right tenant := by
  rw [← Query.answer_seen, hagree, Query.answer_seen]

/-- One write in each: both are refused alike, or both answer alike and leave stores
that still agree. -/
theorem Write.perform_agree {write : Write} {n m : Nat}
    (hagree : left.seenBy tenant = right.seenBy tenant) (hleft : write.Free tenant left)
    (hright : write.Free tenant right) :
    (∃ error, write.perform left tenant n = .error error ∧
        write.perform right tenant m = .error error) ∨
      ∃ answer leftWritten rightWritten,
        write.perform left tenant n = .ok (answer, leftWritten) ∧
          write.perform right tenant m = .ok (answer, rightWritten) ∧
          leftWritten.seenBy tenant = rightWritten.seenBy tenant := by
  have hsame : (write.perform left tenant n).map
      (fun written => (written.1, written.2.seenBy tenant)) =
      (write.perform right tenant m).map fun written => (written.1, written.2.seenBy tenant) := by
    rw [← Write.perform_seen hleft, ← Write.perform_seen hright, hagree]
  cases hl : write.perform left tenant n with
  | error error =>
      cases hr : write.perform right tenant m with
      | error error' =>
          rw [hl, hr] at hsame
          injection hsame with hsame
          exact Or.inl ⟨error, rfl, congrArg Except.error hsame.symm⟩
      | ok written =>
          rw [hl, hr] at hsame
          cases hsame
  | ok leftWritten =>
      cases hr : write.perform right tenant m with
      | error error =>
          rw [hl, hr] at hsame
          cases hsame
      | ok rightWritten =>
          rw [hl, hr] at hsame
          injection hsame with hsame
          injection hsame with hanswer hseen
          refine Or.inr ⟨leftWritten.1, leftWritten.2, rightWritten.2, rfl, ?_, hseen⟩
          rw [hanswer]

/-- The body of a unit of work, in two stores that agree. -/
theorem runBody_agree {body : List Call} {leftPending rightPending : Store} {n m : Nat}
    (hagree : left.seenBy tenant = right.seenBy tenant)
    (hpending : leftPending.seenBy tenant = rightPending.seenBy tenant)
    (hleft : ∀ write, Call.write write ∈ body → write.Free tenant leftPending)
    (hright : ∀ write, Call.write write ∈ body → write.Free tenant rightPending) :
    (runBody left tenant body leftPending n).outcomes =
        (runBody right tenant body rightPending m).outcomes ∧
      (runBody left tenant body leftPending n).pending.map (seenBy tenant) =
        (runBody right tenant body rightPending m).pending.map (seenBy tenant) := by
  induction body generalizing leftPending rightPending n m with
  | nil => exact ⟨rfl, congrArg some hpending⟩
  | cons call body ih =>
      cases call with
      | query query =>
          unfold runBody
          rw [Query.answer_agree hagree query]
          cases query.answer right tenant with
          | error error => exact ⟨rfl, rfl⟩
          | ok answer =>
              obtain ⟨houtcomes, hrest⟩ := ih (n := n) (m := m) hpending
                (fun write hwrite => hleft write (List.mem_cons_of_mem _ hwrite))
                (fun write hwrite => hright write (List.mem_cons_of_mem _ hwrite))
              exact ⟨congrArg (List.cons (Except.ok answer)) houtcomes, hrest⟩
      | write write =>
          have hleftFree := hleft write List.mem_cons_self
          have hrightFree := hright write List.mem_cons_self
          unfold runBody
          rcases Write.perform_agree (n := n) (m := m) hpending hleftFree hrightFree with
            ⟨error, hl, hr⟩ | ⟨answer, leftWritten, rightWritten, hl, hr, hseen⟩
          · rw [hl, hr]
            exact ⟨rfl, rfl⟩
          · have hleftSpares := Write.perform_spares hleftFree hl
            have hrightSpares := Write.perform_spares hrightFree hr
            obtain ⟨houtcomes, hrest⟩ := ih (n := write.sequenceAfter n)
              (m := write.sequenceAfter m) hseen
              (fun next hnext => Write.Free.mono hleftSpares.others
                (hleft next (List.mem_cons_of_mem _ hnext)))
              (fun next hnext => Write.Free.mono hrightSpares.others
                (hright next (List.mem_cons_of_mem _ hnext)))
            rw [hl, hr]
            exact ⟨congrArg (List.cons (Except.ok answer)) houtcomes, hrest⟩

theorem runBody_spares {body : List Call} {committed pending after : Store} {n : Nat}
    (hfree : ∀ write, Call.write write ∈ body → write.Free tenant pending)
    (hafter : (runBody committed tenant body pending n).pending = some after) :
    Spares tenant pending after := by
  induction body generalizing pending n with
  | nil =>
      injection hafter with hafter
      rw [← hafter]
      exact Spares.refl tenant pending
  | cons call body ih =>
      cases call with
      | query query =>
          unfold runBody at hafter
          split at hafter
          · cases hafter
          · exact ih (fun write hwrite => hfree write (List.mem_cons_of_mem _ hwrite)) hafter
      | write write =>
          unfold runBody at hafter
          split at hafter
          · cases hafter
          · next answer written hwritten =>
              have hspares := Write.perform_spares (hfree write List.mem_cons_self) hwritten
              refine hspares.trans (ih ?_ hafter)
              intro next hnext
              exact Write.Free.mono hspares.others
                (hfree next (List.mem_cons_of_mem _ hnext))

end TwoRuns

/-! ## Runs -/

/-- The writes an action makes. -/
def Action.writes : Action → List Write
  | .call (.query _) => []
  | .call (.write write) => [write]
  | .unitOfWork body _ =>
      body.filterMap fun call =>
        match call with
        | .query _ => none
        | .write write => some write

theorem Action.mem_writes {body : List Call} {completes : Bool} {write : Write}
    (h : Call.write write ∈ body) : write ∈ (Action.unitOfWork body completes).writes :=
  List.mem_filterMap.mpr ⟨.write write, h, rfl⟩

/-- One action has the three duties. -/
theorem act_unwinding (tenant : TenantContext) :
    Noninterference.Unwinding (act tenant)
      (fun left right => left.committed.seenBy tenant = right.committed.seenBy tenant)
      (fun before after => Spares tenant before.committed after.committed)
      (fun state action => ∀ write ∈ action.writes, write.Free tenant state.committed) where
  refl state := Spares.refl tenant state.committed
  trans := Spares.trans
  admits hspares hfree write hwrite := Write.Free.mono hspares.others (hfree write hwrite)
  output := by
    intro left right action hagree hleft hright
    cases action with
    | call call =>
        cases call with
        | query query =>
            show [query.answer left.committed tenant] = [query.answer right.committed tenant]
            rw [Query.answer_agree hagree query]
        | write write => rfl
    | unitOfWork body completes =>
        exact (runBody_agree hagree hagree
          (fun write hwrite => hleft write (Action.mem_writes hwrite))
          (fun write hwrite => hright write (Action.mem_writes hwrite))).1
  agree := by
    intro left right action hagree hleft hright
    cases action with
    | call call => cases call <;> exact hagree
    | unitOfWork body completes =>
        cases completes with
        | false => exact hagree
        | true =>
            have hpending := (runBody_agree (n := left.sequence) (m := right.sequence)
              hagree hagree
              (fun write hwrite => hleft write (Action.mem_writes hwrite))
              (fun write hwrite => hright write (Action.mem_writes hwrite))).2
            show ((runBody _ _ _ _ _).pending.getD _).seenBy tenant =
              ((runBody _ _ _ _ _).pending.getD _).seenBy tenant
            cases hl : (runBody left.committed tenant body left.committed left.sequence).pending
              <;> cases hr : (runBody right.committed tenant body right.committed
                right.sequence).pending
              <;> rw [hl, hr] at hpending
            · exact hagree
            · cases hpending
            · cases hpending
            · injection hpending with hpending
  spares := by
    intro state action hfree
    cases action with
    | call call => cases call <;> exact Spares.refl tenant state.committed
    | unitOfWork body completes =>
        cases completes with
        | false => exact Spares.refl tenant state.committed
        | true =>
            show Spares tenant state.committed ((runBody _ _ _ _ _).pending.getD _)
            cases hpending : (runBody state.committed tenant body state.committed
                state.sequence).pending with
            | none => exact Spares.refl tenant state.committed
            | some after =>
                exact runBody_spares
                  (fun write hwrite => hfree write (Action.mem_writes hwrite)) hpending

/-- What two runs leave of one organisation's rows, from the same start: the same in
every table, but for the numbers of the outbox rows they added. -/
structure SameButNumbers (start left right : Store) : Prop where
  tables : left = { right with outbox := left.outbox }
  outbox : ∃ leftAdded rightAdded,
    left.outbox.rows = start.outbox.rows ++ leftAdded ∧
      right.outbox.rows = start.outbox.rows ++ rightAdded ∧
      leftAdded.map withoutNumber.apply = rightAdded.map withoutNumber.apply

theorem sameButNumbers_of_seen {tenant : TenantContext} {start left right : Store}
    (hseen : left.seenBy tenant = right.seenBy tenant)
    (hleft : ∃ added, (left.own tenant).outbox.rows = start.outbox.rows ++ added)
    (hright : ∃ added, (right.own tenant).outbox.rows = start.outbox.rows ++ added) :
    SameButNumbers start (left.own tenant) (right.own tenant) := by
  obtain ⟨leftAdded, hl⟩ := hleft
  obtain ⟨rightAdded, hr⟩ := hright
  refine ⟨?_, leftAdded, rightAdded, hl, hr, ?_⟩
  · exact congrArg (fun store : Store => { store with outbox := (left.own tenant).outbox }) hseen
  · have hrows : (left.own tenant).outbox.rows.map withoutNumber.apply =
        (right.own tenant).outbox.rows.map withoutNumber.apply :=
      congrArg (fun store : Store => store.outbox.rows) hseen
    rw [hl, hr, List.map_append, List.map_append] at hrows
    exact List.append_cancel_left hrows

/-- A tenant's rows of an outbox that has only grown. -/
theorem Spares.own_outbox {tenant : TenantContext} {before after : Store}
    (h : Spares tenant before after) :
    ∃ added, (after.own tenant).outbox.rows = (before.own tenant).outbox.rows ++ added := by
  obtain ⟨added, hadded⟩ := h.outbox
  refine ⟨added.filter fun row => row.tenantId == tenant.tenantId, ?_⟩
  show after.outbox.rows.filter _ = before.outbox.rows.filter _ ++ _
  rw [hadded, List.filter_append]

/-- Two databases with the same rows of an organisation and the same catalogue answer
all its calls alike and keep its rows the same, and neither changes another
organisation's, as long as no identifier its calls insert is one another organisation's
row already has. -/
theorem organisations_isolated {tenant : TenantContext} {actions : List Action}
    {left right : PlatformState}
    (hagree : left.committed.own tenant = right.committed.own tenant)
    (hleft : ∀ action ∈ actions, ∀ write ∈ action.writes, write.Free tenant left.committed)
    (hright : ∀ action ∈ actions, ∀ write ∈ action.writes, write.Free tenant right.committed) :
    (Noninterference.run (act tenant) left actions).1 =
        (Noninterference.run (act tenant) right actions).1 ∧
      SameButNumbers (left.committed.own tenant)
        ((Noninterference.run (act tenant) left actions).2.committed.own tenant)
        ((Noninterference.run (act tenant) right actions).2.committed.own tenant) ∧
      (Noninterference.run (act tenant) left actions).2.committed.others tenant =
        left.committed.others tenant ∧
      (Noninterference.run (act tenant) right actions).2.committed.others tenant =
        right.committed.others tenant := by
  have hunwinding := act_unwinding tenant
  have hleftSpares := Noninterference.run_spares hunwinding hleft
  have hrightSpares := Noninterference.run_spares hunwinding hright
  obtain ⟨houtputs, hseen⟩ := Noninterference.run_agree hunwinding
    (congrArg unnumbered hagree) hleft hright
  refine ⟨houtputs, ?_, hleftSpares.others, hrightSpares.others⟩
  refine sameButNumbers_of_seen hseen hleftSpares.own_outbox ?_
  rw [hagree]
  exact hrightSpares.own_outbox

/-! ## What the organisations share -/

def fabrikam : TenantContext := ⟨⟨1⟩, ⟨11⟩, .active, .endUserIdentity⟩

def fabrikamItem : WorkItemRow :=
  ⟨⟨5⟩, ⟨1⟩, ⟨3⟩, ⟨9⟩, .awaitingDecision, .pending, none, none, none, 1, 0, rfl⟩

/-- One work item of the organisation's. -/
def fabrikamAlone : Store := { workItems := ⟨[fabrikamItem], List.nodup_singleton _⟩ }

/-- The same, beside another organisation's consent. -/
def besideConsent : Store :=
  { fabrikamAlone with
    consents := ⟨[⟨⟨7⟩, ⟨2⟩, ⟨6⟩, ⟨8⟩, 0, .granted⟩], List.nodup_singleton _⟩ }

def consenting (consentId : Uuid) : Action :=
  .unitOfWork [.write (.recordConsent ⟨consentId⟩ ⟨5⟩ ⟨9⟩ .granted 100)] true

def enqueueing : Action :=
  .unitOfWork [.write (.enqueue ⟨⟨5⟩, .text [], .sampleFlow⟩ 12 100)] true

def resetEntry : GovernanceRow :=
  ⟨"reset", 1, .action, .auto, [], true, false, .lowImpact, none, none, none⟩

/-- The organisation is entitled to one capability. -/
def entitledOnly : Store :=
  { entitlements := ⟨[⟨⟨1⟩, "reset", true⟩], List.nodup_singleton _⟩ }

/-- Three ways the rest of the database shows. An identifier another organisation's
consent has is refused, and recorded where that consent is not there. An outbox row
takes the number a counter of the whole table stands at. A capability resolves where
the platform's catalogue has its entry. -/
theorem organisations_share :
    (besideConsent.own fabrikam = fabrikamAlone.own fabrikam ∧
      (Noninterference.run (act fabrikam) ⟨besideConsent, 1⟩ [consenting 7]).1 =
        [[.error .integrityError]] ∧
      (Noninterference.run (act fabrikam) ⟨fabrikamAlone, 1⟩ [consenting 7]).1 =
        [[.ok (.flag true)]]) ∧
    (((Noninterference.run (act fabrikam) ⟨fabrikamAlone, 1⟩ [enqueueing]).2.committed.own
        fabrikam).outbox.rows.map OutboxRow.sequence = [1] ∧
      ((Noninterference.run (act fabrikam) ⟨fabrikamAlone, 2⟩ [enqueueing]).2.committed.own
        fabrikam).outbox.rows.map OutboxRow.sequence = [2]) ∧
    (Noninterference.run (act fabrikam) ⟨entitledOnly, 1⟩
        [.call (.query (.lookup ⟨"reset", 1⟩))]).1 = [[.ok (.entry none)]] ∧
      (Noninterference.run (act fabrikam)
        ⟨{ entitledOnly with catalogue := ⟨[resetEntry], List.nodup_singleton _⟩ }, 1⟩
        [.call (.query (.lookup ⟨"reset", 1⟩))]).1 ≠ [[.ok (.entry none)]] := by
  refine ⟨⟨rfl, rfl, rfl⟩, ⟨rfl, rfl⟩, ?_, ?_⟩
  · decide
  · decide

/-- A consent under an identifier of its own, beside another organisation's or not. -/
theorem fabrikam_isolated :
    (Noninterference.run (act fabrikam) ⟨besideConsent, 1⟩ [consenting 10]).1 =
      (Noninterference.run (act fabrikam) ⟨fabrikamAlone, 8⟩ [consenting 10]).1 :=
  (@organisations_isolated fabrikam [consenting 10] ⟨besideConsent, 1⟩ ⟨fabrikamAlone, 8⟩ rfl
    (by decide) (by decide)).1

end Store

end Synthia
