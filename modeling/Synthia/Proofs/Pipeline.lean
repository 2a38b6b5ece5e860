import Synthia.Integrations.Envelopes
import Synthia.Proofs.Keys
import Synthia.Workers.OutboxDispatch
import Synthia.Workers.ResumeWorker

/-!
# Messages through the pipeline

Two services write and read the same bodies without sharing a line of code. What
both sides agree on is small: the text of an identifier reads back as the
identifier, the values of a kind set name its members, and what `json.dumps` writes
of three texts `json.loads` gives back, whatever the separators and the order.

So a body is its object of three members, and everything else is which parser does
what with which object. A trigger's object has a field the two closed parsers do
not know; an object of the integration seam lacks the field the third one asks for;
and the results parser hands back the kind it found, or refuses it.
-/

namespace Synthia

open Text Json

/-! ## The text of an identifier reads back -/

theorem Uuid.ofText_toText (uuid : Uuid) : Uuid.ofText uuid.toText = some uuid := by
  have hu : (0x75 : CodePoint) ∉ uuid.toText := uuid.notMem_toText (by decide)
  have hbrace : ∀ c ∈ ([0x7B, 0x7D] : List CodePoint), 0x67 ≤ c.val := by
    rw [List.forall_mem_cons, List.forall_mem_singleton]
    decide
  have hurn : removeAll (ofString "urn:") uuid.toText = uuid.toText := removeAll_of_notMem hu
  have huuid : removeAll (ofString "uuid:") uuid.toText = uuid.toText := removeAll_of_notMem hu
  have hbraces : stripChars (ofString "{}") uuid.toText = uuid.toText := by
    refine stripWhere_self fun c hc => ?_
    rw [← Bool.not_eq_true]
    intro hstripped
    exact uuid.notMem_toText (hbrace c (List.contains_iff_mem.mp hstripped)) hc
  have hbound := uuid.isLt
  have hread : intBase16 (hexDigits 32 uuid.toNat) = some (uuid.toNat : Int) := by
    rw [intBase16_hexDigits 31, Nat.mod_eq_of_lt (by omega)]
  unfold Uuid.ofText
  simp only [hurn, huuid, hbraces, Uuid.filter_toText, length_hexDigits, hread]
  rw [if_pos trivial, if_pos (by omega)]
  refine congrArg some (BitVec.eq_of_toNat_eq ?_)
  rw [BitVec.toNat_ofInt]
  omega

/-! ## What `json.loads` gives back of a body -/

def ScalarText (text : List CodePoint) : Prop := ∀ c ∈ text, IsScalar c

instance (text : List CodePoint) : Decidable (ScalarText text) :=
  List.decidableBAll (fun c : CodePoint => ¬ (0xD800 ≤ c.val ∧ c.val ≤ 0xDFFF)) text

theorem Uuid.scalar_toText (uuid : Uuid) : ScalarText uuid.toText := by
  intro c hc hsurrogate
  have hval := Uuid.val_toText hc
  omega

/-- What the platform admits as a correlation identifier is ASCII. -/
theorem Integrations.scalar_of_wellFormed {text : List CodePoint}
    (h : Integrations.wellFormedCorrelation text = true) : ScalarText text := by
  unfold Integrations.wellFormedCorrelation at h
  rw [Bool.and_eq_true, List.all_eq_true] at h
  intro c hc hsurrogate
  have hchar := h.2 c hc
  unfold Integrations.isCorrelationChar at hchar
  simp only [Bool.or_eq_true, Bool.and_eq_true, decide_eq_true_eq, beq_iff_eq] at hchar
  rcases hchar with ((((hchar | hchar) | hchar) | rfl) | rfl) | rfl
  · omega
  · omega
  · omega
  · exact absurd hsurrogate (by decide)
  · exact absurd hsurrogate (by decide)
  · exact absurd hsurrogate (by decide)

/-- The object of a trigger's body. -/
def triggerObject (workItemId correlationId kind : List CodePoint) : Value CodePoint :=
  .object [(ofString "correlationId", .string correlationId), (ofString "kind", .string kind),
    (ofString "workItemId", .string workItemId)]

/-- The object of a body of the integration seam, whichever service wrote it. -/
def seamObject (jobId correlationId kind : List CodePoint) : Value CodePoint :=
  .object [(ofString "correlationId", .string correlationId), (ofString "jobId", .string jobId),
    (ofString "kind", .string kind)]

section Bodies

variable {identifier : Uuid} {correlationId : List CodePoint} {kind : String}

theorem sortKeys_trigger {β : Type} (first second third : β) :
    sortKeys [(ofString "workItemId", first), (ofString "correlationId", second),
        (ofString "kind", third)] =
      [(ofString "correlationId", second), (ofString "kind", third),
        (ofString "workItemId", first)] := rfl

theorem sortKeys_seam {β : Type} (first second third : β) :
    sortKeys [(ofString "jobId", first), (ofString "correlationId", second),
        (ofString "kind", third)] =
      [(ofString "correlationId", second), (ofString "jobId", first),
        (ofString "kind", third)] := rfl

/-- An entry of a body: a field name and a text. -/
theorem readable_entry {name text : List CodePoint} (hname : ScalarText name)
    (htext : ScalarText text) :
    (∀ c ∈ name, IsScalar c) ∧ ∀ found ∈ some text, ∀ c ∈ found, IsScalar c := by
  refine ⟨hname, ?_⟩
  intro found hfound
  rw [← Option.some.inj hfound]
  exact htext

theorem loads_three {gap : List CodePoint} (hgap : ∀ c ∈ gap, c = 0x20)
    {name text second secondText third thirdText : List CodePoint}
    (hname : ScalarText name) (htext : ScalarText text)
    (hsecond : ScalarText second) (hsecondText : ScalarText secondText)
    (hthird : ScalarText third) (hthirdText : ScalarText thirdText) :
    jsonLoads (dumps gap (flat [(name, some text), (second, some secondText),
        (third, some thirdText)])) =
      some (.object [(name, .string text), (second, .string secondText),
        (third, .string thirdText)]) := by
  rw [jsonLoads_dumps hgap]
  · rfl
  · intro found hfound
    rcases List.mem_cons.mp hfound with h | hfound
    · rw [h]
      exact readable_entry hname htext
    rcases List.mem_cons.mp hfound with h | hfound
    · rw [h]
      exact readable_entry hsecond hsecondText
    · rw [List.mem_singleton.mp hfound]
      exact readable_entry hthird hthirdText

theorem scalar_fields : ScalarText (ofString "correlationId") ∧ ScalarText (ofString "kind") ∧
    ScalarText (ofString "workItemId") ∧ ScalarText (ofString "jobId") := by
  decide

theorem loads_triggerBody (hcorrelation : ScalarText correlationId)
    (hkind : ScalarText (ofString kind)) :
    jsonLoads (MessageBody.text ⟨"workItemId", identifier, correlationId, kind⟩) =
      some (triggerObject identifier.toText correlationId (ofString kind)) := by
  rw [MessageBody.text, sortKeys_trigger, triggerObject]
  exact loads_three (fun _ hc => List.mem_singleton.mp hc) scalar_fields.1 hcorrelation
    scalar_fields.2.1 hkind scalar_fields.2.2.1 (Uuid.scalar_toText identifier)

theorem loads_commandBody (hcorrelation : ScalarText correlationId)
    (hkind : ScalarText (ofString kind)) :
    jsonLoads (MessageBody.text ⟨"jobId", identifier, correlationId, kind⟩) =
      some (seamObject identifier.toText correlationId (ofString kind)) := by
  rw [MessageBody.text, sortKeys_seam, seamObject]
  exact loads_three (fun _ hc => List.mem_singleton.mp hc) scalar_fields.1 hcorrelation
    scalar_fields.2.2.2 (Uuid.scalar_toText identifier) scalar_fields.2.1 hkind

end Bodies

theorem TriggerKind.scalar_value (kind : TriggerKind) : ScalarText (ofString kind.value) := by
  cases kind <;> decide

theorem IntegrationMessageKind.scalar_value (kind : IntegrationMessageKind) :
    ScalarText (ofString kind.value) := by
  cases kind <;> decide

theorem loads_toJson {envelope : Integrations.MessageEnvelope}
    (hcorrelation : ScalarText envelope.correlationId) :
    jsonLoads envelope.toJson = some (seamObject envelope.jobId.value.toText
      envelope.correlationId (ofString envelope.kind.value)) := by
  rw [Integrations.MessageEnvelope.toJson, sortKeys_seam, seamObject]
  exact loads_three (fun _ hc => absurd hc List.not_mem_nil) scalar_fields.1 hcorrelation
    scalar_fields.2.2.2 (Uuid.scalar_toText _) scalar_fields.2.1 envelope.kind.scalar_value

/-! ## What each parser makes of the two objects -/

section Members

variable (identifier correlationId kind : List CodePoint)

theorem triggerObject_workItemId :
    (triggerObject identifier correlationId kind).member (ofString "workItemId") =
      some (.string identifier) := rfl

theorem triggerObject_correlationId :
    (triggerObject identifier correlationId kind).member (ofString "correlationId") =
      some (.string correlationId) := rfl

theorem triggerObject_kind :
    (triggerObject identifier correlationId kind).member (ofString "kind") =
      some (.string kind) := rfl

theorem seamObject_jobId :
    (seamObject identifier correlationId kind).member (ofString "jobId") =
      some (.string identifier) := rfl

theorem seamObject_correlationId :
    (seamObject identifier correlationId kind).member (ofString "correlationId") =
      some (.string correlationId) := rfl

theorem seamObject_kind :
    (seamObject identifier correlationId kind).member (ofString "kind") =
      some (.string kind) := rfl

theorem seamObject_workItemId :
    (seamObject identifier correlationId kind).member (ofString "workItemId") = none := rfl

end Members

section Parsers

variable {body correlationId : List CodePoint} {property : String → Option (List CodePoint)}
  {rendered : Value CodePoint → List CodePoint}

theorem TriggerKind.find_value (kind : TriggerKind) :
    ([TriggerKind.approvalGranted, .approvalRejected, .consentGranted, .consentRefused,
      .sampleFlow].find? fun member => ofString member.value == ofString kind.value) =
        some kind := by
  cases kind <;> rfl

theorem IntegrationMessageKind.find_value (kind : IntegrationMessageKind) :
    ([IntegrationMessageKind.execute, .completed, .failed].find? fun member =>
      ofString member.value == ofString kind.value) = some kind := by
  cases kind <;> rfl

theorem workItemIdOf_toText (workItemId : WorkItemId) :
    ResumeWorker.workItemIdOf (.string workItemId.value.toText) = .ok workItemId := by
  rw [ResumeWorker.workItemIdOf, Uuid.ofText_toText]

theorem resultJobId_toText (jobId : IntegrationJobId) :
    resultJobId (.string jobId.value.toText) = .ok jobId := by
  rw [resultJobId, Uuid.ofText_toText]

/-- The resume worker recovers a trigger. -/
theorem parseMessage_trigger {workItemId : WorkItemId} {kind : TriggerKind}
    (hbody : jsonLoads body = some (triggerObject workItemId.value.toText correlationId
      (ofString kind.value))) :
    ResumeWorker.parseMessage body property =
      .ok ⟨⟨workItemId, .text correlationId, kind⟩, ⟨correlationId,
        (property "traceparent").getD [], (property "tracestate").getD []⟩⟩ := by
  have hfield : ∀ name value, (triggerObject workItemId.value.toText correlationId
      (ofString kind.value)).member (ofString name) = some value →
      ResumeWorker.field (triggerObject workItemId.value.toText correlationId
        (ofString kind.value)) name = .ok value := by
    intro name value hmember
    rw [triggerObject] at hmember ⊢
    rw [ResumeWorker.field, hmember]
  have hkind : ResumeWorker.kindOf (.string (ofString kind.value)) = .ok kind := by
    rw [ResumeWorker.kindOf]
    simp only [kind.find_value]
  rw [ResumeWorker.parseMessage, hbody]
  simp only [hfield _ _ (triggerObject_workItemId _ _ _),
    hfield _ _ (triggerObject_correlationId _ _ _), hfield _ _ (triggerObject_kind _ _ _),
    bind, Except.bind, workItemIdOf_toText, hkind, ResumeWorker.wrapped, correlationText]
  rfl

/-- A body of the seam has no work item. -/
theorem parseMessage_seam {identifier kind : List CodePoint}
    (hbody : jsonLoads body = some (seamObject identifier correlationId kind)) :
    ResumeWorker.parseMessage body property =
      .error (.undeserializable "KeyError: workItemId") := by
  have hfield : ResumeWorker.field (seamObject identifier correlationId kind) "workItemId" =
      .error (.undeserializable "KeyError: workItemId") := by
    have hmember := seamObject_workItemId identifier correlationId kind
    rw [seamObject] at hmember ⊢
    rw [ResumeWorker.field, hmember]
    rfl
  rw [ResumeWorker.parseMessage, hbody]
  simp only [hfield, bind, Except.bind]

/-- The names of a seam body are the permitted ones, each once. -/
theorem seam_names :
    [ofString "correlationId", ofString "jobId", ofString "kind"].dedup =
      [ofString "correlationId", ofString "jobId", ofString "kind"] := by
  decide

theorem trigger_names :
    [ofString "correlationId", ofString "kind", ofString "workItemId"].dedup =
      [ofString "correlationId", ofString "kind", ofString "workItemId"] := by
  decide

theorem Integrations.fromJson_seam {jobId : IntegrationJobId} {kind : IntegrationMessageKind}
    (hbody : jsonLoads body = some (seamObject jobId.value.toText correlationId
      (ofString kind.value))) :
    Integrations.MessageEnvelope.fromJson rendered body =
      if Integrations.wellFormedCorrelation correlationId then .ok ⟨jobId, correlationId, kind⟩
      else .error .correlationId := by
  have hjobId : Integrations.MessageEnvelope.jobIdOf jobId.value.toText = .ok jobId := by
    rw [Integrations.MessageEnvelope.jobIdOf, Uuid.ofText_toText]
  have hkind : Integrations.MessageEnvelope.kindOf (ofString kind.value) = .ok kind := by
    rw [Integrations.MessageEnvelope.kindOf]
    simp only [kind.find_value]
  have hforbidden : ([ofString "correlationId", ofString "jobId", ofString "kind"].filter
      fun name => !(Integrations.MessageEnvelope.permittedFields.contains name)) = [] := rfl
  have hmissing : (Integrations.MessageEnvelope.permittedFields.filter fun name =>
      !([ofString "correlationId", ofString "jobId", ofString "kind"].contains name)) = [] := rfl
  have hdecodedJob := seamObject_jobId jobId.value.toText correlationId (ofString kind.value)
  have hdecodedCorrelation :=
    seamObject_correlationId jobId.value.toText correlationId (ofString kind.value)
  have hdecodedKind := seamObject_kind jobId.value.toText correlationId (ofString kind.value)
  rw [seamObject] at hbody hdecodedJob hdecodedCorrelation hdecodedKind
  rw [Integrations.MessageEnvelope.fromJson, hbody]
  simp only [List.map_cons, List.map_nil, seam_names, hforbidden, hmissing, List.isEmpty_nil,
    Bool.not_true, Bool.false_eq_true, if_false, Integrations.MessageEnvelope.decodedField,
    hdecodedJob, hdecodedCorrelation, hdecodedKind, Option.getD_some, Integrations.str,
    hjobId, hkind, bind, Except.bind, pure, Except.pure,
    Integrations.MessageEnvelope.correlationIdOf]
  cases Integrations.wellFormedCorrelation correlationId with
  | true => rfl
  | false => rfl

theorem Integrations.fromJson_trigger {identifier kind : List CodePoint}
    (hbody : jsonLoads body = some (triggerObject identifier correlationId kind)) :
    Integrations.MessageEnvelope.fromJson rendered body = .error (.forbidden 1) := by
  have hforbidden : ([ofString "correlationId", ofString "kind", ofString "workItemId"].filter
      fun name => !(Integrations.MessageEnvelope.permittedFields.contains name)) =
        [ofString "workItemId"] := rfl
  rw [triggerObject] at hbody
  rw [Integrations.MessageEnvelope.fromJson, hbody]
  simp only [List.map_cons, List.map_nil, trigger_names, hforbidden, List.isEmpty_cons,
    Bool.not_false, if_true]
  rfl

/-- The results parser recovers a result, and refuses a command. -/
theorem parseResultMessage_seam {jobId : IntegrationJobId} {kind : IntegrationMessageKind}
    (hbody : jsonLoads body = some (seamObject jobId.value.toText correlationId
      (ofString kind.value))) :
    parseResultMessage (Integrations.str rendered) (jsonLoads body) property =
      if handledKinds.contains kind then
        .ok ⟨jobId, .string correlationId, kind, ⟨correlationId,
          (property "traceparent").getD [], (property "tracestate").getD []⟩⟩
      else .error (.undeserializable
        s!"ValueError: {kind.value} is not consumed on the results queue") := by
  have hkind : resultKind (.string (ofString kind.value)) =
      if handledKinds.contains kind then .ok kind
      else .error (.undeserializable
        s!"ValueError: {kind.value} is not consumed on the results queue") := by
    rw [resultKind]
    simp only [kind.find_value]
  have hforbidden : ([ofString "correlationId", ofString "jobId", ofString "kind"].filter
      fun name => !(permittedFields.contains name)) = [] := rfl
  have hfieldJob := seamObject_jobId jobId.value.toText correlationId (ofString kind.value)
  have hfieldCorrelation :=
    seamObject_correlationId jobId.value.toText correlationId (ofString kind.value)
  have hfieldKind := seamObject_kind jobId.value.toText correlationId (ofString kind.value)
  rw [seamObject] at hbody hfieldJob hfieldCorrelation hfieldKind
  rw [hbody, parseResultMessage]
  simp only [List.map_cons, List.map_nil, seam_names, hforbidden, List.length_nil, ne_eq,
    not_true, if_false, payloadField, hfieldJob, hfieldCorrelation, hfieldKind, hkind,
    resultJobId_toText, Integrations.str, bind, Except.bind, pure, Except.pure]
  cases handledKinds.contains kind with
  | true => rfl
  | false => rfl

theorem parseResultMessage_trigger {identifier kind : List CodePoint}
    (hbody : jsonLoads body = some (triggerObject identifier correlationId kind))
    (consumed : ConsumedResult) :
    parseResultMessage (Integrations.str rendered) (jsonLoads body) property ≠ .ok consumed := by
  have hforbidden : ([ofString "correlationId", ofString "kind", ofString "workItemId"].filter
      fun name => !(permittedFields.contains name)) = [ofString "workItemId"] := rfl
  rw [triggerObject] at hbody
  rw [hbody, parseResultMessage]
  simp only [List.map_cons, List.map_nil, trigger_names, hforbidden, List.length_cons,
    List.length_nil]
  intro h
  cases h

end Parsers

/-! ## The rows RagCore enqueues -/

section Rows

variable {table written : OutboxTable} {tenant : TenantContext} {outboxId : Uuid}
  {sequence : Nat} {now : Instant} {correlationId : List CodePoint}

theorem insertMessage_find {row : OutboxRow}
    (h : Outbox.insertMessage table row = .ok written) :
    written.find row.outboxId = some row := by
  unfold Outbox.insertMessage at h
  split at h
  · injection h with h
    rw [← h]
    exact Relational.Table.find_of_mem (List.mem_append_right _ List.mem_cons_self)
  · cases h

theorem uuidOf_toText (uuid : Uuid) :
    OutboxDispatch.uuidOf (.text uuid.toText) = .ok uuid := by
  rw [OutboxDispatch.uuidOf, Uuid.ofText_toText]

/-- The row of a trigger is rebuilt into the trigger. -/
theorem enqueue_rebuilt {envelope : TriggerEnvelope}
    (hcorrelation : envelope.correlationId = .text correlationId)
    (h : Outbox.enqueue table tenant envelope outboxId sequence now = .ok written) :
    ∃ row, written.find outboxId = some row ∧
      OutboxDispatch.envelopeFromRow row = .ok (.trigger envelope) := by
  unfold Outbox.enqueue at h
  rw [hcorrelation] at h
  refine ⟨_, insertMessage_find h, ?_⟩
  have hidentifier : OutboxDispatch.Payload.get "workItemId"
      (.object [("workItemId", .text envelope.workItemId.value.toText),
        ("correlationId", .text correlationId)]) =
      .ok (.text envelope.workItemId.value.toText) := rfl
  have htext : OutboxDispatch.Payload.get "correlationId"
      (.object [("workItemId", .text envelope.workItemId.value.toText),
        ("correlationId", .text correlationId)]) = .ok (.text correlationId) := rfl
  have hkind : OutboxDispatch.triggerKindOf envelope.kind.value = .ok envelope.kind := by
    rw [OutboxDispatch.triggerKindOf, TriggerKind.ofValue_value]
  rw [OutboxDispatch.envelopeFromRow, Outbox.inserted]
  simp only [IntegrationMessageKind.ofValue_trigger, hidentifier, htext, hkind, uuidOf_toText,
    bind, Except.bind, pure, Except.pure]
  rw [← hcorrelation]

theorem enqueueIntegrationCommand_rebuilt {envelope : IntegrationCommandEnvelope}
    (hcorrelation : envelope.correlationId = .text correlationId)
    (h : Outbox.enqueueIntegrationCommand table tenant envelope outboxId sequence now =
      .ok written) :
    ∃ row, written.find outboxId = some row ∧
      OutboxDispatch.envelopeFromRow row = .ok (.command envelope) := by
  unfold Outbox.enqueueIntegrationCommand at h
  rw [hcorrelation] at h
  refine ⟨_, insertMessage_find h, ?_⟩
  have hidentifier : OutboxDispatch.Payload.get "jobId"
      (.object [("jobId", .text envelope.jobId.value.toText),
        ("correlationId", .text correlationId)]) = .ok (.text envelope.jobId.value.toText) := rfl
  have htext : OutboxDispatch.Payload.get "correlationId"
      (.object [("jobId", .text envelope.jobId.value.toText),
        ("correlationId", .text correlationId)]) = .ok (.text correlationId) := rfl
  rw [OutboxDispatch.envelopeFromRow, Outbox.inserted]
  simp only [IntegrationMessageKind.ofValue_value, hidentifier, htext, uuidOf_toText,
    bind, Except.bind, pure, Except.pure]
  rw [← hcorrelation]

end Rows

/-! ## A message survives -/

section Survival

variable (rendered : Value CodePoint → List CodePoint)
  (property : String → Option (List CodePoint))

/-- No other consumer takes this body for a message of another kind. -/
structure OnlyAs (kind : String) (body : List CodePoint) : Prop where
  trigger : ∀ consumed, ResumeWorker.parseMessage body property = .ok consumed →
    consumed.envelope.kind.value = kind
  command : ∀ envelope, Integrations.MessageEnvelope.fromJson rendered body = .ok envelope →
    envelope.kind.value = kind
  result : ∀ consumed, parseResultMessage (Integrations.str rendered) (jsonLoads body) property =
    .ok consumed → consumed.kind.value = kind

/-- A trigger goes to the resume worker, and only the resume worker reads it. -/
theorem trigger_survives {table written : OutboxTable} {tenant : TenantContext}
    {envelope : TriggerEnvelope} {outboxId : Uuid} {sequence : Nat} {now : Instant}
    {correlationId : List CodePoint} (hcorrelation : envelope.correlationId = .text correlationId)
    (hlegal : Integrations.wellFormedCorrelation correlationId = true)
    (h : Outbox.enqueue table tenant envelope outboxId sequence now = .ok written) :
    ∃ row body consumed, written.find outboxId = some row ∧
      OutboxDispatch.envelopeFromRow row = .ok (.trigger envelope) ∧
      messageBody (.trigger envelope) = .ok body ∧
      queueFor (.trigger envelope) = .ok .triggers ∧
      ResumeWorker.parseMessage body.text property = .ok consumed ∧
      consumed.envelope = envelope ∧
      OnlyAs rendered property envelope.kind.value body.text := by
  obtain ⟨row, hrow, hrebuilt⟩ := enqueue_rebuilt hcorrelation h
  have hbody : messageBody (.trigger envelope) =
      .ok ⟨"workItemId", envelope.workItemId.value, correlationId, envelope.kind.value⟩ := by
    rw [messageBody, Envelope.correlationId, hcorrelation]
    rfl
  have hloads := @loads_triggerBody envelope.workItemId.value _ _
    (Integrations.scalar_of_wellFormed hlegal) envelope.kind.scalar_value
  have hparsed := @parseMessage_trigger _ _ property _ _ hloads
  refine ⟨row, _, _, hrow, hrebuilt, hbody, rfl, hparsed, ?_, ?_⟩
  · rw [← hcorrelation]
  · refine ⟨?_, ?_, ?_⟩
    · intro consumed hconsumed
      rw [hparsed] at hconsumed
      injection hconsumed with hconsumed
      rw [← hconsumed]
    · intro other hother
      rw [Integrations.fromJson_trigger hloads] at hother
      cases hother
    · intro consumed hconsumed
      exact absurd hconsumed (parseResultMessage_trigger hloads consumed)

/-- A body of the seam is read as the kind it has, by whoever reads it. -/
theorem seam_onlyAs {body correlationId : List CodePoint} {jobId : IntegrationJobId}
    {kind : IntegrationMessageKind}
    (hloads : jsonLoads body = some (seamObject jobId.value.toText correlationId
      (ofString kind.value))) : OnlyAs rendered property kind.value body := by
  refine ⟨?_, ?_, ?_⟩
  · intro consumed hconsumed
    rw [parseMessage_seam hloads] at hconsumed
    cases hconsumed
  · intro envelope henvelope
    rw [Integrations.fromJson_seam hloads] at henvelope
    split at henvelope
    · injection henvelope with henvelope
      rw [← henvelope]
    · cases henvelope
  · intro consumed hconsumed
    rw [parseResultMessage_seam hloads] at hconsumed
    split at hconsumed
    · injection hconsumed with hconsumed
      rw [← hconsumed]
    · cases hconsumed

/-- A command goes to the Integrations Service, which recovers it. -/
theorem command_survives {table written : OutboxTable} {tenant : TenantContext}
    {envelope : IntegrationCommandEnvelope} {outboxId : Uuid} {sequence : Nat} {now : Instant}
    {correlationId : List CodePoint} (hcorrelation : envelope.correlationId = .text correlationId)
    (hlegal : Integrations.wellFormedCorrelation correlationId = true)
    (h : Outbox.enqueueIntegrationCommand table tenant envelope outboxId sequence now =
      .ok written) :
    ∃ row body, written.find outboxId = some row ∧
      OutboxDispatch.envelopeFromRow row = .ok (.command envelope) ∧
      messageBody (.command envelope) = .ok body ∧
      (envelope.kind = .execute → queueFor (.command envelope) = .ok .integrationCommands) ∧
      Integrations.MessageEnvelope.fromJson rendered body.text =
        .ok ⟨envelope.jobId, correlationId, envelope.kind⟩ ∧
      OnlyAs rendered property envelope.kind.value body.text := by
  obtain ⟨row, hrow, hrebuilt⟩ := enqueueIntegrationCommand_rebuilt hcorrelation h
  have hbody : messageBody (.command envelope) =
      .ok ⟨"jobId", envelope.jobId.value, correlationId, envelope.kind.value⟩ := by
    rw [messageBody, Envelope.correlationId, hcorrelation]
    rfl
  have hloads := @loads_commandBody envelope.jobId.value _ _
    (Integrations.scalar_of_wellFormed hlegal) envelope.kind.scalar_value
  refine ⟨row, _, hrow, hrebuilt, hbody, ?_, ?_, seam_onlyAs rendered property hloads⟩
  · intro hexecute
    rw [queueFor, hexecute]
    rfl
  · rw [Integrations.fromJson_seam hloads, if_pos hlegal]

/-- A result goes to RagCore's result worker, which recovers it. -/
theorem result_survives {envelope : Integrations.MessageEnvelope}
    (hresult : handledKinds.contains envelope.kind = true)
    (hcorrelation : ScalarText envelope.correlationId) :
    (∃ consumed, parseResultMessage (Integrations.str rendered) (jsonLoads envelope.toJson)
        property = .ok consumed ∧
      consumed.jobId = envelope.jobId ∧ consumed.correlationId = .string envelope.correlationId ∧
      consumed.trace.correlationId = envelope.correlationId ∧ consumed.kind = envelope.kind) ∧
    OnlyAs rendered property envelope.kind.value envelope.toJson := by
  have hloads := loads_toJson hcorrelation
  have hparsed := @parseResultMessage_seam _ _ property rendered _ _ hloads
  rw [if_pos hresult] at hparsed
  exact ⟨⟨_, hparsed, rfl, rfl, rfl, rfl⟩, seam_onlyAs rendered property hloads⟩

end Survival

/-- **A message survives the pipeline unchanged.** Whatever RagCore enqueues with a
correlation identifier the platform admits, its row is rebuilt into the envelope, and
the consumer the body goes to recovers identifier, correlation identifier and kind;
whatever result the Integrations Service writes, RagCore's parser recovers, and for
that its correlation identifier need only be free of surrogates. No consumer takes
any of the bodies for a message of another kind. -/
theorem message_survives (rendered : Value CodePoint → List CodePoint)
    (property : String → Option (List CodePoint)) :
    (∀ (table written : OutboxTable) (tenant : TenantContext) (envelope : TriggerEnvelope)
      (outboxId : Uuid) (sequence : Nat) (now : Instant) (correlationId : List CodePoint),
      envelope.correlationId = .text correlationId →
      Integrations.wellFormedCorrelation correlationId = true →
      Outbox.enqueue table tenant envelope outboxId sequence now = .ok written →
      ∃ row body consumed, written.find outboxId = some row ∧
        OutboxDispatch.envelopeFromRow row = .ok (.trigger envelope) ∧
        messageBody (.trigger envelope) = .ok body ∧
        queueFor (.trigger envelope) = .ok .triggers ∧
        ResumeWorker.parseMessage body.text property = .ok consumed ∧
        consumed.envelope = envelope ∧
        OnlyAs rendered property envelope.kind.value body.text) ∧
    (∀ (table written : OutboxTable) (tenant : TenantContext)
      (envelope : IntegrationCommandEnvelope) (outboxId : Uuid) (sequence : Nat) (now : Instant)
      (correlationId : List CodePoint), envelope.correlationId = .text correlationId →
      Integrations.wellFormedCorrelation correlationId = true →
      Outbox.enqueueIntegrationCommand table tenant envelope outboxId sequence now =
        .ok written →
      ∃ row body, written.find outboxId = some row ∧
        OutboxDispatch.envelopeFromRow row = .ok (.command envelope) ∧
        messageBody (.command envelope) = .ok body ∧
        (envelope.kind = .execute → queueFor (.command envelope) = .ok .integrationCommands) ∧
        Integrations.MessageEnvelope.fromJson rendered body.text =
          .ok ⟨envelope.jobId, correlationId, envelope.kind⟩ ∧
        OnlyAs rendered property envelope.kind.value body.text) ∧
    ∀ envelope : Integrations.MessageEnvelope, handledKinds.contains envelope.kind = true →
      ScalarText envelope.correlationId →
      (∃ consumed, parseResultMessage (Integrations.str rendered) (jsonLoads envelope.toJson)
          property = .ok consumed ∧
        consumed.jobId = envelope.jobId ∧
        consumed.correlationId = .string envelope.correlationId ∧
        consumed.trace.correlationId = envelope.correlationId ∧ consumed.kind = envelope.kind) ∧
      OnlyAs rendered property envelope.kind.value envelope.toJson := by
  refine ⟨?_, ?_, ?_⟩
  · intro table written tenant envelope outboxId sequence now correlationId hcorrelation hlegal h
    exact trigger_survives rendered property hcorrelation hlegal h
  · intro table written tenant envelope outboxId sequence now correlationId hcorrelation hlegal h
    exact command_survives rendered property hcorrelation hlegal h
  · intro envelope hresult hcorrelation
    exact result_survives rendered property hresult hcorrelation

/-! ### One message of each kind -/

def sampleTrigger : TriggerEnvelope := ⟨⟨2⟩, .text (ofString "req_abc.123"), .sampleFlow⟩

def sampleCommand : IntegrationCommandEnvelope :=
  ⟨⟨3⟩, .text (ofString "req_abc.123"), .execute⟩

def sampleResult : Integrations.MessageEnvelope := ⟨⟨3⟩, ofString "req_abc.123", .completed⟩

theorem sample_messages_survive :
    (∃ written, Outbox.enqueue ⟨[], List.nodup_nil⟩ sampleTenant sampleTrigger 9 1 50 =
        .ok written ∧
      ∃ body consumed, messageBody (.trigger sampleTrigger) = .ok body ∧
        ResumeWorker.parseMessage body.text (fun _ => none) = .ok consumed ∧
        consumed.envelope = sampleTrigger) ∧
    (∃ written, Outbox.enqueueIntegrationCommand ⟨[], List.nodup_nil⟩ sampleTenant
        sampleCommand 9 1 50 = .ok written ∧
      ∃ body, messageBody (.command sampleCommand) = .ok body ∧
        queueFor (.command sampleCommand) = .ok .integrationCommands ∧
        Integrations.MessageEnvelope.fromJson (fun _ => []) body.text =
          .ok ⟨⟨3⟩, ofString "req_abc.123", .execute⟩) ∧
    ∃ consumed, parseResultMessage (Integrations.str fun _ => [])
        (jsonLoads sampleResult.toJson) (fun _ => none) = .ok consumed ∧
      consumed.jobId = ⟨3⟩ ∧ consumed.kind = .completed := by
  obtain ⟨htriggers, hcommands, hresults⟩ := message_survives (fun _ => []) fun _ => none
  refine ⟨⟨_, rfl, ?_⟩, ⟨_, rfl, ?_⟩, ?_⟩
  · obtain ⟨_, body, consumed, _, _, hbody, _, hparsed, hsame, _⟩ :=
      htriggers _ _ _ _ _ _ _ (ofString "req_abc.123") rfl (by decide)
        (show Outbox.enqueue ⟨[], List.nodup_nil⟩ sampleTenant sampleTrigger 9 1 50 =
          .ok _ from rfl)
    exact ⟨body, consumed, hbody, hparsed, hsame⟩
  · obtain ⟨_, body, _, _, hbody, hqueue, hparsed, _⟩ :=
      hcommands _ _ _ _ _ _ _ (ofString "req_abc.123") rfl (by decide)
        (show Outbox.enqueueIntegrationCommand ⟨[], List.nodup_nil⟩ sampleTenant sampleCommand
          9 1 50 = .ok _ from rfl)
    exact ⟨body, hbody, hqueue rfl, hparsed⟩
  · obtain ⟨⟨consumed, hparsed, hjob, _, _, hkind⟩, _⟩ :=
      hresults sampleResult (by decide) (by decide)
    exact ⟨consumed, hparsed, hjob, hkind⟩

end Synthia
