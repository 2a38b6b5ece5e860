import Synthia.Workers.ResumeWorker

/-!
# What a bad message makes a consumer raise

A message that cannot be read is to be rejected with the parser's own error, which is what
dead-letters it. Both parsers catch three exceptions and mean them to be all there are.
They are not: `UUID` of a number, a list or an object raises `AttributeError`, which
neither handler names; and the resume worker asks for the texts of what it has parsed
outside its handler, where a correlation identifier that is no text raises.

So each parser is taken a step at a time. A step has one lemma for when it is contained
and one for what it gives, and the two together say on what bodies the step behind it is
reached.
-/

namespace Synthia

open Text Exceptions

/-- What `UUID` takes without an `AttributeError`. -/
def isTextOrNull : Json.Value CodePoint → Bool
  | .string _ | .null => true
  | .bool _ | .number _ | .array _ | .object _ => false

/-! ## The resume worker -/

namespace ResumeWorker

/-- The body and the properties `parse_message` handles as it means to. `json.loads`
raises nothing else than it catches; the work item's identifier, where there is one, is
text or null; and where the trigger is otherwise well formed, its correlation identifier
is text and both properties are read. -/
structure Handles {P : Type} (loads : List UInt8 → Except PyException (Json.Value CodePoint))
    (text : P → Except PyException (List CodePoint)) (body : List UInt8)
    (properties : String → Option P) : Prop where
  loaded : ∀ raised, loads body = .error raised → raised.caught.isSome = true
  identifier : ∀ payload value, loads body = .ok payload →
    payload.member (ofString "workItemId") = some value → isTextOrNull value = true
  wellFormed : ∀ payload name uuid value (kind : TriggerKind), loads body = .ok payload →
    payload.member (ofString "workItemId") = some (.string name) →
    Uuid.ofText name = some uuid →
    payload.member (ofString "correlationId") = some value →
    payload.member (ofString "kind") = some (.string (ofString kind.value)) →
    (∃ correlation, value = .string correlation) ∧
      (∃ traceparent, propertyText text properties "traceparent" = .ok traceparent) ∧
      ∃ tracestate, propertyText text properties "tracestate" = .ok tracestate

section Steps

variable {payload value : Json.Value CodePoint} {name : String}

theorem field_contained : Contained ((field payload name).mapError TriggerMessageError.leaves) := by
  rw [contained_mapError]
  intro error h
  unfold field at h
  split at h
  · split at h
    · cases h
    · injection h with h
      exact ⟨_, congrArg TriggerMessageError.leaves h.symm⟩
  · injection h with h
    exact ⟨_, congrArg TriggerMessageError.leaves h.symm⟩

theorem field_eq_ok : field payload name = .ok value ↔
    payload.member (ofString name) = some value := by
  unfold field
  cases payload with
  | object members =>
      dsimp only
      cases (Json.Value.object members).member (ofString name) with
      | some found => exact ⟨fun h => congrArg some (Except.ok.inj h), fun h =>
          congrArg Except.ok (Option.some.inj h)⟩
      | none => exact iff_of_false (fun h => nomatch h) fun h => nomatch h
  | null | bool | number | string | array =>
      exact iff_of_false (fun h => nomatch h) fun h => nomatch h

theorem workItemIdOf_contained :
    Contained ((workItemIdOf value).mapError TriggerMessageError.leaves) ↔
      isTextOrNull value = true := by
  rw [contained_mapError]
  cases value with
  | string text =>
      refine iff_of_true ?_ rfl
      intro error h
      unfold workItemIdOf at h
      dsimp only at h
      split at h
      · cases h
      · injection h with h
        exact ⟨_, congrArg TriggerMessageError.leaves h.symm⟩
  | null =>
      refine iff_of_true ?_ rfl
      rintro _ ⟨⟩
      exact ⟨_, rfl⟩
  | bool | number | array | object =>
      refine iff_of_false ?_ Bool.false_ne_true
      intro h
      obtain ⟨_, hcause⟩ := h .attributeError rfl
      cases hcause

theorem workItemIdOf_eq_ok {workItemId : WorkItemId} : workItemIdOf value = .ok workItemId ↔
    ∃ text, value = .string text ∧ Uuid.ofText text = some workItemId.value := by
  unfold workItemIdOf
  cases value with
  | string text =>
      dsimp only
      cases huuid : Uuid.ofText text with
      | some uuid =>
          constructor
          · intro h
            injection h with h
            rw [← h]
            exact ⟨text, rfl, huuid⟩
          · rintro ⟨_, ⟨⟩, h⟩
            rw [huuid] at h
            rw [Option.some.inj h]
      | none =>
          refine iff_of_false (fun h => nomatch h) ?_
          rintro ⟨_, ⟨⟩, h⟩
          rw [huuid] at h
          cases h
  | null | bool | number | array | object =>
      refine iff_of_false (fun h => nomatch h) ?_
      rintro ⟨_, ⟨⟩, _⟩

theorem kindOf_contained : Contained ((kindOf value).mapError TriggerMessageError.leaves) := by
  rw [contained_mapError]
  intro error h
  unfold kindOf at h
  dsimp only at h
  split at h
  · cases h
  · injection h with h
    exact ⟨_, congrArg TriggerMessageError.leaves h.symm⟩

theorem kindOf_eq_ok {kind : TriggerKind} :
    kindOf value = .ok kind ↔ value = .string (ofString kind.value) := by
  unfold kindOf
  dsimp only
  constructor
  · intro h
    split at h
    · next found hfound =>
        injection h with h
        cases value with
        | string text =>
            have htext := List.find?_some hfound
            rw [beq_iff_eq, h] at htext
            rw [htext]
        | null | bool | number | array | object => cases hfound
    · cases h
  · rintro rfl
    cases kind <;> decide

theorem correlationTextOf_eq_ok :
    (∃ text, correlationTextOf (wrapped value) = .ok text) ↔ ∃ text, value = .string text := by
  cases value with
  | string text => exact iff_of_true ⟨text, rfl⟩ ⟨text, rfl⟩
  | null | bool | number | array | object =>
      refine iff_of_false ?_ ?_
      · rintro ⟨_, ⟨⟩⟩
      · rintro ⟨_, ⟨⟩⟩

end Steps

/-- `parse_message` returns or raises its own error exactly where it is handled. -/
theorem receive_contained_iff {P : Type}
    (loads : List UInt8 → Except PyException (Json.Value CodePoint))
    (text : P → Except PyException (List CodePoint)) (body : List UInt8)
    (properties : String → Option P) :
    Contained (receive loads text body properties) ↔ Handles loads text body properties := by
  unfold receive
  simp only [contained_bind, contained_guarded, contained_unguarded, field_contained,
    workItemIdOf_contained, kindOf_contained, guarded_eq_ok, unguarded_eq_ok, mapError_eq_ok,
    field_eq_ok, workItemIdOf_eq_ok, kindOf_eq_ok, correlationTextOf_eq_ok, true_and]
  constructor
  · rintro ⟨hloads, hsteps⟩
    refine ⟨hloads, fun payload value hpayload hnamed => (hsteps payload hpayload value hnamed).1,
      ?_⟩
    intro payload name uuid value kind hpayload hnamed huuid hcorrelation hkind
    obtain ⟨hstring, hreads⟩ := (hsteps payload hpayload _ hnamed).2 ⟨uuid⟩ ⟨name, rfl, huuid⟩
      value hcorrelation _ hkind kind rfl
    obtain ⟨correlation, hread⟩ := correlationTextOf_eq_ok.mpr hstring
    obtain ⟨⟨traceparent, hparent⟩, hlast⟩ := hreads correlation hread
    exact ⟨hstring, ⟨traceparent, hparent⟩, (hlast traceparent hparent).1⟩
  · rintro ⟨hloads, hidentifier, hwell⟩
    refine ⟨hloads, fun payload hpayload named hnamed =>
      ⟨hidentifier payload named hpayload hnamed, ?_⟩⟩
    rintro workItemId ⟨name, rfl, huuid⟩ value hcorrelation _ hkind kind rfl
    obtain ⟨hstring, hparent, hstate⟩ :=
      hwell payload name workItemId.value value kind hpayload hnamed huuid hcorrelation hkind
    refine ⟨hstring, fun _ _ => ⟨hparent, fun _ _ => ⟨hstate, fun _ _ => contained_ok _⟩⟩⟩

end ResumeWorker

/-! ## The result worker -/

/-- The body and the properties `parse_result_message` handles as it means to. As before;
its correlation identifier may be anything, and its properties may raise what it
catches. -/
structure HandlesResult {P : Type}
    (loads : List UInt8 → Except PyException (Json.Value CodePoint))
    (text : P → Except PyException (List CodePoint)) (body : List UInt8)
    (properties : String → Option P) : Prop where
  loaded : ∀ raised, loads body = .error raised → raised.caught.isSome = true
  identifier : ∀ members value (kind : IntegrationMessageKind), loads body = .ok (.object members) →
    (∀ name ∈ members.map Prod.fst, name ∈ permittedFields) →
    (Json.Value.object members).member (ofString "kind") = some (.string (ofString kind.value)) →
    kind ∈ handledKinds →
    (Json.Value.object members).member (ofString "jobId") = some value →
      isTextOrNull value = true
  wellFormed : ∀ members name uuid value (kind : IntegrationMessageKind),
    loads body = .ok (.object members) →
    (∀ name ∈ members.map Prod.fst, name ∈ permittedFields) →
    (Json.Value.object members).member (ofString "kind") = some (.string (ofString kind.value)) →
    kind ∈ handledKinds →
    (Json.Value.object members).member (ofString "jobId") = some (.string name) →
    Uuid.ofText name = some uuid →
    (Json.Value.object members).member (ofString "correlationId") = some value →
    (∀ raised, propertyText text properties "traceparent" = .error raised →
        raised.caught.isSome = true) ∧
      ∀ traceparent, propertyText text properties "traceparent" = .ok traceparent →
        ∀ raised, propertyText text properties "tracestate" = .error raised →
          raised.caught.isSome = true

section Steps

variable {payload value : Json.Value CodePoint} {name : String}
  {members : List (List CodePoint × Json.Value CodePoint)}

theorem contractMembers_contained :
    Contained ((contractMembers payload).mapError ResultMessageError.leaves) := by
  rw [contained_mapError]
  intro error h
  unfold contractMembers at h
  split at h
  · dsimp only at h
    split at h
    · injection h with h
      exact ⟨_, congrArg ResultMessageError.leaves h.symm⟩
    · cases h
  · injection h with h
    exact ⟨_, congrArg ResultMessageError.leaves h.symm⟩

theorem contractMembers_eq_ok : contractMembers payload = .ok members ↔
    payload = .object members ∧ ∀ name ∈ members.map Prod.fst, name ∈ permittedFields := by
  unfold contractMembers
  cases payload with
  | object own =>
      dsimp only
      have hnone : ((own.map Prod.fst).dedup.filter fun name =>
          !(permittedFields.contains name)).length = 0 ↔
            ∀ name ∈ own.map Prod.fst, name ∈ permittedFields := by
        rw [List.length_eq_zero_iff, List.filter_eq_nil_iff]
        simp only [List.mem_dedup, Bool.not_eq_true', Bool.not_eq_false, List.contains_iff_mem]
      split
      · next hsome =>
          refine iff_of_false (fun h => nomatch h) ?_
          rintro ⟨⟨⟩, hall⟩
          exact hsome (hnone.mpr hall)
      · next hzero =>
          rw [not_not, hnone] at hzero
          constructor
          · intro h
            injection h with h
            rw [← h]
            exact ⟨rfl, hzero⟩
          · rintro ⟨⟨⟩, _⟩
            rfl
  | null | bool | number | string | array =>
      refine iff_of_false (fun h => nomatch h) ?_
      rintro ⟨⟨⟩, _⟩

theorem payloadField_contained :
    Contained ((payloadField payload name).mapError ResultMessageError.leaves) := by
  rw [contained_mapError]
  intro error h
  unfold payloadField at h
  split at h
  · cases h
  · injection h with h
    exact ⟨_, congrArg ResultMessageError.leaves h.symm⟩

theorem payloadField_eq_ok : payloadField payload name = .ok value ↔
    payload.member (ofString name) = some value := by
  unfold payloadField
  cases payload.member (ofString name) with
  | some found =>
      exact ⟨fun h => congrArg some (Except.ok.inj h), fun h =>
        congrArg Except.ok (Option.some.inj h)⟩
  | none => exact iff_of_false (fun h => nomatch h) fun h => nomatch h

theorem resultKind_contained :
    Contained ((resultKind value).mapError ResultMessageError.leaves) := by
  rw [contained_mapError]
  intro error h
  unfold resultKind at h
  dsimp only at h
  split at h
  · injection h with h
    exact ⟨_, congrArg ResultMessageError.leaves h.symm⟩
  · split at h
    · cases h
    · injection h with h
      exact ⟨_, congrArg ResultMessageError.leaves h.symm⟩

theorem resultKind_eq_ok {kind : IntegrationMessageKind} :
    resultKind value = .ok kind ↔
      value = .string (ofString kind.value) ∧ kind ∈ handledKinds := by
  unfold resultKind
  dsimp only
  constructor
  · intro h
    split at h
    · cases h
    · next found hfound =>
        split at h
        · next hhandled =>
            injection h with h
            rw [h] at hfound hhandled
            refine ⟨?_, List.contains_iff_mem.mp hhandled⟩
            cases value with
            | string text =>
                have htext := List.find?_some hfound
                rw [beq_iff_eq] at htext
                rw [htext]
            | null | bool | number | array | object => cases hfound
        · cases h
  · rintro ⟨rfl, hhandled⟩
    cases kind with
    | execute => exact absurd hhandled (by decide)
    | completed | failed => decide

theorem resultJobId_contained :
    Contained ((resultJobId value).mapError ResultMessageError.leaves) ↔
      isTextOrNull value = true := by
  rw [contained_mapError]
  cases value with
  | string text =>
      refine iff_of_true ?_ rfl
      intro error h
      unfold resultJobId at h
      dsimp only at h
      split at h
      · cases h
      · injection h with h
        exact ⟨_, congrArg ResultMessageError.leaves h.symm⟩
  | null =>
      refine iff_of_true ?_ rfl
      rintro _ ⟨⟩
      exact ⟨_, rfl⟩
  | bool | number | array | object =>
      refine iff_of_false ?_ Bool.false_ne_true
      intro h
      obtain ⟨_, hcause⟩ := h .attributeError rfl
      cases hcause

theorem resultJobId_eq_ok {jobId : IntegrationJobId} : resultJobId value = .ok jobId ↔
    ∃ text, value = .string text ∧ Uuid.ofText text = some jobId.value := by
  unfold resultJobId
  cases value with
  | string text =>
      dsimp only
      cases huuid : Uuid.ofText text with
      | some uuid =>
          constructor
          · intro h
            injection h with h
            rw [← h]
            exact ⟨text, rfl, huuid⟩
          · rintro ⟨_, ⟨⟩, h⟩
            rw [huuid] at h
            rw [Option.some.inj h]
      | none =>
          refine iff_of_false (fun h => nomatch h) ?_
          rintro ⟨_, ⟨⟩, h⟩
          rw [huuid] at h
          cases h
  | null | bool | number | array | object =>
      refine iff_of_false (fun h => nomatch h) ?_
      rintro ⟨_, ⟨⟩, _⟩

end Steps

theorem receiveResult_contained_iff {P : Type}
    (loads : List UInt8 → Except PyException (Json.Value CodePoint))
    (text : P → Except PyException (List CodePoint)) (body : List UInt8)
    (properties : String → Option P) (str : Json.Value CodePoint → List CodePoint) :
    Contained (receiveResult loads text body properties str) ↔
      HandlesResult loads text body properties := by
  unfold receiveResult
  simp only [contained_bind, contained_guarded, contractMembers_contained,
    payloadField_contained, resultKind_contained, resultJobId_contained, guarded_eq_ok,
    mapError_eq_ok, contractMembers_eq_ok, payloadField_eq_ok, resultKind_eq_ok,
    resultJobId_eq_ok, true_and]
  constructor
  · rintro ⟨hloads, hsteps⟩
    refine ⟨hloads, ?_, ?_⟩
    · intro members value kind hpayload hfields hkind hhandled hnamed
      exact (hsteps _ hpayload members ⟨rfl, hfields⟩ _ hkind kind ⟨rfl, hhandled⟩ value hnamed).1
    · intro members name uuid value kind hpayload hfields hkind hhandled hnamed huuid hcorrelation
      obtain ⟨hparent, hlast⟩ := (hsteps _ hpayload members ⟨rfl, hfields⟩ _ hkind kind
        ⟨rfl, hhandled⟩ _ hnamed).2 ⟨uuid⟩ ⟨name, rfl, huuid⟩ value hcorrelation
      exact ⟨hparent, fun traceparent hread => (hlast traceparent hread).1⟩
  · rintro ⟨hloads, hidentifier, hwell⟩
    refine ⟨hloads, ?_⟩
    rintro _ hpayload members ⟨rfl, hfields⟩ _ hkind kind ⟨rfl, hhandled⟩ named hnamed
    refine ⟨hidentifier members named kind hpayload hfields hkind hhandled hnamed, ?_⟩
    rintro jobId ⟨name, rfl, huuid⟩ value hcorrelation
    obtain ⟨hparent, hstate⟩ := hwell members name jobId.value value kind hpayload hfields hkind
      hhandled hnamed huuid hcorrelation
    exact ⟨hparent, fun traceparent hread =>
      ⟨hstate traceparent hread, fun _ _ => contained_ok _⟩⟩

/-- **What the two parsers let past their handlers.** On any bytes and any properties,
whatever `json.loads` and the properties' own texts raise: `parse_message` returns or
raises its own error if and only if it handles the body, and so does
`parse_result_message`. -/
theorem parsers_contained_iff {P : Type}
    (loads : List UInt8 → Except PyException (Json.Value CodePoint))
    (text : P → Except PyException (List CodePoint)) (body : List UInt8)
    (properties : String → Option P) (str : Json.Value CodePoint → List CodePoint) :
    (Contained (ResumeWorker.receive loads text body properties) ↔
        ResumeWorker.Handles loads text body properties) ∧
      (Contained (receiveResult loads text body properties str) ↔
        HandlesResult loads text body properties) :=
  ⟨ResumeWorker.receive_contained_iff loads text body properties,
    receiveResult_contained_iff loads text body properties str⟩

/-! ## Where nothing else raises

On what `json.loads` answers and properties that are read, the two parsers are those that
know no other exception. -/

section Plain

variable {P : Type} {loads : List UInt8 → Except PyException (Json.Value CodePoint)}
  {text : P → Except PyException (List CodePoint)} {body : List UInt8}
  {properties : String → Option P} {property : String → Option (List CodePoint)}
  {loaded : Option (Json.Value CodePoint)}

theorem loads_none (hloads : ∀ payload, loads body = .ok payload ↔ loaded = some payload)
    {raised : PyException} (hraised : loads body = .error raised) : loaded = none := by
  rw [Option.eq_none_iff_forall_ne_some]
  intro payload hsome
  rw [← hloads, hraised] at hsome
  cases hsome

theorem ResumeWorker.receive_parses {message : List CodePoint} {consumed : ConsumedTrigger}
    (hloads : ∀ payload, loads body = .ok payload ↔ Json.jsonLoads message = some payload)
    (hproperty : ∀ name, propertyText text properties name = .ok ((property name).getD [])) :
    receive loads text body properties = .ok consumed ↔
      parseMessage message property = .ok consumed := by
  unfold receive parseMessage
  rw [hproperty, hproperty]
  cases hpayload : loads body with
  | error raised =>
      rw [loads_none hloads hpayload]
      refine iff_of_false ?_ fun h => nomatch h
      intro h
      simp only [guarded] at h
      split at h <;> cases h
  | ok payload =>
      rw [(hloads payload).mp hpayload]
      simp only [guarded, bind, Except.bind]
      cases field payload "workItemId" with
      | error error => simp [Except.mapError]
      | ok named =>
          simp only [Except.mapError]
          cases workItemIdOf named with
          | error error => simp
          | ok workItemId =>
              simp only []
              cases field payload "correlationId" with
              | error error => simp
              | ok correlationId =>
                  simp only []
                  cases field payload "kind" with
                  | error error => simp
                  | ok hint =>
                      simp only []
                      cases kindOf hint with
                      | error error => simp
                      | ok kind =>
                          simp only [correlationTextOf]
                          cases correlationText (wrapped correlationId) with
                          | none => simp [unguarded]
                          | some text => simp [unguarded, pure, Except.pure]

theorem receiveResult_parses {str : Json.Value CodePoint → List CodePoint}
    {consumed : ConsumedResult}
    (hloads : ∀ payload, loads body = .ok payload ↔ loaded = some payload)
    (hproperty : ∀ name, propertyText text properties name = .ok ((property name).getD [])) :
    receiveResult loads text body properties str = .ok consumed ↔
      parseResultMessage str loaded property = .ok consumed := by
  unfold receiveResult parseResultMessage
  rw [hproperty, hproperty]
  cases hpayload : loads body with
  | error raised =>
      rw [loads_none hloads hpayload]
      constructor
      · intro h
        simp only [guarded] at h
        split at h
        · cases h
        · cases h
      · intro h
        cases h
  | ok payload =>
      rw [(hloads payload).mp hpayload]
      simp only [guarded, bind, Except.bind]
      cases payload with
      | null | bool | number | string | array => simp [contractMembers, Except.mapError]
      | object members =>
          by_cases hforbidden : ((members.map Prod.fst).dedup.filter fun name =>
              !(permittedFields.contains name)).length ≠ 0
          · simp only [contractMembers, if_pos hforbidden, Except.mapError, throw, throwThe,
              MonadExceptOf.throw]
            constructor
            · intro h
              cases h
            · intro h
              cases h
          · simp only [contractMembers, if_neg hforbidden, Except.mapError]
            cases payloadField (.object members) "kind" with
            | error error => simp
            | ok hint =>
                simp only [pure, Except.pure]
                cases resultKind hint with
                | error error => simp
                | ok kind =>
                    simp only []
                    cases payloadField (.object members) "jobId" with
                    | error error => simp
                    | ok named =>
                        simp only []
                        cases resultJobId named with
                        | error error => simp
                        | ok jobId =>
                            simp only []
                            cases payloadField (.object members) "correlationId" with
                            | error error => simp
                            | ok correlationId => simp

end Plain

/-! ### An identifier that is a number -/

namespace SampleBody

/-- `json.loads` of ASCII bytes. -/
def asciiLoads (body : List UInt8) : Except PyException (Json.Value CodePoint) :=
  match Json.jsonLoads (body.map fun byte => Fin.ofNat 0x110000 byte.toNat) with
  | some payload => .ok payload
  | none => .error .valueError

def numberedTrigger : List UInt8 :=
  "\x7b\"workItemId\":1,\"correlationId\":\"a\",\"kind\":\"sample.flow\"\x7d".toList.map fun c =>
    c.val.toUInt8

def numberedResult : List UInt8 :=
  "\x7b\"jobId\":1,\"correlationId\":\"a\",\"kind\":\"integration.failed\"\x7d".toList.map fun c =>
    c.val.toUInt8

/-- Both consumers are left with an exception they do not handle. -/
theorem numbered_escapes :
    ¬ Contained (ResumeWorker.receive asciiLoads (fun text : List CodePoint => .ok text)
        numberedTrigger fun _ => none) ∧
      ¬ Contained (receiveResult asciiLoads (fun text : List CodePoint => .ok text)
        numberedResult (fun _ => none) fun _ => []) := by
  constructor
  · intro h
    have hread : ((asciiLoads numberedTrigger).toOption.bind fun payload =>
        (payload.member (ofString "workItemId")).map isTextOrNull) = some false := by
      decide +kernel
    obtain ⟨payload, hloads, hread⟩ := Option.bind_eq_some_iff.mp hread
    obtain ⟨value, hvalue, hkind⟩ := Option.map_eq_some_iff.mp hread
    have hhandles := (ResumeWorker.receive_contained_iff _ _ _ _).mp h
    rw [hhandles.identifier payload value (toOption_eq_some.mp hloads) hvalue] at hkind
    cases hkind
  · intro h
    have hread : ((asciiLoads numberedResult).toOption.bind fun payload =>
        (contractMembers payload).toOption.bind fun members =>
          (payloadField (.object members) "kind").toOption.bind fun hint =>
            (resultKind hint).toOption.bind fun _ =>
              (payloadField (.object members) "jobId").toOption.map isTextOrNull) =
        some false := by
      decide +kernel
    obtain ⟨payload, hloads, hread⟩ := Option.bind_eq_some_iff.mp hread
    obtain ⟨members, hmembers, hread⟩ := Option.bind_eq_some_iff.mp hread
    obtain ⟨hint, hhint, hread⟩ := Option.bind_eq_some_iff.mp hread
    obtain ⟨kind, hkind, hread⟩ := Option.bind_eq_some_iff.mp hread
    obtain ⟨value, hvalue, hnumber⟩ := Option.map_eq_some_iff.mp hread
    obtain ⟨rfl, hfields⟩ := contractMembers_eq_ok.mp (toOption_eq_some.mp hmembers)
    obtain ⟨rfl, hhandled⟩ := resultKind_eq_ok.mp (toOption_eq_some.mp hkind)
    have hhandles := (receiveResult_contained_iff _ _ _ _ _).mp h
    rw [hhandles.identifier members value kind (toOption_eq_some.mp hloads) hfields
      (payloadField_eq_ok.mp (toOption_eq_some.mp hhint)) hhandled
      (payloadField_eq_ok.mp (toOption_eq_some.mp hvalue))] at hnumber
    cases hnumber

end SampleBody

end Synthia
