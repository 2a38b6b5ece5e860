import Synthia.Integrations.Envelopes
import Synthia.Proofs.Rejection

/-!
# What the two ends of the seam accept

A body of the seam is an object of exactly three members: a job identifier that is the
text of a UUID, a correlation identifier the platform's rule admits, and a kind. Both ends
parse it, and each is looser than that in its own way.

The Integrations Service reads every member through `str`, so what is no text is accepted
for its rendering: `null` is the correlation identifier `None`, and a number of thirty-two
digits is a UUID. RagCore takes the identifier and the kind only as text, and says nothing
at all about the correlation identifier but that there is one.

Each end is described first by what it accepts, kind by kind. Beside the shape of a body
the description differs in the looseness and in nothing else.
-/

namespace Synthia

open Text Exceptions

/-- A body of the seam, of this kind. -/
structure SeamShape (members : List (List CodePoint × Json.Value CodePoint))
    (kind : IntegrationMessageKind) : Prop where
  fields : ∀ name, name ∈ members.map Prod.fst ↔ name ∈ permittedFields
  jobId : ∃ text, (Json.Value.object members).member (ofString "jobId") = some (.string text) ∧
    (Uuid.ofText text).isSome = true
  correlationId : ∃ text,
    (Json.Value.object members).member (ofString "correlationId") = some (.string text) ∧
      Integrations.wellFormedCorrelation text = true
  kind : (Json.Value.object members).member (ofString "kind") =
    some (.string (ofString kind.value))

/-- `from_json` accepts a body as one of a kind exactly if it has the shape. -/
def AcceptsShape (rendered : Json.Value CodePoint → List CodePoint) (raw : List CodePoint) :
    Prop :=
  ∀ kind, (∃ envelope, Integrations.MessageEnvelope.fromJson rendered raw = .ok envelope ∧
      envelope.kind = kind) ↔
    ∃ members, Json.jsonLoads raw = some (.object members) ∧ SeamShape members kind

/-- `parse_result_message`, for its own kinds. -/
def AcceptsResultShape (str : Json.Value CodePoint → List CodePoint)
    (property : String → Option (List CodePoint)) (raw : List CodePoint) : Prop :=
  ∀ kind, (∃ consumed, parseResultMessage str (Json.jsonLoads raw) property = .ok consumed ∧
      consumed.kind = kind) ↔
    kind ∈ handledKinds ∧
      ∃ members, Json.jsonLoads raw = some (.object members) ∧ SeamShape members kind

/-- Of a body with the three members whose texts all pass, none is the text of something
else. -/
def Uncoerced (rendered : Json.Value CodePoint → List CodePoint) (raw : List CodePoint) : Prop :=
  ∀ members named correlation hint, Json.jsonLoads raw = some (.object members) →
    (∀ name, name ∈ members.map Prod.fst ↔ name ∈ permittedFields) →
    (Json.Value.object members).member (ofString "jobId") = some named →
    (Json.Value.object members).member (ofString "correlationId") = some correlation →
    (Json.Value.object members).member (ofString "kind") = some hint →
    (Uuid.ofText (Integrations.str rendered named)).isSome = true →
    Integrations.wellFormedCorrelation (Integrations.str rendered correlation) = true →
    (∃ kind : IntegrationMessageKind, Integrations.str rendered hint = ofString kind.value) →
    (∃ text, named = .string text) ∧ (∃ text, correlation = .string text) ∧
      ∃ text, hint = .string text

/-- A body that is otherwise a result's has a correlation identifier that is text and that
the platform admits. -/
def Correlated (raw : List CodePoint) : Prop :=
  ∀ members name correlation (kind : IntegrationMessageKind),
    Json.jsonLoads raw = some (.object members) →
    (∀ name, name ∈ members.map Prod.fst ↔ name ∈ permittedFields) →
    (Json.Value.object members).member (ofString "jobId") = some (.string name) →
    (Uuid.ofText name).isSome = true →
    (Json.Value.object members).member (ofString "correlationId") = some correlation →
    (Json.Value.object members).member (ofString "kind") =
      some (.string (ofString kind.value)) →
    kind ∈ handledKinds →
    ∃ text, correlation = .string text ∧ Integrations.wellFormedCorrelation text = true

/-! ## Members -/

section Members

variable {members : List (List CodePoint × Json.Value CodePoint)} {name : List CodePoint}

theorem member_isSome :
    ((Json.Value.object members).member name).isSome = true ↔ name ∈ members.map Prod.fst := by
  show Option.isSome (Option.map Prod.snd (members.reverse.find? fun entry =>
    entry.1 == name)) = true ↔ _
  rw [Option.isSome_map, List.find?_isSome, List.mem_map]
  constructor
  · rintro ⟨entry, hentry, hname⟩
    exact ⟨entry, List.mem_reverse.mp hentry, beq_iff_eq.mp hname⟩
  · rintro ⟨entry, hentry, hname⟩
    exact ⟨entry, List.mem_reverse.mpr hentry, beq_iff_eq.mpr hname⟩

theorem member_of_fields
    (h : ∀ name, name ∈ members.map Prod.fst ↔ name ∈ permittedFields)
    (hname : name ∈ permittedFields) :
    ∃ value, (Json.Value.object members).member name = some value :=
  Option.isSome_iff_exists.mp (member_isSome.mpr ((h name).mpr hname))

end Members

/-! ## The Integrations Service -/

section Commands

variable {rendered : Json.Value CodePoint → List CodePoint} {raw text : List CodePoint}
  {envelope : Integrations.MessageEnvelope}

theorem jobIdOf_eq_ok {jobId : IntegrationJobId} :
    Integrations.MessageEnvelope.jobIdOf text = .ok jobId ↔
      Uuid.ofText text = some jobId.value := by
  unfold Integrations.MessageEnvelope.jobIdOf
  cases Uuid.ofText text with
  | some uuid =>
      constructor
      · intro h
        injection h with h
        rw [← h]
      · intro h
        injection h with h
        rw [h]
  | none => exact iff_of_false (fun h => nomatch h) fun h => nomatch h

theorem correlationIdOf_eq_ok {found : List CodePoint} :
    Integrations.MessageEnvelope.correlationIdOf text = .ok found ↔
      Integrations.wellFormedCorrelation text = true ∧ found = text := by
  unfold Integrations.MessageEnvelope.correlationIdOf
  split
  · next hwell =>
      constructor
      · intro h
        injection h with h
        exact ⟨hwell, h.symm⟩
      · rintro ⟨_, rfl⟩
        rfl
  · next hmalformed =>
      refine iff_of_false (fun h => nomatch h) ?_
      rintro ⟨hwell, _⟩
      exact hmalformed hwell

theorem envelopeKindOf_eq_ok {kind : IntegrationMessageKind} :
    Integrations.MessageEnvelope.kindOf text = .ok kind ↔ text = ofString kind.value := by
  unfold Integrations.MessageEnvelope.kindOf
  constructor
  · intro h
    split at h
    · next found hfound =>
        injection h with h
        have htext := List.find?_some hfound
        rw [beq_iff_eq, h] at htext
        exact htext.symm
    · cases h
  · rintro rfl
    cases kind <;> rfl

theorem closed_fields {names : List (List CodePoint)} :
    (∀ name, name ∈ names ↔ name ∈ permittedFields) ↔
      (names.dedup.filter fun name =>
          !(Integrations.MessageEnvelope.permittedFields.contains name)) = [] ∧
        (Integrations.MessageEnvelope.permittedFields.filter fun name =>
          !(names.dedup.contains name)) = [] := by
  rw [List.filter_eq_nil_iff, List.filter_eq_nil_iff]
  simp only [List.mem_dedup, Bool.not_eq_true', Bool.not_eq_false, List.contains_iff_mem]
  constructor
  · intro h
    exact ⟨fun name hname => (h name).mp hname, fun name hname => (h name).mpr hname⟩
  · intro h name
    exact ⟨h.1 name, h.2 name⟩

theorem decodedField_eq {members : List (List CodePoint × Json.Value CodePoint)}
    {name : String} {value : Json.Value CodePoint}
    (h : (Json.Value.object members).member (ofString name) = some value) :
    Integrations.MessageEnvelope.decodedField (.object members) name = value := by
  unfold Integrations.MessageEnvelope.decodedField
  rw [h]
  rfl

/-- What `from_json` accepts. -/
theorem fromJson_eq_ok : Integrations.MessageEnvelope.fromJson rendered raw = .ok envelope ↔
    ∃ members named correlation hint, Json.jsonLoads raw = some (.object members) ∧
      (∀ name, name ∈ members.map Prod.fst ↔ name ∈ permittedFields) ∧
      (Json.Value.object members).member (ofString "jobId") = some named ∧
      (Json.Value.object members).member (ofString "correlationId") = some correlation ∧
      (Json.Value.object members).member (ofString "kind") = some hint ∧
      Uuid.ofText (Integrations.str rendered named) = some envelope.jobId.value ∧
      Integrations.wellFormedCorrelation (Integrations.str rendered correlation) = true ∧
      envelope.correlationId = Integrations.str rendered correlation ∧
      Integrations.str rendered hint = ofString envelope.kind.value := by
  unfold Integrations.MessageEnvelope.fromJson
  cases hloads : Json.jsonLoads raw with
  | none =>
      refine iff_of_false (fun h => nomatch h) ?_
      rintro ⟨_, _, _, _, hpayload, _⟩
      cases hpayload
  | some payload =>
      cases payload with
      | null | bool | number | string | array =>
          refine iff_of_false (fun h => nomatch h) ?_
          rintro ⟨_, _, _, _, hpayload, _⟩
          cases hpayload
      | object members =>
          by_cases hfields : ∀ name, name ∈ members.map Prod.fst ↔ name ∈ permittedFields
          · obtain ⟨hforbidden, hmissing⟩ := closed_fields.mp hfields
            obtain ⟨named, hnamed⟩ :=
              @member_of_fields members (ofString "jobId") hfields (by decide)
            obtain ⟨correlation, hcorrelation⟩ :=
              @member_of_fields members (ofString "correlationId") hfields (by decide)
            obtain ⟨hint, hhint⟩ := @member_of_fields members (ofString "kind") hfields (by decide)
            simp only [hforbidden, hmissing, List.isEmpty_nil, Bool.not_true, Bool.false_eq_true,
              if_false, decodedField_eq hnamed, decodedField_eq hcorrelation,
              decodedField_eq hhint, bind_eq_ok, jobIdOf_eq_ok, correlationIdOf_eq_ok,
              envelopeKindOf_eq_ok]
            constructor
            · rintro ⟨jobId, huuid, _, ⟨hwell, rfl⟩, kind, hkind, henvelope⟩
              injection henvelope with henvelope
              rw [← henvelope]
              exact ⟨members, named, correlation, hint, rfl, hfields, hnamed, hcorrelation, hhint,
                huuid, hwell, rfl, hkind⟩
            · rintro ⟨own, job, correlated, kinded, hown, _, hjob, hcorrelated, hkinded, huuid,
                hwell, htext, hkind⟩
              injection hown with hown
              injection hown with hown
              subst hown
              rw [hnamed] at hjob
              rw [hcorrelation] at hcorrelated
              rw [hhint] at hkinded
              injection hjob with hjob
              injection hcorrelated with hcorrelated
              injection hkinded with hkinded
              subst hjob hcorrelated hkinded
              exact ⟨envelope.jobId, huuid, envelope.correlationId, ⟨hwell, htext⟩,
                envelope.kind, hkind, rfl⟩
          · refine iff_of_false ?_ ?_
            · intro h
              by_cases hforbidden : ((members.map Prod.fst).dedup.filter fun name =>
                  !(Integrations.MessageEnvelope.permittedFields.contains name)) = []
              · by_cases hmissing : (Integrations.MessageEnvelope.permittedFields.filter
                    fun name => !((members.map Prod.fst).dedup.contains name)) = []
                · exact hfields (closed_fields.mpr ⟨hforbidden, hmissing⟩)
                · simp only [hforbidden, List.isEmpty_nil, Bool.not_true, Bool.false_eq_true,
                    if_false, List.isEmpty_eq_false_iff.mpr hmissing, Bool.not_false,
                    if_true] at h
                  cases h
              · simp only [List.isEmpty_eq_false_iff.mpr hforbidden, Bool.not_false,
                  if_true] at h
                cases h
            · rintro ⟨own, _, _, _, hown, hown', _⟩
              injection hown with hown
              injection hown with hown
              rw [hown] at hfields
              exact hfields hown'

/-- The Integrations Service accepts the shape and nothing else exactly if nothing of the
body is a text only by rendering. -/
theorem acceptsShape_iff : AcceptsShape rendered raw ↔ Uncoerced rendered raw := by
  constructor
  · rintro haccepts members named correlation hint hloads hfields hnamed hcorrelation hhint huuid
      hwell ⟨kind, hkind⟩
    obtain ⟨uuid, huuid⟩ := Option.isSome_iff_exists.mp huuid
    have haccepted : Integrations.MessageEnvelope.fromJson rendered raw =
        .ok ⟨⟨uuid⟩, Integrations.str rendered correlation, kind⟩ :=
      fromJson_eq_ok.mpr ⟨members, named, correlation, hint, hloads, hfields, hnamed,
        hcorrelation, hhint, huuid, hwell, rfl, hkind⟩
    obtain ⟨own, hown, hshape⟩ := (haccepts kind).mp ⟨_, haccepted, rfl⟩
    rw [hloads] at hown
    injection hown with hown
    injection hown with hown
    subst hown
    obtain ⟨job, hjob, _⟩ := hshape.jobId
    obtain ⟨text, htext, _⟩ := hshape.correlationId
    have hkinded := hshape.kind
    rw [hnamed] at hjob
    rw [hcorrelation] at htext
    rw [hhint] at hkinded
    exact ⟨⟨job, Option.some.inj hjob⟩, ⟨text, Option.some.inj htext⟩,
      ⟨_, Option.some.inj hkinded⟩⟩
  · intro huncoerced kind
    constructor
    · rintro ⟨envelope, haccepted, rfl⟩
      obtain ⟨members, named, correlation, hint, hloads, hfields, hnamed, hcorrelation, hhint,
        huuid, hwell, _, hkind⟩ := fromJson_eq_ok.mp haccepted
      have hsome : (Uuid.ofText (Integrations.str rendered named)).isSome = true := by
        rw [huuid]
        rfl
      obtain ⟨⟨job, rfl⟩, ⟨text, rfl⟩, ⟨value, rfl⟩⟩ := huncoerced members named correlation hint
        hloads hfields hnamed hcorrelation hhint hsome hwell ⟨_, hkind⟩
      refine ⟨members, hloads, hfields, ⟨job, hnamed, hsome⟩, ⟨text, hcorrelation, hwell⟩, ?_⟩
      rw [hhint]
      exact congrArg (fun text => some (Json.Value.string text)) hkind
    · rintro ⟨members, hloads, hshape⟩
      obtain ⟨job, hjob, hsome⟩ := hshape.jobId
      obtain ⟨text, htext, hwell⟩ := hshape.correlationId
      obtain ⟨uuid, huuid⟩ := Option.isSome_iff_exists.mp hsome
      exact ⟨⟨⟨uuid⟩, text, kind⟩, fromJson_eq_ok.mpr ⟨members, _, _, _, hloads, hshape.fields,
        hjob, htext, hshape.kind, huuid, hwell, rfl, rfl⟩, rfl⟩

end Commands

/-! ## RagCore -/

section Results

variable {str : Json.Value CodePoint → List CodePoint}
  {property : String → Option (List CodePoint)} {raw : List CodePoint}
  {loaded : Option (Json.Value CodePoint)} {consumed : ConsumedResult}

/-- What `parse_result_message` accepts. -/
theorem parseResultMessage_eq_ok : parseResultMessage str loaded property = .ok consumed ↔
    ∃ members name, loaded = some (.object members) ∧
      (∀ name ∈ members.map Prod.fst, name ∈ permittedFields) ∧
      (Json.Value.object members).member (ofString "kind") =
        some (.string (ofString consumed.kind.value)) ∧
      consumed.kind ∈ handledKinds ∧
      (Json.Value.object members).member (ofString "jobId") = some (.string name) ∧
      Uuid.ofText name = some consumed.jobId.value ∧
      (Json.Value.object members).member (ofString "correlationId") =
        some consumed.correlationId ∧
      consumed.trace = ⟨str consumed.correlationId, (property "traceparent").getD [],
        (property "tracestate").getD []⟩ := by
  unfold parseResultMessage
  cases loaded with
  | none =>
      refine iff_of_false (fun h => nomatch h) ?_
      rintro ⟨_, _, hpayload, _⟩
      cases hpayload
  | some payload =>
      cases payload with
      | null | bool | number | string | array =>
          refine iff_of_false (fun h => nomatch h) ?_
          rintro ⟨_, _, hpayload, _⟩
          cases hpayload
      | object members =>
          have hcontract := @contractMembers_eq_ok (.object members) members
          unfold contractMembers at hcontract
          dsimp only at hcontract
          by_cases hforbidden : ((members.map Prod.fst).dedup.filter fun name =>
              !(permittedFields.contains name)).length ≠ 0
          · rw [if_pos hforbidden] at hcontract
            simp only [if_pos hforbidden]
            refine iff_of_false (fun h => nomatch h) ?_
            rintro ⟨own, _, hown, hfields, _⟩
            injection hown with hown
            injection hown with hown
            subst hown
            cases hcontract.mpr ⟨rfl, hfields⟩
          · rw [if_neg hforbidden] at hcontract
            obtain ⟨_, hfields⟩ := hcontract.mp rfl
            simp only [if_neg hforbidden, bind_eq_ok, payloadField_eq_ok, resultKind_eq_ok,
              resultJobId_eq_ok]
            constructor
            · rintro ⟨_, hkind, kind, ⟨rfl, hhandled⟩, _, hnamed, jobId, ⟨name, rfl, huuid⟩,
                correlation, hcorrelation, hconsumed⟩
              injection hconsumed with hconsumed
              rw [← hconsumed]
              exact ⟨members, name, rfl, hfields, hkind, hhandled, hnamed, huuid, hcorrelation,
                rfl⟩
            · obtain ⟨jobId, correlationId, kind, trace⟩ := consumed
              rintro ⟨own, name, hown, _, hkind, hhandled, hnamed, huuid, hcorrelation, htrace⟩
              injection hown with hown
              injection hown with hown
              subst hown
              refine ⟨_, hkind, kind, ⟨rfl, hhandled⟩, _, hnamed, jobId, ⟨name, rfl, huuid⟩,
                correlationId, hcorrelation, ?_⟩
              dsimp only at htrace
              rw [htrace]
              rfl

/-- The fields of an object that has every one of the contract's and no other. -/
theorem closed_of_members {members : List (List CodePoint × Json.Value CodePoint)}
    (hfields : ∀ name ∈ members.map Prod.fst, name ∈ permittedFields)
    (hall : ∀ name ∈ permittedFields, ∃ value,
      (Json.Value.object members).member name = some value) (name : List CodePoint) :
    name ∈ members.map Prod.fst ↔ name ∈ permittedFields := by
  constructor
  · exact hfields name
  · intro hname
    exact member_isSome.mp (Option.isSome_iff_exists.mpr (hall name hname))

/-- RagCore accepts the shape for its own kinds, and nothing else, exactly if it is sent no
other correlation identifier. -/
theorem acceptsResultShape_iff : AcceptsResultShape str property raw ↔ Correlated raw := by
  constructor
  · intro haccepts members name correlation kind hloads hfields hnamed huuid hcorrelation hkind
      hhandled
    obtain ⟨uuid, huuid⟩ := Option.isSome_iff_exists.mp huuid
    have haccepted : parseResultMessage str (Json.jsonLoads raw) property =
        .ok ⟨⟨uuid⟩, correlation, kind, ⟨str correlation, (property "traceparent").getD [],
          (property "tracestate").getD []⟩⟩ :=
      parseResultMessage_eq_ok.mpr ⟨members, name, hloads, fun name hname =>
        (hfields name).mp hname, hkind, hhandled, hnamed, huuid, hcorrelation, rfl⟩
    obtain ⟨_, own, hown, hshape⟩ := (haccepts kind).mp ⟨_, haccepted, rfl⟩
    rw [hloads] at hown
    injection hown with hown
    injection hown with hown
    subst hown
    obtain ⟨text, htext, hwell⟩ := hshape.correlationId
    rw [hcorrelation] at htext
    exact ⟨text, Option.some.inj htext, hwell⟩
  · intro hcorrelated kind
    constructor
    · rintro ⟨consumed, haccepted, rfl⟩
      obtain ⟨members, name, hloads, hfields, hkind, hhandled, hnamed, huuid, hcorrelation, _⟩ :=
        parseResultMessage_eq_ok.mp haccepted
      have hclosed : ∀ name, name ∈ members.map Prod.fst ↔ name ∈ permittedFields := by
        refine closed_of_members hfields ?_
        intro field hfield
        simp only [permittedFields, List.mem_cons, List.not_mem_nil, or_false] at hfield
        rcases hfield with rfl | rfl | rfl
        · exact ⟨_, hnamed⟩
        · exact ⟨_, hcorrelation⟩
        · exact ⟨_, hkind⟩
      have hsome : (Uuid.ofText name).isSome = true := by
        rw [huuid]
        rfl
      obtain ⟨text, htext, hwell⟩ := hcorrelated members name _ _ hloads hclosed hnamed hsome
        hcorrelation hkind hhandled
      rw [htext] at hcorrelation
      exact ⟨hhandled, members, hloads, hclosed, ⟨name, hnamed, hsome⟩,
        ⟨text, hcorrelation, hwell⟩, hkind⟩
    · rintro ⟨hhandled, members, hloads, hshape⟩
      obtain ⟨name, hnamed, hsome⟩ := hshape.jobId
      obtain ⟨text, htext, _⟩ := hshape.correlationId
      obtain ⟨uuid, huuid⟩ := Option.isSome_iff_exists.mp hsome
      refine ⟨⟨⟨uuid⟩, .string text, kind, ⟨str (.string text),
        (property "traceparent").getD [], (property "tracestate").getD []⟩⟩, ?_, rfl⟩
      exact parseResultMessage_eq_ok.mpr ⟨members, name, hloads,
        fun field hfield => (hshape.fields field).mp hfield, hshape.kind, hhandled, hnamed,
        huuid, htext, rfl⟩

end Results

/-- **Where the two ends of the seam accept the same messages.** On any body: `from_json`
accepts exactly the shape, kind by kind, if and only if no member of an otherwise good body
passes for the text it renders to; and `parse_result_message` accepts exactly the shape of
its own kinds if and only if no otherwise good result carries a correlation identifier that
is no text, or one the platform does not admit. -/
theorem seam_acceptance_iff (rendered str : Json.Value CodePoint → List CodePoint)
    (property : String → Option (List CodePoint)) (raw : List CodePoint) :
    (AcceptsShape rendered raw ↔ Uncoerced rendered raw) ∧
      (AcceptsResultShape str property raw ↔ Correlated raw) :=
  ⟨acceptsShape_iff, acceptsResultShape_iff⟩

/-! ### A null that correlates -/

namespace SampleSeam

/-- How Python writes a `null`. -/
def renderedNull : Json.Value CodePoint → List CodePoint
  | .null => ofString "None"
  | _ => []

def nullCommand : List CodePoint :=
  ofString ("\x7b\"jobId\":\"00000000-0000-0000-0000-000000000001\"," ++
    "\"correlationId\":null,\"kind\":\"integration.execute\"\x7d")

def nullResult : List CodePoint :=
  ofString ("\x7b\"jobId\":\"00000000-0000-0000-0000-000000000001\"," ++
    "\"correlationId\":null,\"kind\":\"integration.failed\"\x7d")

theorem null_correlation {raw : List CodePoint}
    (hnull : ((Json.jsonLoads raw).bind fun payload =>
      (payload.member (ofString "correlationId")).map ResumeWorker.wrapped) = some .null)
    {members : List (List CodePoint × Json.Value CodePoint)} {kind : IntegrationMessageKind}
    (hloads : Json.jsonLoads raw = some (.object members)) : ¬ SeamShape members kind := by
  intro hshape
  obtain ⟨text, htext, _⟩ := hshape.correlationId
  rw [hloads, Option.bind_some, htext, Option.map_some] at hnull
  cases hnull

/-- Both ends accept a body whose correlation identifier is null. -/
theorem null_accepted :
    ¬ AcceptsShape renderedNull nullCommand ∧
      ¬ AcceptsResultShape renderedNull (fun _ => none) nullResult := by
  constructor
  · intro haccepts
    have hread : (Integrations.MessageEnvelope.fromJson renderedNull nullCommand).toOption.map
        Integrations.MessageEnvelope.kind = some .execute := by decide +kernel
    obtain ⟨envelope, haccepted, hkind⟩ := Option.map_eq_some_iff.mp hread
    obtain ⟨members, hloads, hshape⟩ :=
      (haccepts .execute).mp ⟨envelope, toOption_eq_some.mp haccepted, hkind⟩
    exact null_correlation (by decide +kernel) hloads hshape
  · intro haccepts
    have hread : (parseResultMessage renderedNull (Json.jsonLoads nullResult)
        fun _ => none).toOption.map ConsumedResult.kind = some .failed := by decide +kernel
    obtain ⟨consumed, haccepted, hkind⟩ := Option.map_eq_some_iff.mp hread
    obtain ⟨_, members, hloads, hshape⟩ :=
      (haccepts .failed).mp ⟨consumed, toOption_eq_some.mp haccepted, hkind⟩
    exact null_correlation (by decide +kernel) hloads hshape

end SampleSeam

end Synthia
