import Synthia.Lib.RawJson
import Synthia.Observability.Logging

/-!
# One record, one line

What a sink reads of a line that is emitted. The service that serialises an object writes one
line that is read as the fields of the record, whatever they hold. The one that fills a
template writes such a line exactly for records of plain text and nothing behind it: a quote,
a backslash or a control character in a message, in a name or in a correlation identifier is
the line's own, and a traceback is lines of its own.
-/

namespace Synthia.Observability

open Text Json

/-- Text without a line break. -/
def OneLine (text : List CodePoint) : Prop := ∀ c ∈ text, c ≠ 0x0A ∧ c ≠ 0x0D

instance (text : List CodePoint) : Decidable (OneLine text) := List.decidableBAll _ text

/-- A text that is one line, and is read as one object of these fields and nothing else. -/
structure OneRecord (text : List CodePoint) (fields : List (List CodePoint × List CodePoint)) :
    Prop where
  line : OneLine text
  object : jsonParse (utf16 text) =
    some (.object (fields.map fun field => (utf16 field.1, .string (utf16 field.2))))

/-! ## An object that is serialised -/

/-- A line break is a control character. -/
theorem oneLine_of_le {text : List CodePoint} (h : ∀ c ∈ text, 0x20 ≤ c.val) : OneLine text := by
  intro c hc
  have hcontrol := h c hc
  constructor
  · intro hbreak
    rw [hbreak] at hcontrol
    exact absurd hcontrol (by decide)
  · intro hbreak
    rw [hbreak] at hcontrol
    exact absurd hcontrol (by decide)

theorem oneRecord_line (payload : LogPayload) : OneRecord payload.line payload.entries := by
  let entries := payload.entries.map fun entry => (entry.1, some entry.2)
  have hgap : ∀ c ∈ ([0x20] : List CodePoint), c = 0x20 := fun c hc => List.mem_singleton.mp hc
  have hline : OneLine (dumps [0x20] (flat entries)) :=
    oneLine_of_le fun c hc =>
      (dumps_flat_printable (Printable.cons (by decide) .nil) entries c hc).1
  refine ⟨hline, (jsonParse_dumps hgap entries).trans ?_⟩
  simp only [entries, flat, List.map_map]
  rfl

/-- What a payload has of the record is the record's. -/
structure OfRecord (words : WordClass)
    (interpolate : List CodePoint → LogArguments → Option (List CodePoint))
    (context : LogContext) (record : LogRecord) (payload : LogPayload) : Prop where
  message : record.getMessage interpolate = some payload.message
  level : payload.level = record.levelname
  logger : payload.logger = record.name
  timestamp : payload.timestamp = context.timestamp
  correlationId : payload.correlationId = context.correlationId
  tenantId : payload.tenantId = context.tenantId
  untraced : context.traceId = [] → payload.traceId = none ∧ payload.spanId = none
  traced : context.traceId ≠ [] →
    payload.traceId = some context.traceId ∧ payload.spanId = some context.spanId
  noException : record.traceback = none → payload.exception = none
  exception : ∀ traceback, record.traceback = some traceback →
    ∃ text, redact words traceback = .ok text ∧ payload.exception = some text

theorem ofRecord_of_format {words : WordClass}
    {interpolate : List CodePoint → LogArguments → Option (List CodePoint)}
    {context : LogContext} {record : LogRecord} {payload : LogPayload}
    (h : JsonFormatter.format words interpolate context record = .ok payload) :
    OfRecord words interpolate context record payload := by
  unfold JsonFormatter.format at h
  cases hmessage : JsonFormatter.message interpolate record with
  | error raised => rw [hmessage] at h; cases h
  | ok message =>
      cases hexception : JsonFormatter.exception words record with
      | error raised => rw [hmessage, hexception] at h; cases h
      | ok exception =>
          rw [hmessage, hexception] at h
          cases h
          refine ⟨?_, rfl, rfl, rfl, rfl, rfl, ?_, ?_, ?_, ?_⟩
          · unfold JsonFormatter.message at hmessage
            split at hmessage
            next found hfound => rw [hfound]; cases hmessage; rfl
            next => cases hmessage
          · intro huntraced
            simp [huntraced]
          · intro htraced
            simp [htraced]
          · intro hnone
            rw [JsonFormatter.exception, hnone] at hexception
            cases hexception
            rfl
          · intro traceback htraceback
            rw [JsonFormatter.exception, htraceback] at hexception
            dsimp only at hexception
            cases hredact : redact words traceback with
            | error raised => rw [hredact] at hexception; cases hexception
            | ok text => rw [hredact] at hexception; cases hexception; exact ⟨text, rfl, rfl⟩

/-! ## A template that is filled in -/

/-- A character beyond the first plane is two code units, both surrogates. -/
theorem plain_codeUnits (c : CodePoint) : Plain (codeUnits c) ↔ Plain [c] := by
  by_cases hc : c.val < 0x10000
  · have hval : (Fin.ofNat 0x10000 c.val : CodeUnit).val = c.val := Nat.mod_eq_of_lt hc
    rw [codeUnits_of_lt hc, Plain, Plain, List.forall_mem_singleton, List.forall_mem_singleton,
      hval]
  · refine iff_of_true (fun unit hunit => ?_) fun one hone => ?_
    · rw [codeUnits, if_neg hc] at hunit
      have hbound := c.isLt
      rcases List.mem_cons.mp hunit with rfl | hunit
      · simp only [Fin.val_ofNat]
        omega
      · rw [List.mem_singleton.mp hunit]
        simp only [Fin.val_ofNat]
        omega
    · rw [List.mem_singleton.mp hone]
      omega

theorem plain_cons {n : Nat} {c : Fin n} {text : List (Fin n)} :
    Plain (c :: text) ↔ Plain [c] ∧ Plain text := by
  rw [Plain, Plain, Plain, List.forall_mem_cons, List.forall_mem_singleton]

theorem plain_append {n : Nat} {first second : List (Fin n)} :
    Plain (first ++ second) ↔ Plain first ∧ Plain second :=
  List.forall_mem_append

theorem plain_utf16 (text : List CodePoint) : Plain (utf16 text) ↔ Plain text := by
  induction text with
  | nil => exact iff_of_true (fun _ h => (List.not_mem_nil h).elim) fun _ h =>
      (List.not_mem_nil h).elim
  | cons c text ih => rw [utf16_cons, plain_append, plain_codeUnits, ih, ← plain_cons]

theorem oneLine_of_plain {text : List CodePoint} (h : Plain text) : OneLine text :=
  oneLine_of_le fun c hc => (h c hc).2.2

namespace Integrations

variable {service : ServiceName} {bound message : List CodePoint} {record : Record}

theorem plain_asctime (asctime : AscTime) : Plain asctime.text := by
  have hdigits : Plain (ofString "0123456789-: ,") := by decide +kernel
  exact fun c hc => hdigits c (asctime.digits hc)

/-- The entries as code units. -/
def unitEntries (service : ServiceName) (bound : List CodePoint) (record : Record)
    (message : List CodePoint) : List (List CodeUnit × List CodeUnit) :=
  (entries service bound record message).map fun entry => (utf16 entry.1, utf16 entry.2)

/-- The template is the object without escapes. -/
theorem utf16_formatMessage : utf16 (formatMessage service bound record message) =
    rawObject (unitEntries service bound record message) := by
  have htime : utf16 (ofString "\x7b\"time\":\"") =
      0x7B :: 0x22 :: (utf16 (ofString "time") ++ [0x22, 0x3A, 0x22]) := by decide
  have hlevel : utf16 (ofString "\",\"level\":\"") =
      0x22 :: 0x2C :: 0x22 :: (utf16 (ofString "level") ++ [0x22, 0x3A, 0x22]) := by decide
  have hlogger : utf16 (ofString "\",\"logger\":\"") =
      0x22 :: 0x2C :: 0x22 :: (utf16 (ofString "logger") ++ [0x22, 0x3A, 0x22]) := by decide
  have hservice : utf16 (ofString "\",\"service\":\"") =
      0x22 :: 0x2C :: 0x22 :: (utf16 (ofString "service") ++ [0x22, 0x3A, 0x22]) := by decide
  have hcorrelation : utf16 (ofString "\",\"correlationId\":\"") =
      0x22 :: 0x2C :: 0x22 :: (utf16 (ofString "correlationId") ++ [0x22, 0x3A, 0x22]) := by
    decide
  have hmessage : utf16 (ofString "\",\"message\":\"") =
      0x22 :: 0x2C :: 0x22 :: (utf16 (ofString "message") ++ [0x22, 0x3A, 0x22]) := by decide
  have hend : utf16 (ofString "\"\x7d") = [0x22, 0x7D] := by decide
  simp only [formatMessage, unitEntries, entries, utf16_append, htime, hlevel, hlogger, hservice,
    hcorrelation, hmessage, hend, List.map_cons, List.map_nil, rawObject, rawMember, rawMembers,
    List.append_assoc, List.cons_append, List.nil_append]

/-- What the values of a record have to be. -/
structure AllPlain (service : ServiceName) (bound : List CodePoint) (record : Record)
    (message : List CodePoint) : Prop where
  level : Plain record.levelname
  logger : Plain record.name
  service : Plain service.text
  correlationId : Plain (record.correlated bound)
  message : Plain message

theorem allPlain_iff : AllPlain service bound record message ↔
    ∀ entry ∈ entries service bound record message, Plain entry.2 := by
  unfold entries
  simp only [List.forall_mem_cons]
  exact ⟨fun h => ⟨plain_asctime _, h.level, h.logger, h.service, h.correlationId, h.message,
    fun _ hnil => absurd hnil List.not_mem_nil⟩,
    fun h => ⟨h.2.1, h.2.2.1, h.2.2.2.1, h.2.2.2.2.1, h.2.2.2.2.2.1⟩⟩

theorem plain_names : ∀ entry ∈ unitEntries service bound record message, Plain entry.1 := by
  have hnames : ∀ name ∈ ["time", "level", "logger", "service", "correlationId", "message"],
      Plain (utf16 (ofString name)) := by decide +kernel
  intro entry hentry
  obtain ⟨field, hfield, rfl⟩ := List.mem_map.mp hentry
  unfold entries at hfield
  simp only [List.forall_mem_cons] at hnames
  simp only [List.mem_cons] at hfield
  rcases hfield with rfl | rfl | rfl | rfl | rfl | rfl | hnil
  · exact hnames.1
  · exact hnames.2.1
  · exact hnames.2.2.1
  · exact hnames.2.2.2.1
  · exact hnames.2.2.2.2.1
  · exact hnames.2.2.2.2.2.1
  · exact absurd hnil List.not_mem_nil

/-- What is filled in is read as the record exactly if all of it is plain. -/
theorem object_formatMessage_iff :
    jsonParse (utf16 (formatMessage service bound record message)) =
      some (.object ((entries service bound record message).map fun field =>
        (utf16 field.1, .string (utf16 field.2)))) ↔
    AllPlain service bound record message := by
  have hraw := jsonParse_raw_iff (@plain_names service bound message record)
  have hmembers : (entries service bound record message).map
        (fun field => (utf16 field.1, Value.string (utf16 field.2))) =
      members (unitEntries service bound record message) := by
    rw [members, unitEntries, List.map_map]
    rfl
  rw [utf16_formatMessage, hmembers, allPlain_iff]
  refine hraw.trans ?_
  show (∀ entry ∈ unitEntries service bound record message, Plain entry.2) ↔ _
  rw [unitEntries, List.forall_mem_map]
  exact forall₂_congr fun entry _ => plain_utf16 entry.2

theorem oneLine_append {first second : List CodePoint} (hfirst : OneLine first)
    (hsecond : OneLine second) : OneLine (first ++ second) :=
  List.forall_mem_append.mpr ⟨hfirst, hsecond⟩

theorem oneLine_formatMessage (h : AllPlain service bound record message) :
    OneLine (formatMessage service bound record message) := by
  have hfixed : ∀ part ∈ ["\x7b\"time\":\"", "\",\"level\":\"", "\",\"logger\":\"",
      "\",\"service\":\"", "\",\"correlationId\":\"", "\",\"message\":\"", "\"\x7d"],
      OneLine (ofString part) := by decide +kernel
  have hvalue : ∀ {text : List CodePoint}, Plain text → ∀ {before : List CodePoint},
      OneLine before → ∀ part, OneLine (ofString part) →
        OneLine (before ++ text ++ ofString part) :=
    fun hplain _ hbefore _ hpart =>
      oneLine_append (oneLine_append hbefore (oneLine_of_plain hplain)) hpart
  simp only [List.forall_mem_cons] at hfixed
  obtain ⟨htime, hlevel, hlogger, hservice, hcorrelation, hmessage, hend, -⟩ := hfixed
  exact hvalue h.message (hvalue h.correlationId (hvalue h.service (hvalue h.logger
    (hvalue h.level (hvalue (plain_asctime _) htime _ hlevel) _ hlogger) _ hservice)
    _ hcorrelation) _ hmessage) _ hend

theorem onNewLine_nil (text : List CodePoint) : onNewLine text [] = text := rfl

/-- What is put behind a line that has no break puts one there. -/
theorem break_mem_onNewLine {text more : List CodePoint} (h : more ≠ []) :
    0x0A ∈ onNewLine text more := by
  unfold onNewLine
  rw [if_neg (by simpa using h)]
  split
  next hlast => exact List.mem_append_left more (List.mem_of_getLast? hlast)
  next => exact List.mem_append_right text List.mem_cons_self

theorem subset_onNewLine (text more : List CodePoint) : text ⊆ onNewLine text more := by
  unfold onNewLine
  split
  · exact List.Subset.refl text
  · split <;> exact List.subset_append_left _ _

/-- A record of plain text, with nothing to be put behind it. -/
structure PlainRecord (service : ServiceName) (bound : List CodePoint) (record : Record)
    (message : List CodePoint) : Prop extends AllPlain service bound record message where
  traceback : record.traceback.getD [] = []
  stackInfo : record.stackInfo = []

theorem oneRecord_emitted_iff :
    OneRecord (onNewLine (onNewLine (formatMessage service bound record message)
        (record.traceback.getD [])) record.stackInfo) (entries service bound record message) ↔
      PlainRecord service bound record message := by
  by_cases htraceback : record.traceback.getD [] = []
  · by_cases hstack : record.stackInfo = []
    · rw [htraceback, hstack, onNewLine_nil, onNewLine_nil]
      constructor
      · intro h
        exact ⟨object_formatMessage_iff.mp h.object, htraceback, hstack⟩
      · intro h
        exact ⟨oneLine_formatMessage h.toAllPlain, object_formatMessage_iff.mpr h.toAllPlain⟩
    · refine iff_of_false (fun h => ?_) fun h => hstack h.stackInfo
      exact (h.line _ (break_mem_onNewLine hstack)).1 rfl
  · refine iff_of_false (fun h => ?_) fun h => htraceback h.traceback
    exact (h.line _ (subset_onNewLine _ _ (break_mem_onNewLine htraceback))).1 rfl

end Integrations

/-! ## Both services -/

/-- **One record is one line** of the one service always. Of the other it is exactly if the
level, the names, the correlation identifier and the message are plain, and there is neither a
traceback nor a stack. -/
theorem oneRecord_iff
    (interpolate : List CodePoint → LogArguments → Option (List CodePoint))
    (service : Integrations.ServiceName) (bound : List CodePoint) (emitted : Integrations.Record) :
    ((∀ (words : WordClass) (context : LogContext) (record : LogRecord) (payload : LogPayload),
        JsonFormatter.format words interpolate context record = .ok payload →
        OneRecord payload.line payload.entries ∧
          OfRecord words interpolate context record payload) ∧
      ∀ message text, emitted.getMessage interpolate = some message →
        Integrations.format interpolate service bound emitted = some text →
        OneRecord text (Integrations.entries service bound emitted message)) ↔
    ∀ message, emitted.getMessage interpolate = some message →
      Integrations.PlainRecord service bound emitted message := by
  constructor
  · intro h message hmessage
    refine Integrations.oneRecord_emitted_iff.mp (h.2 message _ hmessage ?_)
    rw [Integrations.format, hmessage]
    rfl
  · intro h
    refine ⟨fun words context record payload hformat =>
      ⟨oneRecord_line payload, ofRecord_of_format hformat⟩, fun message text hmessage htext => ?_⟩
    rw [Integrations.format, hmessage] at htext
    cases htext
    exact Integrations.oneRecord_emitted_iff.mpr (h message hmessage)

/-- A quote in a message, and what is put behind it is a field of its own. -/
def forged : Integrations.Record where
  levelname := ofString "INFO"
  name := ofString "integrations.api"
  msg := .text (ofString "Refused alice\",\"level\":\"CRITICAL")
  args := .none
  traceback := none
  asctime := ⟨ofString "2026-01-05 09:00:00,000", by decide⟩
  correlationId := none
  stackInfo := []

theorem not_oneRecord_forged :
    ∃ text, Integrations.format (fun _ _ => none) ⟨ofString "synthia-integrations", by decide⟩
        (ofString "c-1") forged = some text ∧
      ¬ OneRecord text (Integrations.entries ⟨ofString "synthia-integrations", by decide⟩
        (ofString "c-1") forged (ofString "Refused alice\",\"level\":\"CRITICAL")) := by
  refine ⟨_, rfl, fun h => ?_⟩
  have hplain := (Integrations.oneRecord_emitted_iff.mp h).message
  exact absurd (hplain 0x22 (by decide)).1 (by decide)

end Synthia.Observability
