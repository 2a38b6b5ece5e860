import Synthia.Lib.Text
import Mathlib.Algebra.Order.Field.Rat
import Mathlib.Tactic.Linarith

/-!
# Sampling by journey

`observability.sampling`: the decision a process makes when it starts a span. It is derived
from the correlation identifier the process has bound, so that processes which never spoke
to each other decide alike; and it is overridden for a span that declares itself
interesting, by an attribute of that span and of no other.

The two do not go together. What is derived from the identifier is one decision a journey;
what an attribute overrides is one span.
-/

namespace Synthia

open Text

/-! ## Attributes -/

inductive AttributeScalar where
  | text (value : List CodePoint)
  | boolean (value : Bool)
  | integer (value : Int)
  /-- A float; nothing where it is no number or has no bound. -/
  | decimal (value : Option ℚ)
  deriving DecidableEq

inductive AttributeValue where
  | scalar (value : AttributeScalar)
  | sequence (values : List AttributeScalar)
  deriving DecidableEq

/-- `bool(value)`. -/
def AttributeValue.truthy : AttributeValue → Bool
  | .scalar (.text value) => !value.isEmpty
  | .scalar (.boolean value) => value
  | .scalar (.integer value) => value != 0
  | .scalar (.decimal value) => value != some 0
  | .sequence values => !values.isEmpty

abbrev Attributes := Option (List (List CodePoint × AttributeValue))

/-- `ALWAYS_SAMPLED_ATTRIBUTE`. -/
def alwaysSampledAttribute : List CodePoint := ofString "synthia.retain"

/-- `bool(attributes and attributes.get(ALWAYS_SAMPLED_ATTRIBUTE))`. -/
def retain (attributes : Attributes) : Bool :=
  ((attributes.getD []).lookup alwaysSampledAttribute).any AttributeValue.truthy

/-! ## The decision -/

abbrev Byte := Fin 256

/-- `_FULL_RANGE`. -/
def fullRange : ℚ := 2 ^ 64

/-- `int.from_bytes(digest[:8], "big")`. -/
def leadingNumber (digest : List Byte) : Nat :=
  (digest.take 8).foldl (fun number byte => number * 256 + byte.val) 0

section Sampler

variable (sha256 : List CodePoint → List Byte)

def journeyIsSampled (correlationId : List CodePoint) (ratio : ℚ) : Bool :=
  if 1 ≤ ratio ∨ correlationId = [] then true
  else if ratio ≤ 0 then false
  else decide ((leadingNumber (sha256 correlationId) : ℚ) < ratio * fullRange)

inductive Decision where
  | drop
  | recordAndSample
  deriving DecidableEq, Repr

/-- What a span is started with. -/
structure SpanArguments where
  traceId : Nat
  name : List CodePoint
  attributes : Attributes := none
  traceState : Option (List (List CodePoint × List CodePoint)) := none

structure SamplingResult where
  decision : Decision
  attributes : Attributes
  traceState : Option (List (List CodePoint × List CodePoint))

/-- `CorrelationJourneySampler.should_sample`, where `correlation_id_var` holds that. -/
def CorrelationJourneySampler.shouldSample (ratio : ℚ) (correlationId : List CodePoint)
    (span : SpanArguments) : SamplingResult where
  decision :=
    if retain span.attributes || journeyIsSampled sha256 correlationId ratio then
      .recordAndSample
    else .drop
  attributes := span.attributes
  traceState := span.traceState

/-! ## Runs -/

abbrev ProcessId := Nat

inductive SpanEvent where
  /-- The process is at work on a journey, or on none. -/
  | bind (process : ProcessId) (correlationId : List CodePoint)
  | start (process : ProcessId) (span : SpanArguments)

/-- A span, by what was bound when it was started. -/
structure StartedSpan where
  correlationId : List CodePoint
  span : SpanArguments
  result : SamplingResult

/-- The spans of a run, where the processes have bound what they have. -/
def started (ratio : ℚ) : (ProcessId → List CodePoint) → List SpanEvent → List StartedSpan
  | _, [] => []
  | bound, .bind process correlationId :: events =>
      started ratio (Function.update bound process correlationId) events
  | bound, .start process span :: events =>
      ⟨bound process, span,
        CorrelationJourneySampler.shouldSample sha256 ratio (bound process) span⟩ ::
        started ratio bound events

/-- The spans of one journey, in whichever processes; none has anything bound at first. -/
def journey (ratio : ℚ) (events : List SpanEvent) (correlationId : List CodePoint) :
    List StartedSpan :=
  (started sha256 ratio (fun _ => []) events).filter fun span =>
    span.correlationId == correlationId

/-! ## Whole journeys -/

/-- The journey is kept whole or dropped whole, an interesting one is kept, and what is kept
at the ratio is kept at every greater one. -/
structure Whole (ratio : ℚ) (events : List SpanEvent) (correlationId : List CodePoint) :
    Prop where
  alike : ∀ first ∈ journey sha256 ratio events correlationId,
    ∀ second ∈ journey sha256 ratio events correlationId,
      first.result.decision = second.result.decision
  interesting : (∃ span ∈ journey sha256 ratio events correlationId,
      retain span.span.attributes = true) →
    ∀ span ∈ journey sha256 ratio events correlationId,
      span.result.decision = .recordAndSample
  greater : ∀ ratio', ratio ≤ ratio' →
    (∀ span ∈ journey sha256 ratio events correlationId,
      span.result.decision = .recordAndSample) →
    ∀ span ∈ journey sha256 ratio' events correlationId,
      span.result.decision = .recordAndSample

/-- The spans of the journey declare themselves alike, or what its identifier hashes to is
below the ratio. -/
def Unmixed (ratio : ℚ) (events : List SpanEvent) (correlationId : List CodePoint) : Prop :=
  1 ≤ ratio ∨ correlationId = [] ∨
    (leadingNumber (sha256 correlationId) : ℚ) < ratio * fullRange ∨
    ∀ first ∈ journey sha256 ratio events correlationId,
      ∀ second ∈ journey sha256 ratio events correlationId,
        retain first.span.attributes = retain second.span.attributes

variable {sha256} {ratio : ℚ} {events : List SpanEvent} {correlationId : List CodePoint}

theorem journeyIsSampled_iff : journeyIsSampled sha256 correlationId ratio = true ↔
    1 ≤ ratio ∨ correlationId = [] ∨
      (leadingNumber (sha256 correlationId) : ℚ) < ratio * fullRange := by
  unfold journeyIsSampled
  split
  next h => exact iff_of_true rfl (h.imp_right .inl)
  next h =>
    obtain ⟨hratio, hempty⟩ := not_or.mp h
    split
    next hnone =>
      -- No number is below a ratio that leaves nothing.
      have hrange : ratio * fullRange ≤ 0 := by
        have : (0 : ℚ) ≤ fullRange := by norm_num [fullRange]
        nlinarith
      have hnumber : (0 : ℚ) ≤ leadingNumber (sha256 correlationId) := Nat.cast_nonneg _
      refine iff_of_false Bool.false_ne_true fun hor => ?_
      rcases hor with hone | hid | hbelow
      · exact absurd hone hratio
      · exact absurd hid hempty
      · exact absurd hbelow (by linarith)
    next => simp [hratio, hempty]

theorem journeyIsSampled_mono {ratio' : ℚ} (hle : ratio ≤ ratio')
    (h : journeyIsSampled sha256 correlationId ratio = true) :
    journeyIsSampled sha256 correlationId ratio' = true := by
  rw [journeyIsSampled_iff] at h ⊢
  rcases h with hone | hid | hbelow
  · exact .inl (hone.trans hle)
  · exact .inr (.inl hid)
  · have hrange : (0 : ℚ) ≤ fullRange := by norm_num [fullRange]
    exact .inr (.inr (hbelow.trans_le (mul_le_mul_of_nonneg_right hle hrange)))

/-- Every span is decided by what was bound and by its own attributes. -/
theorem started_decided {bound : ProcessId → List CodePoint} {span : StartedSpan}
    (h : span ∈ started sha256 ratio bound events) :
    span.result =
      CorrelationJourneySampler.shouldSample sha256 ratio span.correlationId span.span := by
  induction events generalizing bound with
  | nil => cases h
  | cons event events ih =>
      cases event with
      | bind process correlationId => exact ih h
      | start process arguments =>
          rcases List.mem_cons.mp h with rfl | hlater
          · rfl
          · exact ih hlater

/-- Which spans there are is no matter of the ratio. -/
theorem started_spans (ratio ratio' : ℚ) (bound : ProcessId → List CodePoint) :
    (started sha256 ratio' bound events).map (fun span => (span.correlationId, span.span)) =
      (started sha256 ratio bound events).map fun span => (span.correlationId, span.span) := by
  induction events generalizing bound with
  | nil => rfl
  | cons event events ih =>
      cases event with
      | bind process correlationId => exact ih _
      | start process arguments =>
          simp only [started, List.map_cons, ih]

theorem journey_sampled_iff {span : StartedSpan}
    (h : span ∈ journey sha256 ratio events correlationId) :
    span.result.decision = .recordAndSample ↔
      retain span.span.attributes = true ∨ journeyIsSampled sha256 correlationId ratio = true := by
  obtain ⟨hspan, hid⟩ := List.mem_filter.mp h
  rw [started_decided hspan, beq_iff_eq.mp hid]
  simp only [CorrelationJourneySampler.shouldSample, ← Bool.or_eq_true]
  split
  next hsampled => exact iff_of_true rfl hsampled
  next hdropped => exact iff_of_false (fun h => nomatch h) hdropped

/-- What the journey is at one ratio it is at another, but for the decisions. -/
theorem exists_journey (ratio ratio' : ℚ) {span : StartedSpan}
    (h : span ∈ journey sha256 ratio' events correlationId) :
    ∃ other ∈ journey sha256 ratio events correlationId, other.span = span.span := by
  obtain ⟨hspan, hid⟩ := List.mem_filter.mp h
  have hmapped := List.mem_map_of_mem (f := fun span => (span.correlationId, span.span)) hspan
  rw [started_spans ratio ratio'] at hmapped
  obtain ⟨other, hother, hsame⟩ := List.mem_map.mp hmapped
  obtain ⟨hsameId, hsameSpan⟩ := Prod.mk.inj hsame
  refine ⟨other, List.mem_filter.mpr ⟨hother, ?_⟩, hsameSpan⟩
  rwa [hsameId]

/-- **Whole journeys.** A journey is wholly sampled or wholly not exactly if its identifier
alone keeps it, or its spans declare themselves alike. -/
theorem whole_iff (sha256 : List CodePoint → List Byte) (ratio : ℚ) (events : List SpanEvent)
    (correlationId : List CodePoint) :
    Whole sha256 ratio events correlationId ↔ Unmixed sha256 ratio events correlationId := by
  have hsplit : Unmixed sha256 ratio events correlationId ↔
      journeyIsSampled sha256 correlationId ratio = true ∨
        ∀ first ∈ journey sha256 ratio events correlationId,
          ∀ second ∈ journey sha256 ratio events correlationId,
            retain first.span.attributes = retain second.span.attributes := by
    rw [journeyIsSampled_iff, Unmixed, or_assoc, or_assoc]
  rw [hsplit]
  constructor
  · intro h
    by_cases hkept : journeyIsSampled sha256 correlationId ratio = true
    · exact .inl hkept
    · refine .inr fun first hfirst second hsecond => ?_
      have hfirstKept := journey_sampled_iff hfirst
      have hsecondKept := journey_sampled_iff hsecond
      rw [or_iff_left hkept] at hfirstKept hsecondKept
      rw [h.alike first hfirst second hsecond, hsecondKept] at hfirstKept
      exact Bool.eq_iff_iff.mpr hfirstKept.symm
  · intro h
    have hall : ∀ span ∈ journey sha256 ratio events correlationId,
        (∃ other ∈ journey sha256 ratio events correlationId,
          other.result.decision = .recordAndSample) → span.result.decision = .recordAndSample := by
      intro span hspan hother
      obtain ⟨other, hother, hkept⟩ := hother
      rw [journey_sampled_iff hother] at hkept
      rw [journey_sampled_iff hspan]
      rcases h with hsampled | halike
      · exact .inr hsampled
      · rwa [halike span hspan other hother]
    constructor
    · intro first hfirst second hsecond
      cases hdecision : first.result.decision with
      | recordAndSample => exact (hall second hsecond ⟨first, hfirst, hdecision⟩).symm
      | drop =>
          cases hother : second.result.decision with
          | drop => rfl
          | recordAndSample =>
              have hkept := hall first hfirst ⟨second, hsecond, hother⟩
              rw [hdecision] at hkept
              cases hkept
    · intro hinteresting span hspan
      obtain ⟨other, hother, hretained⟩ := hinteresting
      exact hall span hspan ⟨other, hother, (journey_sampled_iff hother).mpr (.inl hretained)⟩
    · intro ratio' hle hkept span hspan
      obtain ⟨other, hother, hsame⟩ := exists_journey ratio ratio' hspan
      have hbefore := (journey_sampled_iff hother).mp (hkept other hother)
      rw [hsame] at hbefore
      exact (journey_sampled_iff hspan).mpr
        (hbefore.imp_right (journeyIsSampled_mono hle))

/-- A denial in a journey that would have been dropped: its span is kept, and the one before
it is not. -/
def deniedJourney : List SpanEvent :=
  [.bind 0 (ofString "journey"), .start 0 { traceId := 1, name := ofString "request" },
    .bind 1 (ofString "journey"),
    .start 1
      { traceId := 2, name := ofString "gate",
        attributes := some [(alwaysSampledAttribute, .scalar (.boolean true))] }]

theorem not_whole_denied : ¬ ∀ sha256 ratio events correlationId,
    Whole sha256 ratio events correlationId := by
  intro h
  have halike := (h (fun _ => []) 0 deniedJourney (ofString "journey")).alike
  have hdecisions : (journey (fun _ => []) 0 deniedJourney (ofString "journey")).map
      (fun span => span.result.decision) = [.drop, .recordAndSample] := by decide +kernel
  obtain ⟨first, hfirst, hdropped⟩ :=
    List.mem_map.mp (hdecisions ▸ List.mem_cons_self : Decision.drop ∈ _)
  obtain ⟨second, hsecond, hkept⟩ := List.mem_map.mp
    (hdecisions ▸ List.mem_cons_of_mem _ List.mem_cons_self : Decision.recordAndSample ∈ _)
  have hsame := halike first hfirst second hsecond
  rw [hdropped, hkept] at hsame
  cases hsame

end Sampler

end Synthia
