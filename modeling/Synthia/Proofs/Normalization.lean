import Synthia.Integrations.Normalization

/-!
# What is stored of an answer

The filter takes members out of the body and nothing else, so what is stored was answered,
and is no longer than what was answered, both measured with the numbers as Python writes them
again. It looks at the names of the body's own members, so what a member that stays holds,
stays, whatever its keys. Nothing forbidden is stored exactly where the answer is refused or
no member that stays carries a forbidden key.
-/

namespace Synthia.Integrations

open Text Json

/-! ## The identifier -/

theorem externalReference_filter {keeps : List CodePoint → Bool}
    (hkeeps : ∀ key ∈ externalReferenceKeys, keeps key = true) (raw : Members) :
    externalReference (raw.filter fun entry => keeps entry.1) = externalReference raw := by
  have hnumber := hkeeps (ofString "number") List.mem_cons_self
  have hsysId := hkeeps (ofString "sys_id") (List.mem_cons_of_mem _ List.mem_cons_self)
  simp only [externalReference, externalReferenceKeys, List.findSome?,
    Value.member_filter hnumber, Value.member_filter hsysId]

/-- An identifier is the text of a member, without the space around it. -/
theorem mem_of_externalReference {payload : Members} {reference : List CodePoint}
    (h : externalReference payload = some reference) :
    ∃ key text, (key, .string text) ∈ payload ∧ reference = strip text := by
  obtain ⟨key, _, hkey⟩ := List.exists_of_findSome?_eq_some h
  split at hkey
  · next candidate hmember =>
    split at hkey
    · cases hkey
    · injection hkey with hkey
      exact ⟨key, candidate, Value.mem_of_member hmember, hkey.symm⟩
  · cases hkey

/-! ## What is asked of an answer -/

/-- What is kept of an answer that is accepted. -/
structure StoredSafely (floatText : List CodePoint → List CodePoint) (raw : Members)
    (result : NormalizedResult) : Prop where
  clean : ∀ key, (Value.object result.payload).Carries key → forbiddenKey key = false
  keys : ∀ key, (Value.object result.payload).Carries key → (Value.object raw).Carries key
  values : ∀ value, Value.Inside value (.object result.payload) →
    Value.Inside value (.object raw)
  referenced : ∀ reference, result.externalReference = some reference →
    ∃ key text, (key, .string text) ∈ raw ∧ reference = strip text
  bounded : encodedBytes floatText result.payload ≤ maxPayloadBytes

/-- What the leg records of it. -/
structure Recorded (normalized : Except BoundaryValidationError NormalizedResult)
    (attempt : Attempt) : Prop where
  stored : attempt.normalizedResult = normalized.toOption.map fun result => .object result.payload
  refused : ∀ error, normalized = .error error →
    attempt.externalReference = none ∧ attempt.outcome = .unreachable

/-- Nothing forbidden is stored of what was answered, and nothing at all where it is
refused. -/
structure NothingForbidden (floatText : List CodePoint → List CodePoint) (raw : Members)
    (normalized : Except BoundaryValidationError NormalizedResult) : Prop where
  accepted : ∀ result, normalized = .ok result → StoredSafely floatText raw result
  recorded : ∀ sha256 command instruction binding started, Recorded normalized
    (ExecutionLeg.conclude sha256 command instruction binding started (.ofNormalized normalized))

theorem recorded_conclude (normalized : Except BoundaryValidationError NormalizedResult)
    (sha256 : List CodePoint → List CodePoint) (command : MessageEnvelope)
    (instruction : Instruction) (binding : ConnectorBinding) (started : Instant) :
    Recorded normalized (ExecutionLeg.conclude sha256 command instruction binding started
      (.ofNormalized normalized)) := by
  cases normalized with
  | ok result => exact ⟨rfl, fun error h => nomatch h⟩
  | error error => exact ⟨rfl, fun _ _ => ⟨rfl, rfl⟩⟩

/-! ## Where it holds -/

section Contract

variable {floatText : List CodePoint → List CodePoint} {keeps : List CodePoint → Bool}
  {identified : Bool} {raw : Members}

/-- No member that is kept holds a forbidden key. -/
def CleanBeneath (keeps : List CodePoint → Bool) (raw : Members) : Prop :=
  ∀ entry ∈ raw, keeps entry.1 = true → ∀ key, entry.2.Carries key → forbiddenKey key = false

theorem normalize_eq_ok {result : NormalizedResult}
    (h : normalize floatText keeps identified raw = .ok result) :
    encodedBytes floatText raw ≤ maxPayloadBytes ∧
      result.payload = (raw.filter fun entry => keeps entry.1) ∧
      result.externalReference = externalReference result.payload ∧
      ¬ (identified = true ∧ externalReference result.payload = none) := by
  simp only [normalize] at h
  split at h
  · cases h
  · next hsize =>
    split at h
    · cases h
    · next hreference =>
      injection h with h
      rw [Bool.and_eq_true, Option.isNone_iff_eq_none] at hreference
      rw [← h]
      exact ⟨Nat.le_of_not_lt hsize, rfl, rfl, hreference⟩

/-- What is not refused is accepted. -/
theorem normalize_accepts (hsize : ¬ maxPayloadBytes < encodedBytes floatText raw)
    (hreference : ¬ (identified = true ∧
      externalReference (raw.filter fun entry => keeps entry.1) = none)) :
    normalize floatText keeps identified raw =
      .ok ⟨externalReference (raw.filter fun entry => keeps entry.1),
        raw.filter fun entry => keeps entry.1⟩ := by
  rw [← Option.isNone_iff_eq_none, ← Bool.and_eq_true] at hreference
  simp only [normalize]
  rw [if_neg hsize, if_neg hreference]

/-- Whatever is kept was answered, and is no longer. -/
theorem StoredSafely.of_clean {result : NormalizedResult}
    (hresult : normalize floatText keeps identified raw = .ok result)
    (hclean : ∀ key, (Value.object result.payload).Carries key → forbiddenKey key = false) :
    StoredSafely floatText raw result := by
  obtain ⟨hsize, hpayload, hreference, _⟩ := normalize_eq_ok hresult
  have hsublist : result.payload.Sublist raw := by
    rw [hpayload]
    exact List.filter_sublist
  constructor
  · exact hclean
  · exact fun _ hkey => hkey.mono hsublist.subset
  · exact fun _ hvalue => hvalue.mono hsublist.subset
  · intro reference hsome
    rw [hreference] at hsome
    obtain ⟨key, text, hmem, htext⟩ := mem_of_externalReference hsome
    exact ⟨key, text, hsublist.subset hmem, htext⟩
  · exact (length_dumps_rewritten_sublist floatText hsublist).trans hsize

/-- The names of the members that are kept are not forbidden: what is left to ask is what
the members hold. -/
theorem clean_kept_iff (hkeeps : ∀ key, keeps key = true → forbiddenKey key = false) :
    (∀ key, (Value.object (raw.filter fun entry => keeps entry.1)).Carries key →
      forbiddenKey key = false) ↔ CleanBeneath keeps raw := by
  constructor
  · intro h entry hmem hkept key hkey
    exact h key (Value.carries_object.mpr ⟨entry, List.mem_filter.mpr ⟨hmem, hkept⟩, .inr hkey⟩)
  · intro h key hcarries
    obtain ⟨entry, hmem, hentry⟩ := Value.carries_object.mp hcarries
    obtain ⟨hraw, hkept⟩ := List.mem_filter.mp hmem
    cases hentry with
    | inl hname =>
        rw [← hname]
        exact hkeeps entry.1 hkept
    | inr hinner => exact h entry hraw hkept key hinner

theorem nothingForbidden_normalize_iff
    (hkeeps : ∀ key, keeps key = true → forbiddenKey key = false)
    (hidentifier : ∀ key ∈ externalReferenceKeys, keeps key = true) :
    NothingForbidden floatText raw (normalize floatText keeps identified raw) ↔
      maxPayloadBytes < encodedBytes floatText raw ∨
        (identified = true ∧ externalReference raw = none) ∨ CleanBeneath keeps raw := by
  rw [← externalReference_filter hidentifier, ← clean_kept_iff hkeeps]
  constructor
  · intro h
    by_cases hsize : maxPayloadBytes < encodedBytes floatText raw
    · exact .inl hsize
    · by_cases hreference : identified = true ∧
          externalReference (raw.filter fun entry => keeps entry.1) = none
      · exact .inr (.inl hreference)
      · exact .inr (.inr (h.accepted _ (normalize_accepts hsize hreference)).clean)
  · intro h
    refine ⟨fun result hresult => .of_clean hresult ?_, recorded_conclude _⟩
    obtain ⟨hsize, hpayload, _, hreference⟩ := normalize_eq_ok hresult
    rw [hpayload] at hreference ⊢
    rcases h with hlarge | hnone | hclean
    · exact absurd hsize (Nat.not_le_of_lt hlarge)
    · exact absurd hnone hreference
    · exact hclean

end Contract

theorem forbiddenKey_of_kept {key : List CodePoint} (h : (!forbiddenKey key) = true) :
    forbiddenKey key = false :=
  (Bool.not_eq_true' _).mp h

/-- None of the fields of a case is forbidden. -/
theorem forbiddenKey_caseFields : ∀ key ∈ caseFields, forbiddenKey key = false := by
  decide +kernel

/-- Of a tool's answer nothing forbidden is stored exactly where it is too large as Python
writes it again, however it writes a float, or no member that stays holds a forbidden key; of
a case system's, where no field of the case does, and also where it carries no identifier. -/
theorem nothing_forbidden_stored_iff (floatText : List CodePoint → List CodePoint)
    (raw : Members) :
    (NothingForbidden floatText raw (normalizeToolResult floatText raw) ↔
      maxPayloadBytes < encodedBytes floatText raw ∨
        ∀ entry ∈ raw, forbiddenKey entry.1 = false →
          ∀ key, entry.2.Carries key → forbiddenKey key = false) ∧
    (NothingForbidden floatText raw (normalizeCaseResult floatText raw) ↔
      maxPayloadBytes < encodedBytes floatText raw ∨ externalReference raw = none ∨
        ∀ entry ∈ raw, entry.1 ∈ caseFields →
          ∀ key, entry.2.Carries key → forbiddenKey key = false) := by
  constructor
  · rw [normalizeToolResult,
      nothingForbidden_normalize_iff (fun _ => forbiddenKey_of_kept) (by decide +kernel)]
    simp only [CleanBeneath, Bool.not_eq_true', Bool.false_eq_true, false_and, false_or]
  · have hfield : ∀ key, (caseFields.contains key && !forbiddenKey key) = true ↔
        key ∈ caseFields := by
      intro key
      rw [Bool.and_eq_true, List.contains_iff_mem]
      exact and_iff_left_of_imp fun hmem =>
        (Bool.not_eq_true' _).mpr (forbiddenKey_caseFields key hmem)
    rw [normalizeCaseResult, nothingForbidden_normalize_iff
      (fun key hkept => forbiddenKey_caseFields key ((hfield key).mp hkept)) (by decide +kernel)]
    simp only [CleanBeneath, hfield, true_and]

/-- A tool that echoes a key back, inside a member of another name. -/
def echoedKey : Members :=
  [(ofString "result", .object [(ofString "api_key", .string (ofString "k-1234"))])]

theorem echoed_key_stored : ¬ NothingForbidden (fun literal => literal) echoedKey
    (normalizeToolResult (fun literal => literal) echoedKey) := by
  intro h
  have hok : normalizeToolResult (fun literal => literal) echoedKey =
      .ok ⟨none, echoedKey⟩ := by
    rw [normalizeToolResult, normalize_accepts (by decide +kernel) (by decide)]
    rfl
  have hcarries : (Value.object echoedKey).Carries (ofString "api_key") :=
    Value.carries_object.mpr ⟨_, List.mem_singleton_self _,
      .inr (Value.carries_object.mpr ⟨_, List.mem_singleton_self _, .inl rfl⟩)⟩
  have hclean := (h.accepted _ hok).clean _ hcarries
  revert hclean
  decide +kernel

end Synthia.Integrations
