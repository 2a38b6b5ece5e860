import Synthia.Api.Correlation
import Synthia.Proofs.Keys

/-!
# One journey, one identifier

The three screens are one rule: a supplied identifier that follows it is kept by all three
deployables, and any other by none. What is kept or minted is on the response exactly once,
and in the problem document, as long as nothing escapes the middleware. An exception that does
is answered from outside: by RagCore from the state of the request, where the identifier still
is, by the Integrations service from a variable that has been reset, and by the monolith from
headers that have been cleared.
-/

namespace Synthia.Correlation

open Text Urlencoded Problems

/-! ## The rule -/

theorem lt_of_isAllowed {code : Nat} (h : isAllowed code = true) : code < 0x80 := by
  unfold isAllowed at h
  simp only [Bool.or_eq_true, Bool.and_eq_true, decide_eq_true_eq, beq_iff_eq] at h
  omega

theorem isAllowed_of_isHex {c : CodePoint} (h : isHex c = true) : isAllowed c.val = true := by
  unfold isHex at h
  unfold isAllowed
  simp only [Bool.or_eq_true, Bool.and_eq_true, decide_eq_true_eq, beq_iff_eq] at h ⊢
  omega

/-- The rule is about the codes of the characters, in whatever alphabet they are. -/
theorem followsRule_map {m n : Nat} {widen : Fin m → Fin n} (hwiden : ∀ c, (widen c).val = c.val)
    {text : List (Fin m)} : FollowsRule (text.map widen) ↔ FollowsRule text := by
  constructor
  · intro h
    have hlength : (text.map widen).length = text.length := List.length_map widen
    exact ⟨hlength ▸ h.nonempty, hlength ▸ h.bounded, fun c hc =>
      hwiden c ▸ h.allowed (widen c) (List.mem_map_of_mem hc)⟩
  · intro h
    refine ⟨?_, ?_, fun c hc => ?_⟩
    · rw [List.length_map]
      exact h.nonempty
    · rw [List.length_map]
      exact h.bounded
    · obtain ⟨source, hsource, rfl⟩ := List.mem_map.mp hc
      rw [hwiden]
      exact h.allowed source hsource

theorem val_codePoint (b : Text.Byte) : (Fin.ofNat 0x110000 b.val : CodePoint).val = b.val :=
  Nat.mod_eq_of_lt (Nat.lt_trans b.isLt (by decide))

theorem val_codeUnit (b : Text.Byte) : (Fin.ofNat 0x10000 b.val : CodeUnit).val = b.val :=
  Nat.mod_eq_of_lt (Nat.lt_trans b.isLt (by decide))

theorem followsRule_latin1 {value : List Text.Byte} :
    FollowsRule (latin1 value) ↔ FollowsRule value :=
  followsRule_map val_codePoint

/-- The monolith's server reads as it stands what follows the rule, and nothing else as text
that does. -/
theorem followsRule_decode {encoding : Monolith.HeaderEncoding} {value : List Text.Byte} :
    FollowsRule (encoding.decode value) ↔ FollowsRule value := by
  by_cases hascii : ∀ b ∈ value, b.val < 0x80
  · rw [encoding.ascii value hascii]
    exact followsRule_map val_codeUnit
  · obtain ⟨b, hb, hbeyond⟩ : ∃ b ∈ value, 0x80 ≤ b.val := by simpa using hascii
    constructor
    · intro h
      obtain ⟨c, hc, hcode⟩ := encoding.beyond value b hb hbeyond
      exact absurd (lt_of_isAllowed (h.allowed c hc)) (Nat.not_lt.mpr hcode)
    · intro h
      exact absurd (lt_of_isAllowed (h.allowed b hb)) (Nat.not_lt.mpr hbeyond)

theorem RagCore.wellFormed_iff {raw : List CodePoint} :
    RagCore.wellFormed raw = true ↔ FollowsRule raw := by
  unfold RagCore.wellFormed
  rw [Bool.and_eq_true, Bool.and_eq_true, decide_eq_true_eq, decide_eq_true_eq, List.all_eq_true]
  exact ⟨fun h => ⟨h.1.1, h.1.2, h.2⟩, fun h => ⟨⟨h.nonempty, h.bounded⟩, h.allowed⟩⟩

theorem Integrations.wellFormed_iff {inbound : List CodePoint} :
    Integrations.wellFormed inbound = true ↔ FollowsRule inbound :=
  RagCore.wellFormed_iff

theorem Monolith.tryAccept_of_followsRule {text : List CodeUnit} (h : FollowsRule text) :
    tryAccept (some text) = some text := by
  have hnonempty : text ≠ [] := List.ne_nil_of_length_pos h.nonempty
  have hbounded := h.bounded
  have hall : (text.all fun c => isAllowed c.val) = true := List.all_eq_true.mpr h.allowed
  simp [tryAccept, hnonempty, hall, Nat.not_lt.mpr hbounded]

theorem Monolith.tryAccept_eq_none {text : List CodeUnit} (h : ¬ FollowsRule text) :
    tryAccept (some text) = none := by
  unfold tryAccept
  simp only
  split
  · rfl
  next hlength =>
    rw [if_neg fun hall => h ?_]
    simp only [Bool.or_eq_true, List.isEmpty_iff, decide_eq_true_eq, not_or, Nat.not_lt] at hlength
    exact ⟨List.length_pos_of_ne_nil hlength.1, hlength.2, List.all_eq_true.mp hall⟩

/-! ## What is minted -/

theorem followsRule_toText (uuid : Uuid) : FollowsRule uuid.toText := by
  have hlength := Uuid.length_toText uuid
  refine ⟨by omega, by omega, fun c hc => ?_⟩
  rcases Uuid.mem_toText hc with hhex | rfl
  · exact isAllowed_of_isHex hhex
  · decide

theorem followsRule_toTextN (guid : Uuid) : FollowsRule (Monolith.toTextN guid) := by
  unfold Monolith.toTextN
  refine ⟨by simp, by simp, fun c hc => ?_⟩
  obtain ⟨digit, hdigit, rfl⟩ := List.mem_map.mp hc
  have hallowed := isAllowed_of_isHex (isHex_of_mem_hexDigits hdigit)
  have hsmall := lt_of_isAllowed hallowed
  rwa [show (Fin.ofNat 0x10000 digit.val : CodeUnit).val = digit.val from
    Nat.mod_eq_of_lt (Nat.lt_trans hsmall (by decide))]

/-! ## The identifier in force -/

section Journey

variable (encoding : Monolith.HeaderEncoding) (request : Request) (first second third : Uuid)

/-- The three keep what is supplied, or each has minted its own. -/
def SameOrFresh : Prop :=
  (∃ value, suppliedHeader request = some value ∧ FollowsRule value ∧
      RagCore.resolve request first = latin1 value ∧
      Integrations.resolve request second = latin1 value ∧
      Monolith.resolve encoding request third = value.map fun b => Fin.ofNat 0x10000 b.val) ∨
    RagCore.resolve request first = first.toText ∧
      Integrations.resolve request second = second.toText ∧
      Monolith.resolve encoding request third = Monolith.toTextN third

variable {encoding request first second third}

/-- What follows the rule all three keep. -/
theorem resolve_of_followsRule {value : List Text.Byte}
    (hvalue : suppliedHeader request = some value) (hrule : FollowsRule value) :
    RagCore.resolve request first = latin1 value ∧
      Integrations.resolve request second = latin1 value ∧
      Monolith.resolve encoding request third = value.map fun b => Fin.ofNat 0x10000 b.val := by
  have hformed := RagCore.wellFormed_iff.mpr (followsRule_latin1.mpr hrule)
  have hformed' := Integrations.wellFormed_iff.mpr (followsRule_latin1.mpr hrule)
  have hdecoded : encoding.decode value = value.map fun b => Fin.ofNat 0x10000 b.val :=
    encoding.ascii value fun b hb => lt_of_isAllowed (hrule.allowed b hb)
  refine ⟨?_, ?_, ?_⟩
  · rw [RagCore.resolve, hvalue]
    simp only [RagCore.accepted, hformed, if_true, Option.getD_some]
  · simp only [Integrations.resolve, hvalue, Option.map_some, Option.getD_some, hformed', if_true]
  · rw [Monolith.resolve, hvalue, Option.map_some,
      Monolith.tryAccept_of_followsRule (followsRule_decode.mpr hrule), Option.getD_some, hdecoded]

/-- Where nothing that follows it is supplied, all three mint. -/
theorem resolve_of_not_followsRule
    (h : ∀ value, suppliedHeader request = some value → ¬ FollowsRule value) :
    RagCore.resolve request first = first.toText ∧
      Integrations.resolve request second = second.toText ∧
      Monolith.resolve encoding request third = Monolith.toTextN third := by
  cases hvalue : suppliedHeader request with
  | none => simp [RagCore.resolve, Integrations.resolve, Monolith.resolve, hvalue,
      Integrations.wellFormed, Monolith.tryAccept]
  | some value =>
      have hnot := h value hvalue
      have hformed : RagCore.wellFormed (latin1 value) ≠ true := fun hformed =>
        hnot (followsRule_latin1.mp (RagCore.wellFormed_iff.mp hformed))
      have hformed' : Integrations.wellFormed (latin1 value) ≠ true := hformed
      refine ⟨?_, ?_, ?_⟩
      · simp [RagCore.resolve, RagCore.accepted, hvalue, hformed]
      · simp [Integrations.resolve, hvalue, hformed']
      · rw [Monolith.resolve, hvalue, Option.map_some,
          Monolith.tryAccept_eq_none fun hrule => hnot (followsRule_decode.mp hrule),
          Option.getD_none]

theorem sameOrFresh : SameOrFresh encoding request first second third := by
  by_cases h : ∃ value, suppliedHeader request = some value ∧ FollowsRule value
  · obtain ⟨value, hvalue, hrule⟩ := h
    exact .inl ⟨value, hvalue, hrule, resolve_of_followsRule hvalue hrule⟩
  · exact .inr (resolve_of_not_followsRule fun value hvalue hrule => h ⟨value, hvalue, hrule⟩)

/-- What is in force follows the rule. -/
theorem followsRule_resolve :
    FollowsRule (RagCore.resolve request first) ∧
      FollowsRule (Integrations.resolve request second) ∧
      FollowsRule (Monolith.resolve encoding request third) := by
  have hsame : SameOrFresh encoding request first second third := sameOrFresh
  rcases hsame with ⟨value, _, hrule, hone, htwo, hthree⟩ | ⟨hone, htwo, hthree⟩
  · rw [hone, htwo, hthree]
    exact ⟨followsRule_latin1.mpr hrule, followsRule_latin1.mpr hrule,
      (followsRule_map val_codeUnit).mpr hrule⟩
  · rw [hone, htwo, hthree]
    exact ⟨followsRule_toText first, followsRule_toText second, followsRule_toTextN third⟩

end Journey

/-! ## The response -/

/-- The identifier is on the response once, and in its body where that is a problem. -/
structure Traced {τ : Type} (identifier : τ) (response : Response τ) : Prop where
  header : (response.headers.filter fun header => isCorrelationHeader header.1).map Prod.snd =
    [identifier]
  body : ∀ problem, response.body = .inl problem → problem.correlationId = identifier

theorem isCorrelationHeader_own : isCorrelationHeader (headerName "x-correlation-id") = true := by
  decide

theorem isCorrelationHeader_contentType :
    isCorrelationHeader (headerName "content-type") = false := by
  decide

/-- A header that is set is there once. -/
theorem filter_setHeader {τ : Type} (value : τ) (headers : List (List Text.Byte × τ)) :
    (setHeader value headers).filter (fun header => isCorrelationHeader header.1) =
      [(headerName "x-correlation-id", value)] := by
  induction headers with
  | nil => simp [setHeader, isCorrelationHeader_own]
  | cons header headers ih =>
      rw [setHeader]
      split
      next => simp [isCorrelationHeader_own]
      next hother =>
        rw [Bool.not_eq_true] at hother
        simp [hother, ih]

section Responses

variable {request : Request}

/-- RagCore's response has it, whatever comes of the rest. -/
theorem RagCore.traced {minted : Uuid} {rest : Rest (List CodePoint)} :
    Traced (resolve request minted) (respond request minted rest) := by
  cases rest with
  | answers status headers content =>
      refine ⟨?_, fun problem h => by cases h⟩
      simp [respond, serverErrorMiddleware, correlationIdMiddleware, inner, Rest.run,
        isCorrelationHeader_own]
  | refuses headers problem =>
      refine ⟨?_, fun problem h => by cases h; rfl⟩
      simp [respond, serverErrorMiddleware, correlationIdMiddleware, inner, Rest.run,
        isCorrelationHeader_own]
  | raises =>
      refine ⟨?_, fun problem h => by cases h; rfl⟩
      simp [respond, serverErrorMiddleware, correlationIdMiddleware, inner, Rest.run, unhandled,
        response, Problems.correlationId, isCorrelationHeader_own, isCorrelationHeader_contentType]

/-- The Integrations service's has it unless an exception escapes. -/
theorem Integrations.traced_iff {minted : Uuid} {rest : Rest (List CodePoint)} :
    Traced (resolve request minted) (respond request minted rest) ↔ rest ≠ .raises := by
  cases rest with
  | answers status headers content =>
      refine iff_of_true ⟨?_, fun problem h => by cases h⟩ (fun h => by cases h)
      simp only [respond, problemMiddleware, correlationMiddleware, inner, Rest.run,
        Option.map_some]
      rw [filter_setHeader]
      rfl
  | refuses headers problem =>
      refine iff_of_true ⟨?_, fun problem h => by cases h; rfl⟩ (fun h => by cases h)
      simp only [respond, problemMiddleware, correlationMiddleware, inner, Rest.run,
        Option.map_some]
      rw [filter_setHeader]
      rfl
  | raises =>
      refine iff_of_false (fun h => ?_) (fun h => h rfl)
      have hheader := h.header
      simp [respond, problemMiddleware, correlationMiddleware, inner, Rest.run, problem,
        isCorrelationHeader_contentType] at hheader

theorem Monolith.filter_leaves (inside : Inside) :
    inside.rest.headers.filter (fun header => isCorrelationHeader header.1) = [] := by
  rw [List.filter_eq_nil_iff]
  intro header hheader
  rw [inside.leaves header hheader]
  exact Bool.false_ne_true

/-- The helper reads what is in force from the response. -/
theorem Monolith.correlationOf_set {identifier : List CodeUnit} (again : Uuid)
    (h : FollowsRule identifier) :
    correlationOf (setHeader identifier []) again = identifier := by
  have hnonempty : identifier ≠ [] := List.ne_nil_of_length_pos h.nonempty
  simp [correlationOf, setHeader, isCorrelationHeader_own, hnonempty]

/-- The monolith's has it unless an exception escapes. -/
theorem Monolith.traced_iff {encoding : HeaderEncoding} {path : List CodeUnit}
    {minted again : Uuid} {inside : Inside} :
    Traced (resolve encoding request minted)
        (respond encoding request path minted again inside) ↔ inside.rest ≠ .raises := by
  have hrules : FollowsRule (RagCore.resolve request minted) ∧
      FollowsRule (Integrations.resolve request minted) ∧
      FollowsRule (resolve encoding request minted) := followsRule_resolve
  have hrule := hrules.2.2
  have hread := correlationOf_set again hrule
  have hleaves := filter_leaves inside
  unfold respond exceptionHandler correlationMiddleware inner
  rw [hread]
  cases hrest : inside.rest with
  | answers status headers content =>
      rw [hrest] at hleaves
      refine iff_of_true ⟨?_, fun problem h => by cases h⟩ (fun h => by cases h)
      simp only [Rest.run, List.filter_append, filter_setHeader]
      rw [show headers.filter (fun header => isCorrelationHeader header.1) = [] from hleaves]
      rfl
  | refuses headers problem =>
      rw [hrest] at hleaves
      refine iff_of_true ⟨?_, fun problem h => by cases h; rfl⟩ (fun h => by cases h)
      simp only [Rest.run, List.filter_append, filter_setHeader]
      rw [show headers.filter (fun header => isCorrelationHeader header.1) = [] from hleaves]
      rfl
  | raises =>
      refine iff_of_false (fun h => ?_) (fun h => h rfl)
      have hheader := h.header
      simp [Rest.run, isCorrelationHeader_contentType] at hheader

end Responses

/-- A request and what the three make of it. -/
structure OneIdentifier (encoding : Monolith.HeaderEncoding) (request : Request)
    (path : List CodeUnit) (first second third again : Uuid)
    (ragcore integrations : Rest (List CodePoint)) (monolith : Monolith.Inside) : Prop where
  same : SameOrFresh encoding request first second third
  rules : FollowsRule (RagCore.resolve request first) ∧
    FollowsRule (Integrations.resolve request second) ∧
    FollowsRule (Monolith.resolve encoding request third)
  ragcore : Traced (RagCore.resolve request first) (RagCore.respond request first ragcore)
  integrations : Traced (Integrations.resolve request second)
    (Integrations.respond request second integrations)
  monolith : Traced (Monolith.resolve encoding request third)
    (Monolith.respond encoding request path third again monolith)

/-- **One identifier for a journey, on every response** exactly if no exception escapes what
runs inside the Integrations service's middleware or the monolith's. -/
theorem oneIdentifier_iff (encoding : Monolith.HeaderEncoding) (request : Request)
    (path : List CodeUnit) (first second third again : Uuid)
    (ragcore integrations : Rest (List CodePoint)) (monolith : Monolith.Inside) :
    OneIdentifier encoding request path first second third again ragcore integrations monolith ↔
      integrations ≠ .raises ∧ monolith.rest ≠ .raises := by
  constructor
  · intro h
    exact ⟨Integrations.traced_iff.mp h.integrations, Monolith.traced_iff.mp h.monolith⟩
  · intro h
    exact ⟨sameOrFresh, followsRule_resolve, RagCore.traced, Integrations.traced_iff.mpr h.1,
      Monolith.traced_iff.mpr h.2⟩

/-! ## An exception that escapes -/

/-- A server that puts U+FFFD for what is no ASCII. -/
def replacing : Monolith.HeaderEncoding where
  decode value := value.map fun b => if b.val < 0x80 then Fin.ofNat 0x10000 b.val else 0xFFFD
  ascii value h := List.map_congr_left fun b hb => if_pos (h b hb)
  beyond value b hb hbeyond :=
    ⟨0xFFFD, List.mem_map.mpr ⟨b, hb, if_neg (Nat.not_lt.mpr hbeyond)⟩, by decide⟩

theorem not_oneIdentifier_raised : ¬ ∀ encoding request path first second third again ragcore
    integrations monolith, OneIdentifier encoding request path first second third again ragcore
      integrations monolith := by
  intro h
  have hone := h replacing ⟨ofString "/api/workload/v1/capabilities",
    [(headerName "x-correlation-id", headerName "req_abc.123")]⟩ [] 1 2 3 4 .raises .raises
    ⟨.raises, fun _ hheader => absurd hheader List.not_mem_nil⟩
  exact Integrations.traced_iff.mp hone.integrations rfl

end Synthia.Correlation
