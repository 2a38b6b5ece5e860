import Synthia.Api.IdentityScreens
import Synthia.Proofs.PublishedFilters
import Synthia.ReadModels.CustomerViews

/-!
# What is refused as self-asserted authority

Three services screen the names of a query string, and an application behind each of them
reads the names decoded. A name that asserts authority is to be refused by all three.

RagCore screens the names as they arrive. A forbidden name is made of letters, hyphens and
underscores, so one that is read as it stands is found, and one with a letter behind a
percent sign is not. The Integrations service decodes first and finds either, except on the
probes' paths. The monolith decodes first too, but folds only the case, and has a list
without half of the others' names on it; and it looks only where a path has an audience.
-/

namespace Synthia

open Text Urlencoded Relational

namespace SelfAssertion

/-- A name that asserts authority: folded, and with or without one leading x, it is a
forbidden field. -/
def Forbidden (name : List CodePoint) : Prop :=
  IdentityHeaderMiddleware.isForbidden name = true

instance (name : List CodePoint) : Decidable (Forbidden name) :=
  inferInstanceAs (Decidable (_ = true))

/-- The names of the query string as an application reads them. -/
def names (request : RawRequest) : List (List CodePoint) :=
  (parseQsl (latin1 request.queryString)).map Prod.fst

/-- The same request as the monolith is given it. -/
def toHttpRequest (request : RawRequest) (headers : IdentityHeaders)
    (correlationId minted : List CodePoint) : HttpRequest where
  path := request.path
  query := parseQsl (latin1 request.queryString)
  headers := headers
  correlationId := correlationId
  mintedCorrelationId := minted

/-- The identity stage answers with a 400. -/
def MonolithRefuses (database : ReadDatabase) (request : HttpRequest) : Prop :=
  ∃ document, IdentityContextMiddleware.invokeAsync database request =
      pure (.error (.problem document)) ∧ document.status = 400

/-- `tenantId` on the staff audience narrows what is read. -/
def Narrows (path name : List CodePoint) : Prop :=
  AudienceRouting.tryResolve path = some .staff ∧ lower name = ofString "tenantid"

/-- All three refuse the request for the names they are to refuse it for. -/
structure RefusedAlike (request : RawRequest) (database : ReadDatabase)
    (asGiven : HttpRequest) : Prop where
  ragcore : (∃ name ∈ names request, Forbidden name) →
    ∃ refusal, IdentityHeaderMiddleware.call request = some refusal ∧ refusal.status = 400
  integrations : (∃ name ∈ names request, Forbidden name) →
    ∃ refusal, IdentityMiddleware.screen request = some refusal ∧ refusal.status = 400
  monolith : (∃ name ∈ names request, Forbidden name ∧ ¬ Narrows request.path name) →
    MonolithRefuses database asGiven

/-- A forbidden name is spelt without escapes, or a header asserts authority as well. -/
def SpeltOut (request : RawRequest) : Prop :=
  (IdentityHeaderMiddleware.selfAssertedHeader request.headerNames).isSome = true ∨
    ∃ pair ∈ pairs (latin1 request.queryString), Forbidden (decoded pair.1) ∧ 0x25 ∉ pair.1

/-- The path has an audience, and a name is on the monolith's own list. -/
def Listed (request : RawRequest) : Prop :=
  ∃ audience, AudienceRouting.tryResolve request.path = some audience ∧
    ∃ name ∈ names request, ForbiddenParameters.isForbidden audience name = true

/-- Where a name asserts authority, one is spelt out and the path is no probe's; and where
one does that is no narrowing, one is on the monolith's list. -/
structure Recognised (request : RawRequest) : Prop where
  spelt : (∃ name ∈ names request, Forbidden name) → SpeltOut request
  probed : (∃ name ∈ names request, Forbidden name) →
    ∀ path ∈ IdentityMiddleware.exemptPaths, request.path ≠ ofString path
  listed : (∃ name ∈ names request, Forbidden name ∧ ¬ Narrows request.path name) →
    Listed request

/-! ## One list for two services -/

/-- A word with no separators in it is found on the longer list exactly if it is on the
shorter one, whose entries are those of the longer without separators. -/
theorem any_fields {word : List CodePoint} (hhyphen : 0x2D ∉ word) (hunderscore : 0x5F ∉ word) :
    (IdentityHeaderMiddleware.forbiddenClientFields.any fun field => ofString field == word) =
      IdentityMiddleware.forbiddenClientFields.any fun field => ofString field == word := by
  have hplain : IdentityMiddleware.forbiddenClientFields =
      IdentityHeaderMiddleware.forbiddenClientFields.filter fun field =>
        !(ofString field).contains 0x2D && !(ofString field).contains 0x5F := by
    decide +kernel
  rw [hplain, List.any_filter]
  congr 1
  funext field
  by_cases hfield : ofString field = word
  · simp [hfield, hhyphen, hunderscore]
  · simp [hfield]

theorem notMem_folded (name : List CodePoint) : 0x2D ∉ folded name ∧ 0x5F ∉ folded name := by
  simp [folded]

theorem mem_of_mem_withoutX {c : CodePoint} {text : List CodePoint} (h : c ∈ withoutX text) :
    c ∈ text := by
  unfold withoutX at h
  split at h
  · exact List.mem_cons_of_mem _ h
  · exact h

theorem isForbidden_eq (name : List CodePoint) :
    IdentityMiddleware.isForbidden name = IdentityHeaderMiddleware.isForbidden name := by
  obtain ⟨hhyphen, hunderscore⟩ := notMem_folded name
  rw [IdentityMiddleware.isForbidden, IdentityHeaderMiddleware.isForbidden, isForbiddenBy,
    isForbiddenBy, any_fields hhyphen hunderscore,
    any_fields (fun h => hhyphen (mem_of_mem_withoutX h))
      (fun h => hunderscore (mem_of_mem_withoutX h))]

/-! ## Spelling -/

/-- Neither a percent sign nor a plus nor a space is in a forbidden name. -/
theorem notMem_of_forbidden {name : List CodePoint} (h : Forbidden name) {c : CodePoint}
    (hc : c ∈ ([0x25, 0x2B, 0x20] : List CodePoint)) : c ∉ name := by
  intro hmem
  have hfields : ∀ field ∈ IdentityHeaderMiddleware.forbiddenClientFields, c ∉ ofString field := by
    have hall : (IdentityHeaderMiddleware.forbiddenClientFields.all fun field =>
        ([0x25, 0x2B, 0x20] : List CodePoint).all fun c =>
          !(ofString field).contains c) = true := by
      decide +kernel
    intro field hfield
    simpa using List.all_eq_true.mp (List.all_eq_true.mp hall field hfield) c hc
  have hself : lower [c] = [c] ∧ c ≠ 0x2D ∧ c ≠ 0x5F ∧ c ≠ 0x78 := by
    simp only [List.mem_cons, List.not_mem_nil, or_false] at hc
    rcases hc with rfl | rfl | rfl <;> decide
  obtain ⟨hlower, hhyphen, hunderscore, hx⟩ := hself
  have hfolded : c ∈ folded name := by
    refine List.mem_filter.mpr ⟨List.mem_map.mpr ⟨c, hmem, ?_⟩, by simp [hhyphen, hunderscore]⟩
    exact List.cons.inj hlower |>.1
  have hwithout : c ∈ withoutX (folded name) := by
    unfold withoutX
    split
    · next rest heq =>
        rw [heq] at hfolded
        exact (List.mem_cons.mp hfolded).resolve_left hx
    · exact hfolded
  rw [Forbidden, IdentityHeaderMiddleware.isForbidden, isForbiddenBy, Bool.or_eq_true,
    List.any_eq_true, List.any_eq_true] at h
  rcases h with ⟨field, hfield, heq⟩ | ⟨field, hfield, heq⟩
  · exact hfields field hfield (beq_iff_eq.mp heq ▸ hfolded)
  · exact hfields field hfield (beq_iff_eq.mp heq ▸ hwithout)

/-- A name is forbidden as it arrives exactly if it is once decoded and has no escapes. -/
theorem forbidden_raw_iff (raw : List CodePoint) :
    Forbidden raw ↔ Forbidden (decoded raw) ∧ 0x25 ∉ raw := by
  have hdecoded : 0x25 ∉ raw → decoded raw = plusToSpace raw := fun hpercent =>
    unquote_of_notMem (notMem_plusToSpace hpercent)
  constructor
  · intro h
    have hpercent := notMem_of_forbidden h (List.mem_cons_self)
    have hplus := notMem_of_forbidden h (List.mem_cons_of_mem _ List.mem_cons_self)
    rw [hdecoded hpercent, plusToSpace_of_notMem hplus]
    exact ⟨h, hpercent⟩
  · intro ⟨h, hpercent⟩
    rw [hdecoded hpercent] at h
    have hplus : 0x2B ∉ raw := fun hmem => by
      refine notMem_of_forbidden h (by decide : (0x20 : CodePoint) ∈ _) ?_
      exact List.mem_map.mpr ⟨0x2B, hmem, if_pos rfl⟩
    rwa [plusToSpace_of_notMem hplus] at h

/-! ## Each service -/

variable {request : RawRequest}

theorem call_refuses_iff :
    (∃ refusal, IdentityHeaderMiddleware.call request = some refusal ∧ refusal.status = 400) ↔
      SpeltOut request := by
  have hsome : (∃ refusal, IdentityHeaderMiddleware.call request = some refusal ∧
      refusal.status = 400) ↔ (IdentityHeaderMiddleware.selfAssertedField request).isSome := by
    rw [IdentityHeaderMiddleware.call]
    cases IdentityHeaderMiddleware.selfAssertedField request <;> simp
  rw [hsome, IdentityHeaderMiddleware.selfAssertedField, SpeltOut]
  cases hheader : IdentityHeaderMiddleware.selfAssertedHeader request.headerNames with
  | some name => simp
  | none =>
      simp only [List.find?_isSome, List.mem_map, exists_exists_and_eq_and,
        Option.isSome_none, Bool.false_eq_true, false_or]
      exact exists_congr fun pair => and_congr_right fun _ => forbidden_raw_iff pair.1

theorem screen_refuses_iff :
    (∃ refusal, IdentityMiddleware.screen request = some refusal ∧ refusal.status = 400) ↔
      (∀ path ∈ IdentityMiddleware.exemptPaths, request.path ≠ ofString path) ∧
        ∃ name ∈ names request, Forbidden name := by
  rw [IdentityMiddleware.screen]
  by_cases hexempt : IdentityMiddleware.exemptPaths.any fun path => ofString path == request.path
  · rw [if_pos hexempt]
    obtain ⟨path, hpath, heq⟩ := List.any_eq_true.mp hexempt
    refine iff_of_false (by simp) fun h => h.1 path hpath (beq_iff_eq.mp heq).symm
  · rw [if_neg hexempt]
    have hopen : ∀ path ∈ IdentityMiddleware.exemptPaths, request.path ≠ ofString path := by
      intro path hpath heq
      exact hexempt (List.any_eq_true.mpr ⟨path, hpath, beq_iff_eq.mpr heq.symm⟩)
    have hfound : (∃ name ∈ names request, Forbidden name) ↔
        (((parseQsl (latin1 request.queryString)).map Prod.fst).find?
          IdentityMiddleware.isForbidden).isSome := by
      rw [List.find?_isSome]
      simp only [isForbidden_eq]
      rfl
    rw [hfound]
    cases ((parseQsl (latin1 request.queryString)).map Prod.fst).find?
        IdentityMiddleware.isForbidden with
    | none => simp
    | some name => simpa using hopen

/-- Folding the case of ASCII first changes nothing for `lower`. -/
theorem lower_map_asciiLower (text : List CodePoint) :
    lower (text.map asciiLower) = lower text := by
  rw [lower, lower, List.map_map]
  refine List.map_congr_left fun c _ => ?_
  simp only [Function.comp_apply, asciiLower]
  split
  · next hupper =>
      simp only [Bool.and_eq_true, decide_eq_true_eq] at hupper
      have hval : (Fin.ofNat 0x110000 (c.val + 0x20) : CodePoint).val = c.val + 0x20 :=
        Nat.mod_eq_of_lt (by omega)
      simp only [hval]
      rw [if_neg (by simp; omega), if_neg (by simp; omega)]
  · rfl

theorem lower_congr {left right : List CodePoint} (h : equalsIgnoreCase left right = true) :
    lower left = lower right := by
  rw [← lower_map_asciiLower left, equalsIgnoreCase_iff.mp h, lower_map_asciiLower]

theorem mem_of_mem_keys {query : QueryString} {key : List CodePoint}
    (h : key ∈ QueryString.keys query) : ∃ pair ∈ query, pair.1 = key := by
  induction query with
  | nil => cases h
  | cons head query ih =>
      obtain ⟨name, value⟩ := head
      rw [QueryString.keys] at h
      rcases List.mem_cons.mp h with rfl | h
      · exact ⟨_, List.mem_cons_self, rfl⟩
      · obtain ⟨pair, hpair, hname⟩ := ih (List.mem_filter.mp h).1
        exact ⟨pair, List.mem_cons_of_mem _ hpair, hname⟩

/-- Which name of a query is found depends on its keys, whether one is on its names. -/
theorem tryFind_isSome_iff {query : QueryString} {audience : Audience} :
    (ForbiddenParameters.tryFind query audience).isSome = true ↔
      ∃ pair ∈ query, ForbiddenParameters.isForbidden audience pair.1 = true := by
  rw [ForbiddenParameters.tryFind, List.find?_isSome]
  constructor
  · intro ⟨key, hkey, hforbidden⟩
    obtain ⟨pair, hpair, rfl⟩ := mem_of_mem_keys hkey
    exact ⟨pair, hpair, hforbidden⟩
  · intro ⟨pair, hpair, hforbidden⟩
    obtain ⟨key, hkey, hname⟩ := QueryString.exists_key hpair
    refine ⟨key, hkey, ?_⟩
    rwa [ForbiddenParameters.isForbidden, ← lower_congr hname]

/-- The identity stage answers with a 400 exactly where it finds a parameter. -/
theorem monolithRefuses_iff {database : ReadDatabase} {asGiven : HttpRequest} :
    MonolithRefuses database asGiven ↔
      ∃ audience, AudienceRouting.tryResolve asGiven.path = some audience ∧
        (ForbiddenParameters.tryFind asGiven.query audience).isSome = true := by
  rw [MonolithRefuses, IdentityContextMiddleware.invokeAsync]
  cases haudience : AudienceRouting.tryResolve asGiven.path with
  | none =>
      refine iff_of_false ?_ (by simp)
      intro ⟨document, hstage, _⟩
      have hvalue := congrArg (fun reading => (reading.run []).1) hstage
      cases hvalue
  | some audience =>
      simp only [Option.some.injEq, exists_eq_left']
      cases hfound : ForbiddenParameters.tryFind asGiven.query audience with
      | some offending => exact iff_of_true ⟨_, rfl, rfl⟩ rfl
      | none =>
          refine iff_of_false ?_ (by simp)
          intro ⟨document, hstage, hstatus⟩
          have hvalue := congrArg (fun reading => (reading.run []).1) hstage
          cases hprincipal : PrincipalFactory.tryCreate asGiven.headers audience with
          | error rejection =>
              simp only [hprincipal] at hvalue
              cases hvalue
              cases hstatus
          | ok principal =>
              simp only [hprincipal] at hvalue
              rw [StateT.run_bind] at hvalue
              rcases hscope : (tryBindScopeAsync database principal).run [] with ⟨scope, log⟩
              rw [hscope] at hvalue
              cases scope with
              | none =>
                  cases hvalue
                  cases hstatus
              | some tenant => cases hvalue

/-- All three refuse alike exactly the requests whose forbidden names they recognise. -/
theorem refusedAlike_iff (request : RawRequest) (database : ReadDatabase)
    (headers : IdentityHeaders) (correlationId minted : List CodePoint) :
    RefusedAlike request database (toHttpRequest request headers correlationId minted) ↔
      Recognised request := by
  have hmonolith : MonolithRefuses database
      (toHttpRequest request headers correlationId minted) ↔ Listed request := by
    rw [monolithRefuses_iff, Listed]
    simp only [tryFind_isSome_iff, names, List.mem_map, exists_exists_and_eq_and, toHttpRequest]
  constructor
  · intro h
    refine ⟨fun hname => call_refuses_iff.mp (h.ragcore hname),
      fun hname => (screen_refuses_iff.mp (h.integrations hname)).1,
      fun hname => hmonolith.mp (h.monolith hname)⟩
  · intro h
    refine ⟨fun hname => call_refuses_iff.mpr (h.spelt hname),
      fun hname => screen_refuses_iff.mpr ⟨h.probed hname, hname⟩,
      fun hname => hmonolith.mpr (h.listed hname)⟩

/-- A percent sign and two digits in the place of a letter: RagCore lets the name through. -/
theorem escaped_name_passes :
    ¬ ∀ request : RawRequest, (∃ name ∈ names request, Forbidden name) →
      ∃ refusal, IdentityHeaderMiddleware.call request = some refusal ∧ refusal.status = 400 := by
  intro h
  have hrefused := h ⟨ofString "/api/customer/v1/sessions", [],
    (ofString "%74enant=contoso").map fun c => Fin.ofNat 0x100 c.val⟩
    ⟨ofString "tenant", by decide +kernel, by decide +kernel⟩
  obtain ⟨refusal, hcall, _⟩ := hrefused
  have hnone : IdentityHeaderMiddleware.call ⟨ofString "/api/customer/v1/sessions", [],
      (ofString "%74enant=contoso").map fun c => Fin.ofNat 0x100 c.val⟩ = none := by
    decide +kernel
  rw [hnone] at hcall
  cases hcall

end SelfAssertion

end Synthia
