import Synthia.Api.Problems

/-!
# What a failure is reported as

The handler of the domain's errors knows five classes and answers every other with the 403 of
a refusal and with its text. Among those others are the errors of a dependency, and every
class that derives from one of the five. So an exception is answered for what it is exactly
if its own class is one of the five, or if it is handled as something else and is none of the
classes that are documented.
-/

namespace Synthia.Problems

open Text

/-! ## What an exception is -/

/-- The refusals: of an organisation, of a principal and of an operation. -/
def refusals : List ClassName :=
  [.tenantNotAdmittedError, .authorizationError, .treatmentNotInCatalogueError]

/-- A dependency that failed, timed out or answered off contract. -/
def dependencies : List ClassName :=
  [.integrationError, .boundaryValidationError, .modelEgressError, .secretResolutionError]

/-- A refusal is of such a class, or the framework's own exception with that status: with one
`get_tenant` says that an organisation is not admitted. -/
def Raised.IsRefusal (raised : Raised) : Prop :=
  (∃ name ∈ refusals, name ∈ raised.type.mro) ∨
    lookup raised.type = .http ∧ raised.statusCode = 403

def Raised.IsDependency (raised : Raised) : Prop := ∃ name ∈ dependencies, name ∈ raised.type.mro

/-- The response is that of an entry of the mapping. -/
def AnsweredAs (mapped : Nat × String × String) (response : Response (List CodePoint)) : Prop :=
  response.status = mapped.1 ∧ ∃ problem, response.body = .inl problem ∧
    problem.title = mapped.2.1 ∧ problem.type = problemBase ++ "/" ++ mapped.2.2

/-- The response says of the exception what it is. -/
structure Honest (request : Request) (raised : Raised) : Prop where
  refusal : (answer request raised).status = 403 → raised.IsRefusal
  documented : ∀ mapped, raised.type.mro.findSome? domainStatus = some mapped →
    AnsweredAs mapped (answer request raised)
  dependency : raised.IsDependency →
    (500 ≤ (answer request raised).status ∨ (answer request raised).status = 429) ∧
      ∀ text detail, (answer request { raised with text := text, detail := detail }).body =
        (answer request raised).body

/-- The class is handled as what it is. -/
def ExceptionClass.wellMapped (type : ExceptionClass) : Bool :=
  match lookup type with
  | .domain => (type.mro.head?.bind domainStatus).isSome
  | _ => type.mro.all fun name => (domainStatus name).isNone && !dependencies.contains name

/-! ## The mapping -/

/-- What the mapping has, no other handler answers with. -/
theorem title_of_domainStatus {name : ClassName} {mapped : Nat × String × String}
    (h : domainStatus name = some mapped) :
    mapped.2.1 ∉ ["Refused", "Invalid request", "Request failed", "Internal error"] := by
  cases name <;> cases h <;> decide

theorem not_answeredAs {request : Request} {status : Nat} {title slug : String}
    {detail : List CodePoint} {name : ClassName} {mapped : Nat × String × String}
    (hmapped : domainStatus name = some mapped)
    (htitle : title ∈ ["Refused", "Invalid request", "Request failed", "Internal error"]) :
    ¬ AnsweredAs mapped (response request status title detail slug) := by
  rintro ⟨_, problem, hbody, hsame, _⟩
  cases hbody
  exact title_of_domainStatus hmapped (hsame ▸ htitle)

/-- A class of the mapping is among those that are looked through. -/
theorem exists_mapped {type : ExceptionClass} {name : ClassName} (hname : name ∈ type.mro)
    (hsome : (domainStatus name).isSome = true) :
    ∃ first mapped, type.mro.findSome? domainStatus = some mapped ∧
      domainStatus first = some mapped := by
  cases hfind : type.mro.findSome? domainStatus with
  | none =>
      rw [List.findSome?_eq_none_iff.mp hfind name hname] at hsome
      cases hsome
  | some mapped =>
      obtain ⟨first, _, hfirst⟩ := List.exists_of_findSome?_eq_some hfind
      exact ⟨first, mapped, rfl, hfirst⟩

/-- A class of the mapping that is an exception's own has a known line of bases. -/
theorem mro_of_mapped {type : ExceptionClass} {name : ClassName}
    (hhead : type.mro.head? = some name) (hsome : (domainStatus name).isSome = true) :
    type.mro = [name, .domainError, .exception] := by
  have hdeclared : linearization name = [name, .domainError, .exception] := by
    cases name <;> first | rfl | cases hsome
  rw [type.declared name hhead (hdeclared ▸ List.cons_ne_nil _ _), hdeclared]

/-- What derives from a documented class of the domain is a domain error. -/
theorem domainError_mem {type : ExceptionClass} {name : ClassName} (hname : name ∈ type.mro)
    (hdependency : name ∈ dependencies) : .domainError ∈ type.mro := by
  refine (type.monotone name hname).subset ?_
  have hlinear : ∀ name ∈ dependencies, ClassName.domainError ∈ linearization name := by decide
  exact hlinear name hdependency

/-- Without a handler of its own an exception is of no class that has one. -/
theorem lookup_eq_unhandled {type : ExceptionClass} :
    lookup type = .unhandled ↔ ∀ name ∈ type.mro, handlerOf name = none := by
  unfold lookup
  rw [← List.findSome?_eq_none_iff]
  cases hfind : type.mro.findSome? handlerOf with
  | none => simp
  | some handler =>
      obtain ⟨name, _, hname⟩ := List.exists_of_findSome?_eq_some hfind
      cases name <;> cases hname <;> simp

/-! ## The answer -/

section Answer

variable {request : Request} {raised : Raised}

theorem answer_of_domain (h : lookup raised.type = .domain) :
    answer request raised = domain request raised := by
  rw [answer, h]

theorem answer_of_validation (h : lookup raised.type = .validation) :
    answer request raised = validation request := by
  rw [answer, h]

theorem answer_of_http (h : lookup raised.type = .http) :
    answer request raised = http request raised := by
  rw [answer, h]

theorem answer_of_unhandled (h : lookup raised.type = .unhandled) :
    answer request raised = unhandled request := by
  rw [answer, h]

/-- What is no class of the mapping is refused with what it says. -/
theorem domain_of_unmapped (h : raised.type.mro.head?.bind domainStatus = none) :
    domain request raised = response request 403 "Refused" raised.text "refused" := by
  rw [domain, h]
  rfl

theorem not_honest_of_unmapped (hlookup : lookup raised.type = .domain)
    (hhead : raised.type.mro.head?.bind domainStatus = none) : ¬ Honest request raised := by
  intro h
  have hanswer : answer request raised = response request 403 "Refused" raised.text "refused" :=
    (answer_of_domain hlookup).trans (domain_of_unmapped hhead)
  rcases h.refusal (by rw [hanswer]; rfl) with ⟨name, hrefusal, hname⟩ | ⟨hhttp, _⟩
  · have hsome : ∀ name ∈ refusals, (domainStatus name).isSome = true := by decide
    obtain ⟨first, mapped, hfind, hmapped⟩ := exists_mapped hname (hsome name hrefusal)
    have hanswered := h.documented mapped hfind
    rw [hanswer] at hanswered
    exact not_answeredAs hmapped (by decide) hanswered
  · rw [hlookup] at hhttp
    cases hhttp

theorem honest_of_mapped {name : ClassName} {mapped : Nat × String × String}
    (hlookup : lookup raised.type = .domain) (hhead : raised.type.mro.head? = some name)
    (hmapped : domainStatus name = some mapped) : Honest request raised := by
  have hmro := mro_of_mapped hhead (by rw [hmapped]; rfl)
  have hanswer : answer request raised =
      response request mapped.1 mapped.2.1 raised.text mapped.2.2 := by
    rw [answer_of_domain hlookup, domain, hhead, Option.bind_some, hmapped]
    rfl
  refine ⟨fun hstatus => .inl ⟨name, ?_, ?_⟩, fun found hfound => ?_, fun hdependency => ?_⟩
  · rw [hanswer] at hstatus
    cases name <;> cases hmapped <;> first | decide | cases hstatus
  · rw [hmro]
    exact List.mem_cons_self
  · rw [hmro, List.findSome?_cons, hmapped] at hfound
    cases hfound
    rw [hanswer]
    exact ⟨rfl, _, rfl, rfl, rfl⟩
  · obtain ⟨dependency, hmem, hname⟩ := hdependency
    rw [hmro] at hname
    simp only [List.mem_cons, List.not_mem_nil, or_false] at hname
    rcases hname with rfl | rfl | rfl
    · have hnone : ∀ name ∈ dependencies, domainStatus name = none := by decide
      rw [hnone _ hmem] at hmapped
      cases hmapped
    · exact absurd hmem (by decide)
    · exact absurd hmem (by decide)

/-- Nothing documented is left to be said of an exception of no documented class. -/
theorem honest_of_undocumented (hlookup : lookup raised.type ≠ .domain)
    (hnone : ∀ name ∈ raised.type.mro, domainStatus name = none ∧ name ∉ dependencies) :
    Honest request raised := by
  refine ⟨fun hstatus => .inr ?_, fun found hfound => ?_, fun hdependency => ?_⟩
  · cases hhandler : lookup raised.type with
    | domain => exact absurd hhandler hlookup
    | validation =>
        rw [answer_of_validation hhandler] at hstatus
        cases hstatus
    | http =>
        rw [answer_of_http hhandler] at hstatus
        exact ⟨rfl, hstatus⟩
    | unhandled =>
        rw [answer_of_unhandled hhandler] at hstatus
        cases hstatus
  · obtain ⟨name, hname, hmapped⟩ := List.exists_of_findSome?_eq_some hfound
    rw [(hnone name hname).1] at hmapped
    cases hmapped
  · obtain ⟨dependency, hmem, hname⟩ := hdependency
    exact absurd hmem (hnone dependency hname).2

/-- A documented class that another handler answers is not answered for what it is. -/
theorem not_honest_of_documented (hlookup : lookup raised.type ≠ .domain) {name : ClassName}
    (hname : name ∈ raised.type.mro)
    (hdocumented : (domainStatus name).isSome = true ∨ name ∈ dependencies) :
    ¬ Honest request raised := by
  intro h
  have hother : ∃ status title detail slug,
      answer request raised = response request status title detail slug ∧
        title ∈ ["Refused", "Invalid request", "Request failed", "Internal error"] := by
    cases hhandler : lookup raised.type with
    | domain => exact absurd hhandler hlookup
    | validation => exact ⟨_, _, _, _, answer_of_validation hhandler, by decide⟩
    | http => exact ⟨_, _, _, _, answer_of_http hhandler, by decide⟩
    | unhandled => exact ⟨_, _, _, _, answer_of_unhandled hhandler, by decide⟩
  rcases hdocumented with hsome | hdependency
  · obtain ⟨first, mapped, hfind, hmapped⟩ := exists_mapped hname hsome
    obtain ⟨status, title, detail, slug, hanswer, htitle⟩ := hother
    have hanswered := h.documented mapped hfind
    rw [hanswer] at hanswered
    exact not_answeredAs hmapped htitle hanswered
  · obtain ⟨hstatus, hbody⟩ := h.dependency ⟨name, hdependency, hname⟩
    cases hhandler : lookup raised.type with
    | domain => exact absurd hhandler hlookup
    | validation =>
        rw [answer_of_validation hhandler] at hstatus
        have hclient : ¬ (500 ≤ 422 ∨ 422 = 429) := by decide
        exact absurd hstatus hclient
    | http =>
        have hlonger := hbody raised.text (0x21 :: raised.detail)
        have hother : lookup ({ raised with detail := 0x21 :: raised.detail } : Raised).type =
          .http := hhandler
        rw [answer_of_http hhandler, answer_of_http hother] at hlonger
        have hdetail := congrArg ProblemDetails.detail (Sum.inl.inj hlonger)
        exact absurd hdetail (List.cons_ne_self 0x21 raised.detail)
    | unhandled =>
        have hnone := lookup_eq_unhandled.mp hhandler _ (domainError_mem hname hdependency)
        cases hnone

/-- **A failure is answered for what it is** exactly if it is one of the classes that are
mapped, or no domain error and no documented class. -/
theorem honest_iff (request : Request) (raised : Raised) :
    Honest request raised ↔ raised.type.wellMapped = true := by
  unfold ExceptionClass.wellMapped
  split
  next hlookup =>
    rw [Option.isSome_iff_exists]
    constructor
    · intro h
      refine Option.ne_none_iff_exists'.mp fun hhead => ?_
      exact not_honest_of_unmapped hlookup hhead h
    · intro h
      obtain ⟨mapped, hmapped⟩ := h
      obtain ⟨name, hhead, hname⟩ := Option.bind_eq_some_iff.mp hmapped
      exact honest_of_mapped hlookup hhead hname
  next hlookup =>
    rw [List.all_eq_true]
    constructor
    · intro h name hname
      by_contra hdocumented
      refine not_honest_of_documented hlookup hname ?_ h
      by_cases hdependency : name ∈ dependencies
      · exact .inr hdependency
      · refine .inl (Option.isSome_iff_ne_none.mpr fun hnone => hdocumented ?_)
        simp [hnone, hdependency]
    · intro h
      refine honest_of_undocumented hlookup fun name hname => ?_
      simpa using h name hname

end Answer

/-! ## A dependency -/

def transientIntegrationError : ExceptionClass where
  mro := [.other "TransientIntegrationError", .integrationError, .domainError, .exception]
  isException := by decide
  once := by decide
  declared := by decide
  monotone := by decide

/-- A timeout is told as a refusal, with its own words. -/
theorem not_honest_timeout : ¬ ∀ request raised, Honest request raised := by
  intro h
  have hhonest := h ⟨ofString "/api/customer/v1/sessions", none⟩
    ⟨transientIntegrationError, ofString "the call to servicenow did not succeed: timeout", 0, []⟩
  exact not_honest_of_unmapped (by decide) (by decide) hhonest

end Synthia.Problems
