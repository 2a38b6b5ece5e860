import Synthia.Build.OpenapiDiff
import Synthia.Lib.Schemas

/-!
# What the contract gate lets through

A change is compatible if every request that was valid is valid, and every field a response
promised, at any depth, is promised with its type. The gate compares the operations, their
parameters by name, the response codes, and the first level of a body and of each response.

What it does not compare is what remains to be asked of a change it lets through: whether a
body may still be left out, or sent at all; the schemas of the parameters; bodies and
responses that are no objects; and what is behind the first level of those that are.
-/

namespace Synthia

open Text Schemas

namespace OpenapiDiff

/-! ## What a document says -/

/-- What a reference leads to. -/
def definitions (document : Document) : Definitions Name :=
  fun name => document.schemas.lookup name

structure Request where
  path : Name
  method : Name
  /-- By location and name. -/
  parameters : List (Name × Datum Name)
  body : Option (Datum Name)

structure ParametersValid (document : Document) (operation : Operation)
    (parameters : List (Name × Datum Name)) : Prop where
  declared : ∀ given ∈ parameters, ∃ parameter,
    (indexed operation).lookup given.1 = some parameter ∧
      Valid (definitions document) parameter.schema given.2
  present : ∀ key parameter, (indexed operation).lookup key = some parameter →
    parameter.required = true → key ∈ parameters.map Prod.fst

/-- A body that is not declared cannot be sent. -/
def BodyValid (document : Document) (declared : Option RequestBody) :
    Option (Datum Name) → Prop
  | none => ∀ body, declared = some body → body.required = false
  | some datum =>
      ∃ body, declared = some body ∧ Valid (definitions document) body.schema datum

def ValidRequest (document : Document) (request : Request) : Prop :=
  ∃ operation, (operations document).lookup (request.path, request.method) = some operation ∧
    ParametersValid document operation request.parameters ∧
      BodyValid document operation.requestBody request.body

/-- A response of that code has the field, with that type, at the end of those steps. -/
def Promised (document : Document) (key : Name × Name) (code : Name) (path : List (Step Name))
    (kind : Kind) : Prop :=
  ∃ operation, (operations document).lookup key = some operation ∧
    ∃ schema, operation.responses.lookup code = some schema ∧
      Promises (definitions document) schema path kind

structure Compatible (baseline current : Document) : Prop where
  requests : ∀ request, ValidRequest baseline request → ValidRequest current request
  promises : ∀ key code path kind, Promised baseline key code path kind →
    Promised current key code path kind

/-! ## What is not compared -/

/-- Some request of the operation is valid. -/
structure Callable (document : Document) (operation : Operation) : Prop where
  parameters : ∀ key parameter, (indexed operation).lookup key = some parameter →
    parameter.required = true → Satisfiable (definitions document) parameter.schema
  body : ∀ body, operation.requestBody = some body → body.required = true →
    Satisfiable (definitions document) body.schema

section Unseen

variable (baseline current : Document)

/-- Fields of objects, and whole schemas where one of the two is no object. -/
def BodyAccommodated (old new : Schema Name) : Prop :=
  match resolve baseline old, resolve current new with
  | .object properties _, .object properties' _ =>
      ∀ name field field', properties.lookup name = some field →
        properties'.lookup name = some field' →
          Accommodates (definitions baseline) (definitions current) field field'
  | _, _ => Accommodates (definitions baseline) (definitions current) old new

structure RequestUnharmed (old new : Operation) : Prop where
  parameters : ∀ key parameter parameter', (indexed old).lookup key = some parameter →
    (indexed new).lookup key = some parameter' →
      Accommodates (definitions baseline) (definitions current) parameter.schema
        parameter'.schema
  declared : ∀ body, old.requestBody = some body →
    Satisfiable (definitions baseline) body.schema →
      ∃ body', new.requestBody = some body' ∧
        BodyAccommodated baseline current body.schema body'.schema
  required : ∀ body', new.requestBody = some body' → body'.required = true →
    ∃ body, old.requestBody = some body ∧ body.required = true

/-- What is behind the fields of objects, and whole schemas where one of the two is no
object. The kind of a field is compared but for a reference that leads to a reference. -/
def ResponseUnharmed (old new : Schema Name) : Prop :=
  match resolve baseline old, resolve current new with
  | .object properties _, .object properties' _ =>
      ∀ name field field', properties.lookup name = some field →
        properties'.lookup name = some field' →
          ((∃ other, resolve baseline field = .ref other) →
            SameKind (definitions baseline) (definitions current) field field') ∧
            Keeps (definitions baseline) (definitions current) field field'
  | _, _ => Keeps (definitions baseline) (definitions current) old new

structure Unharmed : Prop where
  requests : ∀ key old new, (operations baseline).lookup key = some old →
    (operations current).lookup key = some new → Callable baseline old →
      RequestUnharmed baseline current old new
  responses : ∀ key old new, (operations baseline).lookup key = some old →
    (operations current).lookup key = some new → ∀ code schema schema',
      old.responses.lookup code = some schema → new.responses.lookup code = some schema' →
        ResponseUnharmed baseline current schema schema'

end Unseen

/-! ## What an empty list of findings says -/

section Findings

variable {α : Type} [DecidableEq α]

theorem without_eq_nil {first second : List α} :
    without first second = [] ↔ ∀ element ∈ first, element ∈ second := by
  simp [without, List.filter_eq_nil_iff]

theorem mem_sortedKeys {key : Name × Name} {keys : List (Name × Name)} :
    key ∈ sortedKeys keys ↔ key ∈ keys := by
  unfold sortedKeys
  rw [(List.perm_insertionSort _ _).mem_iff, List.mem_dedup]

theorem map_sorted_eq_nil {β : Type} {names : List Name} {f : Name → β} :
    (sorted names).map f = [] ↔ names = [] := by
  rw [List.map_eq_nil_iff, List.eq_nil_iff_forall_not_mem, List.eq_nil_iff_forall_not_mem]
  simp only [mem_sorted]

theorem map_sortedKeys_eq_nil {β : Type} {keys : List (Name × Name)} {f : Name × Name → β} :
    (sortedKeys keys).map f = [] ↔ keys = [] := by
  rw [List.map_eq_nil_iff, List.eq_nil_iff_forall_not_mem, List.eq_nil_iff_forall_not_mem]
  simp only [mem_sortedKeys]

@[simp] theorem breaking_append (first second : Findings) :
    (first ++ second).breaking = first.breaking ++ second.breaking := rfl

@[simp] theorem breaking_breaks (names : List Name) : (Findings.breaks names).breaking = names :=
  rfl

@[simp] theorem breaking_adds (names : List Name) : (Findings.adds names).breaking = [] := rfl

theorem breaking_all_eq_nil {findings : List Findings} :
    (Findings.all findings).breaking = [] ↔ ∀ finding ∈ findings, finding.breaking = [] := by
  induction findings with
  | nil => exact iff_of_true rfl fun _ h => absurd h List.not_mem_nil
  | cons finding findings ih =>
      rw [List.forall_mem_cons, ← ih]
      exact List.append_eq_nil_iff

theorem mem_common {first second : List α} {element : α} :
    element ∈ common first second ↔ element ∈ first ∧ element ∈ second := by
  simp [common]

theorem mem_names_iff {β : Type} {entries : List (Name × β)} {name : Name} :
    name ∈ entries.map Prod.fst ↔ ∃ value, entries.lookup name = some value := by
  rw [← Option.isSome_iff_exists, List.lookup_isSome_iff, List.mem_map]
  simp only [beq_iff_eq, @eq_comm _ name]

theorem mem_keys_iff {β : Type} {entries : AList fun _ : α => β} {key : α} :
    key ∈ entries.keys ↔ ∃ value, entries.lookup key = some value := by
  rw [← AList.mem_keys, ← AList.lookup_isSome, Option.isSome_iff_exists]

end Findings

theorem isRequired_iff {parameters : AList fun _ : Name => Parameter} {key : Name} :
    isRequired parameters key = true ↔
      ∃ parameter, parameters.lookup key = some parameter ∧ parameter.required = true := by
  unfold isRequired
  cases parameters.lookup key <;> simp

section Clean

variable {repr : List Name → Name} {baseline current : Document} {key : Name × Name}
  {old new : Operation}

theorem clean_operation (hclean : (compare repr baseline current).breaking = [])
    (hold : (operations baseline).lookup key = some old) :
    ∃ new, (operations current).lookup key = some new ∧
      (compareOperation repr baseline current key old new).breaking = [] := by
  unfold compare at hclean
  simp only [breaking_append, breaking_breaks, breaking_adds, List.append_eq_nil_iff,
    map_sortedKeys_eq_nil, without_eq_nil, breaking_all_eq_nil] at hclean
  have hkey := mem_keys_iff.mpr ⟨old, hold⟩
  have hkey' := hclean.1.1 key hkey
  obtain ⟨new, hnew⟩ := mem_keys_iff.mp hkey'
  refine ⟨new, hnew, ?_⟩
  have hboth := hclean.2 _ (List.mem_map_of_mem
    (mem_sortedKeys.mpr (mem_common.mpr ⟨hkey, hkey'⟩)))
  rwa [hold, hnew] at hboth

/-- What is compared of an operation in both documents. -/
structure Compared (baseline current : Document) (old new : Operation) : Prop where
  codes : ∀ code ∈ old.responses.map Prod.fst, code ∈ new.responses.map Prod.fst
  required : ∀ name ∈ required (requestSchema current new),
    name ∈ required (requestSchema baseline old)
  fields : ∀ name ∈ (properties (requestSchema baseline old)).map Prod.fst,
    name ∈ (properties (requestSchema current new)).map Prod.fst
  parameters : ∀ name ∈ (indexed old).keys, name ∈ (indexed new).keys
  needed : ∀ name ∈ (indexed new).keys, isRequired (indexed new) name = true →
    isRequired (indexed old) name = true
  promised : ∀ code ∈ old.responses.map Prod.fst,
    ∀ name ∈ (properties (responseSchema baseline old code)).map Prod.fst,
      name ∈ (properties (responseSchema current new code)).map Prod.fst
  types : ∀ code ∈ old.responses.map Prod.fst, ∀ name field field',
    (properties (responseSchema baseline old code)).lookup name = some field →
      (properties (responseSchema current new code)).lookup name = some field' →
        typeOf (resolve baseline field) = typeOf (resolve current field')

theorem response_of_clean {code place : Name}
    (hclean : (compareResponse baseline current old new code place).breaking = []) :
    (∀ name ∈ (properties (responseSchema baseline old code)).map Prod.fst,
        name ∈ (properties (responseSchema current new code)).map Prod.fst) ∧
      ∀ name field field',
        (properties (responseSchema baseline old code)).lookup name = some field →
        (properties (responseSchema current new code)).lookup name = some field' →
          typeOf (resolve baseline field) = typeOf (resolve current field') := by
  unfold compareResponse inBoth at hclean
  simp only [breaking_append, breaking_breaks, breaking_adds, List.append_eq_nil_iff,
    map_sorted_eq_nil, without_eq_nil, breaking_all_eq_nil, List.forall_mem_map, mem_sorted,
    mem_common] at hclean
  obtain ⟨⟨hfields, _⟩, htypes⟩ := hclean
  refine ⟨List.forall_mem_map.mpr hfields, fun name field field' hfield hfield' => ?_⟩
  have hsame := htypes name ⟨mem_names_iff.mpr ⟨_, hfield⟩, mem_names_iff.mpr ⟨_, hfield'⟩⟩
  rw [hfield, hfield'] at hsame
  by_contra hdiffers
  unfold typeChanged at hsame
  dsimp only [Option.getD_some] at hsame
  rw [if_pos hdiffers] at hsame
  cases hsame

theorem compared_of_clean
    (hclean : (compareOperation repr baseline current key old new).breaking = []) :
    Compared baseline current old new := by
  unfold compareOperation compareRequest compareParameters at hclean
  simp only [breaking_append, breaking_breaks, breaking_adds, List.append_eq_nil_iff,
    map_sorted_eq_nil, without_eq_nil, breaking_all_eq_nil, List.forall_mem_map, mem_sorted,
    mem_common] at hclean
  obtain ⟨⟨⟨⟨hcodes, _⟩, ⟨⟨hrequired, _⟩, hfields⟩, _⟩, hresponses⟩,
    ⟨hremoved, hadded⟩, hneeded⟩ := hclean
  have hcodes := List.forall_mem_map.mpr hcodes
  refine ⟨hcodes, hrequired, List.forall_mem_map.mpr hfields, hremoved, ?_, ?_, ?_⟩
  · intro name hname hnew
    by_cases hold : name ∈ (indexed old).keys
    · have hsame := hneeded name ⟨hold, hname⟩
      by_contra hoptional
      rw [hnew, Bool.eq_false_iff.mpr hoptional] at hsame
      cases hsame
    · have hadded := hadded name (List.mem_filter.mpr ⟨hname, by simpa using hold⟩)
      rw [if_pos hnew] at hadded
      cases hadded
  · intro code hcode
    exact (response_of_clean (hresponses code ⟨hcode, hcodes code hcode⟩)).1
  · intro code hcode
    exact (response_of_clean (hresponses code ⟨hcode, hcodes code hcode⟩)).2

end Clean

/-! ## Behind one reference -/

section Behind

variable {document : Document} {schema : Schema Name}

theorem unfolds_resolve {unfolded : Schema Name} :
    Unfolds (definitions document) (resolve document schema) unfolded ↔
      Unfolds (definitions document) schema unfolded := by
  match schema with
  | .object _ _ => exact Iff.rfl
  | .array _ => exact Iff.rfl
  | .value _ _ => exact Iff.rfl
  | .ref name =>
      cases hname : document.schemas.lookup name with
      | none =>
          rw [resolve, hname]
          constructor
          · intro h
            cases h
            exact .unknown hname
          · intro h
            cases h with
            | known hother _ => rw [definitions, hname] at hother; cases hother
            | unknown => exact .value
      | some named =>
          rw [resolve, hname]
          constructor
          · intro h
            exact .known hname h
          · intro h
            cases h with
            | known hother h =>
                rw [definitions, hname] at hother
                injection hother with hother
                exact hother ▸ h
            | unknown hother => rw [definitions, hname] at hother; cases hother

theorem valid_resolve {datum : Datum Name} :
    Valid (definitions document) (resolve document schema) datum ↔
      Valid (definitions document) schema datum := by
  constructor
  · intro h
    obtain ⟨unfolded, hunfolds, hvalid⟩ := h.unfolds
    exact (unfolds_resolve.mp hunfolds).valid hvalid
  · intro h
    obtain ⟨unfolded, hunfolds, hvalid⟩ := h.unfolds
    exact (unfolds_resolve.mpr hunfolds).valid hvalid

end Behind

section Bodies

variable {baseline current : Document} {old new : Operation}

/-- The body is all that was accepted, exactly if what is not compared accommodates it. -/
theorem bodyAccommodated_iff (hcompared : Compared baseline current old new)
    {body body' : RequestBody} (hbody : old.requestBody = some body)
    (hbody' : new.requestBody = some body')
    (hsome : Satisfiable (definitions baseline) body.schema) :
    BodyAccommodated baseline current body.schema body'.schema ↔
      ∀ datum, Valid (definitions baseline) body.schema datum →
        Valid (definitions current) body'.schema datum := by
  have hrequired := hcompared.required
  have hnames := hcompared.fields
  unfold requestSchema at hrequired hnames
  rw [hbody, hbody'] at hrequired hnames
  dsimp only at hrequired hnames
  unfold BodyAccommodated
  split
  next properties required properties' required' heq heq' =>
    rw [heq, heq'] at hrequired hnames
    constructor
    · intro hfields datum hdatum
      rw [← valid_resolve, heq] at hdatum
      rw [← valid_resolve, heq']
      cases hdatum with
      | @object _ _ members declared fields present =>
          have htaken : ∀ member ∈ members, ∃ field', properties'.lookup member.1 = some field' ∧
              Valid (definitions current) field' member.2 := by
            intro member hmember
            obtain ⟨field, hfield⟩ := Option.isSome_iff_exists.mp (declared member hmember)
            obtain ⟨field', hfield'⟩ :=
              mem_names_iff.mp (hnames member.1 (mem_names_iff.mpr ⟨field, hfield⟩))
            have hvalid := fields member hmember field hfield
            exact ⟨field', hfield', accommodates_iff.mp (hfields _ _ _ hfield hfield') _ hvalid⟩
          exact valid_object htaken fun name hname => present name (hrequired name hname)
    · intro hincluded name field field' hfield hfield'
      refine accommodates_iff.mpr fun datum hdatum => ?_
      have hbehind : ∀ datum, Valid (definitions baseline) (.object properties required) datum →
          Valid (definitions current) (.object properties' required') datum := by
        intro datum hvalid
        rw [← heq, valid_resolve] at hvalid
        rw [← heq', valid_resolve]
        exact hincluded datum hvalid
      obtain ⟨whole, hwhole⟩ := hsome
      rw [← valid_resolve, heq] at hwhole
      have hfits : Fits (definitions baseline) (fun schema schema' =>
          ∀ datum, Valid (definitions baseline) schema datum →
            Valid (definitions current) schema' datum)
          (.object properties required) (.object properties' required') :=
        fits_object ⟨whole, hwhole⟩ (by simp) hbehind fun _ _ h => h
      obtain ⟨_, hparts⟩ := hfits
      obtain ⟨other, hother, hincluded⟩ := hparts name field hfield ⟨datum, hdatum⟩
      rw [hfield'] at hother
      injection hother with hother
      exact hother ▸ hincluded datum hdatum
  next => exact accommodates_iff

end Bodies

section Responses

variable {baseline current : Document} {old new : Operation}

def kindName : Kind → Name
  | .object => ofString "object"
  | .array => ofString "array"
  | .value (some type) => typeName type
  | .value none => ofString "unspecified"

theorem typeOf_of_kind {schema : Schema Name} {kind : Kind} (h : schema.kind = some kind) :
    typeOf schema = kindName kind := by
  match schema with
  | .ref _ => cases h
  | .object _ _ => cases h; rfl
  | .array _ => cases h; rfl
  | .value none _ => cases h; rfl
  | .value (some _) _ => cases h; rfl

theorem typeName_injective {first second : ScalarType} (h : typeName first = typeName second) :
    first = second := by
  revert h
  cases first <;> cases second <;> decide

/-- No type is called like an object, a list, or the lack of a type. -/
theorem typeName_ne (type : ScalarType) :
    typeName type ≠ ofString "object" ∧ typeName type ≠ ofString "array" ∧
      typeName type ≠ ofString "unspecified" := by
  cases type <;> decide

theorem kindName_injective {first second : Kind} (h : kindName first = kindName second) :
    first = second := by
  match first, second with
  | .object, .object => rfl
  | .array, .array => rfl
  | .value none, .value none => rfl
  | .value (some _), .value (some _) => rw [typeName_injective h]
  | .object, .value (some type) => exact absurd h.symm (typeName_ne type).1
  | .value (some type), .object => exact absurd h (typeName_ne type).1
  | .array, .value (some type) => exact absurd h.symm (typeName_ne type).2.1
  | .value (some type), .array => exact absurd h (typeName_ne type).2.1
  | .value none, .value (some type) => exact absurd h.symm (typeName_ne type).2.2
  | .value (some type), .value none => exact absurd h (typeName_ne type).2.2
  | .object, .array | .array, .object => exact absurd h (by decide)
  | .object, .value none | .value none, .object => exact absurd h (by decide)
  | .array, .value none | .value none, .array => exact absurd h (by decide)

/-- Nor is any kind called like a reference. -/
theorem kindName_ne_ref (kind : Kind) (name : Name) :
    kindName kind ≠ ofString "#/components/schemas/" ++ name := by
  intro h
  have hhead : (kindName kind).head? = some 0x23 := by
    rw [h, List.head?_append]
    rfl
  match kind with
  | .object => exact absurd hhead (by decide)
  | .array => exact absurd hhead (by decide)
  | .value none => exact absurd hhead (by decide)
  | .value (some type) => cases type <;> exact absurd hhead (by decide)

/-- Of two schemas that are called alike, one of which is no name, neither is a name, and
they are of a kind. -/
theorem kind_of_typeOf {schema schema' : Schema Name} {kind : Kind}
    (h : typeOf schema = typeOf schema') (hkind : schema.kind = some kind) :
    schema'.kind = some kind := by
  rw [typeOf_of_kind hkind] at h
  cases hkind' : schema'.kind with
  | some kind' =>
      rw [typeOf_of_kind hkind'] at h
      rw [kindName_injective h]
  | none =>
      match schema' with
      | .ref name => exact absurd h (kindName_ne_ref kind name)
      | .object _ _ => cases hkind'
      | .array _ => cases hkind'
      | .value _ _ => cases hkind'

/-- What has a kind is what it unfolds to. -/
theorem unfolds_of_kind {definitions : Definitions Name} {schema : Schema Name} {kind : Kind}
    (h : schema.kind = some kind) : Unfolds definitions schema schema := by
  match schema with
  | .ref _ => cases h
  | .object _ _ => exact .object
  | .array _ => exact .array
  | .value _ _ => exact .value

theorem sameKind_of_typeOf {field field' : Schema Name}
    (h : typeOf (resolve baseline field) = typeOf (resolve current field'))
    (hname : ¬ ∃ other, resolve baseline field = .ref other) :
    SameKind (definitions baseline) (definitions current) field field' := by
  intro part kind hpart hkind
  obtain ⟨own, hown⟩ : ∃ own, (resolve baseline field).kind = some own := by
    match hresolved : resolve baseline field with
    | .ref other => exact absurd ⟨other, hresolved⟩ hname
    | .object _ _ => exact ⟨_, rfl⟩
    | .array _ => exact ⟨_, rfl⟩
    | .value _ _ => exact ⟨_, rfl⟩
  have hsame := hpart.unique (unfolds_resolve.mp (unfolds_of_kind hown))
  rw [hsame, hown] at hkind
  have hown' := kind_of_typeOf h hown
  exact ⟨_, unfolds_resolve.mp (unfolds_of_kind hown'), hown'.trans hkind⟩

/-- The response promises all that it promised, exactly if what is not compared does. -/
theorem responseUnharmed_iff (hcompared : Compared baseline current old new) {code : Name}
    {schema schema' : Schema Name} (hschema : old.responses.lookup code = some schema)
    (hschema' : new.responses.lookup code = some schema') :
    ResponseUnharmed baseline current schema schema' ↔
      ∀ path kind, Promises (definitions baseline) schema path kind →
        Promises (definitions current) schema' path kind := by
  have hcode := mem_names_iff.mpr ⟨schema, hschema⟩
  have hnames := hcompared.promised code hcode
  have htypes := hcompared.types code hcode
  unfold responseSchema at hnames htypes
  rw [hschema, hschema'] at hnames htypes
  dsimp only [Option.getD_some] at hnames htypes
  unfold ResponseUnharmed
  split
  next properties required properties' required' heq heq' =>
    rw [heq, heq'] at hnames htypes
    have hunfolds : Unfolds (definitions baseline) schema (.object properties required) :=
      unfolds_resolve.mp (by rw [heq]; exact .object)
    have hunfolds' : Unfolds (definitions current) schema' (.object properties' required') :=
      unfolds_resolve.mp (by rw [heq']; exact .object)
    constructor
    · intro hfields path kind hpromises
      cases hpromises with
      | @field _ own _ name field part _ hown hfield hpart hkind =>
          have hsame := hown.unique hunfolds
          injection hsame with hsame _
          rw [hsame] at hfield
          obtain ⟨field', hfield'⟩ :=
            mem_names_iff.mp (hnames name (mem_names_iff.mpr ⟨field, hfield⟩))
          have hkinds : SameKind (definitions baseline) (definitions current) field field' := by
            by_cases hname : ∃ other, resolve baseline field = .ref other
            · exact (hfields name field field' hfield hfield').1 hname
            · exact sameKind_of_typeOf (htypes name field field' hfield hfield') hname
          obtain ⟨part', hpart', hkind'⟩ := hkinds part kind hpart hkind
          exact .field hunfolds' hfield' hpart' hkind'
      | @within _ own _ name field _ _ hown hfield hbehind =>
          have hsame := hown.unique hunfolds
          injection hsame with hsame _
          rw [hsame] at hfield
          obtain ⟨field', hfield'⟩ :=
            mem_names_iff.mp (hnames name (mem_names_iff.mpr ⟨field, hfield⟩))
          have hkeeps := (hfields name field field' hfield hfield').2
          exact .within hunfolds' hfield' (keeps_iff.mp hkeeps _ _ hbehind)
      | items hown _ => exact nomatch hown.unique hunfolds
    · intro hincluded name field field' hfield hfield'
      by_cases hpart : ∃ part, Unfolds (definitions baseline) field part
      · obtain ⟨_, _, other, hother, hlookup, hkinds, hbehind⟩ :=
          (keeping_included schema schema' hincluded).1 _ _ hunfolds name field hfield hpart
        have hsame := hother.unique hunfolds'
        injection hsame with hsame _
        rw [hsame, hfield'] at hlookup
        injection hlookup with hlookup
        exact ⟨fun _ => hlookup ▸ hkinds, keeps_iff.mpr (hlookup ▸ hbehind)⟩
      · -- A field behind a circle of names promises nothing.
        refine ⟨fun _ part kind hbehind _ => absurd ⟨part, hbehind⟩ hpart, keeps_iff.mpr ?_⟩
        exact fun path kind hpromises => absurd hpromises.unfolds hpart
  next => exact keeps_iff

end Responses

/-! ## Requests -/

section Requests

variable {document : Document} {operation : Operation}

/-- One more that is declared does no harm. -/
theorem ParametersValid.concat {parameters : List (Name × Datum Name)} {key : Name}
    {parameter : Parameter} {datum : Datum Name}
    (h : ParametersValid document operation parameters)
    (hparameter : (indexed operation).lookup key = some parameter)
    (hdatum : Valid (definitions document) parameter.schema datum) :
    ParametersValid document operation (parameters ++ [(key, datum)]) := by
  constructor
  · intro given hgiven
    rcases List.mem_append.mp hgiven with hbefore | hlast
    · exact h.declared given hbefore
    · rw [List.mem_singleton.mp hlast]
      exact ⟨parameter, hparameter, hdatum⟩
  · intro other parameter hother hrequired
    rw [List.map_append]
    exact List.mem_append_left _ (h.present other parameter hother hrequired)

/-- What is required, given one by one. -/
theorem exists_given (hcallable : Callable document operation) (keys : List Name) :
    ∃ parameters : List (Name × Datum Name),
      (∀ given ∈ parameters, ∃ parameter, (indexed operation).lookup given.1 = some parameter ∧
        Valid (definitions document) parameter.schema given.2) ∧
      ∀ key ∈ keys, ∀ parameter, (indexed operation).lookup key = some parameter →
        parameter.required = true → key ∈ parameters.map Prod.fst := by
  induction keys with
  | nil => exact ⟨[], fun _ h => absurd h List.not_mem_nil, fun _ h => absurd h List.not_mem_nil⟩
  | cons key keys ih =>
      obtain ⟨parameters, hdeclared, hpresent⟩ := ih
      by_cases hneeded : ∃ parameter, (indexed operation).lookup key = some parameter ∧
          parameter.required = true
      · obtain ⟨parameter, hparameter, hrequired⟩ := hneeded
        obtain ⟨datum, hdatum⟩ := hcallable.parameters key parameter hparameter hrequired
        refine ⟨(key, datum) :: parameters, ?_, ?_⟩
        · exact List.forall_mem_cons.mpr ⟨⟨parameter, hparameter, hdatum⟩, hdeclared⟩
        · refine List.forall_mem_cons.mpr ⟨fun _ _ _ => List.mem_cons_self, ?_⟩
          intro other hother parameter hlookup hrequired
          exact List.mem_cons_of_mem _ (hpresent other hother parameter hlookup hrequired)
      · refine ⟨parameters, hdeclared, List.forall_mem_cons.mpr ⟨?_, hpresent⟩⟩
        exact fun parameter hlookup hrequired => absurd ⟨parameter, hlookup, hrequired⟩ hneeded

theorem Callable.exists_parameters (h : Callable document operation) :
    ∃ parameters, ParametersValid document operation parameters := by
  obtain ⟨parameters, hdeclared, hpresent⟩ := exists_given h (indexed operation).keys
  refine ⟨parameters, hdeclared, fun key parameter hparameter => ?_⟩
  exact hpresent key (mem_keys_iff.mpr ⟨parameter, hparameter⟩) parameter hparameter

theorem Callable.exists_body (h : Callable document operation) :
    ∃ body, BodyValid document operation.requestBody body := by
  by_cases hneeded : ∃ body, operation.requestBody = some body ∧ body.required = true
  · obtain ⟨body, hbody, hrequired⟩ := hneeded
    obtain ⟨datum, hdatum⟩ := h.body body hbody hrequired
    exact ⟨some datum, body, hbody, hdatum⟩
  · refine ⟨none, fun body hbody => Bool.eq_false_iff.mpr fun hrequired => ?_⟩
    exact hneeded ⟨body, hbody, hrequired⟩

theorem callable_of_valid {parameters : List (Name × Datum Name)} {body : Option (Datum Name)}
    (hparameters : ParametersValid document operation parameters)
    (hbody : BodyValid document operation.requestBody body) : Callable document operation := by
  constructor
  · intro key parameter hparameter hrequired
    obtain ⟨given, hgiven, rfl⟩ :=
      List.mem_map.mp (hparameters.present key parameter hparameter hrequired)
    obtain ⟨own, hown, hvalid⟩ := hparameters.declared given hgiven
    rw [hparameter] at hown
    injection hown with hown
    exact ⟨given.2, hown ▸ hvalid⟩
  · intro own hown hrequired
    match body, hbody with
    | none, hbody => exact absurd hrequired (Bool.eq_false_iff.mp (hbody own hown))
    | some datum, hbody =>
        obtain ⟨other, hother, hvalid⟩ := hbody
        rw [hown] at hother
        injection hother with hother
        exact ⟨datum, hother ▸ hvalid⟩

variable {baseline current : Document} {old new : Operation}

/-- Every request of the operation stays valid. -/
def RequestsKept (baseline current : Document) (old new : Operation) : Prop :=
  ∀ parameters body, ParametersValid baseline old parameters →
    BodyValid baseline old.requestBody body →
      ParametersValid current new parameters ∧ BodyValid current new.requestBody body

theorem requestsKept_of_unharmed (hcompared : Compared baseline current old new)
    (h : Callable baseline old → RequestUnharmed baseline current old new) :
    RequestsKept baseline current old new := by
  intro parameters body hparameters hbody
  have hunharmed := h (callable_of_valid hparameters hbody)
  refine ⟨⟨?_, ?_⟩, ?_⟩
  · intro given hgiven
    obtain ⟨parameter, hparameter, hvalid⟩ := hparameters.declared given hgiven
    obtain ⟨parameter', hparameter'⟩ := mem_keys_iff.mp
      (hcompared.parameters given.1 (mem_keys_iff.mpr ⟨parameter, hparameter⟩))
    have haccommodates := hunharmed.parameters _ parameter parameter' hparameter hparameter'
    exact ⟨parameter', hparameter', accommodates_iff.mp haccommodates _ hvalid⟩
  · intro key parameter' hparameter' hrequired
    have hneeded := hcompared.needed key (mem_keys_iff.mpr ⟨parameter', hparameter'⟩)
      (isRequired_iff.mpr ⟨parameter', hparameter', hrequired⟩)
    obtain ⟨parameter, hparameter, hrequired⟩ := isRequired_iff.mp hneeded
    exact hparameters.present key parameter hparameter hrequired
  · match body, hbody with
    | none, hbody =>
        intro body' hbody'
        refine Bool.eq_false_iff.mpr fun hrequired => ?_
        obtain ⟨own, hown, hneeded⟩ := hunharmed.required body' hbody' hrequired
        rw [hbody own hown] at hneeded
        cases hneeded
    | some datum, hbody =>
        obtain ⟨own, hown, hvalid⟩ := hbody
        obtain ⟨body', hbody', haccommodated⟩ := hunharmed.declared own hown ⟨datum, hvalid⟩
        have hincluded :=
          (bodyAccommodated_iff hcompared hown hbody' ⟨datum, hvalid⟩).mp haccommodated
        exact ⟨body', hbody', hincluded datum hvalid⟩

theorem unharmed_of_requestsKept (hcompared : Compared baseline current old new)
    (hkept : RequestsKept baseline current old new) (hcallable : Callable baseline old) :
    RequestUnharmed baseline current old new := by
  obtain ⟨parameters, hparameters⟩ := hcallable.exists_parameters
  obtain ⟨some, hsome⟩ := hcallable.exists_body
  constructor
  · intro key parameter parameter' hparameter hparameter'
    refine accommodates_iff.mpr fun datum hdatum => ?_
    have hmore := (hkept _ some (hparameters.concat hparameter hdatum) hsome).1
    obtain ⟨own, hown, hvalid⟩ := hmore.declared (key, datum)
      (List.mem_append_right _ (List.mem_singleton.mpr rfl))
    rw [hparameter'] at hown
    injection hown with hown
    exact hown ▸ hvalid
  · intro body hbody hsatisfiable
    have htaken : ∀ datum, Valid (definitions baseline) body.schema datum →
        BodyValid current new.requestBody (.some datum) :=
      fun datum hdatum => (hkept parameters (.some datum) hparameters ⟨body, hbody, hdatum⟩).2
    obtain ⟨datum, hdatum⟩ := hsatisfiable
    obtain ⟨body', hbody', _⟩ := htaken datum hdatum
    refine ⟨body', hbody', ?_⟩
    refine (bodyAccommodated_iff hcompared hbody hbody' ⟨datum, hdatum⟩).mpr fun datum hdatum => ?_
    obtain ⟨own, hown, hvalid⟩ := htaken datum hdatum
    rw [hbody'] at hown
    injection hown with hown
    exact hown ▸ hvalid
  · intro body' hbody' hrequired
    by_contra hoptional
    have hnone : BodyValid baseline old.requestBody none := by
      intro body hbody
      refine Bool.eq_false_iff.mpr fun hneeded => hoptional ⟨body, hbody, hneeded⟩
    have hnone' := (hkept parameters none hparameters hnone).2
    rw [hnone' body' hbody'] at hrequired
    cases hrequired

end Requests

/-! ## The gate -/

/-- **Compatible changes.** A change in which the gate finds nothing breaking is compatible
exactly if what the gate does not compare is unharmed. -/
theorem compatible_iff (repr : List Name → Name) (baseline current : Document)
    (hclean : (compare repr baseline current).breaking = []) :
    Compatible baseline current ↔ Unharmed baseline current := by
  constructor
  · intro h
    constructor
    · intro key old new hold hnew hcallable
      obtain ⟨other, hother, hfound⟩ := clean_operation hclean hold
      rw [hnew] at hother
      injection hother with hother
      refine unharmed_of_requestsKept (compared_of_clean (hother ▸ hfound)) ?_ hcallable
      intro parameters body hparameters hbody
      obtain ⟨own, hown, hvalid⟩ := h.requests ⟨key.1, key.2, parameters, body⟩
        ⟨old, hold, hparameters, hbody⟩
      rw [hnew] at hown
      injection hown with hown
      exact hown ▸ hvalid
    · intro key old new hold hnew code schema schema' hschema hschema'
      obtain ⟨other, hother, hfound⟩ := clean_operation hclean hold
      rw [hnew] at hother
      injection hother with hother
      have hcompared := compared_of_clean (hother ▸ hfound)
      refine (responseUnharmed_iff hcompared hschema hschema').mpr fun path kind hpromises => ?_
      obtain ⟨own, hown, schema'', hschema'', hkept⟩ :=
        h.promises key code path kind ⟨old, hold, schema, hschema, hpromises⟩
      rw [hnew] at hown
      injection hown with hown
      rw [← hown, hschema'] at hschema''
      injection hschema'' with hschema''
      exact hschema'' ▸ hkept
  · intro h
    constructor
    · intro request hrequest
      obtain ⟨old, hold, hparameters, hbody⟩ := hrequest
      obtain ⟨new, hnew, hfound⟩ := clean_operation hclean hold
      exact ⟨new, hnew, requestsKept_of_unharmed (compared_of_clean hfound)
        (h.requests _ old new hold hnew) _ _ hparameters hbody⟩
    · intro key code path kind hpromised
      obtain ⟨old, hold, schema, hschema, hpromises⟩ := hpromised
      obtain ⟨new, hnew, hfound⟩ := clean_operation hclean hold
      have hcompared := compared_of_clean hfound
      obtain ⟨schema', hschema'⟩ :=
        mem_names_iff.mp (hcompared.codes code (mem_names_iff.mpr ⟨schema, hschema⟩))
      have hunharmed := h.responses key old new hold hnew code schema schema' hschema hschema'
      exact ⟨new, hnew, schema', hschema',
        (responseUnharmed_iff hcompared hschema hschema').mp hunharmed path kind hpromises⟩

/-! One operation, with a parameter to filter by and a session in its response. -/

def listing (status : Schema Name) (fields : List (Name × Schema Name)) : Document where
  paths := [(ofString "/sessions", [(ofString "get",
    { parameters := [⟨ofString "query", ofString "status", false, status⟩],
      responses := [(ofString "200",
        .object [(ofString "session", .ref (ofString "Session"))] [ofString "session"])] })])]
  schemas := [(ofString "Session", .object fields [])]

def words : Schema Name := .value (some .string) none

/-- A field more. -/
theorem compatible_iff_listing :
    Compatible (listing words [(ofString "id", words)])
        (listing words [(ofString "id", words), (ofString "title", words)]) ↔
      Unharmed (listing words [(ofString "id", words)])
        (listing words [(ofString "id", words), (ofString "title", words)]) :=
  compatible_iff List.flatten _ _ (by decide +kernel)

/-- Of the words, one is left. -/
theorem not_compatible_enumerated : ¬ ∀ repr baseline current,
    (compare repr baseline current).breaking = [] → Compatible baseline current := by
  intro h
  have hcompatible := h List.flatten (listing words [(ofString "id", words)])
    (listing (.value (some .string) (some [.text (ofString "open")])) [(ofString "id", words)])
    (by decide +kernel)
  have hvalid : ValidRequest (listing words [(ofString "id", words)])
      { path := ofString "/sessions", method := ofString "get",
        parameters := [(ofString "query:status", .literal (.text (ofString "closed")))],
        body := none } := by
    refine ⟨_, rfl, ⟨?_, ?_⟩, fun _ h => nomatch h⟩
    · refine List.forall_mem_singleton.mpr ⟨_, rfl, .value ⟨?_, fun _ h => nomatch h⟩⟩
      rintro _ ⟨⟩
      rfl
    · exact fun key parameter hlookup _ => mem_keys_iff.mpr ⟨parameter, hlookup⟩
  obtain ⟨_, hoperation, hparameters, _⟩ := hcompatible.requests _ hvalid
  cases hoperation
  obtain ⟨_, hparameter, hvalid⟩ := hparameters.declared _ List.mem_cons_self
  cases hparameter
  cases hvalid with
  | value h => exact absurd (h.2 _ rfl) (by decide)

end OpenapiDiff

end Synthia
