import Synthia.Build.OpenapiValidate

/-!
# Authority a client could supply

Where a name a client supplies can stand: a parameter, of an operation or of its path,
written there or referred to; a property of a schema, of a body or of a component, at
whatever depth. The gate looks at the parameters written on an operation, and at the
properties a component declares, if a body reaches the component. It reaches every component
there is to reach, by the search of the graph of references; what is declared inside a body,
or inside a component below its own properties, it passes by, and a parameter that is not
written on its operation as well.
-/

namespace Synthia.OpenapiValidate

open Openapi Text

/-! ## Where names stand -/

/-- The name behind a reference of that kind. -/
def refersTo (marker : String) (node : JsonNode) : Option Name :=
  match get "$ref" node with
  | some (.string text) => behind marker text
  | _ => none

/-- A schema inside another. -/
inductive Part : JsonNode → JsonNode → Prop
  | property {schema entry} : entry ∈ entries (child "properties" schema) → Part schema entry.2
  | items {schema sub} : get "items" schema = some sub → Part schema sub
  | additional {schema sub} : get "additionalProperties" schema = some sub → Part schema sub
  | composed {schema keyword subs sub} : keyword ∈ ["allOf", "oneOf", "anyOf"] →
      get keyword schema = some (.array subs) → sub ∈ subs → Part schema sub

section Positions

variable (python : Python) (document : Document)

/-- A parameter of an operation, and whether it is written on it. -/
inductive Parameter : Bool → JsonNode → Prop
  | own {operation parameter} : operation ∈ operations python document →
      parameter ∈ parametersOf operation.2.2 → Parameter true parameter
  | shared {item operation parameter} : item ∈ document.paths →
      operation ∈ operations python document → operation.1 = item.1 →
      parameter ∈ parametersOf item.2 → Parameter false parameter
  | referred {own parameter name target} : Parameter own parameter →
      refersTo "#/components/parameters/" parameter = some name →
      (child "parameters" document.components).member name = some target → Parameter false target

/-- A body of an operation, and whether it is written on it. -/
inductive RequestBody : Bool → JsonNode → Prop
  | own {operation body} : operation ∈ operations python document →
      get "requestBody" operation.2.2 = some body → RequestBody true body
  | referred {own body name target} : RequestBody own body →
      refersTo "#/components/requestBodies/" body = some name →
      (child "requestBodies" document.components).member name = some target →
      RequestBody false target

/-- A schema that what a client sends is of, whether the body that has it is written on its
operation, and its name where it is a component and not a part of something. -/
inductive Supplied : Bool → Option Name → JsonNode → Prop
  | body {own body entry schema} : RequestBody python document own body →
      entry ∈ entries (child "content" body) → get "schema" entry.2 = some schema →
      Supplied own none schema
  | part {own component schema sub} : Supplied own component schema → Part schema sub →
      Supplied own none sub
  | referred {own component schema name target} : Supplied own component schema →
      refersTo "#/components/schemas/" schema = some name →
      document.schemas.member name = some target → Supplied own (some name) target

variable (policy : DisclosurePolicy) (audience : Name)

/-- The parameter has no name that is forbidden it. -/
def Innocent (parameter : JsonNode) : Prop :=
  isObject parameter = true → isAuthority python policy (text python "name" parameter) = true →
    permitted python policy audience (text python "name" parameter)
      (text python "in" parameter) = true

/-- Where the policy forbids it, no parameter and no property of a body has the name of an
authority, but for the exceptions. -/
structure NoAuthority : Prop where
  parameters : policy.forbiddenIn.contains (ofString "parameter") = true →
    ∀ own parameter, Parameter python document own parameter →
      Innocent python policy audience parameter
  properties : policy.forbiddenIn.contains (ofString "requestBody") = true →
    ∀ own component schema, Supplied python document own component schema →
      ∀ name ∈ propertyNames schema, isAuthority python policy name = false

/-- The same of the parameters that are not written on an operation, and of the schemas that
are written inside a body or inside another schema, or that a body written elsewhere has. -/
structure CleanElsewhere : Prop where
  parameters : policy.forbiddenIn.contains (ofString "parameter") = true →
    ∀ parameter, Parameter python document false parameter →
      Innocent python policy audience parameter
  properties : policy.forbiddenIn.contains (ofString "requestBody") = true →
    ∀ own component schema, Supplied python document own component schema →
      (own = false ∨ component = none) →
        ∀ name ∈ propertyNames schema, isAuthority python policy name = false

end Positions

/-! ## References -/

/-- A member refers to what it is a reference to, or to what is referred to inside it. -/
theorem mem_referencedMembers_cons {key name : Name} {value : JsonNode}
    {members : List (Name × JsonNode)} :
    name ∈ referencedMembers ((key, value) :: members) ↔
      (key = ofString "$ref" ∧ ∃ text, value = .string text ∧
          behind "#/components/schemas/" text = some name) ∨
        name ∈ referenced value ∨ name ∈ referencedMembers members := by
  cases value with
  | string text =>
      by_cases hkey : key = ofString "$ref" <;> simp [hkey, referencedMembers, referenced]
  | _ => simp [referencedMembers]

theorem referenced_of_mem_members {members : List (Name × JsonNode)} {entry : Name × JsonNode}
    (hentry : entry ∈ members) {name : Name} (hname : name ∈ referenced entry.2) :
    name ∈ referencedMembers members := by
  induction members with
  | nil => cases hentry
  | cons head members ih =>
      rw [mem_referencedMembers_cons]
      rcases List.mem_cons.mp hentry with rfl | hlater
      · exact .inr (.inl hname)
      · exact .inr (.inr (ih hlater))

theorem mem_referencedMembers_of_mem {members : List (Name × JsonNode)} {text name : Name}
    (hentry : (ofString "$ref", .string text) ∈ members)
    (hname : behind "#/components/schemas/" text = some name) :
    name ∈ referencedMembers members := by
  induction members with
  | nil => cases hentry
  | cons head members ih =>
      rw [mem_referencedMembers_cons]
      rcases List.mem_cons.mp hentry with rfl | hlater
      · exact .inl ⟨rfl, text, rfl, hname⟩
      · exact .inr (.inr (ih hlater))

theorem referenced_of_mem_entries {node : JsonNode} {entry : Name × JsonNode}
    (hentry : entry ∈ entries node) {name : Name} (hname : name ∈ referenced entry.2) :
    name ∈ referenced node := by
  cases node with
  | object members =>
      rw [referenced]
      exact referenced_of_mem_members hentry hname
  | _ => cases hentry

theorem referenced_of_mem_items {items : List JsonNode} {node : JsonNode} (hnode : node ∈ items)
    {name : Name} (hname : name ∈ referenced node) : name ∈ referenced (.array items) := by
  rw [referenced]
  induction items with
  | nil => cases hnode
  | cons head items ih =>
      rw [referencedItems, List.mem_append]
      rcases List.mem_cons.mp hnode with rfl | hlater
      · exact .inl hname
      · exact .inr (ih hlater)

theorem referenced_of_get {key : String} {node value : JsonNode} (h : get key node = some value)
    {name : Name} (hname : name ∈ referenced value) : name ∈ referenced node :=
  referenced_of_mem_entries (mem_entries_of_member h) hname

theorem referenced_of_mem_child {key : String} {node : JsonNode} {entry : Name × JsonNode}
    (hentry : entry ∈ entries (child key node)) {name : Name}
    (hname : name ∈ referenced entry.2) : name ∈ referenced node := by
  unfold child at hentry
  cases hget : get key node with
  | none =>
      rw [hget] at hentry
      cases hentry
  | some value =>
      rw [hget] at hentry
      exact referenced_of_get hget (referenced_of_mem_entries hentry hname)

theorem referenced_of_part {schema sub : JsonNode} (h : Part schema sub) {name : Name}
    (hname : name ∈ referenced sub) : name ∈ referenced schema := by
  cases h with
  | property hentry => exact referenced_of_mem_child hentry hname
  | items hget => exact referenced_of_get hget hname
  | additional hget => exact referenced_of_get hget hname
  | composed _ hget hsub => exact referenced_of_get hget (referenced_of_mem_items hsub hname)

theorem mem_referenced_of_refersTo {node : JsonNode} {name : Name}
    (h : refersTo "#/components/schemas/" node = some name) : name ∈ referenced node := by
  unfold refersTo at h
  split at h
  next text hget =>
    have hentry := mem_entries_of_member hget
    cases node with
    | object members =>
        rw [referenced]
        exact mem_referencedMembers_of_mem hentry h
    | _ => cases hentry
  next => cases h

/-! ## What the search reaches -/

section Reached

variable {python : Python} {order : Worklist.Order Name} {document : Document}
  {policy : DisclosurePolicy} {audience : Name}

theorem mem_foldl_union {bodies : List JsonNode} {frontier : List Name} {name : Name} :
    name ∈ bodies.foldl (fun frontier body => frontier ∪ referenced body) frontier ↔
      name ∈ frontier ∨ ∃ body ∈ bodies, name ∈ referenced body := by
  induction bodies generalizing frontier with
  | nil => simp
  | cons body bodies ih =>
      rw [List.foldl_cons, ih, List.mem_union_iff, or_assoc]
      simp

theorem mem_bodyReferences {name : Name} :
    name ∈ bodyReferences python document ↔
      ∃ body ∈ requestBodies python document, name ∈ referenced body := by
  rw [bodyReferences, mem_foldl_union]
  simp

theorem isObject_of_mem_child {key : String} {node : JsonNode} {entry : Name × JsonNode}
    (h : entry ∈ entries (child key node)) : isObject node = true := by
  cases node with
  | object members => rfl
  | _ => cases h

theorem isObject_of_get {key : String} {node value : JsonNode} (h : get key node = some value) :
    isObject node = true := by
  cases node with
  | object members => rfl
  | _ => cases h

theorem isObject_of_part {schema sub : JsonNode} (h : Part schema sub) :
    isObject schema = true := by
  cases h with
  | property hentry => exact isObject_of_mem_child hentry
  | items hget => exact isObject_of_get hget
  | additional hget => exact isObject_of_get hget
  | composed _ hget _ => exact isObject_of_get hget

theorem isObject_of_refersTo {marker : String} {node : JsonNode} {name : Name}
    (h : refersTo marker node = some name) : isObject node = true := by
  unfold refersTo at h
  split at h
  next hget => exact isObject_of_get hget
  next => cases h

theorem find_of_member {name : Name} {schema : JsonNode}
    (hmember : document.schemas.member name = some schema) (hobject : isObject schema = true) :
    (schemaGraph document).find name = some schema := by
  show (document.schemas.member name).filter isObject = some schema
  rw [hmember, Option.filter_some, if_pos hobject]

/-- What a body written on its operation refers to is reached, and so is what is referred to
inside what is reached. -/
theorem scanned_of_supplied {component : Option Name} {schema : JsonNode}
    (h : Supplied python document true component schema) (hobject : isObject schema = true) :
    Worklist.Scanned (schemaGraph document)
      (Worklist.Reaches (schemaGraph document) (bodyReferences python document)) schema := by
  induction h with
  | @body body entry schema hbody hentry hschema =>
      cases hbody with
      | own hoperation hget =>
          intro other hother target htarget
          refine .root (mem_bodyReferences.mpr ⟨body, ?_, ?_⟩) htarget
          · refine List.mem_filterMap.mpr ⟨_, hoperation, ?_⟩
            rw [hget, Option.filter_some, if_pos (isObject_of_mem_child hentry)]
          · exact referenced_of_mem_child hentry (referenced_of_get hschema hother)
  | part _ hpart ih =>
      intro other hother target htarget
      exact ih (isObject_of_part hpart) other (referenced_of_part hpart hother) target htarget
  | @referred component schema name target _ hrefers hmember ih =>
      have hfind := find_of_member hmember hobject
      have hreaches := ih (isObject_of_refersTo hrefers) name
        (mem_referenced_of_refersTo hrefers) target hfind
      exact fun other hother next hnext => .step hreaches hfind hother hnext

/-- A component that a body written on its operation has is found. -/
theorem mem_requestSchemas_of_supplied {name : Name} {schema : JsonNode}
    (h : Supplied python document true (some name) schema) (hobject : isObject schema = true) :
    (schemaGraph document).find name = some schema ∧
      name ∈ requestSchemas python order document := by
  cases h with
  | referred hsupplied hrefers hmember =>
      have hfind := find_of_member hmember hobject
      exact ⟨hfind, Worklist.mem_search_iff.mpr (scanned_of_supplied hsupplied
        (isObject_of_refersTo hrefers) name (mem_referenced_of_refersTo hrefers) schema hfind)⟩

/-! ## What the gate finds -/

theorem sorted_eq_nil {names : List Name} : OpenapiDiff.sorted names = [] ↔ names = [] := by
  simp only [List.eq_nil_iff_forall_not_mem, OpenapiDiff.mem_sorted]

theorem parameterFinding_eq_none {path method : Name} {parameter : JsonNode} :
    parameterFinding python policy audience path method parameter = none ↔
      Innocent python policy audience parameter := by
  unfold parameterFinding Innocent
  simp

theorem schemaFindings_eq_nil {name : Name} {schema : JsonNode}
    (hfind : (schemaGraph document).find name = some schema) :
    schemaFindings python document policy name = [] ↔
      ∀ field ∈ propertyNames schema, isAuthority python policy field = false := by
  unfold schemaFindings
  rw [hfind]
  simp [List.filter_eq_nil_iff]

theorem authorityFindings_eq_nil :
    authorityFindings python order document policy audience = [] ↔
      (policy.forbiddenIn.contains (ofString "parameter") = true →
        ∀ operation ∈ operations python document,
          ∀ parameter ∈ parametersOf operation.2.2, Innocent python policy audience parameter) ∧
      (policy.forbiddenIn.contains (ofString "requestBody") = true →
        ∀ name ∈ requestSchemas python order document,
          schemaFindings python document policy name = []) := by
  unfold authorityFindings
  rw [sorted_eq_nil, List.append_eq_nil_iff]
  refine and_congr ?_ ?_
  · split
    next hforbidden =>
      simp only [List.flatMap_eq_nil_iff, List.filterMap_eq_nil_iff, parameterFinding_eq_none,
        forall_const, hforbidden]
    next hallowed => exact iff_of_true rfl fun hforbidden => absurd hforbidden hallowed
  · split
    next hforbidden => simp only [List.flatMap_eq_nil_iff, forall_const, hforbidden]
    next hallowed => exact iff_of_true rfl fun hforbidden => absurd hforbidden hallowed

/-- **No authority a client could supply.** Where the gate finds nothing there is none
exactly if there is none where it does not look; and the search it looks with ends with what
is reachable, on circles too. -/
theorem noAuthority_iff (python : Python) (order : Worklist.Order Name) (document : Document)
    (policy : DisclosurePolicy) (audience : Name)
    (h : authorityFindings python order document policy audience = []) :
    (NoAuthority python document policy audience ↔
        CleanElsewhere python document policy audience) ∧
      ∀ name, name ∈ requestSchemas python order document ↔
        Worklist.Reaches (schemaGraph document) (bodyReferences python document) name := by
  obtain ⟨hparameters, hproperties⟩ := authorityFindings_eq_nil.mp h
  refine ⟨⟨fun hno => ?_, fun hclean => ?_⟩, fun name => Worklist.mem_search_iff⟩
  · exact ⟨fun hforbidden parameter => hno.parameters hforbidden false parameter,
      fun hforbidden own component schema hsupplied _ =>
        hno.properties hforbidden own component schema hsupplied⟩
  · constructor
    · intro hforbidden own parameter hparameter
      cases hown : own with
      | false => exact hclean.parameters hforbidden parameter (hown ▸ hparameter)
      | true =>
          rw [hown] at hparameter
          cases hparameter with
          | own hoperation hmem => exact hparameters hforbidden _ hoperation parameter hmem
    · intro hforbidden own component schema hsupplied name hname
      by_cases hpassed : own = false ∨ component = none
      · exact hclean.properties hforbidden own component schema hsupplied hpassed name hname
      · obtain ⟨hown, hcomponent⟩ := not_or.mp hpassed
        obtain ⟨title, rfl⟩ := Option.ne_none_iff_exists'.mp hcomponent
        rw [Bool.not_eq_false] at hown
        rw [hown] at hsupplied
        obtain ⟨entry, hentry, rfl⟩ := List.mem_map.mp hname
        obtain ⟨hfind, hfound⟩ :=
          mem_requestSchemas_of_supplied hsupplied (isObject_of_mem_child hentry)
        exact (schemaFindings_eq_nil hfind).mp (hproperties hforbidden title hfound) _ hname

end Reached

/-! ## Two documents -/

/-- The language, as far as it is ASCII. -/
def asciiPython : Python where
  lower := lower
  isAlnum c := 0x30 ≤ c.val && c.val ≤ 0x39 || 0x61 ≤ c.val && c.val ≤ 0x7A
  repr name := ofString "'" ++ name ++ ofString "'"
  str _ := []

def disclosurePolicy : DisclosurePolicy where
  secretTerms := [ofString "secret", ofString "password"]
  implementationDetail := [ofString "checkpoint"]
  derivedAuthority := [ofString "tenantid", ofString "roles"]
  forbiddenIn := [ofString "parameter", ofString "requestBody"]
  exceptions := [⟨ofString "tenantId", ofString "query", [ofString "staff"]⟩]
  structuralKeys := [ofString "description"]

/-- A document with one operation, whose body is of that schema, and with these components. -/
def postOf (schema : JsonNode) (schemas : List (Name × JsonNode)) : JsonNode :=
  .object
    [(ofString "paths", .object [(ofString "/api/customer/v1/sessions", .object
        [(ofString "post", .object [(ofString "requestBody", .object
          [(ofString "content", .object [(ofString "application/json", .object
            [(ofString "schema", schema)])])])])])]),
      (ofString "components", .object [(ofString "schemas", .object schemas)])]

/-- A component that refers to itself. -/
def cyclicDocument : Document where
  root := postOf (.object [(ofString "$ref", .string (ofString "#/components/schemas/Thread"))])
    [(ofString "Thread", .object [(ofString "properties", .object
      [(ofString "parent", .object
        [(ofString "$ref", .string (ofString "#/components/schemas/Thread"))])])])]
  wellFormed := by decide +kernel

theorem noAuthority_iff_cyclic :
    authorityFindings asciiPython .last cyclicDocument disclosurePolicy (ofString "customer") = [] ∧
      (NoAuthority asciiPython cyclicDocument disclosurePolicy (ofString "customer") ↔
        CleanElsewhere asciiPython cyclicDocument disclosurePolicy (ofString "customer")) :=
  have h : authorityFindings asciiPython .last cyclicDocument disclosurePolicy
      (ofString "customer") = [] := by
    decide +kernel
  ⟨h, (noAuthority_iff _ _ _ _ _ h).1⟩

/-- A body whose schema is written in it. -/
def inlineDocument : Document where
  root := postOf (.object [(ofString "properties", .object
    [(ofString "tenantId", .object [])])]) []
  wellFormed := by decide +kernel

theorem not_noAuthority_inline : ¬ ∀ python order document policy audience,
    authorityFindings python order document policy audience = [] →
      NoAuthority python document policy audience := by
  intro h
  have hnone : authorityFindings asciiPython .last inlineDocument disclosurePolicy
      (ofString "customer") = [] := by
    decide +kernel
  have hsupplied : Supplied asciiPython inlineDocument true none
      (.object [(ofString "properties", .object [(ofString "tenantId", .object [])])]) :=
    .body (.own List.mem_cons_self rfl) List.mem_cons_self rfl
  have hname := (h _ _ _ _ _ hnone).properties (by decide +kernel) _ _ _ hsupplied
    (ofString "tenantId") List.mem_cons_self
  have hauthority : isAuthority asciiPython disclosurePolicy (ofString "tenantId") = true := by
    decide +kernel
  rw [hname] at hauthority
  cases hauthority

end Synthia.OpenapiValidate
