import Synthia.Proofs.PublishedAuthority
import Synthia.Api.Openapi

/-!
# The two gates agree

RagCore checks a document before it publishes it, and the build checks what was published.
Both read one policy. Of names the two say the same, finding by finding. Of authority they
differ in what they say and in how they search: the one once from each request body, the
other once from all of them. Reachability decides: what is reachable from the references of
all bodies is what is reachable from those of one.
-/

namespace Synthia.Openapi

open Text

open OpenapiValidate (referenced referencedMembers referencedItems mem_bodyReferences
  requestBodies bodyReferences requestSchemas secretFindings operations Innocent propertyNames
  isAuthority parameterFinding_eq_none sorted_eq_nil)

/-! ## References -/

mutual

/-- The two scans come upon the same names. -/
theorem references_eq : ∀ node : JsonNode, references node = referenced node
  | .object members => by
      rw [references, referenced, referencesMembers_eq members]
  | .array items => by
      rw [references, referenced, referencesItems_eq items]
  | .null | .bool _ | .number _ | .string _ => by simp [references, referenced]

theorem referencesMembers_eq : ∀ members, referencesMembers members = referencedMembers members
  | [] => by rw [referencesMembers, referencedMembers]
  | (key, value) :: members => by
      have hvalue := references_eq value
      have hrest := referencesMembers_eq members
      cases value with
      | string text =>
          by_cases hkey : key = ofString "$ref" <;>
            simp [hkey, referencesMembers, referencedMembers, references, hrest]
      | _ => simp [referencesMembers, referencedMembers, hvalue, hrest]

theorem referencesItems_eq : ∀ items, referencesItems items = referencedItems items
  | [] => by rw [referencesItems, referencedItems]
  | value :: items => by
      rw [referencesItems, referencedItems, references_eq value, referencesItems_eq items]

end

mutual

/-- The two walks come upon the same names, at the same paths. -/
theorem walkNames_eq : ∀ (node : JsonNode) (path : Name),
    walkNames node path = OpenapiValidate.walkNames path node
  | .object members, path => by
      rw [walkNames, OpenapiValidate.walkNames, walkMembers_eq members path]
  | .array items, path => by
      rw [walkNames, OpenapiValidate.walkNames, walkItems_eq items path 0]
  | .null, _ | .bool _, _ | .number _, _ | .string _, _ => by
      simp [walkNames, OpenapiValidate.walkNames]

theorem walkMembers_eq : ∀ (members : List (Name × JsonNode)) (path : Name),
    walkMembers members path = OpenapiValidate.walkMembers path members
  | [], _ => by rw [walkMembers, OpenapiValidate.walkMembers]
  | (key, value) :: members, path => by
      rw [walkMembers, OpenapiValidate.walkMembers, walkMembers_eq members path]
      simp only [walkNames_eq value, List.isEmpty_iff, List.cons_append]

theorem walkItems_eq : ∀ (items : List JsonNode) (path : Name) (index : Nat),
    walkItems items path index = OpenapiValidate.walkItems path index items
  | [], _, _ => by rw [walkItems, OpenapiValidate.walkItems]
  | value :: items, path, index => by
      rw [walkItems, OpenapiValidate.walkItems, walkNames_eq value, walkItems_eq items]

end

/-- The component schemas are found alike where all of them are mappings. -/
theorem schemaGraph_eq {document : Document}
    (hschemas : ∀ entry ∈ entries document.schemas, isObject entry.2 = true) :
    schemaGraph document = OpenapiValidate.schemaGraph document := by
  have hfind : ∀ name,
      (document.schemas.member name).filter isObject = document.schemas.member name := by
    intro name
    cases hmember : document.schemas.member name with
    | none => rfl
    | some schema =>
        rw [Option.filter_some, if_pos (hschemas _ (mem_entries_of_member hmember))]
  unfold schemaGraph OpenapiValidate.schemaGraph
  simp only [hfind, Worklist.Graph.mk.injEq, true_and]
  exact funext references_eq

section Gates

variable {python : Python} {order : Worklist.Order Name} {document : Document}
  {policy : DisclosurePolicy} {audience : Name}

/-! ## Names -/

theorem map_find?_eq {α β : Type} {p : α → Bool} {items : List α} {found : β} :
    (items.find? p).map (fun _ => found) = if items.any p then some found else none := by
  induction items with
  | nil => rfl
  | cons head items ih => cases hhead : p head <;> simp [hhead, ih]

/-- **The two say the same of names.** -/
theorem disclosureFindings_eq :
    disclosureFindings python document policy = secretFindings python document policy := by
  unfold disclosureFindings secretFindings
  rw [walkNames_eq]
  refine congrArg OpenapiDiff.sorted (List.filterMap_congr fun entry _ => ?_)
  refine ite_congr rfl (fun _ => rfl) fun _ => ?_
  split
  next term hterm =>
    have hany := List.any_eq_true.mpr ⟨term, List.mem_of_find?_eq_some hterm,
      List.find?_some hterm⟩
    exact (if_pos hany).symm
  next hnone =>
    have hcontains : policy.implementationDetail.contains (normalise python entry.2) =
        policy.implementationDetail.any fun term => normalise python entry.2 == term :=
      List.contains_eq_any_beq
    have hnever : ¬ (policy.secretTerms.any fun term =>
        (normalise python entry.2).tails.any term.isPrefixOf) = true := fun hany => by
      obtain ⟨term, hterm, hfound⟩ := List.any_eq_true.mp hany
      exact List.find?_eq_none.mp hnone term hterm hfound
    rw [map_find?_eq, ← hcontains]
    exact (if_neg hnever).symm

/-! ## Authority -/

theorem mem_operations {operation : Name × Name × JsonNode} :
    operation ∈ operations python document ↔
      ∃ item ∈ document.paths, ∃ entry ∈ entries item.2,
        (OpenapiDiff.methods.contains (python.lower entry.1) && isObject entry.2) = true ∧
          (item.1, python.lower entry.1, entry.2) = operation := by
  unfold operations
  simp [List.mem_flatMap, List.mem_filterMap]

/-- The schemas that a body reaches are those its references reach. -/
theorem mem_reachedFrom {body : JsonNode} {name : Name} :
    name ∈ reachedFrom order document body ↔
      Worklist.Reaches (schemaGraph document) (references body) name := by
  unfold reachedFrom
  rw [Worklist.mem_search_iff]
  exact ⟨Worklist.Reaches.mono fun root => List.mem_dedup.mp,
    Worklist.Reaches.mono fun root => List.mem_dedup.mpr⟩

/-- What all bodies reach together, one of them does. -/
theorem reaches_bodyReferences {graph : Worklist.Graph Name JsonNode} {name : Name} :
    Worklist.Reaches graph (bodyReferences python document) name ↔
      ∃ body ∈ requestBodies python document,
        Worklist.Reaches graph (referenced body) name := by
  rw [Worklist.reaches_iff_exists]
  constructor
  · intro h
    obtain ⟨root, hroot, hreaches⟩ := h
    obtain ⟨body, hbody, hreferenced⟩ := mem_bodyReferences.mp hroot
    exact ⟨body, hbody, Worklist.reaches_iff_exists.mpr ⟨root, hreferenced, hreaches⟩⟩
  · intro h
    obtain ⟨body, hbody, hreaches⟩ := h
    obtain ⟨root, hroot, hreaches⟩ := Worklist.reaches_iff_exists.mp hreaches
    exact ⟨root, mem_bodyReferences.mpr ⟨body, hbody, hroot⟩, hreaches⟩

/-- A schema declares no name of an authority. -/
def Clean (python : Python) (policy : DisclosurePolicy) (schema : JsonNode) : Prop :=
  ∀ field ∈ propertyNames schema, isAuthority python policy field = false

theorem schemaFindings_eq_nil {name : Name} :
    OpenapiValidate.schemaFindings python document policy name = [] ↔
      ∀ schema, (OpenapiValidate.schemaGraph document).find name = some schema →
        Clean python policy schema := by
  unfold OpenapiValidate.schemaFindings Clean
  cases hfind : (OpenapiValidate.schemaGraph document).find name with
  | none => simp
  | some schema => simp [List.filter_eq_nil_iff]

/-- What the search from one body says nothing of. -/
theorem authorityInRequest_eq_nil {body : JsonNode} :
    authorityInRequest python order document policy body = [] ↔
      ∀ name, Worklist.Reaches (schemaGraph document) (references body) name →
        ∀ schema, (schemaGraph document).find name = some schema →
          Clean python policy schema := by
  unfold authorityInRequest
  rw [List.flatMap_eq_nil_iff]
  refine forall_congr' fun name => ?_
  rw [mem_reachedFrom]
  refine imp_congr_right fun hreaches => ?_
  obtain ⟨schema, hschema⟩ := hreaches.exists_node
  have hmember : document.schemas.member name = some schema := hschema
  rw [hmember]
  unfold Clean propertyNames isAuthority
  simp [hschema, List.filter_eq_nil_iff, normalise, OpenapiValidate.normalise]

theorem parameterFindings_eq_nil {path method : Name} {operation : JsonNode} :
    parameterFindings python policy audience path method operation = [] ↔
      ∀ parameter ∈ parametersOf operation, Innocent python policy audience parameter := by
  unfold parameterFindings Innocent
  rw [List.filterMap_eq_nil_iff]
  refine forall₂_congr fun parameter _ => ?_
  simp [isAuthority, normalise, OpenapiValidate.normalise, permitted, OpenapiValidate.permitted,
    and_assoc]

/-- What the policy forbids is not there, of what one operation takes. -/
theorem operationFindings_eq_nil {path method : Name} {operation : JsonNode} :
    operationFindings python order document policy audience path method operation = [] ↔
      (policy.forbiddenIn.contains (ofString "parameter") = true →
        ∀ parameter ∈ parametersOf operation, Innocent python policy audience parameter) ∧
      (policy.forbiddenIn.contains (ofString "requestBody") = true →
        ∀ body, (get "requestBody" operation).filter isObject = some body →
          authorityInRequest python order document policy body = []) := by
  unfold operationFindings
  rw [List.append_eq_nil_iff]
  refine and_congr ?_ ?_
  · split
    next hforbidden => simp only [parameterFindings_eq_nil, hforbidden, forall_const]
    next hallowed => exact iff_of_true rfl fun hforbidden => absurd hforbidden hallowed
  · split
    next hforbidden =>
      rw [forall_prop_of_true hforbidden]
      cases hbody : get "requestBody" operation with
      | none => simp
      | some body => cases body <;> simp [isObject]
    next hallowed => exact iff_of_true rfl fun hforbidden => absurd hforbidden hallowed

theorem authorityFindings_eq_nil :
    authorityFindings python order document policy audience = [] ↔
      ∀ operation ∈ operations python document,
        (policy.forbiddenIn.contains (ofString "parameter") = true →
          ∀ parameter ∈ parametersOf operation.2.2, Innocent python policy audience parameter) ∧
        (policy.forbiddenIn.contains (ofString "requestBody") = true →
          ∀ body, (get "requestBody" operation.2.2).filter isObject = some body →
            authorityInRequest python order document policy body = []) := by
  unfold authorityFindings
  rw [sorted_eq_nil, List.flatMap_eq_nil_iff]
  constructor
  · intro h operation hoperation
    obtain ⟨item, hitem, entry, hentry, htaken, rfl⟩ := mem_operations.mp hoperation
    have hnone := List.flatMap_eq_nil_iff.mp (h item hitem) entry hentry
    rw [if_pos htaken] at hnone
    exact operationFindings_eq_nil.mp hnone
  · intro h item hitem
    rw [List.flatMap_eq_nil_iff]
    intro entry hentry
    split
    next htaken =>
      exact operationFindings_eq_nil.mpr
        (h _ (mem_operations.mpr ⟨item, hitem, entry, hentry, htaken, rfl⟩))
    next => rfl

theorem mem_requestBodies {body : JsonNode} :
    body ∈ requestBodies python document ↔ ∃ operation ∈ operations python document,
      (get "requestBody" operation.2.2).filter isObject = some body := by
  unfold requestBodies
  rw [List.mem_filterMap]

/-- One search from each body says nothing exactly if the one search from all of them does. -/
theorem requestFindings_agree (order other : Worklist.Order Name)
    (hschemas : ∀ entry ∈ entries document.schemas, isObject entry.2 = true) :
    (∀ body ∈ requestBodies python document,
        authorityInRequest python order document policy body = []) ↔
      ∀ name ∈ requestSchemas python other document,
        OpenapiValidate.schemaFindings python document policy name = [] := by
  simp only [authorityInRequest_eq_nil, schemaFindings_eq_nil, schemaGraph_eq hschemas,
    references_eq]
  constructor
  · intro h name hname
    obtain ⟨body, hbody, hreaches⟩ := reaches_bodyReferences.mp (Worklist.mem_search_iff.mp hname)
    exact h body hbody name hreaches
  · intro h body hbody name hreaches
    exact h name (Worklist.mem_search_iff.mpr (reaches_bodyReferences.mpr ⟨body, hbody, hreaches⟩))

/-- **The gates agree.** Where all component schemas are mappings, RagCore finds nothing in a
document exactly if the build finds nothing in it, whatever they take first out of a set; and
both searches end, with what is reachable. -/
theorem gates_agree (python : Python) (order other : Worklist.Order Name) (document : Document)
    (policy : DisclosurePolicy) (audience : Name)
    (hschemas : ∀ entry ∈ entries document.schemas, isObject entry.2 = true) :
    (authorityFindings python order document policy audience = [] ∧
          disclosureFindings python document policy = [] ↔
        OpenapiValidate.authorityFindings python other document policy audience = [] ∧
          secretFindings python document policy = []) ∧
      (∀ body name, name ∈ reachedFrom order document body ↔
        Worklist.Reaches (schemaGraph document) (references body) name) ∧
      ∀ name, name ∈ requestSchemas python other document ↔
        Worklist.Reaches (OpenapiValidate.schemaGraph document)
          (bodyReferences python document) name := by
  refine ⟨?_, fun body name => mem_reachedFrom, fun name => Worklist.mem_search_iff⟩
  rw [disclosureFindings_eq, authorityFindings_eq_nil, OpenapiValidate.authorityFindings_eq_nil,
    ← requestFindings_agree order other hschemas]
  refine and_congr_left fun _ => ⟨fun h => ⟨?_, ?_⟩, fun h operation hoperation => ⟨?_, ?_⟩⟩
  · exact fun hforbidden operation hoperation => (h operation hoperation).1 hforbidden
  · intro hforbidden body hbody
    obtain ⟨operation, hoperation, hbody⟩ := mem_requestBodies.mp hbody
    exact (h operation hoperation).2 hforbidden body hbody
  · exact fun hforbidden => h.1 hforbidden operation hoperation
  · exact fun hforbidden body hbody =>
      h.2 hforbidden body (mem_requestBodies.mpr ⟨operation, hoperation, hbody⟩)

end Gates

/-- A component that refers to itself, and another that names a tenant and a secret. -/
def leakyDocument : Document where
  root := OpenapiValidate.postOf
    (.object [(ofString "$ref", .string (ofString "#/components/schemas/Thread"))])
    [(ofString "Thread", .object [(ofString "properties", .object
      [(ofString "parent", .object
          [(ofString "$ref", .string (ofString "#/components/schemas/Thread"))]),
        (ofString "tenantId", .object []), (ofString "clientSecret", .object [])])])]
  wellFormed := by decide +kernel

/-- Each gate finds something in the one document, and neither in the other. -/
theorem gates_agree_cyclic :
    (authorityFindings OpenapiValidate.asciiPython .last OpenapiValidate.cyclicDocument
          OpenapiValidate.disclosurePolicy (ofString "customer") = [] ∧
        disclosureFindings OpenapiValidate.asciiPython OpenapiValidate.cyclicDocument
          OpenapiValidate.disclosurePolicy = [] ∧
      OpenapiValidate.authorityFindings OpenapiValidate.asciiPython .last
          OpenapiValidate.cyclicDocument OpenapiValidate.disclosurePolicy
          (ofString "customer") = [] ∧
        secretFindings OpenapiValidate.asciiPython OpenapiValidate.cyclicDocument
          OpenapiValidate.disclosurePolicy = []) ∧
    (authorityFindings OpenapiValidate.asciiPython .last leakyDocument
          OpenapiValidate.disclosurePolicy (ofString "customer") ≠ [] ∧
        disclosureFindings OpenapiValidate.asciiPython leakyDocument
          OpenapiValidate.disclosurePolicy ≠ []) ∧
      ¬ (OpenapiValidate.authorityFindings OpenapiValidate.asciiPython .last leakyDocument
            OpenapiValidate.disclosurePolicy (ofString "customer") = [] ∧
          secretFindings OpenapiValidate.asciiPython leakyDocument
            OpenapiValidate.disclosurePolicy = []) := by
  have hcyclic := (gates_agree OpenapiValidate.asciiPython .last .last
    OpenapiValidate.cyclicDocument OpenapiValidate.disclosurePolicy (ofString "customer")
    (by decide +kernel)).1
  have hleaky := (gates_agree OpenapiValidate.asciiPython .last .last leakyDocument
    OpenapiValidate.disclosurePolicy (ofString "customer") (by decide +kernel)).1
  refine ⟨?_, ⟨by decide +kernel, by decide +kernel⟩, ?_⟩
  · have hnone : authorityFindings OpenapiValidate.asciiPython .last
        OpenapiValidate.cyclicDocument OpenapiValidate.disclosurePolicy
          (ofString "customer") = [] ∧
        disclosureFindings OpenapiValidate.asciiPython OpenapiValidate.cyclicDocument
          OpenapiValidate.disclosurePolicy = [] := by
      decide +kernel
    obtain ⟨hauthority, hdisclosure⟩ := hnone
    obtain ⟨hbuild, hsecrets⟩ := hcyclic.mp ⟨hauthority, hdisclosure⟩
    exact ⟨hauthority, hdisclosure, hbuild, hsecrets⟩
  · rw [← hleaky]
    decide +kernel

end Synthia.Openapi
