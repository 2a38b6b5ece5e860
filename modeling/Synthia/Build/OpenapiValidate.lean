import Synthia.Build.OpenapiDiff
import Synthia.Lib.Json
import Synthia.Lib.Worklist

/-!
# The disclosure gate

`openapi_validate`, its two checks of names: what may be named nowhere in a document, and
what may not be named where a client supplies it. A document is a mapping as it was read
from JSON, and the policy is the record both gates read.

How text is lowered, which characters are letters or digits, and how a name is printed are
the language's.
-/

namespace Synthia

open Text

/-! ## Documents -/

namespace Openapi

abbrev Name := List CodePoint

abbrev JsonNode := Json.Value CodePoint

/-- What the language makes of text. `str` is of what is no text. -/
structure Python where
  lower : Name → Name
  isAlnum : CodePoint → Bool
  repr : Name → Name
  str : JsonNode → Name

/-- `.items()`, of a mapping. -/
def entries : JsonNode → List (Name × JsonNode)
  | .object members => members
  | _ => []

def isObject : JsonNode → Bool
  | .object _ => true
  | _ => false

/-- `.get(key)`. -/
def get (key : String) (node : JsonNode) : Option JsonNode := node.member (ofString key)

/-- `.get(key, {})`. -/
def child (key : String) (node : JsonNode) : JsonNode := (get key node).getD (.object [])

/-- `.get("parameters", []) or []`. -/
def parametersOf (operation : JsonNode) : List JsonNode :=
  match get "parameters" operation with
  | some (.array parameters) => parameters
  | _ => []

/-- `str(…)`, of what is found under a key. -/
def text (python : Python) (key : String) (node : JsonNode) : Name :=
  match get key node with
  | none => []
  | some (.string text) => text
  | some other => python.str other

/-- The rest of a text behind a marker. -/
def behind (marker : String) (text : Name) : Option Name :=
  if (ofString marker).isPrefixOf text then some (text.drop (ofString marker).length) else none

/-- The parameters of an operation are listed. -/
def listsParameters (operation : JsonNode) : Bool :=
  match get "parameters" operation with
  | none | some .null | some (.array _) => true
  | _ => false

/-- What is read of the document as a mapping is one. -/
def isDocument (root : JsonNode) : Bool :=
  isObject root && isObject (child "paths" root) && isObject (child "components" root) &&
    isObject (child "schemas" (child "components" root)) &&
    (entries (child "paths" root)).all fun item =>
      (entries item.2).all fun operation => listsParameters operation.2

theorem mem_entries_of_member {key : Name} {node value : JsonNode}
    (h : node.member key = some value) : (key, value) ∈ entries node := by
  cases node with
  | object members => exact Json.Value.mem_of_member h
  | _ => cases h

structure Document where
  root : JsonNode
  wellFormed : isDocument root = true

def Document.paths (document : Document) : List (Name × JsonNode) :=
  entries (child "paths" document.root)

def Document.components (document : Document) : JsonNode := child "components" document.root

def Document.schemas (document : Document) : JsonNode := child "schemas" document.components

/-! ## The policy -/

structure AuthorityException where
  name : Name
  location : Name
  audiences : List Name

structure DisclosurePolicy where
  secretTerms : List Name
  implementationDetail : List Name
  derivedAuthority : List Name
  forbiddenIn : List Name
  exceptions : List AuthorityException
  structuralKeys : List Name

end Openapi

/-! ## `openapi_validate` -/

namespace OpenapiValidate

open Openapi

open OpenapiDiff (sorted upper methods)

section Reading

variable (python : Python)

/-- `_normalise`. -/
def normalise (name : Name) : Name := (python.lower name).filter python.isAlnum

/-- `_operations`. -/
def operations (document : Document) : List (Name × Name × JsonNode) :=
  document.paths.flatMap fun item =>
    (entries item.2).filterMap fun entry =>
      if methods.contains (python.lower entry.1) && isObject entry.2 then
        some (item.1, python.lower entry.1, entry.2)
      else none

end Reading

mutual

/-- `_walk_names`. -/
def walkNames (path : Name) : JsonNode → List (Name × Name)
  | .object members => walkMembers path members
  | .array items => walkItems path 0 items
  | _ => []

def walkMembers (path : Name) : List (Name × JsonNode) → List (Name × Name)
  | [] => []
  | (key, value) :: members =>
      let here := if path.isEmpty then key else path ++ ofString "." ++ key
      (here, key) :: walkNames here value ++ walkMembers path members

def walkItems (path : Name) (index : Nat) : List JsonNode → List (Name × Name)
  | [] => []
  | value :: items =>
      walkNames (path ++ ofString "[" ++ ofString (toString index) ++ ofString "]") value ++
        walkItems path (index + 1) items

end

mutual

/-- `_referenced`, as the names are come upon. -/
def referenced : JsonNode → List Name
  | .object members => referencedMembers members
  | .array items => referencedItems items
  | _ => []

def referencedMembers : List (Name × JsonNode) → List Name
  | [] => []
  | (key, .string text) :: members =>
      (if key = ofString "$ref" then (behind "#/components/schemas/" text).toList else []) ++
        referencedMembers members
  | (_, value) :: members => referenced value ++ referencedMembers members

def referencedItems : List JsonNode → List Name
  | [] => []
  | value :: items => referenced value ++ referencedItems items

end

/-- The component schemas that are mappings, by name. -/
def schemaGraph (document : Document) : Worklist.Graph Name JsonNode where
  names := (entries document.schemas).map Prod.fst
  find name := (document.schemas.member name).filter isObject
  references := referenced
  named name h := by
    obtain ⟨schema, hschema⟩ := Option.isSome_iff_exists.mp h
    exact List.mem_map_of_mem (mem_entries_of_member (Option.filter_eq_some_iff.mp hschema).1)

section Checks

variable (python : Python) (order : Worklist.Order Name) (document : Document)
  (policy : DisclosurePolicy)

/-- The bodies of the operations. -/
def requestBodies : List JsonNode :=
  (operations python document).filterMap fun operation =>
    (get "requestBody" operation.2.2).filter isObject

/-- The frontier `_request_schemas` starts with. -/
def bodyReferences : List Name :=
  (requestBodies python document).foldl (fun frontier body => frontier ∪ referenced body) []

/-- `_request_schemas`, where a set is popped in some order: the names of the schemas. -/
def requestSchemas : List Name :=
  Worklist.search (schemaGraph document) order (bodyReferences python document) []

/-- The names of the properties a schema declares. -/
def propertyNames (schema : JsonNode) : List Name :=
  (entries (child "properties" schema)).map Prod.fst

/-- A name is of the forbidden ones. -/
def isAuthority (name : Name) : Bool := policy.derivedAuthority.contains (normalise python name)

/-- `permitted`. -/
def permitted (audience name location : Name) : Bool :=
  policy.exceptions.any fun exception =>
    normalise python exception.name == normalise python name && exception.location == location &&
      exception.audiences.contains audience

/-- `secret_findings`. -/
def secretFindings : List Name :=
  sorted <| (walkNames [] document.root).filterMap fun entry =>
    if policy.structuralKeys.contains entry.2 then none
    else if policy.secretTerms.any fun term =>
        (normalise python entry.2).tails.any term.isPrefixOf then
      some (ofString "secret-bearing name " ++ python.repr entry.2 ++ ofString " at " ++ entry.1)
    else if policy.implementationDetail.contains (normalise python entry.2) then
      some (ofString "internal-only name " ++ python.repr entry.2 ++ ofString " at " ++ entry.1)
    else none

/-- What is found of one parameter of an operation. -/
def parameterFinding (audience path method : Name) (parameter : JsonNode) : Option Name :=
  let name := text python "name" parameter
  let location := text python "in" parameter
  if isObject parameter && isAuthority python policy name &&
      !permitted python policy audience name location then
    some (ofString "client-suppliable authority: " ++ location ++ ofString " parameter " ++
      python.repr name ++ ofString " on " ++ upper method ++ ofString " " ++ path ++ ofString
        ". Tenant, roles and audience are derived at the gateway and never accepted.")
  else none

/-- What is found of one schema of a request body. -/
def schemaFindings (name : Name) : List Name :=
  match (schemaGraph document).find name with
  | none => []
  | some schema =>
      ((propertyNames schema).filter (isAuthority python policy)).map fun field =>
        ofString "client-suppliable authority: request field " ++ python.repr field ++
          ofString " on schema " ++ python.repr name ++
          ofString ". A request body never carries authority."

/-- `authority_findings`. -/
def authorityFindings (audience : Name) : List Name :=
  sorted <|
    (if policy.forbiddenIn.contains (ofString "parameter") then
      (operations python document).flatMap fun operation =>
        (parametersOf operation.2.2).filterMap
          (parameterFinding python policy audience operation.1 operation.2.1)
    else []) ++
    if policy.forbiddenIn.contains (ofString "requestBody") then
      (requestSchemas python order document).flatMap (schemaFindings python document policy)
    else []

end Checks

end OpenapiValidate

end Synthia
