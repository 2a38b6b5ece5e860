import Synthia.Build.OpenapiValidate

/-!
# The published documents

`ragcore.api.openapi`: the two checks of names as RagCore makes them of what it is about to
publish, and the document of one audience, cut out of the one that is generated. Both follow
references from schema to schema, the one from each request body by itself, with a set of
names, and the other from all paths at once, with a stack of nodes.
-/

namespace Synthia

open Text

namespace Openapi

open OpenapiDiff (sorted upper methods)

mutual

/-- `_references`. -/
def references : JsonNode → List Name
  | .object members => referencesMembers members
  | .array items => referencesItems items
  | _ => []

def referencesMembers : List (Name × JsonNode) → List Name
  | [] => []
  | (key, value) :: members =>
      (match key == ofString "$ref", value with
        | true, .string text => (behind "#/components/schemas/" text).toList
        | _, _ => references value) ++ referencesMembers members

def referencesItems : List JsonNode → List Name
  | [] => []
  | value :: items => references value ++ referencesItems items

end

mutual

/-- `_walk_names`, as its pairs are yielded. -/
def walkNames : JsonNode → Name → List (Name × Name)
  | .object members, path => walkMembers members path
  | .array items, path => walkItems items path 0
  | _, _ => []

def walkMembers : List (Name × JsonNode) → Name → List (Name × Name)
  | [], _ => []
  | (key, value) :: members, path =>
      let here := if path = [] then key else path ++ ofString "." ++ key
      (here, key) :: (walkNames value here ++ walkMembers members path)

def walkItems : List JsonNode → Name → Nat → List (Name × Name)
  | [], _, _ => []
  | value :: items, path, index =>
      walkNames value (path ++ ofString "[" ++ ofString (toString index) ++ ofString "]") ++
        walkItems items path (index + 1)

end

/-- The component schemas, by name. -/
def schemaGraph (document : Document) : Worklist.Graph Name JsonNode where
  names := (entries document.schemas).map Prod.fst
  find name := document.schemas.member name
  references := references
  named name h := by
    obtain ⟨schema, hschema⟩ := Option.isSome_iff_exists.mp h
    exact List.mem_map_of_mem (mem_entries_of_member hschema)

/-! ## The checks -/

section Checks

variable (python : Python)

/-- `_normalise`. -/
def normalise (name : Name) : Name := (python.lower name).filter python.isAlnum

variable (order : Worklist.Order Name) (document : Document) (policy : DisclosurePolicy)

/-- `disclosure_findings`. -/
def disclosureFindings : List Name :=
  sorted <| (walkNames document.root []).filterMap fun entry =>
    if policy.structuralKeys.contains entry.2 then none
    else
      match policy.secretTerms.find? fun term =>
          (normalise python entry.2).tails.any term.isPrefixOf with
      | some _ =>
          some (ofString "secret-bearing name " ++ python.repr entry.2 ++ ofString " at " ++
            entry.1)
      | none =>
          (policy.implementationDetail.find? fun term => normalise python entry.2 == term).map
            fun _ => ofString "internal-only name " ++ python.repr entry.2 ++ ofString " at " ++
              entry.1

def permitted (audience name location : Name) : Bool :=
  policy.exceptions.any fun exception =>
    normalise python exception.name == normalise python name && exception.location == location &&
      exception.audiences.contains audience

/-- The schemas one request body reaches. -/
def reachedFrom (body : JsonNode) : List Name :=
  Worklist.search (schemaGraph document) order (references body).dedup []

/-- `_authority_in_request`. -/
def authorityInRequest (body : JsonNode) : List Name :=
  (reachedFrom order document body).flatMap fun schemaName =>
    let properties := ((document.schemas.member schemaName).map (child "properties")).getD .null
    ((entries properties).filter fun field =>
        policy.derivedAuthority.contains (normalise python field.1)).map fun field =>
      ofString "client-suppliable authority: request field " ++ python.repr field.1 ++
        ofString " on schema " ++ python.repr schemaName

/-- What is found of the parameters of one operation. -/
def parameterFindings (audience path method : Name) (operation : JsonNode) : List Name :=
  (parametersOf operation).filterMap fun parameter =>
    let name := text python "name" parameter
    let location := text python "in" parameter
    if isObject parameter && policy.derivedAuthority.contains (normalise python name) &&
        !permitted python policy audience name location then
      some (ofString "client-suppliable authority: " ++ location ++ ofString " parameter " ++
        python.repr name ++ ofString " on " ++ upper method ++ ofString " " ++ path)
    else none

/-- What is found of one operation. -/
def operationFindings (audience path method : Name) (operation : JsonNode) : List Name :=
  (if policy.forbiddenIn.contains (ofString "parameter") then
    parameterFindings python policy audience path method operation
  else []) ++
  if policy.forbiddenIn.contains (ofString "requestBody") then
    match get "requestBody" operation with
    | some (.object members) => authorityInRequest python order document policy (.object members)
    | _ => []
  else []

/-- `authority_findings`. -/
def authorityFindings (audience : Name) : List Name :=
  sorted <| document.paths.flatMap fun item =>
    (entries item.2).flatMap fun entry =>
      if methods.contains (python.lower entry.1) && isObject entry.2 then
        operationFindings python order document policy audience item.1 entry.1 entry.2
      else []

end Checks

/-! ## The document of an audience -/

/-- `CONTRACT_VERSION`. -/
def contractVersion : Name := ofString "v1"

/-- `AUDIENCES`. -/
def audiences : List Name := ["customer", "staff", "workload"].map ofString

/-- What `audience_prefix` raises. -/
structure ValueError where
  audience : Name
  deriving DecidableEq, Repr

/-- `_PREFIX`, of an audience. -/
def prefixOf (audience : Name) : Name :=
  ofString "/api/" ++ audience ++ ofString "/" ++ contractVersion

/-- `audience_prefix`. -/
def audiencePrefix (audience : Name) : Except ValueError Name :=
  if audiences.contains audience then .ok (prefixOf audience) else .error ⟨audience⟩

mutual

/-- The texts of all references, to whatever they refer. -/
def pointers : JsonNode → List Name
  | .object members => pointersMembers members
  | .array items => pointersItems items
  | _ => []

def pointersMembers : List (Name × JsonNode) → List Name
  | [] => []
  | (key, value) :: members =>
      (match key == ofString "$ref", value with
        | true, .string text => [text]
        | _, _ => pointers value) ++ pointersMembers members

def pointersItems : List JsonNode → List Name
  | [] => []
  | value :: items => pointers value ++ pointersItems items

end

/-- The text leads to one of the schemas. -/
def LeadsTo (schemas : JsonNode) (text : Name) : Prop :=
  ∃ name, text = ofString "#/components/schemas/" ++ name ∧ (schemas.member name).isSome = true

/-- What the application generates: its references lead to schemas, and those are mappings,
each under a name of its own. -/
structure GeneratedDocument extends Document where
  schemasOnce : ((entries toDocument.schemas).map Prod.fst).Nodup
  schemasObjects : ∀ entry ∈ entries toDocument.schemas, isObject entry.2 = true
  resolves : ∀ text ∈ pointers root, LeadsTo toDocument.schemas text
  versionText : ∀ version, get "openapi" root = some version → ∃ text, version = .string text

/-- `_reachable_components`. -/
def reachableComponents (full : Document) (paths : List (Name × JsonNode)) :
    List (Name × JsonNode) :=
  if (entries full.schemas).isEmpty then []
  else
    let wanted := Worklist.collect (schemaGraph full) [.object paths] []
    (entries full.schemas).filter fun entry => wanted.contains entry.1

/-- `audience.capitalize()`, of one of the three. -/
def capitalize (audience : Name) : Name := upper (audience.take 1) ++ audience.drop 1

def info (audience : Name) : JsonNode :=
  .object
    [(ofString "title", .string (ofString "Synthia " ++ capitalize audience ++ ofString " API")),
      (ofString "version", .string contractVersion),
      (ofString "description", .string (ofString "The " ++ audience ++ ofString
        (" audience. Generated from the running service; not hand-maintained. Identity is " ++
          "derived at the gateway and no operation accepts a tenant, role or audience " ++
          "parameter.")))]

/-- The paths that begin with a prefix. -/
def pathsOf (full : Document) (start : Name) : List (Name × JsonNode) :=
  full.paths.filter fun item => start.isPrefixOf item.1

/-- The member `components`, where there are some. -/
def componentsMember (components : List (Name × JsonNode)) : List (Name × JsonNode) :=
  if components.isEmpty then []
  else [(ofString "components", .object
    [(ofString "schemas", .object (Json.sortKeys components))])]

/-- `audience_document`, behind its prefix. -/
def documentOf (full : Document) (audience start : Name) : JsonNode :=
  .object <|
    [(ofString "openapi", (get "openapi" full.root).getD (.string (ofString "3.1.0"))),
      (ofString "info", info audience),
      (ofString "paths", .object (Json.sortKeys (pathsOf full start)))] ++
    componentsMember (reachableComponents full (pathsOf full start))

/-- `audience_document`. -/
def audienceDocument (full : Document) (audience : Name) : Except ValueError JsonNode :=
  (audiencePrefix audience).map (documentOf full audience)

end Openapi

end Synthia
