import Synthia.Lib.FirstWrite
import Synthia.Lib.Schemas
import Synthia.Lib.Text
import Mathlib.Data.List.Dedup
import Mathlib.Data.List.Lex
import Mathlib.Data.List.Sort

/-!
# The contract gate

`openapi_diff`: two OpenAPI documents compared from the client's side, and the exit status
for all of them.

A document is what the generators emit: operations by path and method, each with its
parameters, its JSON body and the JSON schema of each response, over schemas with local
references, nested objects, arrays and enumerations. Where the source falls back on an empty
mapping, the schema is the one that says nothing. What is printed on the way is left out but
for the findings themselves, which an approval quotes; `repr` is how a list of texts is
printed.
-/

namespace Synthia

open Text Schemas

namespace OpenapiDiff

abbrev Name := List CodePoint

structure Parameter where
  location : Name
  name : Name
  required : Bool
  schema : Schema Name

structure RequestBody where
  required : Bool
  schema : Schema Name

structure Operation where
  parameters : List Parameter := []
  requestBody : Option RequestBody := none
  responses : List (Name × Schema Name) := []

structure Document where
  paths : List (Name × List (Name × Operation)) := []
  schemas : List (Name × Schema Name) := []

/-! ## Reading a document -/

/-- `_METHODS`. -/
def methods : List Name :=
  ["get", "put", "post", "delete", "patch", "head", "options", "trace"].map ofString

/-- `_operations`. -/
def operations (document : Document) : AList fun _ : Name × Name => Operation :=
  Dict.ofEntries <| document.paths.flatMap fun item =>
    (item.2.filter fun entry => methods.contains (lower entry.1)).map fun entry =>
      ((item.1, lower entry.1), entry.2)

/-- `_resolve`: one level. A name that is not there is an empty mapping. -/
def resolve (document : Document) : Schema Name → Schema Name
  | .ref name => (document.schemas.lookup name).getD .any
  | schema => schema

def requestSchema (document : Document) (operation : Operation) : Schema Name :=
  match operation.requestBody with
  | some body => resolve document body.schema
  | none => .any

def responseSchema (document : Document) (operation : Operation) (code : Name) :
    Schema Name :=
  resolve document ((operation.responses.lookup code).getD .any)

/-- `_required`. -/
def required : Schema Name → List Name
  | .object _ required => required
  | _ => []

/-- `_properties`. -/
def properties : Schema Name → List (Name × Schema Name)
  | .object properties _ => properties
  | _ => []

def typeName : ScalarType → Name
  | .string => ofString "string"
  | .integer => ofString "integer"
  | .number => ofString "number"
  | .boolean => ofString "boolean"
  | .null => ofString "null"

/-- `_type_of`. -/
def typeOf : Schema Name → Name
  | .object _ _ => ofString "object"
  | .array _ => ofString "array"
  | .value (some type) _ => typeName type
  | .ref name => ofString "#/components/schemas/" ++ name
  | .value none _ => ofString "unspecified"

/-- `str`, of what an enumeration lists. -/
def str : Literal Name → Name
  | .null => ofString "None"
  | .boolean true => ofString "True"
  | .boolean false => ofString "False"
  | .integer value => ofString (toString value)
  | .text value => value

/-- `_enum_of`. -/
def enumOf : Schema Name → List Name
  | .value _ (some values) => values.map str
  | _ => []

/-! ## Comparing -/

/-- `sorted`, of a set of texts. -/
def sorted (names : List Name) : List Name :=
  names.dedup.insertionSort fun first second => first ≤ second

theorem mem_sorted {name : Name} {names : List Name} : name ∈ sorted names ↔ name ∈ names := by
  unfold sorted
  rw [(List.perm_insertionSort _ _).mem_iff, List.mem_dedup]

/-- `sorted`, of a set of operations. -/
def sortedKeys (keys : List (Name × Name)) : List (Name × Name) :=
  keys.dedup.insertionSort fun first second =>
    first.1 < second.1 ∨ (first.1 = second.1 ∧ first.2 ≤ second.2)

/-- The difference of two sets. -/
def without {α : Type} [DecidableEq α] (first second : List α) : List α :=
  first.filter fun element => element ∉ second

/-- Their intersection. -/
def common {α : Type} [DecidableEq α] (first second : List α) : List α :=
  first.filter fun element => element ∈ second

def upper (text : Name) : Name :=
  text.map fun c =>
    if 0x61 ≤ c.val && c.val ≤ 0x7A then Fin.ofNat 0x110000 (c.val - 0x20) else c

structure Findings where
  breaking : List Name := []
  additive : List Name := []

instance : Append Findings where
  append first second :=
    { breaking := first.breaking ++ second.breaking,
      additive := first.additive ++ second.additive }

/-- Findings one after the other. -/
def Findings.all (findings : List Findings) : Findings := findings.foldr (· ++ ·) {}

def Findings.breaks (names : List Name) : Findings := { breaking := names }

def Findings.adds (names : List Name) : Findings := { additive := names }

section Comparing

variable (repr : List Name → Name) (baseline current : Document)

def typeChanged (subject field place : Name) (old new : Schema Name) : Findings :=
  let oldType := typeOf (resolve baseline old)
  let newType := typeOf (resolve current new)
  if oldType ≠ newType then
    .breaks [subject ++ ofString " field type changed: " ++ field ++ ofString " in " ++ place ++
      ofString " (" ++ oldType ++ ofString " -> " ++ newType ++ ofString ")"]
  else {}

def enumRemoved (field place : Name) (old new : Schema Name) : Findings :=
  let removed := without (enumOf old) (enumOf new)
  if removed.isEmpty then {}
  else
    .breaks [ofString "request enum value removed: " ++ field ++ ofString " in " ++ place ++
      ofString " (" ++ repr (sorted removed) ++ ofString ")"]

def inBoth (old new : List (Name × Schema Name))
    (compared : Name → Schema Name → Schema Name → Findings) : Findings :=
  .all <| (sorted (common (old.map Prod.fst) (new.map Prod.fst))).map fun field =>
    compared field ((old.lookup field).getD .any) ((new.lookup field).getD .any)

/-- `_compare_request`. -/
def compareRequest (old new : Operation) (place : Name) : Findings :=
  let oldSchema := requestSchema baseline old
  let newSchema := requestSchema current new
  let oldProperties := (properties oldSchema).map Prod.fst
  let newProperties := (properties newSchema).map Prod.fst
  .breaks ((sorted (without (required newSchema) (required oldSchema))).map fun field =>
      ofString "request field now required: " ++ field ++ ofString " in " ++ place) ++
    .adds ((sorted (without (without newProperties oldProperties) (required newSchema))).map
      fun field => ofString "optional request field added: " ++ field ++ ofString " in " ++
        place) ++
    .breaks ((sorted (without oldProperties newProperties)).map fun field =>
      ofString "request field removed: " ++ field ++ ofString " in " ++ place) ++
    inBoth (properties oldSchema) (properties newSchema) fun field old new =>
      typeChanged baseline current (ofString "request") field place old new ++
        enumRemoved repr field place old new

/-- `_compare_response`. -/
def compareResponse (old new : Operation) (code place : Name) : Findings :=
  let oldSchema := responseSchema baseline old code
  let newSchema := responseSchema current new code
  let oldProperties := (properties oldSchema).map Prod.fst
  let newProperties := (properties newSchema).map Prod.fst
  let place := place ++ ofString " " ++ code
  .breaks ((sorted (without oldProperties newProperties)).map fun field =>
      ofString "response field removed: " ++ field ++ ofString " in " ++ place) ++
    .adds ((sorted (without newProperties oldProperties)).map fun field =>
      ofString "response field added: " ++ field ++ ofString " in " ++ place) ++
    inBoth (properties oldSchema) (properties newSchema) fun field old new =>
      typeChanged baseline current (ofString "response") field place old new

/-- `indexed` of `_compare_parameters`. -/
def indexed (operation : Operation) : AList fun _ : Name => Parameter :=
  Dict.ofEntries <| operation.parameters.map fun parameter =>
    (parameter.location ++ ofString ":" ++ parameter.name, parameter)

/-- `parameters[key].get("required")`. -/
def isRequired (parameters : AList fun _ : Name => Parameter) (key : Name) : Bool :=
  (parameters.lookup key).any Parameter.required

/-- `_compare_parameters`. -/
def compareParameters (old new : Operation) (place : Name) : Findings :=
  let oldParameters := indexed old
  let newParameters := indexed new
  .breaks ((sorted (without oldParameters.keys newParameters.keys)).map fun key =>
      ofString "parameter removed: " ++ key ++ ofString " in " ++ place) ++
    .all ((sorted (without newParameters.keys oldParameters.keys)).map fun key =>
      if isRequired newParameters key then
        .breaks [ofString "required parameter added: " ++ key ++ ofString " in " ++ place]
      else .adds [ofString "optional parameter added: " ++ key ++ ofString " in " ++ place]) ++
    .all ((sorted (common oldParameters.keys newParameters.keys)).map fun key =>
      if isRequired newParameters key && !isRequired oldParameters key then
        .breaks [ofString "parameter now required: " ++ key ++ ofString " in " ++ place]
      else {})

/-- What `compare` finds of one operation that is in both documents. -/
def compareOperation (key : Name × Name) (old new : Operation) : Findings :=
  let place := upper key.2 ++ ofString " " ++ key.1
  let oldCodes := old.responses.map Prod.fst
  let newCodes := new.responses.map Prod.fst
  .breaks ((sorted (without oldCodes newCodes)).map fun code =>
      ofString "response " ++ code ++ ofString " removed: " ++ place) ++
    .adds ((sorted (without newCodes oldCodes)).map fun code =>
      ofString "response " ++ code ++ ofString " added: " ++ place) ++
    compareRequest repr baseline current old new place ++
    .all ((sorted (common oldCodes newCodes)).map fun code =>
      compareResponse baseline current old new code place) ++
    compareParameters old new place

def compare : Findings :=
  let oldOps := operations baseline
  let newOps := operations current
  .breaks ((sortedKeys (without oldOps.keys newOps.keys)).map fun key =>
      ofString "operation removed: " ++ upper key.2 ++ ofString " " ++ key.1) ++
    .adds ((sortedKeys (without newOps.keys oldOps.keys)).map fun key =>
      ofString "operation added: " ++ upper key.2 ++ ofString " " ++ key.1) ++
    .all ((sortedKeys (common oldOps.keys newOps.keys)).map fun key =>
      compareOperation repr baseline current key ((oldOps.lookup key).getD {})
        ((newOps.lookup key).getD {}))

end Comparing

/-! ## Approvals -/

/-- An entry of the register. `expiresOn` is the text of that field, and nothing where there
is no such field. -/
structure Approval where
  document : Option Name
  finding : Option Name
  expiresOn : Name

/-- `Approvals.covers`. -/
def covers (entries : List Approval) (today document finding : Name) : Option Approval :=
  entries.find? fun entry =>
    entry.document == some document && entry.finding == some finding &&
      decide (today ≤ entry.expiresOn)

/-! ## The run -/

def breakingStatus : Nat := 1

def missingBaseline : Nat := 2

/-- What one run is given: the generated documents by their paths relative to the directory,
the committed ones, the register and the date. -/
structure Run where
  generated : List (Name × Document)
  baselines : Name → Option Document
  approvals : List Approval
  today : Name

/-- The breaking findings of a document that no approval covers. -/
def unapproved (repr : List Name → Name) (run : Run) (path : Name)
    (baseline current : Document) : List Name :=
  (compare repr baseline current).breaking.filter fun finding =>
    (covers run.approvals run.today path finding).isNone

/-- One document. -/
def visit (repr : List Name → Name) (run : Run) (status : Nat) (entry : Name × Document) :
    Nat :=
  match run.baselines entry.1 with
  | none => max status missingBaseline
  | some baseline =>
      if (unapproved repr run entry.1 baseline entry.2).isEmpty then status
      else breakingStatus

/-- The order of paths, which compares their parts. -/
def inOrder (generated : List (Name × Document)) : List (Name × Document) :=
  generated.insertionSort fun first second =>
    first.1.splitOn 0x2F ≤ second.1.splitOn 0x2F

def main (repr : List Name → Name) (run : Run) : Nat :=
  if run.generated.isEmpty then missingBaseline
  else (inOrder run.generated).foldl (visit repr run) 0

end OpenapiDiff

end Synthia
