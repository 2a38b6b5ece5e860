import Synthia.ReadModels.Sessions

/-!
# Binding a query string

`Synthia.Api.Querying` and `OpaqueCursor`. A request names a sort field, a cursor, a
limit and filters; each is read against what its resource declares, and what cannot be
read is refused with a text that says so. How a cursor's payload becomes a text for a
URL, which is UTF-8 under Base64Url, is left open.
-/

namespace Synthia

open Text Relational

/-! ## The query string -/

/-- The parsed names and values of a query string, in order. -/
abbrev QueryString := List (List CodePoint × List CodePoint)

def asciiLower (c : CodePoint) : CodePoint :=
  if 0x41 ≤ c.val && c.val ≤ 0x5A then Fin.ofNat 0x110000 (c.val + 0x20) else c

/-- `StringComparison.OrdinalIgnoreCase`, as far as a text in ASCII can tell. -/
def equalsIgnoreCase (left right : List CodePoint) : Bool :=
  left.map asciiLower == right.map asciiLower

namespace QueryString

/-- The names, each as it was first spelt. Two that differ in the case of a letter outside
ASCII count as two; wherever names are looked at, the first of them is refused. -/
def keys : QueryString → List (List CodePoint)
  | [] => []
  | (name, _) :: rest => name :: (keys rest).filter fun other => !equalsIgnoreCase name other

/-- `query[name].FirstOrDefault()`. -/
def first (query : QueryString) (name : String) : Option (List CodePoint) :=
  (query.find? fun pair => equalsIgnoreCase pair.1 (ofString name)).map (·.2)

end QueryString

def isNullOrEmpty (value : Option (List CodePoint)) : Bool := (value.getD []).isEmpty

/-! ## Cursors -/

/-- `Guid.TryParseExact`, in the hyphenated form. -/
def Guid.tryParseExactD (input : List CodePoint) : Option Uuid :=
  Guid.exactD (stripWhere Guid.isWhiteSpace input)

/-- UTF-8 under Base64Url, one way and the other. -/
structure CursorCodec where
  encodeToString : List CodePoint → List CodePoint
  decodeFromChars : List CodePoint → Option (List CodePoint)

namespace OpaqueCursor

def separator : CodePoint := 0x1F

def encode (codec : CursorCodec) (position : KeysetAnchor) : List CodePoint :=
  codec.encodeToString (position.id.toText ++ separator :: position.sortValue)

/-- The position a payload holds. -/
def ofPayload (payload : List CodePoint) : Option KeysetAnchor :=
  let id := payload.takeWhile (· != separator)
  if id.isEmpty || id.length == payload.length then none
  else (Guid.tryParseExactD id).map fun id' => ⟨payload.drop (id.length + 1), id'⟩

/-- `none` is a cursor that could not be read, `some none` no cursor. -/
def tryDecode (codec : CursorCodec) (cursor : Option (List CodePoint)) :
    Option (Option KeysetAnchor) :=
  if isNullOrEmpty cursor then some none
  else ((codec.decodeFromChars (cursor.getD [])).bind ofPayload).map some

end OpaqueCursor

/-! ## What a resource declares -/

structure QueryWhitelist where
  sortable : List String
  filterable : List String
  defaultSort : SortSpec

/-- `string.Join(", ", names)`. -/
def joined (names : List (List CodePoint)) : List CodePoint :=
  List.intercalate (ofString ", ") names

/-- `names.Order(StringComparer.Ordinal)`. -/
def ordinal (names : List String) : List (List CodePoint) := orderBy id (names.map ofString)

namespace QueryWhitelist

def tryResolveSort (whitelist : QueryWhitelist) (raw : Option (List CodePoint)) :
    Option SortSpec :=
  if PrincipalFactory.isNullOrWhiteSpace raw then some whitelist.defaultSort
  else
    let text := raw.getD []
    let descending := text.head? == some 0x2D
    let field := if descending then text.drop 1 else text
    (whitelist.sortable.find? fun name => ofString name == field).map fun name =>
      ⟨name, if descending then .descending else .ascending⟩

def allowsFilterOn (whitelist : QueryWhitelist) (field : List CodePoint) : Bool :=
  whitelist.filterable.any fun name => ofString name == field

end QueryWhitelist

namespace ResourceQueries

def customerSessions : QueryWhitelist :=
  ⟨["createdAt", "updatedAt", "state"], ["state"], ⟨"createdAt", .descending⟩⟩

def customerSessionMessages : QueryWhitelist :=
  ⟨["createdAt"], ["senderKind"], ⟨"createdAt", .descending⟩⟩

def customerSessionSteps : QueryWhitelist :=
  ⟨["createdAt"], [], ⟨"createdAt", .ascending⟩⟩

def customerSessionFeedback : QueryWhitelist :=
  ⟨["updatedAt"], [], ⟨"updatedAt", .ascending⟩⟩

end ResourceQueries

/-! ## Numbers -/

/-- `int.TryParse` of digits alone. -/
def tryParseInt32 (text : List CodePoint) : Option Nat :=
  (KeysetValues.readDigits (KeysetValues.dropTrailingNulls text)).filter
    fun n => decide (n < 2 ^ 31)

/-! ## `Enum.TryParse` -/

namespace EnumText

/-- A signed number, white space after it allowed. -/
def readNumber (text : List CodePoint) : Option Int :=
  let text := (KeysetValues.dropTrailingNulls text).rdropWhile KeysetValues.isNumericSpace
  match text with
  | 0x2D :: digits => (KeysetValues.readDigits digits).map fun n => -(n : Int)
  | 0x2B :: digits => (KeysetValues.readDigits digits).map fun n => (n : Int)
  | digits => (KeysetValues.readDigits digits).map fun n => (n : Int)

def memberNamed (members : List (Int × String)) (name : List CodePoint) : Option Int :=
  (members.find? fun member =>
    equalsIgnoreCase (stripWhere Guid.isWhiteSpace name) (ofString member.2)).map (·.1)

/-- Names separated by commas; their numbers are combined bit by bit. -/
def tryParseByName (members : List (Int × String)) (text : List CodePoint) : Option Int :=
  ((text.splitOn 0x2C).mapM (memberNamed members)).map fun numbers =>
    ((numbers.foldl (fun result number => result ||| number.toNat) 0 : Nat) : Int)

def startsNumber (text : List CodePoint) : Bool :=
  match text with
  | c :: _ => (0x30 ≤ c.val && c.val ≤ 0x39) || c == 0x2D || c == 0x2B
  | [] => false

/-- `Enum.TryParse`, ignoring case. A number need not be a member's. -/
def tryParse (members : List (Int × String)) (value : List CodePoint) : Option Int :=
  let text := value.dropWhile Guid.isWhiteSpace
  if text.isEmpty then none
  else if startsNumber text then
    match readNumber text with
    | some n => if -2 ^ 31 ≤ n ∧ n < 2 ^ 31 then some n else none
    | none => tryParseByName members text
  else tryParseByName members text

end EnumText

def senderKindMembers : List (Int × String) :=
  [(0, "Unknown"), (1, "EndUser"), (2, "Agent"), (3, "Staff")]

example : EnumText.tryParse senderKindMembers (ofString " agent") = some 2 := by decide +kernel

example : EnumText.tryParse senderKindMembers (ofString "EndUser, Agent") = some 3 := by
  decide +kernel

/-! ## Binding -/

namespace QueryBinding

/-- The text a refusal quotes a value in. -/
def quoted (value : List CodePoint) : List CodePoint := 0x27 :: (value ++ [0x27])

def defaultLimit : Nat := 50
def maximumLimit : Nat := 200

def clampLimit (requested : Nat) : Nat :=
  if requested < 1 then defaultLimit else min requested maximumLimit

def tryBindLimit (query : QueryString) : Except (List CodePoint) Nat :=
  if isNullOrEmpty (query.first "limit") then .ok defaultLimit
  else
    match tryParseInt32 ((query.first "limit").getD []) with
    | none => .error (ofString "'limit' must be a positive whole number.")
    | some requested => .ok (clampLimit requested)

def tryBindPage (codec : CursorCodec) (query : QueryString) (whitelist : QueryWhitelist) :
    Except (List CodePoint) KeysetRequest :=
  match whitelist.tryResolveSort (query.first "sort") with
  | none =>
      .error (quoted ((query.first "sort").getD []) ++
        ofString " is not a sortable field on this resource. Sortable fields are: " ++
        joined (ordinal whitelist.sortable) ++ ofString ".")
  | some sort =>
      match OpaqueCursor.tryDecode codec (query.first "cursor") with
      | none =>
          .error (ofString ("The cursor could not be read. Cursors are opaque and must be " ++
            "echoed back exactly as they were issued."))
      | some position => (tryBindLimit query).map fun limit => ⟨limit, sort, position⟩

def isUnknown (members : List (Int × String)) (number : Int) : Bool :=
  (members.find? fun member => member.1 == number).any fun member => member.2 == "Unknown"

/-- A member's name with its first letter small. -/
def camelCase (name : String) : List CodePoint :=
  match ofString name with
  | [] => []
  | c :: rest => asciiLower c :: rest

def acceptedValues (members : List (Int × String)) : List (List CodePoint) :=
  (members.filter fun member => member.2 != "Unknown").map fun member => camelCase member.2

def tryBindEnum (members : List (Int × String)) (query : QueryString) (field : String) :
    Except (List CodePoint) (Option Int) :=
  if isNullOrEmpty (query.first field) then .ok none
  else
    let raw := (query.first field).getD []
    match (EnumText.tryParse members raw).filter fun number => !isUnknown members number with
    | some number => .ok (some number)
    | none =>
        .error (quoted raw ++ ofString s!" is not a valid value for {field}. " ++
          ofString "Accepted values are: " ++ joined (acceptedValues members) ++ ofString ".")

def isPaging (name : List CodePoint) : Bool :=
  name == ofString "sort" || name == ofString "cursor" || name == ofString "limit"

def tryRejectUnknownFilters (query : QueryString) (whitelist : QueryWhitelist) :
    Except (List CodePoint) Unit :=
  match query.keys.find? fun name => !isPaging name && !whitelist.allowsFilterOn name with
  | none => .ok ()
  | some name =>
      .error (quoted name ++
        ofString " is not a filterable field on this resource. Filterable fields are: " ++
        joined (ordinal whitelist.filterable) ++ ofString ".")

end QueryBinding

end Synthia
