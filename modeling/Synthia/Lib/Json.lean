import Mathlib.Data.List.Lex
import Mathlib.Data.List.Sort
import Mathlib.Logic.Relation
import Synthia.Lib.Text
import Synthia.Lib.Numeral

/-!
# JSON

Documents over any kind of character, how Python writes one and how a reader
takes one apart. The grammar of arrays, objects and numbers is the same in every
language; how a string literal is read is not, so a reader brings its own
`string`, and its own `scalar` where the language knows words JSON does not.

A reader is given fuel, two for every character and two more: of two nested
calls at least one has consumed a character.

The results for later use are `jsonParse_dumps` and `jsonLoads_dumps`: an object of
text and nulls that Python writes is the object JavaScript reads, in UTF-16, and
the object Python reads, where no surrogate stands in the text. Both are one
induction, over a reader and the encoding its text is in.
-/

namespace Json

open Text

inductive Value (α : Type) where
  | null
  | bool (value : Bool)
  | number (literal : List α)
  | string (text : List α)
  | array (items : List (Value α))
  | object (members : List (List α × Value α))

/-- The member of that name. A name given twice keeps its last value. -/
def Value.member {α : Type} [BEq α] (key : List α) : Value α → Option (Value α)
  | .object members => (members.reverse.find? fun entry => entry.1 == key).map Prod.snd
  | _ => none

/-- Text, or `null` in its place. -/
def leaf {α : Type} : Option (List α) → Value α
  | none => .null
  | some text => .string text

/-! ## Writing, as Python does -/

/-- `\uXXXX`. -/
def escapeUnit (unit : CodeUnit) : List CodePoint :=
  [0x5C, 0x75, hexChar (unit.val / 0x1000), hexChar (unit.val / 0x100 % 0x10),
   hexChar (unit.val / 0x10 % 0x10), hexChar (unit.val % 0x10)]

/-- One character of a string literal, under `ensure_ascii`. -/
def escapeChar (c : CodePoint) : List CodePoint :=
  if c.val = 0x22 then [0x5C, 0x22]
  else if c.val = 0x5C then [0x5C, 0x5C]
  else if c.val = 0x0A then [0x5C, 0x6E]
  else if c.val = 0x0D then [0x5C, 0x72]
  else if c.val = 0x09 then [0x5C, 0x74]
  else if c.val = 0x0C then [0x5C, 0x66]
  else if c.val = 0x08 then [0x5C, 0x62]
  else if 0x20 ≤ c.val ∧ c.val ≤ 0x7E then [c]
  else (codeUnits c).flatMap escapeUnit

def quote (text : List CodePoint) : List CodePoint :=
  0x22 :: (text.flatMap escapeChar ++ [0x22])

mutual

/-- `json.dumps`. The gap stands behind every comma and every colon: empty for
`separators=(',', ':')`, one space by default. -/
def dumps (gap : List CodePoint) : Value CodePoint → List CodePoint
  | .null => ofString "null"
  | .bool true => ofString "true"
  | .bool false => ofString "false"
  | .number literal => literal
  | .string text => quote text
  | .array [] => [0x5B, 0x5D]
  | .array (item :: items) => 0x5B :: (dumps gap item ++ dumpsItems gap items)
  | .object [] => [0x7B, 0x7D]
  | .object ((name, item) :: members) =>
      0x7B :: (quote name ++ 0x3A :: gap ++ dumps gap item ++ dumpsMembers gap members)

/-- The items behind the first, and the closing bracket. -/
def dumpsItems (gap : List CodePoint) : List (Value CodePoint) → List CodePoint
  | [] => [0x5D]
  | item :: items => 0x2C :: gap ++ dumps gap item ++ dumpsItems gap items

/-- The members behind the first, and the closing brace. -/
def dumpsMembers (gap : List CodePoint) :
    List (List CodePoint × Value CodePoint) → List CodePoint
  | [] => [0x7D]
  | (name, item) :: members =>
      0x2C :: gap ++ quote name ++ 0x3A :: gap ++ dumps gap item ++ dumpsMembers gap members

end

/-- Python takes a number literal with one of these in it for a float. -/
def isFloatPart (c : CodePoint) : Bool :=
  ([0x2E, 0x65, 0x45, 0x4E, 0x49] : List CodePoint).contains c

/-- The number a text of decimal digits stands for. -/
def natOf (digits : List CodePoint) : Nat :=
  digits.foldl (fun value digit => 10 * value + (digit.val - 0x30)) 0

/-- Python reads a zero from the literal: a number as close to zero as half the least
double, `2 ^ (-1075)`, is rounded to it. -/
def roundsToZero (literal : List CodePoint) : Bool :=
  let mantissa := literal.takeWhile fun c => c.val ≠ 0x65 ∧ c.val ≠ 0x45
  let exponent := (literal.drop mantissa.length).tail
  let whole := mantissa.takeWhile (· != 0x2E)
  let fraction := (mantissa.drop whole.length).tail
  let digits := natOf (whole.dropWhile (· == 0x2D) ++ fraction)
  let power := natOf (exponent.dropWhile fun c => c.val = 0x2B ∨ c.val = 0x2D)
  -- the digits stand for themselves over as many tens as the fraction is long
  if exponent.head? = some 0x2D then digits * 2 ^ 1075 ≤ 10 ^ (fraction.length + power)
  else digits * 10 ^ power * 2 ^ 1075 ≤ 10 ^ fraction.length

/-- What Python writes of a number it has read: a float as `float.__repr__` has it, and an
integer in its digits. Only zero has two literals. -/
def numberText (floatText : List CodePoint → List CodePoint) (literal : List CodePoint) :
    List CodePoint :=
  if literal.any isFloatPart then floatText literal
  else if literal = ofString "-0" then ofString "0"
  else literal

section

variable (floatText : List CodePoint → List CodePoint)

mutual

/-- A document that was read, with its numbers as Python writes them again. -/
def Value.rewritten : Value CodePoint → Value CodePoint
  | .null => .null
  | .bool value => .bool value
  | .number literal => .number (numberText floatText literal)
  | .string text => .string text
  | .array items => .array (rewrittenItems items)
  | .object members => .object (rewrittenMembers members)

def rewrittenItems : List (Value CodePoint) → List (Value CodePoint)
  | [] => []
  | item :: items => item.rewritten :: rewrittenItems items

def rewrittenMembers :
    List (List CodePoint × Value CodePoint) → List (List CodePoint × Value CodePoint)
  | [] => []
  | (name, item) :: members => (name, item.rewritten) :: rewrittenMembers members

end

end

/-- `sort_keys=True`. -/
def sortKeys {β : Type} (members : List (List CodePoint × β)) : List (List CodePoint × β) :=
  members.insertionSort fun a b => a.1 ≤ b.1

/-! ## Reading -/

structure Reader (α : Type) where
  /-- The number a character is known by. -/
  code : α → Nat
  /-- A string literal, behind its opening quote. -/
  string : List α → Option (List α × List α)
  /-- A word or a number. -/
  scalar : List α → Option (Value α × List α)

namespace Reader

variable {α : Type} (reader : Reader α)

def isGap (c : α) : Bool :=
  reader.code c == 0x20 || reader.code c == 0x09 || reader.code c == 0x0A ||
    reader.code c == 0x0D

def skip (text : List α) : List α := text.dropWhile reader.isGap

/-- The text behind the character asked for, with blanks before it. -/
def expect (wanted : Nat) (text : List α) : Option (List α) :=
  match reader.skip text with
  | [] => none
  | c :: rest => if reader.code c = wanted then some rest else none

mutual

/-- A value, and the text behind it. -/
def value : Nat → List α → Option (Value α × List α)
  | 0, _ => none
  | fuel + 1, text =>
      match reader.expect 0x22 text with
      | some rest => (reader.string rest).map fun read => (.string read.1, read.2)
      | none =>
          match reader.expect 0x5B text with
          | some rest =>
              match reader.expect 0x5D rest with
              | some rest => some (.array [], rest)
              | none => (items fuel rest).map fun read => (.array read.1, read.2)
          | none =>
              match reader.expect 0x7B text with
              | some rest =>
                  match reader.expect 0x7D rest with
                  | some rest => some (.object [], rest)
                  | none => (members fuel rest).map fun read => (.object read.1, read.2)
              | none => reader.scalar (reader.skip text)

/-- One item or more, up to the closing bracket. -/
def items : Nat → List α → Option (List (Value α) × List α)
  | 0, _ => none
  | fuel + 1, text =>
      match value fuel text with
      | none => none
      | some (item, rest) =>
          match reader.expect 0x2C rest with
          | some rest => (items fuel rest).map fun read => (item :: read.1, read.2)
          | none => (reader.expect 0x5D rest).map fun rest => ([item], rest)

/-- One member or more, up to the closing brace. -/
def members : Nat → List α → Option (List (List α × Value α) × List α)
  | 0, _ => none
  | fuel + 1, text =>
      match (reader.expect 0x22 text).bind reader.string with
      | none => none
      | some (name, rest) =>
          match (reader.expect 0x3A rest).bind (value fuel) with
          | none => none
          | some (item, rest) =>
              match reader.expect 0x2C rest with
              | some rest =>
                  (members fuel rest).map fun read => ((name, item) :: read.1, read.2)
              | none => (reader.expect 0x7D rest).map fun rest => ([(name, item)], rest)

end

/-- The value of a text that holds one and nothing else. -/
def parse (text : List α) : Option (Value α) :=
  match reader.value (2 * text.length + 2) text with
  | none => none
  | some (found, rest) => if (reader.skip rest).isEmpty then some found else none

end Reader

/-! ### Words and numbers -/

section

variable {α : Type} (code : α → Nat)

/-- The text behind a word. -/
def afterWord : List Nat → List α → Option (List α)
  | [], text => some text
  | _ :: _, [] => none
  | n :: word, c :: rest => if code c = n then afterWord word rest else none

def isDigit (n : Nat) : Bool := 0x30 ≤ n && n ≤ 0x39

def isExponent : List Nat → Bool
  | [] => true
  | e :: rest =>
      let digits := match rest with
        | sign :: digits => if sign == 0x2B || sign == 0x2D then digits else rest
        | [] => []
      (e == 0x65 || e == 0x45) && !digits.isEmpty && digits.all isDigit

def isFraction : List Nat → Bool
  | [] => true
  | c :: rest =>
      if c == 0x2E then
        (rest.head?.any isDigit) && isExponent (rest.dropWhile isDigit)
      else isExponent (c :: rest)

def isUnsigned : List Nat → Bool
  | [] => false
  | c :: rest =>
      if c == 0x30 then isFraction rest
      else isDigit c && isFraction (rest.dropWhile isDigit)

/-- Whether the text is a number of the grammar. -/
def isNumber : List Nat → Bool
  | [] => false
  | c :: rest => if c == 0x2D then isUnsigned rest else isUnsigned (c :: rest)

/-- The characters of numbers. A number ends where they do: what follows one is
a blank, a comma, a bracket or nothing. -/
def isNumberPart (n : Nat) : Bool :=
  isDigit n || n == 0x2B || n == 0x2D || n == 0x2E || n == 0x65 || n == 0x45

/-- The words of the grammar and its numbers, which stay as they are written. -/
def scalar (text : List α) : Option (Value α × List α) :=
  match afterWord code [0x6E, 0x75, 0x6C, 0x6C] text with
  | some rest => some (.null, rest)
  | none =>
      match afterWord code [0x74, 0x72, 0x75, 0x65] text with
      | some rest => some (.bool true, rest)
      | none =>
          match afterWord code [0x66, 0x61, 0x6C, 0x73, 0x65] text with
          | some rest => some (.bool false, rest)
          | none =>
              let literal := text.takeWhile fun c => isNumberPart (code c)
              if isNumber (literal.map code) then
                some (.number literal, text.dropWhile fun c => isNumberPart (code c))
              else none

end

/-! ### JavaScript -/

/-- What the letter behind a backslash stands for. -/
def escapes : List (Nat × CodeUnit) :=
  [(0x22, 0x22), (0x5C, 0x5C), (0x2F, 0x2F), (0x62, 0x08), (0x66, 0x0C), (0x6E, 0x0A),
   (0x72, 0x0D), (0x74, 0x09)]

/-- The code unit four hexadecimal digits name. -/
def unitOfHex (digits : List CodeUnit) : Option CodeUnit :=
  match digits.map fun digit => hexDigit digit.val with
  | [some a, some b, some c, some d] =>
      some (Fin.ofNat 0x10000 (0x1000 * a + 0x100 * b + 0x10 * c + d))
  | _ => none

/-- A unit in front of what was read behind it. -/
def push (unit : CodeUnit) (read : Option (List CodeUnit × List CodeUnit)) :
    Option (List CodeUnit × List CodeUnit) :=
  read.map fun found => (unit :: found.1, found.2)

def scanString : List CodeUnit → Option (List CodeUnit × List CodeUnit)
  | [] => none
  | c :: rest =>
      if c = 0x22 then some ([], rest)
      else if c.val < 0x20 then none
      else if c = 0x5C then
        match rest with
        | [] => none
        | letter :: rest =>
            if letter = 0x75 then
              match rest with
              | first :: second :: third :: fourth :: rest =>
                  match unitOfHex [first, second, third, fourth] with
                  | some unit => push unit (scanString rest)
                  | none => none
              | _ => none
            else
              match escapes.lookup letter.val with
              | some unit => push unit (scanString rest)
              | none => none
      else push c (scanString rest)

def javaScript : Reader CodeUnit where
  code := Fin.val
  string := scanString
  scalar := scalar Fin.val

/-- `JSON.parse`; `none` where it throws. -/
def jsonParse (text : List CodeUnit) : Option (Value CodeUnit) := javaScript.parse text

/-! ### Python -/

/-- The number four hexadecimal digits name. -/
def numberOfHex (digits : List CodePoint) : Option Nat :=
  match digits.map fun digit => hexDigit digit.val with
  | [some a, some b, some c, some d] => some (0x1000 * a + 0x100 * b + 0x10 * c + d)
  | _ => none

def isHighSurrogate (n : Nat) : Bool := 0xD800 ≤ n && n ≤ 0xDBFF

def isLowSurrogate (n : Nat) : Bool := 0xDC00 ≤ n && n ≤ 0xDFFF

/-- A character in front of what was read behind it. -/
def pushChar (c : Nat) (read : Option (List CodePoint × List CodePoint)) :
    Option (List CodePoint × List CodePoint) :=
  read.map fun found => (Fin.ofNat 0x110000 c :: found.1, found.2)

/-- `json.decoder.scanstring`: two escapes that are a surrogate pair are one
character. -/
def scanText : List CodePoint → Option (List CodePoint × List CodePoint)
  | [] => none
  | c :: rest =>
      if c = 0x22 then some ([], rest)
      else if c.val < 0x20 then none
      else if c = 0x5C then
        match rest with
        | [] => none
        | letter :: rest =>
            if letter = 0x75 then
              match rest with
              | first :: second :: third :: fourth :: rest =>
                  match numberOfHex [first, second, third, fourth] with
                  | none => none
                  | some high =>
                      if isHighSurrogate high then
                        match rest with
                        | slash :: u :: first :: second :: third :: fourth :: behind =>
                            if slash = 0x5C ∧ u = 0x75 then
                              match numberOfHex [first, second, third, fourth] with
                              | none => none
                              | some low =>
                                  if isLowSurrogate low then
                                    pushChar (0x10000 + (high - 0xD800) * 0x400 + (low - 0xDC00))
                                      (scanText behind)
                                  else
                                    pushChar high (scanText
                                      (slash :: u :: first :: second :: third :: fourth :: behind))
                            else
                              pushChar high (scanText
                                (slash :: u :: first :: second :: third :: fourth :: behind))
                        | rest => pushChar high (scanText rest)
                      else
                        pushChar high (scanText rest)
              | _ => none
            else
              match escapes.lookup letter.val with
              | some unit => pushChar unit.val (scanText rest)
              | none => none
      else pushChar c.val (scanText rest)

/-- The digits `int` takes of a text, unless the interpreter is told otherwise. -/
def maxStrDigits : Nat := 4300

/-- The words of the grammar and the three Python adds. An integer of too many digits is
none. -/
def pythonScalar (text : List CodePoint) : Option (Value CodePoint × List CodePoint) :=
  match scalar Fin.val text with
  | some (.number literal, rest) =>
      let digits := literal.dropWhile (· == 0x2D)
      if !literal.any isFloatPart ∧ maxStrDigits < digits.length then none
      else some (.number literal, rest)
  | some read => some read
  | none =>
      [ofString "NaN", ofString "Infinity", ofString "-Infinity"].findSome? fun word =>
        (afterWord Fin.val (word.map Fin.val) text).map fun rest => (.number word, rest)

def python : Reader CodePoint where
  code := Fin.val
  string := scanText
  scalar := pythonScalar

/-- `json.loads` on a `str`; `none` where it raises `ValueError`. A document nested past the
recursion limit, where it raises `RecursionError`, is read like any other. -/
def jsonLoads (text : List CodePoint) : Option (Value CodePoint) := python.parse text

/-! ## What Python writes, JavaScript reads -/

/-- The character of a hexadecimal digit, as one code unit. -/
theorem codeUnits_hexChar : ∀ digit < 0x10,
    ∃ unit, codeUnits (hexChar digit) = [unit] ∧ hexDigit unit.val = some digit := by
  intro digit hdigit
  refine ⟨Fin.ofNat 0x10000 (hexChar digit).val, codeUnits_of_lt ?_, ?_⟩
  · rw [hexChar, Fin.val_ofNat]
    split <;> omega
  · have hall : ∀ digit : Fin 0x10, hexDigit (Fin.ofNat 0x10000 (hexChar digit).val).val =
        some digit.val := by decide
    exact hall ⟨digit, hdigit⟩

/-- A `\uXXXX` stands for the unit it was made from. -/
theorem scanString_escapeUnit (unit : CodeUnit) (rest : List CodeUnit) :
    scanString (utf16 (escapeUnit unit) ++ rest) = push unit (scanString rest) := by
  have hunit := unit.isLt
  obtain ⟨a, ha, hda⟩ := codeUnits_hexChar (unit.val / 0x1000) (by omega)
  obtain ⟨b, hb, hdb⟩ := codeUnits_hexChar (unit.val / 0x100 % 0x10) (by omega)
  obtain ⟨c, hc, hdc⟩ := codeUnits_hexChar (unit.val / 0x10 % 0x10) (by omega)
  obtain ⟨d, hd, hdd⟩ := codeUnits_hexChar (unit.val % 0x10) (by omega)
  have htext : utf16 (escapeUnit unit) = [0x5C, 0x75, a, b, c, d] := by
    rw [escapeUnit, utf16_cons, utf16_cons, utf16_cons, utf16_cons, utf16_cons, utf16_cons,
      ha, hb, hc, hd]
    rfl
  have hhex : unitOfHex [a, b, c, d] = some unit := by
    simp only [unitOfHex, List.map_cons, List.map_nil, hda, hdb, hdc, hdd]
    congr 1
    apply Fin.ext
    rw [Fin.val_ofNat]
    omega
  rw [htext]
  show (match unitOfHex [a, b, c, d] with
    | some unit => push unit (scanString rest)
    | none => none) = push unit (scanString rest)
  rw [hhex]

@[simp] theorem scanString_end (rest : List CodeUnit) :
    scanString (0x22 :: rest) = some ([], rest) := by
  rw [scanString.eq_def]
  exact if_pos rfl

/-- A letter behind a backslash stands for the unit the table names. -/
theorem scanString_letter {letter unit : CodeUnit} (rest : List CodeUnit)
    (hu : letter ≠ 0x75) (hunit : escapes.lookup letter.val = some unit) :
    scanString (0x5C :: letter :: rest) = push unit (scanString rest) := by
  rw [scanString.eq_def]
  simp only []
  rw [if_neg (by decide), if_neg (by decide), if_pos trivial, if_neg hu, hunit]

/-- Any other unit that is no control character stands for itself. -/
theorem scanString_plain {unit : CodeUnit} (rest : List CodeUnit) (hquote : unit ≠ 0x22)
    (hslash : unit ≠ 0x5C) (hcontrol : ¬ unit.val < 0x20) :
    scanString (unit :: rest) = push unit (scanString rest) := by
  rw [scanString.eq_def]
  simp only []
  rw [if_neg hquote, if_neg hcontrol, if_neg hslash]

/-- One character in front of a string literal is one in front of its text. -/
theorem scanString_escapeChar (c : CodePoint) (rest : List CodeUnit) :
    scanString (utf16 (escapeChar c) ++ rest) =
      (scanString rest).map fun read => (codeUnits c ++ read.1, read.2) := by
  have hshort : ∀ n : CodePoint, c.val = n.val → c = n := fun n h => Fin.ext h
  unfold escapeChar
  split
  · next h => rw [hshort 0x22 h]; exact scanString_letter rest (by decide) rfl
  split
  · next h => rw [hshort 0x5C h]; exact scanString_letter rest (by decide) rfl
  split
  · next h => rw [hshort 0x0A h]; exact scanString_letter rest (by decide) rfl
  split
  · next h => rw [hshort 0x0D h]; exact scanString_letter rest (by decide) rfl
  split
  · next h => rw [hshort 0x09 h]; exact scanString_letter rest (by decide) rfl
  split
  · next h => rw [hshort 0x0C h]; exact scanString_letter rest (by decide) rfl
  split
  · next h => rw [hshort 0x08 h]; exact scanString_letter rest (by decide) rfl
  split
  · next hquote hslash _ _ _ _ _ hprintable =>
    -- a printable character stands for itself
    have hval : (Fin.ofNat 0x10000 c.val).val = c.val := Nat.mod_eq_of_lt (by omega)
    have hunits := @codeUnits_of_lt c (by omega)
    have h1 : Fin.ofNat 0x10000 c.val ≠ 0x22 := fun h => hquote (by rw [← hval, h]; rfl)
    have h2 : Fin.ofNat 0x10000 c.val ≠ 0x5C := fun h => hslash (by rw [← hval, h]; rfl)
    have h3 : ¬ (Fin.ofNat 0x10000 c.val).val < 0x20 := by rw [hval]; omega
    rw [utf16_cons, hunits, utf16_nil, List.append_nil, List.singleton_append,
      scanString_plain rest h1 h2 h3]
    rfl
  · -- anything else is escaped unit by unit
    generalize codeUnits c = written
    induction written with
    | nil => cases h : scanString rest <;> simp [h]
    | cons unit written ih =>
        rw [List.flatMap_cons, utf16_append, List.append_assoc, scanString_escapeUnit, ih]
        cases scanString rest <;> rfl

theorem scanString_quoted (text : List CodePoint) (rest : List CodeUnit) :
    scanString (utf16 (text.flatMap escapeChar) ++ 0x22 :: rest) =
      some (utf16 text, rest) := by
  induction text with
  | nil => exact scanString_end rest
  | cons c text ih =>
      rw [List.flatMap_cons, utf16_append, List.append_assoc, scanString_escapeChar, ih,
        utf16_cons]
      rfl

/-! ### What a flat object looks like -/

/-- The object of those members. -/
def flat {α : Type} (entries : List (List α × Option (List α))) : Value α :=
  .object (entries.map fun entry => (entry.1, leaf entry.2))

def Printable (text : List CodePoint) : Prop := ∀ c ∈ text, 0x20 ≤ c.val ∧ c.val ≤ 0x7E

theorem Printable.nil : Printable [] := by
  intro c hc
  cases hc

theorem Printable.append {first second : List CodePoint} (hfirst : Printable first)
    (hsecond : Printable second) : Printable (first ++ second) := by
  intro c hc
  cases List.mem_append.mp hc with
  | inl h => exact hfirst c h
  | inr h => exact hsecond c h

theorem Printable.cons {c : CodePoint} {text : List CodePoint}
    (hc : 0x20 ≤ c.val ∧ c.val ≤ 0x7E) (htext : Printable text) : Printable (c :: text) := by
  intro d hd
  cases List.mem_cons.mp hd with
  | inl h => rw [h]; exact hc
  | inr h => exact htext d h

theorem hexChar_printable : ∀ digit < 0x10,
    0x20 ≤ (hexChar digit).val ∧ (hexChar digit).val ≤ 0x7E := by
  decide

theorem escapeUnit_printable (unit : CodeUnit) : Printable (escapeUnit unit) := by
  have hunit := unit.isLt
  exact .cons (by decide) (.cons (by decide)
    (.cons (hexChar_printable _ (by omega)) (.cons (hexChar_printable _ (by omega))
      (.cons (hexChar_printable _ (by omega)) (.cons (hexChar_printable _ (by omega))
        .nil)))))

theorem escapeChar_printable (c : CodePoint) : Printable (escapeChar c) := by
  have hshort : ∀ letter : CodePoint, 0x20 ≤ letter.val ∧ letter.val ≤ 0x7E →
      Printable [0x5C, letter] := fun letter hletter =>
    .cons (by decide) (.cons hletter .nil)
  unfold escapeChar
  split
  · exact hshort 0x22 (by decide)
  split
  · exact hshort 0x5C (by decide)
  split
  · exact hshort 0x6E (by decide)
  split
  · exact hshort 0x72 (by decide)
  split
  · exact hshort 0x74 (by decide)
  split
  · exact hshort 0x66 (by decide)
  split
  · exact hshort 0x62 (by decide)
  split
  · next hprintable => exact .cons hprintable .nil
  · intro d hd
    obtain ⟨unit, _, hunit⟩ := List.mem_flatMap.mp hd
    exact escapeUnit_printable unit d hunit

theorem quote_printable (text : List CodePoint) : Printable (quote text) := by
  refine .cons (by decide) (.append ?_ (.cons (by decide) .nil))
  intro d hd
  obtain ⟨c, _, hc⟩ := List.mem_flatMap.mp hd
  exact escapeChar_printable c d hc

theorem dumps_leaf_printable (gap : List CodePoint) (item : Option (List CodePoint)) :
    Printable (dumps gap (leaf item)) := by
  cases item with
  | none => exact .cons (by decide) (.cons (by decide) (.cons (by decide) (.cons (by decide) .nil)))
  | some text => exact quote_printable text

/-- Everything `json.dumps` writes for a flat object is printable ASCII, whatever
the text in it. -/
theorem dumps_flat_printable {gap : List CodePoint} (hgap : Printable gap)
    (entries : List (List CodePoint × Option (List CodePoint))) :
    Printable (dumps gap (flat entries)) := by
  have hmembers : ∀ entries : List (List CodePoint × Option (List CodePoint)),
      Printable (dumpsMembers gap (entries.map fun entry => (entry.1, leaf entry.2))) := by
    intro entries
    induction entries with
    | nil => exact .cons (by decide) .nil
    | cons entry entries ih =>
        rw [List.map_cons, dumpsMembers]
        exact .append (.append (.append (.cons (by decide) (.append hgap
          (quote_printable _))) (.cons (by decide) hgap)) (dumps_leaf_printable gap _)) ih
  cases entries with
  | nil => exact .cons (by decide) (.cons (by decide) .nil)
  | cons entry entries =>
      rw [flat, List.map_cons, dumps]
      exact .cons (by decide) (.append (.append (.append (quote_printable _)
        (.cons (by decide) hgap)) (dumps_leaf_printable gap _)) (hmembers entries))

theorem dumpsMembers_last (gap : List CodePoint)
    (members : List (List CodePoint × Value CodePoint)) :
    ∃ middle, dumpsMembers gap members = middle ++ [0x7D] := by
  induction members with
  | nil => exact ⟨[], rfl⟩
  | cons entry members ih =>
      obtain ⟨middle, hmiddle⟩ := ih
      rw [dumpsMembers, hmiddle, ← List.append_assoc]
      exact ⟨_, rfl⟩

/-- An object is written between braces. -/
theorem dumps_braces (gap : List CodePoint)
    (members : List (List CodePoint × Value CodePoint)) :
    ∃ middle, dumps gap (.object members) = 0x7B :: (middle ++ [0x7D]) := by
  cases members with
  | nil => exact ⟨[], rfl⟩
  | cons entry members =>
      obtain ⟨middle, hmiddle⟩ := dumpsMembers_last gap members
      rw [dumps, hmiddle, ← List.append_assoc]
      exact ⟨_, rfl⟩

/-! ### Blanks -/

namespace Reader

variable {α : Type} (reader : Reader α)

theorem skip_append {gap : List α} (hgap : ∀ c ∈ gap, reader.isGap c = true)
    (text : List α) : reader.skip (gap ++ text) = reader.skip text := by
  induction gap with
  | nil => rfl
  | cons c gap ih =>
      rw [List.cons_append, skip, List.dropWhile_cons_of_pos (hgap c List.mem_cons_self)]
      exact ih fun d hd => hgap d (List.mem_cons_of_mem _ hd)

theorem expect_append {gap : List α} (hgap : ∀ c ∈ gap, reader.isGap c = true)
    (wanted : Nat) (text : List α) :
    reader.expect wanted (gap ++ text) = reader.expect wanted text := by
  rw [expect, skip_append reader hgap]
  rfl

theorem value_append {gap : List α} (hgap : ∀ c ∈ gap, reader.isGap c = true)
    (fuel : Nat) (text : List α) :
    reader.value fuel (gap ++ text) = reader.value fuel text := by
  cases fuel with
  | zero => rfl
  | succ fuel =>
      rw [value, value, expect_append reader hgap, expect_append reader hgap,
        expect_append reader hgap, skip_append reader hgap]

theorem members_append {gap : List α} (hgap : ∀ c ∈ gap, reader.isGap c = true)
    (fuel : Nat) (text : List α) :
    reader.members fuel (gap ++ text) = reader.members fuel text := by
  cases fuel with
  | zero => rfl
  | succ fuel => rw [members, members, expect_append reader hgap]

theorem expect_found {c : α} (hgap : reader.isGap c = false) {wanted : Nat}
    (hcode : reader.code c = wanted) (text : List α) :
    reader.expect wanted (c :: text) = some text := by
  rw [expect, skip, List.dropWhile_cons_of_neg (by rw [hgap]; decide)]
  exact if_pos hcode

theorem expect_missing {c : α} (hgap : reader.isGap c = false) {wanted : Nat}
    (hcode : reader.code c ≠ wanted) (text : List α) :
    reader.expect wanted (c :: text) = none := by
  rw [expect, skip, List.dropWhile_cons_of_neg (by rw [hgap]; decide)]
  exact if_neg hcode

end Reader

/-! ### Objects of text and nulls

What a reader has to bring to read these back: its text is the written text under an
encoding that leaves ASCII one to one, and it reads a quoted literal and a `null`. -/

section Reads

variable {α : Type}

structure Reads (reader : Reader α) (encode : List CodePoint → List α)
    (readable : List CodePoint → Prop) : Prop where
  append : ∀ first second, encode (first ++ second) = encode first ++ encode second
  ascii : ∀ c : CodePoint, c.val < 0x80 →
    ∃ unit, encode [c] = [unit] ∧ reader.code unit = c.val
  string : ∀ text rest, readable text →
    reader.string (encode (text.flatMap escapeChar ++ [0x22]) ++ rest) =
      some (encode text, rest)
  null : ∀ rest, reader.scalar (encode (ofString "null") ++ rest) = some (.null, rest)

variable {reader : Reader α} {encode : List CodePoint → List α}
  {readable : List CodePoint → Prop} (h : Reads reader encode readable)

include h

namespace Reads

theorem cons {c : CodePoint} (hc : c.val < 0x80) (text : List CodePoint) :
    ∃ unit, encode (c :: text) = unit :: encode text ∧ reader.code unit = c.val := by
  obtain ⟨unit, hunit, hcode⟩ := h.ascii c hc
  refine ⟨unit, ?_, hcode⟩
  rw [← List.singleton_append, h.append, hunit, List.singleton_append]

theorem nil : encode [] = [] := by
  have htwice := h.append [] []
  rw [List.append_nil] at htwice
  exact List.self_eq_append_right.mp htwice

omit h in
theorem isGap_false {unit : α} (hcode : 0x20 < reader.code unit) : reader.isGap unit = false := by
  have hne : ∀ n, n ≤ 0x20 → (reader.code unit == n) = false := by
    intro n hn
    rw [beq_eq_false_iff_ne]
    omega
  rw [Reader.isGap, hne 0x20 (by omega), hne 0x09 (by omega), hne 0x0A (by omega),
    hne 0x0D (by omega)]
  rfl

/-- The character asked for is there. -/
theorem expect_same {c : CodePoint} (hc : 0x20 < c.val ∧ c.val < 0x80) (text : List CodePoint)
    (rest : List α) :
    reader.expect c.val (encode (c :: text) ++ rest) = some (encode text ++ rest) := by
  obtain ⟨unit, hunit, hcode⟩ := h.cons hc.2 text
  rw [hunit]
  exact Reader.expect_found reader (isGap_false (by omega)) hcode _

/-- Another one is. -/
theorem expect_other {c : CodePoint} (hc : 0x20 < c.val ∧ c.val < 0x80) {wanted : Nat}
    (hwanted : c.val ≠ wanted) (text : List CodePoint) (rest : List α) :
    reader.expect wanted (encode (c :: text) ++ rest) = none := by
  obtain ⟨unit, hunit, hcode⟩ := h.cons hc.2 text
  rw [hunit]
  exact Reader.expect_missing reader (isGap_false (by omega)) (hcode ▸ hwanted) _

/-- A literal is read to its closing quote. -/
theorem expect_quote {text : List CodePoint} (htext : readable text) (rest : List α) :
    (reader.expect 0x22 (encode (quote text) ++ rest)).bind reader.string =
      some (encode text, rest) := by
  rw [quote, show (0x22 : Nat) = (0x22 : CodePoint).val from rfl, h.expect_same (by decide),
    Option.bind_some, h.string text rest htext]

/-- Text or `null` is read back, in front of anything. -/
theorem value_leaf (gap : List CodePoint) {item : Option (List CodePoint)}
    (hitem : ∀ text ∈ item, readable text) (fuel : Nat) (rest : List α) :
    reader.value (fuel + 1) (encode (dumps gap (leaf item)) ++ rest) =
      some (leaf (item.map encode), rest) := by
  cases item with
  | none =>
      have hword : ofString "null" = 0x6E :: ofString "ull" := rfl
      obtain ⟨unit, hunit, hcode⟩ := h.cons (c := 0x6E) (by decide) (ofString "ull")
      have hskip : reader.skip (encode (ofString "null") ++ rest) =
          encode (ofString "null") ++ rest := by
        rw [hword, hunit]
        refine List.dropWhile_cons_of_neg ?_
        rw [isGap_false (by rw [hcode]; decide)]
        decide
      rw [leaf, dumps, Reader.value, hskip, h.null]
      rw [hword, h.expect_other (by decide) (by decide), h.expect_other (by decide) (by decide),
        h.expect_other (by decide) (by decide)]
      rfl
  | some text =>
      have hread := h.expect_quote (hitem text rfl) rest
      rw [leaf, dumps, Reader.value]
      cases hopen : reader.expect 0x22 (encode (quote text) ++ rest) with
      | none =>
          rw [hopen] at hread
          cases hread
      | some body =>
          rw [hopen, Option.bind_some] at hread
          simp only [hread]
          rfl

/-- Every member takes at least one character. -/
theorem length_dumpsMembers (gap : List CodePoint)
    (members : List (List CodePoint × Value CodePoint)) :
    members.length < (encode (dumpsMembers gap members)).length := by
  induction members with
  | nil =>
      obtain ⟨unit, hunit, _⟩ := h.cons (c := 0x7D) (by decide) []
      rw [dumpsMembers, hunit]
      exact Nat.succ_pos _
  | cons entry members ih =>
      have hsplit : dumpsMembers gap (entry :: members) =
          (0x2C :: (gap ++ quote entry.1 ++ 0x3A :: gap ++ dumps gap entry.2)) ++
            dumpsMembers gap members := by
        rw [dumpsMembers]
        simp only [List.cons_append]
      obtain ⟨unit, hunit, _⟩ := h.cons (c := 0x2C) (by decide)
        (gap ++ quote entry.1 ++ 0x3A :: gap ++ dumps gap entry.2)
      rw [hsplit, h.append, hunit, List.length_append, List.length_cons, List.length_cons]
      omega

/-- What an opening brace leads to. -/
theorem value_object (body : List CodePoint) (rest : List α) (fuel : Nat) :
    reader.value (fuel + 1) (encode (0x7B :: body) ++ rest) =
      match reader.expect 0x7D (encode body ++ rest) with
      | some rest => some (.object [], rest)
      | none => (reader.members fuel (encode body ++ rest)).map fun read =>
          (.object read.1, read.2) := by
  rw [Reader.value, h.expect_other (by decide) (by decide),
    h.expect_other (by decide) (by decide),
    show (0x7B : Nat) = (0x7B : CodePoint).val from rfl, h.expect_same (by decide)]

section Gap

variable {gap : List CodePoint} (hgap : ∀ c ∈ gap, c = 0x20)

include hgap

theorem isGap_of_mem_gap : ∀ unit ∈ encode gap, reader.isGap unit = true := by
  induction gap with
  | nil =>
      intro unit hunit
      rw [h.nil] at hunit
      cases hunit
  | cons c gap ih =>
      obtain ⟨blank, hblank, hcode⟩ := h.cons (c := 0x20) (by decide) gap
      rw [hgap c List.mem_cons_self, hblank]
      intro unit hunit
      rcases List.mem_cons.mp hunit with hfirst | hrest
      · rw [hfirst, Reader.isGap, hcode]
        rfl
      · exact ih (fun c hc => hgap c (List.mem_cons_of_mem _ hc)) unit hrest

/-- One member is read back; what follows it decides whether more are. -/
theorem members_entry {name : List CodePoint} (hname : readable name)
    {item : Option (List CodePoint)} (hitem : ∀ text ∈ item, readable text) (fuel : Nat)
    (tail : List α) :
    reader.members (fuel + 2)
        (encode (quote name ++ 0x3A :: gap ++ dumps gap (leaf item)) ++ tail) =
      match reader.expect 0x2C tail with
      | some rest => (reader.members (fuel + 1) rest).map fun read =>
          ((encode name, leaf (item.map encode)) :: read.1, read.2)
      | none => (reader.expect 0x7D tail).map fun rest =>
          ([(encode name, leaf (item.map encode))], rest) := by
  have htext : encode (quote name ++ 0x3A :: gap ++ dumps gap (leaf item)) ++ tail =
      encode (quote name) ++
        (encode (0x3A :: gap) ++ (encode (dumps gap (leaf item)) ++ tail)) := by
    rw [h.append, h.append, List.append_assoc, List.append_assoc]
  rw [htext, Reader.members, h.expect_quote hname]
  simp only []
  rw [show (0x3A : Nat) = (0x3A : CodePoint).val from rfl, h.expect_same (by decide),
    Option.bind_some, Reader.value_append _ (h.isGap_of_mem_gap hgap), h.value_leaf gap hitem]

/-- The members of an object are read back up to its brace, in front of anything. -/
theorem members_dumps {entries : List (List CodePoint × Option (List CodePoint))}
    (hentries : ∀ entry ∈ entries, readable entry.1 ∧ ∀ text ∈ entry.2, readable text)
    (rest : List α) {name : List CodePoint} (hname : readable name)
    {item : Option (List CodePoint)} (hitem : ∀ text ∈ item, readable text) (fuel : Nat) :
    reader.members (fuel + entries.length + 2)
        (encode (quote name ++ 0x3A :: gap ++ dumps gap (leaf item)) ++
          (encode (dumpsMembers gap
            (entries.map fun entry => (entry.1, leaf entry.2))) ++ rest)) =
      some ((encode name, leaf (item.map encode)) ::
        entries.map (fun entry => (encode entry.1, leaf (entry.2.map encode))), rest) := by
  induction entries generalizing name item fuel with
  | nil =>
      rw [List.map_nil, dumpsMembers, List.length_nil, Nat.add_zero,
        h.members_entry hgap hname hitem, h.expect_other (by decide) (by decide),
        show (0x7D : Nat) = (0x7D : CodePoint).val from rfl, h.expect_same (by decide), h.nil]
      rfl
  | cons entry entries ih =>
      obtain ⟨hentryName, hentryItem⟩ := hentries entry List.mem_cons_self
      have htail : encode (dumpsMembers gap
            ((entry :: entries).map fun entry => (entry.1, leaf entry.2))) ++ rest =
          encode (0x2C :: gap) ++
            (encode (quote entry.1 ++ 0x3A :: gap ++ dumps gap (leaf entry.2)) ++
              (encode (dumpsMembers gap
                (entries.map fun entry => (entry.1, leaf entry.2))) ++ rest)) := by
        have hlist : dumpsMembers gap
              ((entry :: entries).map fun entry => (entry.1, leaf entry.2)) =
            (0x2C :: gap) ++ ((quote entry.1 ++ 0x3A :: gap ++ dumps gap (leaf entry.2)) ++
              dumpsMembers gap (entries.map fun entry => (entry.1, leaf entry.2))) := by
          rw [List.map_cons, dumpsMembers]
          simp only [List.cons_append, List.append_assoc]
        rw [hlist, h.append, h.append, List.append_assoc, List.append_assoc]
      rw [htail, h.members_entry hgap hname hitem,
        show (0x2C : Nat) = (0x2C : CodePoint).val from rfl, h.expect_same (by decide)]
      simp only []
      rw [Reader.members_append _ (h.isGap_of_mem_gap hgap), List.length_cons,
        show fuel + (entries.length + 1) + 1 = fuel + entries.length + 2 by omega,
        ih (fun later hlater => hentries later (List.mem_cons_of_mem _ hlater))
          hentryName hentryItem]
      rfl

/-- **An object of text and nulls that Python writes is the one read back.** -/
theorem parse_dumps {entries : List (List CodePoint × Option (List CodePoint))}
    (hentries : ∀ entry ∈ entries, readable entry.1 ∧ ∀ text ∈ entry.2, readable text) :
    reader.parse (encode (dumps gap (flat entries))) =
      some (flat (entries.map fun entry => (encode entry.1, entry.2.map encode))) := by
  cases entries with
  | nil =>
      rw [flat, List.map_nil, dumps, Reader.parse, ← List.append_nil (encode [0x7B, 0x7D]),
        h.value_object, show (0x7D : Nat) = (0x7D : CodePoint).val from rfl,
        h.expect_same (by decide), h.nil]
      rfl
  | cons entry entries =>
      obtain ⟨name, item⟩ := entry
      obtain ⟨hname, hitem⟩ := hentries (name, item) List.mem_cons_self
      let tail := dumpsMembers gap (entries.map fun entry => (entry.1, leaf entry.2))
      let first := quote name ++ 0x3A :: gap ++ dumps gap (leaf item)
      have htext : dumps gap (flat ((name, item) :: entries)) = 0x7B :: (first ++ tail) := by
        rw [flat, List.map_cons, dumps]
      have hbody : reader.expect 0x7D (encode (first ++ tail) ++ []) = none :=
        h.expect_other (by decide) (by decide) _ _
      have hlength : entries.length < (encode tail).length := by
        simpa using h.length_dumpsMembers gap
          (entries.map fun entry => (entry.1, leaf entry.2))
      obtain ⟨fuel, hfuel⟩ : ∃ fuel, 2 * (encode (0x7B :: (first ++ tail))).length + 2 =
          fuel + entries.length + 2 + 1 := by
        obtain ⟨unit, hunit, _⟩ := h.cons (c := 0x7B) (by decide) (first ++ tail)
        rw [hunit, List.length_cons, h.append, List.length_append]
        refine ⟨2 * ((encode first).length + (encode tail).length + 1) + 2 -
          (entries.length + 2 + 1), ?_⟩
        omega
      rw [htext, Reader.parse, hfuel, ← List.append_nil (encode (0x7B :: (first ++ tail))),
        h.value_object, hbody, h.append, List.append_assoc]
      simp only []
      rw [h.members_dumps hgap (fun later hlater => hentries later (List.mem_cons_of_mem _ hlater))
        [] hname hitem]
      simp [flat, Reader.skip]

end Gap

end Reads

end Reads

/-! ### JavaScript -/

theorem reads_javaScript : Reads javaScript utf16 fun _ => True where
  append := utf16_append
  ascii c hc := by
    refine ⟨Fin.ofNat 0x10000 c.val, ?_, ?_⟩
    · rw [utf16_cons, utf16_nil, List.append_nil, codeUnits_of_lt (by omega)]
    · exact Nat.mod_eq_of_lt (by omega)
  string text rest _ := by
    rw [utf16_append, List.append_assoc]
    exact scanString_quoted text rest
  null rest := rfl

/-- An object of text and nulls that Python writes is the one JavaScript reads. -/
theorem jsonParse_dumps {gap : List CodePoint} (hgap : ∀ c ∈ gap, c = 0x20)
    (entries : List (List CodePoint × Option (List CodePoint))) :
    jsonParse (utf16 (dumps gap (flat entries))) =
      some (flat (entries.map fun entry => (utf16 entry.1, entry.2.map utf16))) :=
  reads_javaScript.parse_dumps hgap fun _ _ => ⟨trivial, fun _ _ => trivial⟩

/-! ### Python

An escape for half a surrogate pair in front of the other half is read as the whole
pair, so what is read back is text without surrogates. -/

def IsScalar (c : CodePoint) : Prop := ¬ (0xD800 ≤ c.val ∧ c.val ≤ 0xDFFF)

theorem hexDigit_hexChar : ∀ digit < 0x10, hexDigit (hexChar digit).val = some digit := by
  decide

theorem numberOfHex_hexChar (unit : CodeUnit) :
    numberOfHex [hexChar (unit.val / 0x1000), hexChar (unit.val / 0x100 % 0x10),
      hexChar (unit.val / 0x10 % 0x10), hexChar (unit.val % 0x10)] = some unit.val := by
  have hunit := unit.isLt
  simp only [numberOfHex, List.map_cons, List.map_nil,
    hexDigit_hexChar (unit.val / 0x1000) (by omega),
    hexDigit_hexChar (unit.val / 0x100 % 0x10) (by omega),
    hexDigit_hexChar (unit.val / 0x10 % 0x10) (by omega),
    hexDigit_hexChar (unit.val % 0x10) (by omega)]
  congr 1
  omega

@[simp] theorem scanText_end (rest : List CodePoint) :
    scanText (0x22 :: rest) = some ([], rest) := by
  rw [scanText.eq_def]
  exact if_pos rfl

theorem scanText_letter {letter : CodePoint} {unit : CodeUnit} (rest : List CodePoint)
    (hu : letter ≠ 0x75) (hunit : escapes.lookup letter.val = some unit) :
    scanText (0x5C :: letter :: rest) = pushChar unit.val (scanText rest) := by
  rw [scanText.eq_def]
  simp only []
  rw [if_neg (by decide), if_neg (by decide), if_pos trivial, if_neg hu, hunit]

theorem scanText_plain {c : CodePoint} (rest : List CodePoint) (hquote : c ≠ 0x22)
    (hslash : c ≠ 0x5C) (hcontrol : ¬ c.val < 0x20) :
    scanText (c :: rest) = pushChar c.val (scanText rest) := by
  rw [scanText.eq_def]
  simp only []
  rw [if_neg hquote, if_neg hcontrol, if_neg hslash]

/-- A `\uXXXX` that opens no pair stands for its character. -/
theorem scanText_escapeUnit {unit : CodeUnit} (hunit : isHighSurrogate unit.val = false)
    (rest : List CodePoint) :
    scanText (escapeUnit unit ++ rest) = pushChar unit.val (scanText rest) := by
  rw [escapeUnit, List.cons_append, List.cons_append, List.cons_append, List.cons_append,
    List.cons_append, List.cons_append, List.nil_append, scanText.eq_def]
  simp only []
  rw [if_neg (by decide), if_neg (by decide), if_pos trivial, if_pos trivial,
    numberOfHex_hexChar]
  simp only [hunit, Bool.false_eq_true, if_false]

/-- Two that are a pair stand for one. -/
theorem scanText_escapePair {high low : CodeUnit} (hhigh : isHighSurrogate high.val = true)
    (hlow : isLowSurrogate low.val = true) (rest : List CodePoint) :
    scanText (escapeUnit high ++ (escapeUnit low ++ rest)) =
      pushChar (0x10000 + (high.val - 0xD800) * 0x400 + (low.val - 0xDC00)) (scanText rest) := by
  rw [escapeUnit, escapeUnit]
  simp only [List.cons_append, List.nil_append]
  rw [scanText.eq_def]
  simp only []
  rw [if_neg (by decide), if_neg (by decide), if_pos trivial, if_pos trivial,
    numberOfHex_hexChar]
  simp only [hhigh, if_true]
  rw [if_pos ⟨trivial, trivial⟩, numberOfHex_hexChar]
  simp only [hlow, if_true]

theorem pushChar_val (c : CodePoint) (read : Option (List CodePoint × List CodePoint)) :
    pushChar c.val read = read.map fun found => (c :: found.1, found.2) := by
  have hc : Fin.ofNat 0x110000 c.val = c := Fin.ext (Nat.mod_eq_of_lt c.isLt)
  rw [pushChar, hc]

/-- One character in front of a string literal is one in front of its text. -/
theorem scanText_escapeChar {c : CodePoint} (hc : IsScalar c) (rest : List CodePoint) :
    scanText (escapeChar c ++ rest) =
      (scanText rest).map fun read => (c :: read.1, read.2) := by
  have hshort : ∀ n : CodePoint, c.val = n.val → c = n := fun n h => Fin.ext h
  rw [← pushChar_val]
  unfold escapeChar
  split
  · next h => rw [hshort 0x22 h]; exact @scanText_letter 0x22 0x22 rest (by decide) rfl
  split
  · next h => rw [hshort 0x5C h]; exact @scanText_letter 0x5C 0x5C rest (by decide) rfl
  split
  · next h => rw [hshort 0x0A h]; exact @scanText_letter 0x6E 0x0A rest (by decide) rfl
  split
  · next h => rw [hshort 0x0D h]; exact @scanText_letter 0x72 0x0D rest (by decide) rfl
  split
  · next h => rw [hshort 0x09 h]; exact @scanText_letter 0x74 0x09 rest (by decide) rfl
  split
  · next h => rw [hshort 0x0C h]; exact @scanText_letter 0x66 0x0C rest (by decide) rfl
  split
  · next h => rw [hshort 0x08 h]; exact @scanText_letter 0x62 0x08 rest (by decide) rfl
  split
  · next hquote hslash _ _ _ _ _ hprintable =>
    refine scanText_plain rest ?_ ?_ (by omega)
    · exact fun h => hquote (congrArg Fin.val h)
    · exact fun h => hslash (congrArg Fin.val h)
  · unfold IsScalar at hc
    have hrange := c.isLt
    unfold codeUnits
    split
    · next hplane =>
      -- a character of the basic plane is one escape
      have hval : (Fin.ofNat 0x10000 c.val).val = c.val := Nat.mod_eq_of_lt hplane
      have hhigh : isHighSurrogate (Fin.ofNat 0x10000 c.val).val = false := by
        rw [hval, isHighSurrogate, Bool.and_eq_false_iff, decide_eq_false_iff_not,
          decide_eq_false_iff_not]
        omega
      rw [List.flatMap_cons, List.flatMap_nil, List.append_nil, scanText_escapeUnit hhigh, hval]
    · next hplane =>
      -- any other is two, which are a pair
      have hhigh : (Fin.ofNat 0x10000 (0xD800 + (c.val - 0x10000) / 0x400)).val =
          0xD800 + (c.val - 0x10000) / 0x400 := Nat.mod_eq_of_lt (by omega)
      have hlow : (Fin.ofNat 0x10000 (0xDC00 + (c.val - 0x10000) % 0x400)).val =
          0xDC00 + (c.val - 0x10000) % 0x400 := Nat.mod_eq_of_lt (by omega)
      have hjoin : 0x10000 + (0xD800 + (c.val - 0x10000) / 0x400 - 0xD800) * 0x400 +
          (0xDC00 + (c.val - 0x10000) % 0x400 - 0xDC00) = c.val := by omega
      rw [List.flatMap_cons, List.flatMap_cons, List.flatMap_nil, List.append_nil,
        List.append_assoc, scanText_escapePair, hhigh, hlow, hjoin]
      · rw [hhigh, isHighSurrogate, Bool.and_eq_true, decide_eq_true_eq, decide_eq_true_eq]
        omega
      · rw [hlow, isLowSurrogate, Bool.and_eq_true, decide_eq_true_eq, decide_eq_true_eq]
        omega

theorem scanText_quoted {text : List CodePoint} (htext : ∀ c ∈ text, IsScalar c)
    (rest : List CodePoint) :
    scanText (text.flatMap escapeChar ++ 0x22 :: rest) = some (text, rest) := by
  induction text with
  | nil => exact scanText_end rest
  | cons c text ih =>
      rw [List.flatMap_cons, List.append_assoc, scanText_escapeChar (htext c List.mem_cons_self),
        ih fun d hd => htext d (List.mem_cons_of_mem _ hd)]
      rfl

theorem reads_python : Reads python (fun text => text) fun text => ∀ c ∈ text, IsScalar c where
  append _ _ := rfl
  ascii c _ := ⟨c, rfl, rfl⟩
  string text rest htext := by
    rw [List.append_assoc]
    exact scanText_quoted htext rest
  null rest := rfl

/-- An object of text and nulls that Python writes is the one Python reads. -/
theorem jsonLoads_dumps {gap : List CodePoint} (hgap : ∀ c ∈ gap, c = 0x20)
    {entries : List (List CodePoint × Option (List CodePoint))}
    (hentries : ∀ entry ∈ entries, (∀ c ∈ entry.1, IsScalar c) ∧
      ∀ text ∈ entry.2, ∀ c ∈ text, IsScalar c) :
    jsonLoads (dumps gap (flat entries)) = some (flat entries) := by
  have hread := reads_python.parse_dumps hgap hentries
  have hsame : entries.map (fun entry => (entry.1, entry.2.map fun text => text)) = entries := by
    have hid : ∀ item : Option (List CodePoint), (item.map fun text => text) = item := by
      intro item
      cases item <;> rfl
    simp only [hid, Prod.mk.eta, List.map_id']
  rw [hsame] at hread
  exact hread

end Json

/-!
## What stands inside a document

A value stands directly in the array or the object it is an item or a member of. What
stands inside a document at any depth is the transitive closure, and a document carries a
key when an object at some depth of it has a member of that name.

Taking members out of an object takes nothing else into it, and makes it no longer to
write. The length is by induction over which members are left: the first one left is
written without the comma it had.
-/

namespace Json

open Text

variable {α : Type}

namespace Value

/-- `inner` is an item or a member of `outer`. -/
inductive Child : Value α → Value α → Prop where
  | item {items : List (Value α)} {inner : Value α} (h : inner ∈ items) :
      Child inner (.array items)
  | member {members : List (List α × Value α)} {name : List α} {inner : Value α}
      (h : (name, inner) ∈ members) : Child inner (.object members)

/-- At some depth, the document itself included. -/
def Within (inner outer : Value α) : Prop := Relation.ReflTransGen Child inner outer

/-- At some depth, the document itself not included. -/
def Inside (inner outer : Value α) : Prop := Relation.TransGen Child inner outer

/-- Some object at some depth has a member of that name. -/
def Carries (value : Value α) (name : List α) : Prop :=
  ∃ members inner, Within (.object members) value ∧ (name, inner) ∈ members

theorem inside_iff {inner outer : Value α} :
    Inside inner outer ↔ ∃ middle, Within inner middle ∧ Child middle outer :=
  Relation.TransGen.tail'_iff

variable {members kept : List (List α × Value α)}

theorem within_object {inner : Value α} : Within inner (.object members) ↔
    inner = .object members ∨ ∃ entry ∈ members, Within inner entry.2 := by
  constructor
  · intro h
    rcases Relation.ReflTransGen.cases_tail h with heq | ⟨middle, hinner, hchild⟩
    · exact .inl heq.symm
    · cases hchild with
      | member hmem => exact .inr ⟨_, hmem, hinner⟩
  · intro h
    rcases h with heq | ⟨⟨name, item⟩, hmem, hinner⟩
    · rw [heq]
      exact .refl
    · exact .tail hinner (.member hmem)

/-- A key of an object is the name of a member, or a key of what one holds. -/
theorem carries_object {name : List α} : (Value.object members).Carries name ↔
    ∃ entry ∈ members, entry.1 = name ∨ entry.2.Carries name := by
  constructor
  · intro h
    obtain ⟨found, inner, hwithin, hmem⟩ := h
    rcases within_object.mp hwithin with heq | ⟨entry, hentry, hinner⟩
    · injection heq with heq
      rw [heq] at hmem
      exact ⟨_, hmem, .inl rfl⟩
    · exact ⟨entry, hentry, .inr ⟨found, inner, hinner, hmem⟩⟩
  · intro h
    obtain ⟨⟨key, item⟩, hmem, hname | ⟨found, inner, hwithin, hfound⟩⟩ := h
    · rw [← hname]
      exact ⟨members, item, .refl, hmem⟩
    · exact ⟨found, inner, .tail hwithin (.member hmem), hfound⟩

theorem Carries.mono {name : List α} (hsub : kept ⊆ members)
    (h : (Value.object kept).Carries name) : (Value.object members).Carries name := by
  obtain ⟨entry, hmem, hentry⟩ := carries_object.mp h
  exact carries_object.mpr ⟨entry, hsub hmem, hentry⟩

theorem Inside.mono {inner : Value α} (hsub : kept ⊆ members)
    (h : Inside inner (.object kept)) : Inside inner (.object members) := by
  obtain ⟨middle, hinner, hchild⟩ := inside_iff.mp h
  cases hchild with
  | member hmem => exact inside_iff.mpr ⟨middle, hinner, .member (hsub hmem)⟩

/-- A member looked up is a member. -/
theorem mem_of_member [BEq α] [LawfulBEq α] {name : List α} {item : Value α}
    (h : (Value.object members).member name = some item) : (name, item) ∈ members := by
  simp only [member, Option.map_eq_some_iff] at h
  obtain ⟨⟨key, value⟩, hfind, hvalue⟩ := h
  have hname := List.find?_some hfind
  rw [beq_iff_eq] at hname
  have hmem := List.mem_reverse.mp (List.mem_of_find?_eq_some hfind)
  rw [← hvalue, ← hname]
  exact hmem

/-- Members of other names do not count. -/
theorem member_filter [BEq α] [LawfulBEq α] {keeps : List α → Bool} {name : List α}
    (hname : keeps name = true) :
    (Value.object (members.filter fun entry => keeps entry.1)).member name =
      (Value.object members).member name := by
  simp only [member, ← List.filter_reverse, List.find?_filter]
  congr 2
  funext entry
  cases hentry : entry.1 == name with
  | false => exact decide_eq_false fun h => Bool.false_ne_true h.2
  | true =>
      rw [beq_iff_eq.mp hentry]
      exact decide_eq_true ⟨hname, rfl⟩

end Value

/-! ### How long it is to write -/

variable {gap : List CodePoint} {kept members : List (List CodePoint × Value CodePoint)}

theorem length_dumpsMembers_cons (entry : List CodePoint × Value CodePoint) :
    (dumpsMembers gap (entry :: members)).length =
      2 + 2 * gap.length + (quote entry.1).length + (dumps gap entry.2).length +
        (dumpsMembers gap members).length := by
  simp only [dumpsMembers, List.cons_append, List.length_cons, List.length_append]
  omega

theorem length_dumps_object_cons (entry : List CodePoint × Value CodePoint) :
    (dumps gap (.object (entry :: members))).length =
      2 + gap.length + (quote entry.1).length + (dumps gap entry.2).length +
        (dumpsMembers gap members).length := by
  simp only [dumps, List.length_cons, List.length_append]
  omega

/-- Behind a first member, members take a comma and a gap more than on their own. -/
theorem length_dumps_object_le :
    (dumps gap (.object members)).length ≤ (dumpsMembers gap members).length + 1 := by
  cases members with
  | nil => exact Nat.le_refl 2
  | cons entry members =>
      rw [length_dumps_object_cons, length_dumpsMembers_cons]
      omega

theorem length_dumpsMembers_sublist (h : kept.Sublist members) :
    (dumpsMembers gap kept).length ≤ (dumpsMembers gap members).length := by
  induction h with
  | slnil => exact Nat.le_refl _
  | cons entry _ ih =>
      rw [length_dumpsMembers_cons]
      omega
  | cons_cons entry _ ih =>
      rw [length_dumpsMembers_cons, length_dumpsMembers_cons]
      omega

theorem rewrittenMembers_eq_map (floatText : List CodePoint → List CodePoint)
    (members : List (List CodePoint × Value CodePoint)) :
    rewrittenMembers floatText members =
      members.map fun entry => (entry.1, entry.2.rewritten floatText) := by
  induction members with
  | nil => rfl
  | cons entry members ih =>
      obtain ⟨name, item⟩ := entry
      rw [rewrittenMembers, ih, List.map_cons]

/-- An object with members left out is no longer than it was. -/
theorem length_dumps_sublist (h : kept.Sublist members) :
    (dumps gap (.object kept)).length ≤ (dumps gap (.object members)).length := by
  cases h with
  | slnil => exact Nat.le_refl _
  | cons entry hkept =>
      have hbehind := @length_dumpsMembers_sublist gap _ _ hkept
      have halone := @length_dumps_object_le gap kept
      rw [length_dumps_object_cons]
      omega
  | cons_cons entry hkept =>
      have hbehind := @length_dumpsMembers_sublist gap _ _ hkept
      rw [length_dumps_object_cons, length_dumps_object_cons]
      omega

/-- Neither is it where its numbers are written again. -/
theorem length_dumps_rewritten_sublist (floatText : List CodePoint → List CodePoint)
    (h : kept.Sublist members) :
    (dumps gap ((Value.object kept).rewritten floatText)).length ≤
      (dumps gap ((Value.object members).rewritten floatText)).length := by
  rw [Value.rewritten, Value.rewritten, rewrittenMembers_eq_map, rewrittenMembers_eq_map]
  exact length_dumps_sublist (h.map _)

end Json
