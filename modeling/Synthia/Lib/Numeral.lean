import Synthia.Lib.Text

/-!
# Reading a base-16 integer

Python's `int(text, 16)` as its documentation and the interpreter have it: white
space at both ends, a sign, a `0x`, single underscores between digits, and any
decimal digit of Unicode in place of an ASCII one. The interpreter first maps
the text to ASCII and only then reads it, so the two kinds of white space it
knows are not the same: above ASCII it is `str.isspace`, within ASCII it is C's.
-/

namespace Text

/-- `text.replace(old, "")` for a non-empty `old`. The counter runs over the rest
of an occurrence. -/
def removeFrom (old : List CodePoint) : Nat → List CodePoint → List CodePoint
  | _, [] => []
  | skip + 1, _ :: rest => removeFrom old skip rest
  | 0, c :: rest =>
      if old.isPrefixOf (c :: rest) then removeFrom old (old.length - 1) rest
      else c :: removeFrom old 0 rest

def removeAll (old text : List CodePoint) : List CodePoint := removeFrom old 0 text

/-- A text without the first character of what goes keeps everything. -/
theorem removeAll_of_notMem {c : CodePoint} {old text : List CodePoint} (h : c ∉ text) :
    removeAll (c :: old) text = text := by
  unfold removeAll
  induction text with
  | nil => rfl
  | cons d text ih =>
      have hne : (c == d) = false :=
        beq_eq_false_iff_ne.mpr fun hcd => h (hcd ▸ List.mem_cons_self)
      rw [removeFrom, List.isPrefixOf_cons_cons, hne, Bool.false_and, if_neg Bool.false_ne_true,
        ih fun hmem => h (List.mem_cons_of_mem _ hmem)]

/-- The code points of the digit zero, in every script that has decimal digits
(Unicode 15.0). Each is followed by its nine fellows. -/
def decimalZeros : List Nat :=
  [0x30, 0x660, 0x6F0, 0x7C0, 0x966, 0x9E6, 0xA66, 0xAE6, 0xB66, 0xBE6, 0xC66, 0xCE6,
   0xD66, 0xDE6, 0xE50, 0xED0, 0xF20, 0x1040, 0x1090, 0x17E0, 0x1810, 0x1946, 0x19D0,
   0x1A80, 0x1A90, 0x1B50, 0x1BB0, 0x1C40, 0x1C50, 0xA620, 0xA8D0, 0xA900, 0xA9D0,
   0xA9F0, 0xAA50, 0xABF0, 0xFF10, 0x104A0, 0x10D30, 0x11066, 0x110F0, 0x11136, 0x111D0,
   0x112F0, 0x11450, 0x114D0, 0x11650, 0x116C0, 0x11730, 0x118E0, 0x11950, 0x11C50,
   0x11D50, 0x11DA0, 0x11F50, 0x16A60, 0x16AC0, 0x16B50, 0x1D7CE, 0x1D7D8, 0x1D7E2,
   0x1D7EC, 0x1D7F6, 0x1E140, 0x1E2F0, 0x1E4F0, 0x1E950, 0x1FBF0]

/-- `unicodedata.decimal`. -/
def decimalValue (c : CodePoint) : Option Nat :=
  (decimalZeros.find? fun first => first ≤ c.val && c.val ≤ first + 9).map (c.val - ·)

/-- One character on its way to the ASCII reader. What has no place there
becomes a question mark, which no numeral contains. -/
def toAsciiNumeral (c : CodePoint) : Nat :=
  if c.val < 0x7F then c.val
  else if isSpace c then 0x20
  else match decimalValue c with
    | some digit => 0x30 + digit
    | none => 0x3F

/-- C's `isspace`. -/
def asciiSpace (n : Nat) : Bool := (0x09 ≤ n && n ≤ 0x0D) || n == 0x20

def hexDigit (n : Nat) : Option Nat :=
  if 0x30 ≤ n && n ≤ 0x39 then some (n - 0x30)
  else if 0x41 ≤ n && n ≤ 0x46 then some (n - 0x37)
  else if 0x61 ≤ n && n ≤ 0x66 then some (n - 0x57)
  else none

/-- The lower-case digit of a value below sixteen. -/
def hexChar (digit : Nat) : CodePoint :=
  Fin.ofNat 0x110000 (if digit < 10 then 0x30 + digit else 0x57 + digit)

/-- The digits at the head of the text and what follows them; `none` for an
underscore that no digit follows. -/
def scanHex : Bool → Nat → List Nat → Option (Nat × List Nat)
  | underscore, value, [] => if underscore then none else some (value, [])
  | underscore, value, c :: rest =>
      if c == 0x5F then
        if underscore then none else scanHex true value rest
      else match hexDigit c with
        | some digit => scanHex false (16 * value + digit) rest
        | none => if underscore then none else some (value, c :: rest)

/-- The sign, and the text behind it. -/
def readSign : List Nat → Int × List Nat
  | 0x2B :: rest => (1, rest)
  | 0x2D :: rest => (-1, rest)
  | text => (1, text)

/-- The text behind an optional `0x`, which one underscore may follow. -/
def readRadix : List Nat → List Nat
  | 0x30 :: x :: rest =>
      if x == 0x78 || x == 0x58 then
        match rest with
        | 0x5F :: digits => digits
        | digits => digits
      else 0x30 :: x :: rest
  | text => text

/-- `int(text, 16)`; `none` where it raises `ValueError`. -/
def intBase16 (text : List CodePoint) : Option Int :=
  let signed := readSign ((text.map toAsciiNumeral).dropWhile asciiSpace)
  let digits := readRadix signed.2
  if digits.head? == some 0x5F then none
  else match scanHex false 0 digits with
    | none => none
    | some (value, rest) =>
        if rest.length == digits.length then none
        else if rest.all asciiSpace then some (signed.1 * value)
        else none

example : intBase16 (ofString " +0x_1_F ") = some 31 := by decide

example : intBase16 (ofString "1__F") = none := by decide

end Text
