import Mathlib.Algebra.GroupWithZero.Nat
import Mathlib.Data.Fintype.Defs
import Mathlib.Data.List.DropRight

/-!
# Text as code points

A string in the sense both Python and JavaScript let a program hold one: a
sequence of code points that may include lone surrogates, which a `String`
could not contain. Whitespace, trimming and splitting follow the language named.

Lower-casing is given only as far as a comparison with ASCII words can see it.
Besides `A` to `Z`, one code point lower-cases to an ASCII letter, the Kelvin
sign; every other leaves at least one non-ASCII character behind and so can
never make a word equal to an ASCII one.
-/

namespace Text

abbrev CodePoint := Fin 0x110000

/-- A literal of the type needs it, and every module takes it from here. -/
instance neZero_codePoint : NeZero 0x110000 := ⟨by decide⟩

instance lawful_text : LawfulBEq (List CodePoint) := inferInstance

/-- The code points of a string literal. -/
def ofString (s : String) : List CodePoint :=
  s.toList.map fun c => Fin.ofNat 0x110000 c.toNat

/-! ## Python -/

/-- `str.isspace` on one character. -/
def isSpace (c : CodePoint) : Bool :=
  let n := c.val
  (0x09 ≤ n && n ≤ 0x0D) || (0x1C ≤ n && n ≤ 0x20) || n == 0x85 || n == 0xA0 ||
    n == 0x1680 || (0x2000 ≤ n && n ≤ 0x200A) || n == 0x2028 || n == 0x2029 ||
    n == 0x202F || n == 0x205F || n == 0x3000

/-- `str.strip`, of the characters `drop` selects. -/
def stripWhere (drop : CodePoint → Bool) (text : List CodePoint) : List CodePoint :=
  (text.dropWhile drop).rdropWhile drop

theorem stripWhere_self {drop : CodePoint → Bool} {text : List CodePoint}
    (h : ∀ c ∈ text, drop c = false) : stripWhere drop text = text := by
  have hkeep : text.dropWhile drop = text := by
    cases text with
    | nil => rfl
    | cons c text =>
        refine List.dropWhile_cons_of_neg ?_
        rw [h c List.mem_cons_self]
        exact Bool.false_ne_true
  rw [stripWhere, hkeep, List.rdropWhile_eq_self_iff]
  intro hne hlast
  rw [h _ (List.getLast_mem hne)] at hlast
  cases hlast

/-- `str.strip()`. -/
def strip (text : List CodePoint) : List CodePoint := stripWhere isSpace text

/-- `str.strip(chars)`. -/
def stripChars (chars text : List CodePoint) : List CodePoint :=
  stripWhere (fun c => chars.contains c) text

/-- `str.rstrip(chars)`. -/
def rstripChars (chars text : List CodePoint) : List CodePoint :=
  text.rdropWhile fun c => chars.contains c

/-- `str.lower`, up to comparison with ASCII text. -/
def lower (text : List CodePoint) : List CodePoint :=
  text.map fun c =>
    if 0x41 ≤ c.val && c.val ≤ 0x5A then Fin.ofNat 0x110000 (c.val + 0x20)
    else if c.val == 0x212A then 0x6B
    else c

/-- `str.split()`, with the word being read held in reverse. -/
def splitFrom : List CodePoint → List CodePoint → List (List CodePoint)
  | word, [] => if word.isEmpty then [] else [word.reverse]
  | word, c :: rest =>
      if isSpace c then
        if word.isEmpty then splitFrom [] rest else word.reverse :: splitFrom [] rest
      else
        splitFrom (c :: word) rest

def split (text : List CodePoint) : List (List CodePoint) := splitFrom [] text

example : split (ofString " My laptop\tis slow ") =
    [ofString "My", ofString "laptop", ofString "is", ofString "slow"] := by decide

end Text

/-!
## Text as code units

A JavaScript string: a sequence of UTF-16 code units, each of which may be half
of a surrogate pair without the other half. A text of code points becomes one by
writing every code point above U+FFFF as a pair; a lone surrogate stands for
itself.
-/

namespace Text

abbrev CodeUnit := Fin 0x10000

instance neZero_codeUnit : NeZero 0x10000 := ⟨by decide⟩

instance lawful_codeUnit : LawfulBEq CodeUnit := inferInstance

/-- One code point in UTF-16. -/
def codeUnits (c : CodePoint) : List CodeUnit :=
  if c.val < 0x10000 then [Fin.ofNat 0x10000 c.val]
  else
    [Fin.ofNat 0x10000 (0xD800 + (c.val - 0x10000) / 0x400),
     Fin.ofNat 0x10000 (0xDC00 + (c.val - 0x10000) % 0x400)]

def utf16 (text : List CodePoint) : List CodeUnit := text.flatMap codeUnits

/-- The code units of a string literal. -/
def units (s : String) : List CodeUnit := utf16 (ofString s)

/-! ### JavaScript -/

/-- The white space and line terminators of the language. -/
def isBlank (c : CodeUnit) : Bool :=
  let n := c.val
  (0x09 ≤ n && n ≤ 0x0D) || n == 0x20 || n == 0xA0 || n == 0x1680 ||
    (0x2000 ≤ n && n ≤ 0x200A) || n == 0x2028 || n == 0x2029 || n == 0x202F ||
    n == 0x205F || n == 0x3000 || n == 0xFEFF

/-- `text.trim()`. -/
def trim (text : List CodeUnit) : List CodeUnit :=
  (text.dropWhile isBlank).rdropWhile isBlank

/-- `text.split('\n')`. -/
def lines (text : List CodeUnit) : List (List CodeUnit) := text.splitOn 0x0A

/-- `lines.join('\n')`. -/
def joinLines (lines : List (List CodeUnit)) : List CodeUnit := [0x0A].intercalate lines

/-! ### UTF-16 of ASCII text -/

@[simp] theorem utf16_nil : utf16 [] = [] := rfl

@[simp] theorem utf16_append (first second : List CodePoint) :
    utf16 (first ++ second) = utf16 first ++ utf16 second := by
  simp [utf16]

theorem utf16_cons (c : CodePoint) (text : List CodePoint) :
    utf16 (c :: text) = codeUnits c ++ utf16 text := rfl

theorem codeUnits_of_lt {c : CodePoint} (h : c.val < 0x10000) :
    codeUnits c = [Fin.ofNat 0x10000 c.val] := by
  rw [codeUnits, if_pos h]

/-- Up to U+FFFF a text has as many code units as code points, with the same
numbers. -/
theorem mem_utf16_of_lt {text : List CodePoint} (h : ∀ c ∈ text, c.val < 0x10000)
    {unit : CodeUnit} (hunit : unit ∈ utf16 text) : ∃ c ∈ text, c.val = unit.val := by
  obtain ⟨c, hc, hmem⟩ := List.mem_flatMap.mp hunit
  rw [codeUnits_of_lt (h c hc), List.mem_singleton] at hmem
  refine ⟨c, hc, ?_⟩
  rw [hmem]
  exact (Nat.mod_eq_of_lt (h c hc)).symm

/-! ### Lines -/

/-- Text behind a line break adds lines of its own. -/
theorem lines_append (text rest : List CodeUnit) :
    lines (text ++ 0x0A :: rest) = lines text ++ lines rest :=
  List.splitOn_append_cons_of_beq text rest (beq_self_eq_true _)

theorem lines_of_notMem {text : List CodeUnit} (h : (0x0A : CodeUnit) ∉ text) :
    lines text = [text] :=
  List.splitOn_eq_singleton h

/-- Text that neither begins nor ends with white space, behind one space. -/
theorem trim_space {first last : CodeUnit} (hfirst : isBlank first = false)
    (hlast : isBlank last = false) (middle : List CodeUnit) :
    trim (0x20 :: first :: (middle ++ [last])) = first :: (middle ++ [last]) := by
  have hne : ¬ isBlank first = true := by rw [hfirst]; decide
  rw [trim, List.dropWhile_cons_of_pos (by decide), List.dropWhile_cons_of_neg hne,
    ← List.cons_append, List.rdropWhile_concat_neg _ _ _ (by rw [hlast]; decide)]

end Text
