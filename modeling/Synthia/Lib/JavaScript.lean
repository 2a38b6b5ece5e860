import Synthia.Lib.Json
import Synthia.Lib.Utf8

/-!
# Strings as JavaScript's library reads and writes them

`decodeURIComponent` takes an escape for the byte it spells, and the bytes that stand
together for UTF-8, which they have to be. `JSON.stringify` writes half of a surrogate pair
as an escape.
-/

namespace Text

namespace Utf8

/-- What the bytes spell, where they are what writing it gives. -/
def decodeStrict (bytes : List Byte) : Option (List CodePoint) :=
  if encode (decode bytes) = bytes then some (decode bytes) else none

end Utf8

/-- The text with every escape read as its byte; `none` for a percent sign without two
digits behind it. -/
def octets : List CodeUnit → Option (List (CodeUnit ⊕ Byte))
  | [] => some []
  | c :: high :: low :: rest =>
      if c = 0x25 then
        match hexDigit high.val, hexDigit low.val with
        | some first, some second =>
            (octets rest).map (.inr (Fin.ofNat 0x100 (16 * first + second)) :: ·)
        | _, _ => none
      else
        (octets (high :: low :: rest)).map (.inl c :: ·)
  | c :: rest => if c = 0x25 then none else (octets rest).map (.inl c :: ·)

/-- Each run of bytes on its own, which is held in reverse while it is read. -/
def spelled : List Byte → List (CodeUnit ⊕ Byte) → Option (List CodeUnit)
  | run, [] => (Utf8.decodeStrict run.reverse).map utf16
  | run, .inr b :: rest => spelled (b :: run) rest
  | run, .inl c :: rest =>
      (Utf8.decodeStrict run.reverse).bind fun text =>
        (spelled [] rest).map fun behind => utf16 text ++ c :: behind

/-- `decodeURIComponent`; `none` where it raises. -/
def decodeURIComponent (text : List CodeUnit) : Option (List CodeUnit) :=
  (octets text).bind (spelled [])

def isHighSurrogate (c : CodeUnit) : Bool := 0xD800 ≤ c.val && c.val < 0xDC00

def isLowSurrogate (c : CodeUnit) : Bool := 0xDC00 ≤ c.val && c.val < 0xE000

/-- One code unit that is no half of a pair. -/
def stringifyUnit (c : CodeUnit) : List CodeUnit :=
  if c = 0x22 then [0x5C, 0x22]
  else if c = 0x5C then [0x5C, 0x5C]
  else if c = 0x08 then [0x5C, 0x62]
  else if c = 0x09 then [0x5C, 0x74]
  else if c = 0x0A then [0x5C, 0x6E]
  else if c = 0x0C then [0x5C, 0x66]
  else if c = 0x0D then [0x5C, 0x72]
  else if c.val < 0x20 || isHighSurrogate c || isLowSurrogate c then utf16 (Json.escapeUnit c)
  else [c]

def stringifyUnits : List CodeUnit → List CodeUnit
  | [] => []
  | c :: d :: rest =>
      if isHighSurrogate c && isLowSurrogate d then c :: d :: stringifyUnits rest
      else stringifyUnit c ++ stringifyUnits (d :: rest)
  | [c] => stringifyUnit c

/-- `JSON.stringify`, of a string. -/
def stringify (text : List CodeUnit) : List CodeUnit := 0x22 :: (stringifyUnits text ++ [0x22])

end Text
