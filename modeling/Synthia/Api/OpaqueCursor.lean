import Synthia.Lib.Base64Url
import Synthia.ReadModels.Querying

/-!
# Opaque cursors

`Synthia.Api.Paging.OpaqueCursor`, down to the bytes and with the exceptions of what it
calls. One of them is caught; the two slices of the payload raise another where their
bounds are not within it, and nothing catches that.

The binder has a codec as a parameter and reads a payload without anything that can
raise. `codec` is the one there is.
-/

namespace Synthia.Api.Paging

open Text

inductive ClrException where
  | format
  | argumentOutOfRange
  deriving DecidableEq, Repr

/-- `Base64Url.DecodeFromChars`. -/
def decodeFromChars (source : List CodePoint) : Except ClrException (List Text.Byte) :=
  match Base64Url.decode source with
  | some decoded => .ok decoded
  | none => .error .format

/-- `string.IndexOf`, ordinal. -/
def indexOf (text : List CodePoint) (c : CodePoint) : Int :=
  if text.contains c then (text.idxOf c : Int) else -1

/-- `string.Substring`. -/
def substring (text : List CodePoint) (start length : Int) :
    Except ClrException (List CodePoint) :=
  if start < 0 ∨ length < 0 ∨ text.length < start + length then .error .argumentOutOfRange
  else .ok ((text.drop start.toNat).take length.toNat)

/-- UTF-8 under Base64Url. -/
def codec : CursorCodec where
  encodeToString payload := Base64Url.encode (Utf8.encode payload)
  decodeFromChars cursor := (Base64Url.decode cursor).map Utf8.decode

namespace OpaqueCursor

def encode (position : KeysetAnchor) : List CodePoint :=
  let payload := position.id.toText ++ OpaqueCursor.separator :: position.sortValue
  Base64Url.encode (Utf8.encode payload)

/-- Whether a cursor can be read, and the position it holds. -/
def tryDecode (cursor : Option (List CodePoint)) :
    Except ClrException (Bool × Option KeysetAnchor) :=
  if isNullOrEmpty cursor then .ok (true, none)
  else
    match decodeFromChars (cursor.getD []) with
    | .error .format => .ok (false, none)
    | .error exception => .error exception
    | .ok decoded => do
        let payload := Utf8.decode decoded
        let separator := indexOf payload OpaqueCursor.separator
        if separator ≤ 0 then return (false, none)
        else
          match Guid.tryParseExactD (← substring payload 0 separator) with
          | none => return (false, none)
          | some id =>
              let sortValue ← substring payload (separator + 1)
                (payload.length - (separator + 1))
              return (true, some ⟨sortValue, id⟩)

end OpaqueCursor

end Synthia.Api.Paging
