import Synthia.Api.Deps

/-!
# Who is calling the read side

`Synthia.SharedKernel.Identity.PrincipalFactory`, the audience routing and the binding
of a scope in `IdentityContextMiddleware`. Header values are read as they stand: an
identifier in any of the forms `Guid.TryParse` takes, the roles in one canonical order,
the credential class the audience asks for.
-/

namespace Synthia

open Text Relational

/-! ## `Guid.TryParse` -/

namespace Guid

/-- `char.IsWhiteSpace`. -/
def isWhiteSpace (c : CodePoint) : Bool :=
  let n := c.val
  (0x09 ≤ n && n ≤ 0x0D) || n == 0x20 || n == 0x85 || n == 0xA0 || n == 0x1680 ||
    (0x2000 ≤ n && n ≤ 0x200A) || n == 0x2028 || n == 0x2029 || n == 0x202F || n == 0x205F ||
    n == 0x3000

def hexValue (text : List CodePoint) : Option Nat :=
  text.foldl (fun value c => value.bind fun v => (hexDigit c.val).map fun d => 16 * v + d) (some 0)

def isHexMark (c : CodePoint) : Bool := c == 0x78 || c == 0x58

/-- The text behind a leading `0x`. -/
def hexPrefix : List CodePoint → Option (List CodePoint)
  | 0x30 :: x :: rest => if isHexMark x then some rest else none
  | _ => none

def afterPlus : List CodePoint → List CodePoint
  | 0x2B :: rest => rest
  | text => text

/-- `TryParseHex`: a sign and a `0x` are passed over. -/
def tryParseHex (text : List CodePoint) : Option Nat :=
  hexValue ((hexPrefix (afterPlus text)).getD (afterPlus text))

/-- The eleven numbers of an identifier, each cut to its width. -/
def assemble (a b c d fg hijk : Nat) : Uuid :=
  BitVec.ofNat 128 ((a % 2 ^ 32) * 2 ^ 96 + (b % 2 ^ 16) * 2 ^ 80 + (c % 2 ^ 16) * 2 ^ 64 +
    (d % 2 ^ 16) * 2 ^ 48 + (fg % 2 ^ 16) * 2 ^ 32 + hijk % 2 ^ 32)

/-- Thirty-two digits. -/
def exactN (text : List CodePoint) : Option Uuid :=
  if text.length = 32 then (hexValue text).map (BitVec.ofNat 128) else none

/-- A group of the hyphenated form. -/
def group (start length : Nat) (text : List CodePoint) : List CodePoint :=
  (text.drop start).take length

/-- A group of the hyphenated form may spend its characters on a sign and a `0x`; the last
eight may not. -/
def compatD (text : List CodePoint) : Option Uuid := do
  let a ← tryParseHex (group 0 8 text)
  let b ← tryParseHex (group 9 4 text)
  let c ← tryParseHex (group 14 4 text)
  let d ← tryParseHex (group 19 4 text)
  let fg ← tryParseHex (group 24 4 text)
  let hijk ← hexValue (group 28 8 text)
  return assemble a b c d fg hijk

/-- Digits in groups of 8, 4, 4, 4 and 12. -/
def exactD (text : List CodePoint) : Option Uuid :=
  if text.length = 36 ∧ [8, 13, 18, 23].all (fun i => text[i]? == some 0x2D) then
    let digits := group 0 8 text ++ group 9 4 text ++ group 14 4 text ++ group 19 4 text ++
      group 24 12 text
    match hexValue digits with
    | some value => some (BitVec.ofNat 128 value)
    | none => if text.any fun c => isHexMark c || c == 0x2B then compatD text else none
  else none

/-- The hyphenated form within a pair of brackets. -/
def exactBracketed (opening closing : CodePoint) (text : List CodePoint) : Option Uuid :=
  if text.length = 38 ∧ text.head? = some opening ∧ text.getLast? = some closing then
    exactD (group 1 36 text)
  else none

/-- One number of the form with eleven, up to what ends it, and the text behind that. -/
def component (stop : CodePoint) (text : List CodePoint) : Option (Nat × List CodePoint) := do
  let text ← hexPrefix text
  let digits := text.takeWhile (· != stop)
  if digits.isEmpty || digits.length = text.length then none
  else
    let value ← tryParseHex digits
    if value < 2 ^ 32 then some (value, text.drop (digits.length + 1)) else none

/-- The bytes at the end of that form. -/
def bytesX : Nat → Nat → List CodePoint → Option (Nat × List CodePoint)
  | 0, value, text => do
      let (byte, text) ← component 0x7D text
      if byte ≤ 0xFF then some (256 * value + byte, text) else none
  | more + 1, value, text => do
      let (byte, text) ← component 0x2C text
      if byte ≤ 0xFF then bytesX more (256 * value + byte) text else none

/-- `{0x…,0x…,0x…,{0x…,…}}`, with white space anywhere. -/
def exactX (text : List CodePoint) : Option Uuid := do
  let text ← Calendar.expect 0x7B (text.filter fun c => !isWhiteSpace c)
  let (a, text) ← component 0x2C text
  let (b, text) ← component 0x2C text
  let (c, text) ← component 0x2C text
  let text ← Calendar.expect 0x7B text
  let (bytes, text) ← bytesX 7 0 text
  if text = [0x7D] then
    some (assemble a b c (bytes / 2 ^ 48) (bytes / 2 ^ 32) bytes)
  else none

def tryParse (input : Option (List CodePoint)) : Option Uuid :=
  let text := stripWhere isWhiteSpace (input.getD [])
  if text.length < 32 then none
  else if text.head? = some 0x28 then exactBracketed 0x28 0x29 text
  else if text.head? = some 0x7B then
    if text[9]? = some 0x2D then exactBracketed 0x7B 0x7D text else exactX text
  else if text[8]? = some 0x2D then exactD text
  else exactN text

example : tryParse (some (ofString "(00000000-0000-0000-0000-00000000002a)")) = some 42 := by
  decide +kernel

example : tryParse (some (ofString "{0x1,0x2,0x3,{0x4,0x5,0x6,0x7,0x8,0x9,0xA,0xB}}")) =
    some 0x00000001000200030405060708090A0B := by decide +kernel

end Guid

/-! ## Audiences -/

/-- `PathString.StartsWithSegments`, ordinal. -/
def startsWithSegments (path start : List CodePoint) : Bool :=
  start.isPrefixOf path &&
    (path.length == start.length || path[start.length]? == some 0x2F)

namespace AudienceRouting

def customerPrefix : List CodePoint := ofString "/api/customer/v1"
def staffPrefix : List CodePoint := ofString "/api/staff/v1"
def workloadPrefix : List CodePoint := ofString "/api/workload/v1"

def tryResolve (path : List CodePoint) : Option Audience :=
  if startsWithSegments path customerPrefix then some .customer
  else if startsWithSegments path staffPrefix then some .staff
  else if startsWithSegments path workloadPrefix then some .workload
  else none

end AudienceRouting

/-! ## The principal -/

inductive IdentityRejection where
  | missingHeader
  | malformedHeader
  | invalidRoleSet
  | sentinelCombinedWithRole
  | credentialClassNotAcceptedHere
  deriving DecidableEq, Repr

namespace PrincipalFactory

def isNullOrWhiteSpace (value : Option (List CodePoint)) : Bool :=
  (value.getD []).all Guid.isWhiteSpace

/-- The roles of the parts, in the order they stand. -/
def parseParts : List StaffRole → List (List CodePoint) → Option (List StaffRole)
  | parsed, [] => some parsed
  | parsed, part :: rest =>
      match StaffRole.parse part with
      | none => none
      | some role => if parsed.contains role then none else parseParts (parsed ++ [role]) rest

/-- Ascending, by the ordinal order of the names. -/
def isCanonical : List StaffRole → Bool
  | first :: second :: rest =>
      decide (ofString first.value < ofString second.value) && isCanonical (second :: rest)
  | _ => true

def isSentinel (role : StaffRole) : Bool := role == .endUser || role == .none

def tryParseRoles (header : Option (List CodePoint)) : Except IdentityRejection RoleSet :=
  if isNullOrWhiteSpace header then .error .missingHeader
  else
    match parseParts [] ((header.getD []).splitOn 0x2C) with
    | none => .error .invalidRoleSet
    | some parsed =>
        if !isCanonical parsed then .error .invalidRoleSet
        else if parsed.any isSentinel && decide (1 < parsed.length) then
          .error .sentinelCombinedWithRole
        else .ok ⟨parsed.toFinset⟩

def credentialOf (value : Option (List CodePoint)) : Option CredentialClass :=
  if value = some (ofString "delegated") then some .delegated
  else if value = some (ofString "app") then some .app
  else none

/-- The workload audience takes application credentials, the others delegated ones. -/
def classMatchesAudience (credential : CredentialClass) : Audience → Bool
  | .workload => credential == .app
  | .customer | .staff => credential == .delegated

def tryCreate (headers : IdentityHeaders) (audience : Audience) :
    Except IdentityRejection AuthenticatedPrincipal :=
  match Guid.tryParse headers.tenantId, Guid.tryParse headers.principalId with
  | some tid, some oid =>
      match credentialOf headers.credentialClass with
      | none =>
          .error (if isNullOrWhiteSpace headers.credentialClass then .missingHeader
            else .malformedHeader)
      | some credential =>
          match tryParseRoles headers.roles with
          | .error rejection => .error rejection
          | .ok roles =>
              if !classMatchesAudience credential audience then
                .error .credentialClassNotAcceptedHere
              else
                .ok ⟨⟨⟨tid⟩, ⟨oid⟩⟩, roles, credential, audience, headers.clientSurface.getD []⟩
  | _, _ =>
      .error (if isNullOrWhiteSpace headers.tenantId || isNullOrWhiteSpace headers.principalId
        then .missingHeader else .malformedHeader)

end PrincipalFactory

/-! ## The scope -/

/-- `RequestScope`, as far as organisations go. -/
inductive TenantScope where
  | none
  | singleOrganisation (organisation : TenantContext)
  | operatorWide
  deriving DecidableEq

namespace TenantRegistry

/-- `TenantRegistry.FindAsync`, past the query filter. -/
def findAsync (registry : Registry) (entraTenantId : EntraTenantId) :
    Option PublishedViews.TenantRow :=
  registry.rows.find? fun candidate => candidate.entraTid == entraTenantId.value

end TenantRegistry

/-- `TryBindScopeAsync`; `none` is the response that the organisation is not registered. -/
def tryBindScope (registry : Registry) (principal : AuthenticatedPrincipal) :
    Option TenantScope :=
  if principal.audience = .staff then some .operatorWide
  else
    (TenantRegistry.findAsync registry principal.identity.tenantId).map fun admitted =>
      .singleOrganisation ⟨⟨admitted.tenantId⟩, ⟨admitted.entraTid⟩, admitted.status,
        .endUserIdentity⟩

end Synthia
