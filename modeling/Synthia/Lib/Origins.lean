import Synthia.Lib.Text

/-!
# The origin a text names

The scheme, host and port that a URL parser reads off a text, for the schemes whose URLs have
an origin: blanks around the text and line breaks inside it are dropped, either slash will
do, what stands before the last at sign is not the host, and the scheme's own port is no
port. How a host is spelled is left to the parser of hosts. A text without a scheme, or with
the document's and fewer than two slashes, is read relative to the document.

More text behind a text changes what is read only where it goes on with the authority.
-/

namespace Origins

open Text

/-- Of a scheme that has origins. -/
structure Origin where
  scheme : List CodeUnit
  host : List CodeUnit
  port : Option Nat
  deriving DecidableEq

/-- A C0 control, or a space. -/
def isBlank (c : CodeUnit) : Bool := c.val ≤ 0x20

def isTabOrNewline (c : CodeUnit) : Bool := c == 0x09 || c == 0x0A || c == 0x0D

def cleaned (text : List CodeUnit) : List CodeUnit :=
  ((text.dropWhile isBlank).rdropWhile isBlank).filter fun c => !isTabOrNewline c

def isUpper (c : CodeUnit) : Bool := 0x41 ≤ c.val && c.val ≤ 0x5A

def isLower (c : CodeUnit) : Bool := 0x61 ≤ c.val && c.val ≤ 0x7A

def isDigit (c : CodeUnit) : Bool := 0x30 ≤ c.val && c.val ≤ 0x39

def lowerUnit (c : CodeUnit) : CodeUnit := if isUpper c then c + 0x20 else c

/-- What a scheme goes on with. -/
def isSchemeUnit (c : CodeUnit) : Bool :=
  isUpper c || isLower c || isDigit c || c == 0x2B || c == 0x2D || c == 0x2E

/-- The scheme in lower case, and what follows its colon. -/
def schemeOf (text : List CodeUnit) : Option (List CodeUnit × List CodeUnit) :=
  match text.head?, text.dropWhile isSchemeUnit with
  | some c, d :: rest =>
      if (isUpper c || isLower c) && d == 0x3A then
        some ((text.takeWhile isSchemeUnit).map lowerUnit, rest)
      else none
  | _, _ => none

/-- The port that goes without saying, of the schemes that have origins. -/
def defaultPort (scheme : List CodeUnit) : Option Nat :=
  if scheme = units "https" ∨ scheme = units "wss" then some 443
  else if scheme = units "http" ∨ scheme = units "ws" then some 80
  else if scheme = units "ftp" then some 21
  else none

def isSlash (c : CodeUnit) : Bool := c == 0x2F || c == 0x5C

/-- What ends an authority. -/
def isEnd (c : CodeUnit) : Bool := isSlash c || c == 0x3F || c == 0x23

def twoSlashes : List CodeUnit → Bool
  | c :: d :: _ => isSlash c && isSlash d
  | _ => false

/-- The text between the slashes and the path, query or fragment. -/
def authorityText (rest : List CodeUnit) : List CodeUnit :=
  (rest.dropWhile isSlash).takeWhile fun c => !isEnd c

/-- Where the parser is to look for an origin. -/
inductive Reading where
  | authority (scheme text : List CodeUnit)
  | document
  | none
  deriving DecidableEq

/-- With the scheme of the document the text is read in, if it is. -/
def reading (documentScheme : Option (List CodeUnit)) (text : List CodeUnit) : Reading :=
  match schemeOf (cleaned text) with
  | some (scheme, rest) =>
      if defaultPort scheme = none then .none
      else if documentScheme = some scheme ∧ twoSlashes rest = false then .document
      else .authority scheme (authorityText rest)
  | none =>
      match documentScheme with
      | none => .none
      | some scheme =>
          if defaultPort scheme = none then .none
          else if twoSlashes (cleaned text) then .authority scheme (authorityText (cleaned text))
          else .document

/-- What stands before the first colon outside brackets, and what behind it. -/
def splitPort : Bool → List CodeUnit → List CodeUnit × List CodeUnit
  | _, [] => ([], [])
  | bracketed, c :: rest =>
      if c = 0x3A ∧ bracketed = false then ([], rest)
      else
        let inside := if c = 0x5B then true else if c = 0x5D then false else bracketed
        (c :: (splitPort inside rest).1, (splitPort inside rest).2)

/-- The port behind a colon; `none` for one that is not a number below 65536. -/
def readPort (scheme digits : List CodeUnit) : Option (Option Nat) :=
  let number := digits.foldl (fun n c => 10 * n + (c.val - 0x30)) 0
  if digits.all isDigit = false ∨ 0xFFFF < number then none
  else if digits = [] ∨ defaultPort scheme = some number then some none
  else some (some number)

/-- What stands behind the last at sign. -/
def withoutUserinfo (text : List CodeUnit) : List CodeUnit :=
  (text.reverse.takeWhile (· ≠ 0x40)).reverse

/-- The origin of an authority. `parseHost` reads a host, and fails on what is none. -/
def readAuthority (parseHost : List CodeUnit → Option (List CodeUnit))
    (scheme text : List CodeUnit) : Option Origin :=
  let (host, digits) := splitPort false (withoutUserinfo text)
  if host = [] then none
  else
    (parseHost host).bind fun host =>
      (readPort scheme digits).map fun port => ⟨scheme, host, port⟩

/-- A document, with its origin where its scheme has one. -/
structure Document where
  scheme : List CodeUnit
  origin : Option Origin

def originOf (parseHost : List CodeUnit → Option (List CodeUnit)) (document : Option Document)
    (text : List CodeUnit) : Option Origin :=
  match reading (document.map Document.scheme) text with
  | .authority scheme text => readAuthority parseHost scheme text
  | .document => document.bind Document.origin
  | .none => none

/-- The text has an authority with nothing behind it, and the other goes on with it. -/
def GoesOn (text longer : List CodeUnit) : Prop :=
  ∃ scheme rest c behind, schemeOf (cleaned text) = some (scheme, rest) ∧
    (∀ d ∈ rest.dropWhile isSlash, isEnd d = false) ∧
      cleaned longer = cleaned text ++ c :: behind ∧ isEnd c = false

/-! ## More text behind a text -/

theorem rdropWhile_append {p : CodeUnit → Bool} (text more : List CodeUnit) :
    ∃ behind, (text ++ more).rdropWhile p = text.rdropWhile p ++ behind := by
  induction more using List.reverseRecOn with
  | nil => exact ⟨[], by simp⟩
  | append_singleton more c ih =>
      rw [← List.append_assoc, List.rdropWhile_concat]
      split
      · exact ih
      · obtain ⟨behind, hbehind⟩ := List.rdropWhile_prefix p text
        refine ⟨behind ++ more ++ [c], ?_⟩
        rw [← List.append_assoc, ← List.append_assoc, hbehind]

/-- Where something stops a scan, what follows does not matter. -/
theorem scan_append {p : CodeUnit → Bool} {text : List CodeUnit} (h : text.dropWhile p ≠ [])
    (more : List CodeUnit) :
    (text ++ more).takeWhile p = text.takeWhile p ∧
      (text ++ more).dropWhile p = text.dropWhile p ++ more := by
  have hlength : (text.takeWhile p).length ≠ text.length := by
    intro heq
    have hsum := congrArg List.length (List.takeWhile_append_dropWhile (p := p) (l := text))
    rw [List.length_append] at hsum
    have hpos := List.length_pos_iff.mpr h
    omega
  rw [List.takeWhile_append, if_neg hlength, List.dropWhile_append, if_neg (by simpa using h)]
  exact ⟨rfl, rfl⟩

/-- Cleaning a text that is not blank does not look at what follows it. -/
theorem cleaned_append {text : List CodeUnit} (h : text.dropWhile isBlank ≠ [])
    (more : List CodeUnit) : ∃ behind, cleaned (text ++ more) = cleaned text ++ behind := by
  obtain ⟨behind, hbehind⟩ := rdropWhile_append (p := isBlank) (text.dropWhile isBlank) more
  refine ⟨behind.filter fun c => !isTabOrNewline c, ?_⟩
  unfold cleaned
  rw [(scan_append h more).2, hbehind, List.filter_append]

theorem dropWhile_ne_nil {text : List CodeUnit} (h : cleaned text ≠ []) :
    text.dropWhile isBlank ≠ [] := by
  intro hnil
  refine h ?_
  unfold cleaned
  rw [hnil]
  rfl

theorem schemeOf_append {text scheme rest : List CodeUnit}
    (h : schemeOf text = some (scheme, rest)) (behind : List CodeUnit) :
    schemeOf (text ++ behind) = some (scheme, rest ++ behind) := by
  unfold schemeOf at h
  split at h
  · next c d tail hhead hdrop =>
      split at h
      · next hboth =>
          injection h with h
          injection h with hscheme hrest
          have hne : text.dropWhile isSchemeUnit ≠ [] := hdrop ▸ List.cons_ne_nil d tail
          obtain ⟨htake, hlong⟩ := scan_append hne behind
          rw [hdrop, List.cons_append] at hlong
          have hfirst : (text ++ behind).head? = some c := by
            rw [List.head?_append, hhead]
            rfl
          unfold schemeOf
          rw [hlong, hfirst]
          dsimp only
          rw [if_pos hboth, htake, hscheme, hrest]
      · cases h
  · cases h

theorem twoSlashes_append {rest : List CodeUnit} (h : rest.dropWhile isSlash ≠ [])
    (behind : List CodeUnit) : twoSlashes (rest ++ behind) = twoSlashes rest := by
  match rest, h with
  | [c], h =>
      have hc : isSlash c = false := by
        rw [Bool.eq_false_iff]
        intro hslash
        exact h (List.dropWhile_cons_of_pos hslash)
      cases behind with
      | nil => rfl
      | cons d behind => simp [twoSlashes, hc]
  | c :: d :: rest, _ => rfl

/-- An authority that something ends, or that nothing goes on with, stays as it is. -/
theorem authorityText_append {rest behind : List CodeUnit} (h : rest.dropWhile isSlash ≠ [])
    (hstays : (∃ c ∈ rest.dropWhile isSlash, isEnd c = true) ∨
      behind.takeWhile (fun c => !isEnd c) = []) :
    authorityText (rest ++ behind) = authorityText rest := by
  unfold authorityText
  rw [(scan_append h behind).2]
  generalize rest.dropWhile isSlash = text at hstays
  by_cases hended : ∃ c ∈ text, isEnd c = true
  · obtain ⟨c, hc, hend⟩ := hended
    refine (scan_append ?_ behind).1
    intro hnil
    have hkept := List.dropWhile_eq_nil_iff.mp hnil c hc
    rw [hend] at hkept
    cases hkept
  · have hall : ∀ c ∈ text, (!isEnd c) = true := by
      intro c hc
      rw [Bool.not_eq_true', Bool.eq_false_iff]
      exact fun hend => hended ⟨c, hc, hend⟩
    rw [List.takeWhile_append_of_pos hall, hstays.resolve_left hended, List.append_nil,
      List.takeWhile_eq_self_iff.mpr hall]

/-- **More text behind a text.** Unless it goes on with the authority, it is the same
authority, of the same scheme. -/
theorem reading_append {documentScheme : Option (List CodeUnit)}
    {text scheme rest : List CodeUnit} (hscheme : schemeOf (cleaned text) = some (scheme, rest))
    (hauthority : authorityText rest ≠ []) (more : List CodeUnit)
    (hstays : ¬ GoesOn text (text ++ more)) :
    reading documentScheme (text ++ more) = reading documentScheme text := by
  have hrest : rest.dropWhile isSlash ≠ [] := by
    intro hnil
    unfold authorityText at hauthority
    rw [hnil] at hauthority
    exact hauthority rfl
  have htext : cleaned text ≠ [] := by
    intro hnil
    rw [hnil] at hscheme
    cases hscheme
  obtain ⟨behind, hbehind⟩ := cleaned_append (dropWhile_ne_nil htext) more
  have hsame : authorityText (rest ++ behind) = authorityText rest := by
    refine authorityText_append hrest ?_
    by_cases hended : ∃ c ∈ rest.dropWhile isSlash, isEnd c = true
    · exact .inl hended
    · right
      cases behind with
      | nil => rfl
      | cons c behind =>
          cases hc : isEnd c with
          | true => exact List.takeWhile_cons_of_neg (by rw [hc]; exact Bool.false_ne_true)
          | false =>
              refine absurd ⟨scheme, rest, c, behind, hscheme, ?_, hbehind, hc⟩ hstays
              intro d hd
              rw [Bool.eq_false_iff]
              exact fun hend => hended ⟨d, hd, hend⟩
  unfold reading
  rw [hbehind, schemeOf_append hscheme behind, hscheme]
  dsimp only
  rw [twoSlashes_append hrest, hsame]

end Origins
