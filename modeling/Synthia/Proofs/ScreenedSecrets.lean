import Synthia.Proofs.Screening

/-!
# What a replacement leaves of a secret

A secret after a key runs on over whatever stands there, a mark included, so of a key it is
kept that what follows it is nothing or the marker alone. Three facts of a replacement carry
that: its matches begin with a character a secret could hold, they do not begin inside a
key's name, nor inside the marker. All three come down to the spellings of the keys, which
are finitely many, and to where a letter stands before what another begins with.

A DSN may run over a mark as well. But where it would run into one that was written for a
DSN, it would have run into that DSN itself: all that precedes the at sign could stand in a
password, and all that precedes the colon in a user's name.
-/

namespace Synthia.Observability

open Text Regex

/-! ## A key and its secret -/

def isLetter (c : CodePoint) : Bool := 0x61 ≤ c.val && c.val ≤ 0x7A

/-- The words a key reads as under `(?i)`. -/
def Spells (key : Expr CodePoint) (spellings : List (List CodePoint)) : Prop :=
  ∀ name, key.Accepts name → name.map fold ∈ spellings

def connectionWords : List (List CodePoint) :=
  ["sharedaccesskey", "sharedaccesssignature", "accountkey", "accesskey"].map ofString

def parameterWords : List (List CodePoint) :=
  ["apikey", "api-key", "api_key", "clientsecret", "client-secret", "client_secret", "password",
    "sig"].map ofString

/-- A word of letters, hyphens and underscores that begins with a letter. -/
def plainWord (spelling : List CodePoint) : Bool :=
  (spelling.head?.any isLetter) && spelling.all fun c => isLetter c || c == 0x2D || c == 0x5F

/-- Wherever the rest of a word is such, a letter comes before it. -/
def LetterBefore (P : List CodePoint → Prop) (spelling : List CodePoint) : Prop :=
  Shape.Throughout (fun before rest => P rest → before.all isLetter = true) none spelling

instance decidableLetterBefore (P : List CodePoint → Prop) [DecidablePred P]
    (spelling : List CodePoint) : Decidable (LetterBefore P spelling) :=
  inferInstanceAs (Decidable (Shape.Throughout
    (fun before rest => P rest → before.all isLetter = true) none spelling))

theorem spells_connectionKey : Spells connectionKey connectionWords := by
  intro name h
  rcases h with h | h | h | h
  all_goals
    rw [caseless, Expr.accepts_literal] at h
    rw [h]
    decide

theorem space_plain {c : CodePoint} (hspace : isSpace c = true) :
    (isLetter c || c == 0x2D || c == 0x5F) = false := by
  rw [← Bool.not_eq_true]
  intro hplain
  unfold isSpace at hspace
  simp only [isLetter, Bool.or_eq_true, Bool.and_eq_true, decide_eq_true_eq, beq_iff_eq,
    Fin.ext_iff] at hspace hplain
  have hhyphen : (0x2D : CodePoint).val = 0x2D := rfl
  have hunderscore : (0x5F : CodePoint).val = 0x5F := rfl
  omega

/-- What a key of two words reads as, with a hyphen or an underscore between them or
nothing. -/
def joinedWords (first second : String) : List (List CodePoint) :=
  ["", "-", "_"].map fun middle => ofString first ++ (ofString middle ++ ofString second)

theorem spells_joined (first second : String) :
    Spells (.seq (caseless first) (.seq (.optional (oneOf "-_")) (caseless second)))
      (joinedWords first second) := by
  intro name h
  obtain ⟨u, _, hname, hu, joint, v, hrest, hjoint, hv⟩ := h
  rw [caseless, Expr.accepts_literal] at hu hv
  rw [hname, hrest, List.map_append, List.map_append, hu, hv, joinedWords]
  rcases hjoint with ⟨c, hc, hadmits⟩ | hjoint
  · rw [hc]
    rcases List.mem_cons.mp (List.contains_iff_mem.mp hadmits) with heq | hmem
    · rw [heq]
      exact List.mem_map.mpr ⟨"-", by simp, rfl⟩
    · rw [List.mem_singleton.mp hmem]
      exact List.mem_map.mpr ⟨"_", by simp, rfl⟩
  · rw [hjoint]
    exact List.mem_map.mpr ⟨"", by simp, rfl⟩

theorem spells_parameterKey : Spells parameterKey parameterWords := by
  intro name h
  have hapi : joinedWords "api" "key" ⊆ parameterWords := by decide
  have hclient : joinedWords "client" "secret" ⊆ parameterWords := by decide
  rcases h with h | h | h | h
  · exact hapi (spells_joined "api" "key" name h)
  · exact hclient (spells_joined "client" "secret" name h)
  · rw [caseless, Expr.accepts_literal] at h
    rw [h]
    decide
  · rw [caseless, Expr.accepts_literal] at h
    rw [h]
    decide

section Key

variable {words : WordClass} {key : Expr CodePoint} {ended : String}
  {spellings : List (List CodePoint)}

/-- A name a key of plain words reads begins with a word character, and holds none of the
characters around a secret. -/
theorem name_plain (hspells : Spells key spellings) (hplain : spellings.all plainWord = true)
    {name : List CodePoint} (h : key.Accepts name) :
    (∃ c rest, name = c :: rest ∧ isLetter (fold c) = true) ∧
      equals ∉ name ∧ 0x3C ∉ name ∧ 0x3E ∉ name ∧ ∀ c ∈ name, needed c = false := by
  have hword := List.all_eq_true.mp hplain _ (hspells name h)
  rw [plainWord, Bool.and_eq_true] at hword
  obtain ⟨hfirst, hall⟩ := hword
  have hnone : ∀ c, (isLetter (fold c) || fold c == 0x2D || fold c == 0x5F) = false →
      c ∉ name := by
    intro c hc hmem
    have hin := List.all_eq_true.mp hall (fold c) (List.mem_map_of_mem hmem)
    rw [hc] at hin
    cases hin
  refine ⟨?_, hnone equals (by decide), hnone 0x3C (by decide), hnone 0x3E (by decide), ?_⟩
  · cases name with
    | nil => cases hfirst
    | cons c rest => exact ⟨c, rest, rfl, hfirst⟩
  · intro c hc
    rw [← Bool.not_eq_true, needed, Bool.or_eq_true, beq_iff_eq]
    intro hneeded
    rcases hneeded with hspace | hdot
    · exact hnone c (by rw [fold_of_space hspace, space_plain hspace]) hc
    · rw [hdot] at hc
      exact hnone 0x2E (by decide) hc

theorem isWord_of_letter {c : CodePoint} (h : isLetter (fold c) = true) :
    words.isWord c = true := by
  rw [isLetter, Bool.and_eq_true, decide_eq_true_eq, decide_eq_true_eq] at h
  exact isWord_of_fold h.1 h.2

theorem assigned_accepts {found : Match CodePoint} (h : (assigned key ended).Accepts found) :
    ∃ name secret, found.group = some name ∧ found.tail = equals :: secret ∧
      found.text = name ++ equals :: secret ∧ key.Accepts name ∧ secret ≠ [] ∧
      ∀ c ∈ secret, noneOf ended c = true := by
  obtain ⟨group, tail⟩ := found
  cases group with
  | none => cases h
  | some name =>
      obtain ⟨hname, u, secret, htail, ⟨c, hu, hadmits⟩, hleast, hall⟩ := h
      have hc : c = equals := List.mem_singleton.mp (List.contains_iff_mem.mp hadmits)
      dsimp only at htail
      rw [hu, hc] at htail
      refine ⟨name, secret, rfl, htail, by rw [Match.text, htail]; rfl, hname, ?_, hall⟩
      intro hnil
      rw [hnil] at hleast
      exact absurd hleast (by decide)

theorem takeWhile_stop {admits : CodePoint → Bool} {text : List CodePoint}
    (h : ∀ c rest, text = c :: rest → admits c = false) : text.takeWhile admits = [] := by
  cases text with
  | nil => rfl
  | cons c rest =>
      rw [List.takeWhile_cons, h c rest rfl]
      rfl

/-- Of a place at which a key is read: there is no secret after it, or there is the marker. -/
def KeyMarked (words : WordClass) (key : Expr CodePoint) (ended : String)
    (before : Option CodePoint) (text : List CodePoint) : Prop :=
  ∀ name after, Shape.boundary words.isWord before text = true →
    text = name ++ equals :: after → key.Accepts name →
    after.takeWhile (noneOf ended) = [] ∨ after.takeWhile (noneOf ended) = redacted

theorem keyMarked_of_none {before : Option CodePoint} {text : List CodePoint}
    (h : (assigned key ended).find words.isWord before text = none) :
    KeyMarked words key ended before text := by
  intro name after hboundary htext hname
  refine Or.inl (takeWhile_stop ?_)
  intro c rest hafter
  rw [← Bool.not_eq_true]
  intro hadmits
  have haccepts : (assigned key ended).Accepts ⟨some name, [equals, c]⟩ := by
    refine ⟨hname, [equals], [c], rfl, ⟨equals, rfl, by decide⟩, Nat.le_refl 1, ?_⟩
    intro d hd
    rw [List.mem_singleton.mp hd]
    exact hadmits
  have hplace : text = (⟨some name, [equals, c]⟩ : Match CodePoint).text ++ rest := by
    rw [htext, hafter, Match.text]
    simp
  exact Shape.find_ne_none hboundary haccepts hplace h

/-- What is found where a key is marked has the marker for its secret. -/
theorem KeyMarked.found {before : Option CodePoint} {text : List CodePoint}
    (hmarked : KeyMarked words key ended before text) {found : Match CodePoint}
    (hfind : (assigned key ended).find words.isWord before text = some found) :
    found.tail = equals :: redacted := by
  obtain ⟨hboundary, after, _, htext, haccepts⟩ := Shape.find_eq_some hfind
  obtain ⟨name, secret, _, htail, hfound, hname, hne, hall⟩ := assigned_accepts haccepts
  have hstop : after.takeWhile (noneOf ended) = [] := by
    apply takeWhile_stop
    intro c rest hafter
    exact Shape.find_stops (.seq .run) hfind htext hafter
  have hsecret : (secret ++ after).takeWhile (noneOf ended) = secret := by
    rw [List.takeWhile_append_of_pos hall, hstop, List.append_nil]
  have hwhole : text = name ++ equals :: (secret ++ after) := by
    rw [htext, hfound, List.append_assoc]
    rfl
  rcases hmarked name (secret ++ after) hboundary hwhole hname with hnil | hmark
  · rw [hsecret] at hnil
    exact absurd hnil hne
  · rw [hsecret] at hmark
    rw [htail, hmark]

/-! ## A key, through a replacement -/

/-- What of a replacement leaves the keys that are read, and the secrets of those that were
marked: its matches begin where a secret does not end, not inside a name, and not inside the
marker; and no key is read in what it writes that has a secret other than the marker. -/
structure LeavesKeys (words : WordClass) (key : Expr CodePoint) (ended : String)
    (replaced : Shape CodePoint)
    (replace : Match CodePoint → Except IndexError (List CodePoint)) : Prop where
  nonempty : ∀ found, replaced.Accepts found → found.text ≠ []
  marks : Marks replace replaced
  past : Past words (assigned key ended) replaced
  begins : ∀ c, Opens replaced c → noneOf ended c = true
  named : ∀ name after u c v, key.Accepts name → name ++ [equals] = u ++ c :: v → v ≠ [] →
    replaced.find words.isWord (some c) (v ++ after) = none
  marked : ∀ u v before after, redacted = u ++ v → v ≠ [] →
    replaced.find words.isWord (u.getLast?.or before) (v ++ after) = none
  written : ∀ before before' found old new written,
    replaced.find words.isWord before (found.text ++ old) = some found →
    replace found = .ok written →
    (old.takeWhile (noneOf ended) = [] → new.takeWhile (noneOf ended) = []) →
    ∀ u v, written = u ++ v → v ≠ [] →
      KeyMarked words key ended (u.getLast?.or before') (v ++ new)

variable {replaced : Shape CodePoint}
  {replace : Match CodePoint → Except IndexError (List CodePoint)}

/-- Where no secret goes on, none goes on afterwards. -/
theorem LeavesKeys.still_ended (hleaves : LeavesKeys words key ended replaced replace)
    {before : Option CodePoint}
    {Kept : Option CodePoint → List CodePoint → Prop} {old new : List CodePoint}
    (h : Shape.Substituted words.isWord replaced replace Kept before old new)
    (hold : old.takeWhile (noneOf ended) = []) : new.takeWhile (noneOf ended) = [] := by
  cases h with
  | nil => rfl
  | @kept _ c old new _ _ =>
      rw [List.takeWhile_cons] at hold ⊢
      split at hold
      · cases hold
      · next hstop => rw [if_neg hstop]
  | @found _ old new written found _ hfind _ _ =>
      obtain ⟨_, _, _, _, haccepts⟩ := Shape.find_eq_some hfind
      obtain ⟨c, rest, htext⟩ := List.exists_cons_of_ne_nil (hleaves.nonempty found haccepts)
      rw [htext, List.cons_append, List.takeWhile_cons,
        if_pos (hleaves.begins c ⟨found, rest, haccepts, htext⟩)] at hold
      cases hold

theorem redacted_noneOf {ended : String} (h : redacted.all (noneOf ended) = true)
    {after : List CodePoint} :
    (redacted ++ after).takeWhile (noneOf ended) =
      redacted ++ after.takeWhile (noneOf ended) :=
  List.takeWhile_append_of_pos (List.all_eq_true.mp h)

theorem LeavesKeys.still_marked (hleaves : LeavesKeys words key ended replaced replace)
    (hmark : redacted.all (noneOf ended) = true) {before : Option CodePoint}
    {Kept : Option CodePoint → List CodePoint → Prop} {old new : List CodePoint}
    (h : Shape.Substituted words.isWord replaced replace Kept before old new)
    (hold : old.takeWhile (noneOf ended) = redacted) :
    new.takeWhile (noneOf ended) = redacted := by
  have hsplit : redacted ++ old.dropWhile (noneOf ended) = old := by
    rw [← hold, List.takeWhile_append_dropWhile]
  rw [← hsplit] at h
  obtain ⟨rest, hnew, hrest⟩ := h.through (fun u v hsplit hv => hleaves.marked u v _ _ hsplit hv)
  have hstop : (old.dropWhile (noneOf ended)).takeWhile (noneOf ended) = [] := by
    apply takeWhile_stop
    intro c after hafter
    have hhead := List.head?_dropWhile_not (noneOf ended) old
    rw [hafter] at hhead
    exact hhead
  rw [hnew, redacted_noneOf hmark, hleaves.still_ended hrest hstop, List.append_nil]

theorem opens_assigned (hmark : redacted.all (noneOf ended) = true) {c : CodePoint}
    {rest : List CodePoint} (hname : key.Accepts (c :: rest)) : Opens (assigned key ended) c := by
  refine ⟨⟨some (c :: rest), equals :: redacted⟩, rest ++ equals :: redacted, ?_, rfl⟩
  refine ⟨hname, [equals], redacted, rfl, ⟨equals, rfl, by decide⟩, by decide, ?_⟩
  exact List.all_eq_true.mp hmark

/-- The keys that are marked stay marked, and no other is read. -/
theorem LeavesKeys.keyMarked (hleaves : LeavesKeys words key ended replaced replace)
    (hspells : Spells key spellings) (hplain : spellings.all plainWord = true)
    (hmark : redacted.all (noneOf ended) = true) {old new : List CodePoint}
    (h : Shape.Substituted words.isWord replaced replace (KeyMarked words key ended) none old
      new) : Shape.Throughout (KeyMarked words key ended) none new := by
  refine h.throughout (Behind words (assigned key ended)) ?_ ?_ ?_ ?_ ?_
  · intro c old d after _ _ hword
    exact hword
  · intro before before' found old written hfind _
    exact behind_past hleaves.past hfind
  · intro before before' c old new hbehind hmarked hrest name after' hboundary htext hname
    obtain ⟨⟨first, others, hfirst, hletter⟩, _, hbracket, _, _⟩ := name_plain hspells hplain hname
    rw [hfirst, List.cons_append] at htext
    injection htext with hc hnew
    rw [hfirst, ← hc] at hname
    rw [← hc] at hletter
    have hopens := opens_assigned hmark hname
    -- the name and its equals sign were there before, and stayed
    have hold : others ++ [equals] <+: old := by
      refine hrest.prefix_old IsMark ?_ ?_ ⟨after', ?_⟩
      · intro found written haccepts hreplace
        obtain ⟨opening, tail, mark, hfound, hwritten, hmark, _⟩ :=
          hleaves.marks found written haccepts hreplace
        exact ⟨opening, tail, mark, hfound, hwritten, hmark⟩
      · intro u v mark rest hsplit hne hmark
        apply not_prefix_mark hmark hne
        · intro hv
          have hmem : 0x3C ∈ others ++ [equals] := by
            rw [hsplit]
            exact List.mem_append_right u hv
          rcases List.mem_append.mp hmem with hmem | hmem
          · rw [hfirst] at hbracket
            exact hbracket (List.mem_cons_of_mem first hmem)
          · exact absurd (List.mem_singleton.mp hmem) (by decide)
        · have hlast : (others ++ [equals]).getLast? = v.getLast? := by
            rw [hsplit, List.getLast?_append_of_ne_nil _ hne]
          rw [← hlast, List.getLast?_concat]
          decide
      · rw [hnew, List.append_assoc]
        rfl
    obtain ⟨after, hafter⟩ := hold
    rw [← hafter] at hrest
    have hnone : ∀ u v, others ++ [equals] = u ++ v → v ≠ [] →
        replaced.find words.isWord (u.getLast?.or (some c)) (v ++ after) = none := by
      intro u v hsplit hne
      obtain ⟨init, last, hinit⟩ : ∃ init last, c :: u = init ++ [last] :=
        ⟨_, _, (List.dropLast_concat_getLast (List.cons_ne_nil c u)).symm⟩
      have hbehind : u.getLast?.or (some c) = some last := by
        rw [← Shape.behind_cons c u none, hinit, List.getLast?_concat]
        rfl
      rw [hbehind]
      apply hleaves.named (c :: others) after init last v hname _ hne
      rw [List.cons_append, hsplit, ← List.cons_append, hinit, List.append_assoc]
      rfl
    obtain ⟨rest, hrestnew, hsub⟩ := hrest.through hnone
    have hsame : after' = rest := by
      rw [hnew] at hrestnew
      have hcancel : (others ++ [equals]) ++ after' = (others ++ [equals]) ++ rest := by
        rw [← hrestnew, List.append_assoc]
        rfl
      exact List.append_cancel_left hcancel
    rw [hsame]
    have hwhole : c :: old = (c :: others) ++ equals :: after := by
      rw [← hafter, List.append_assoc]
      rfl
    have hplace := hbehind.boundary (isWord_of_letter hletter) hopens hboundary
    rcases hmarked (c :: others) after hplace hwhole hname with hended | hredacted
    · exact Or.inl (hleaves.still_ended hsub hended)
    · exact Or.inr (hleaves.still_marked hmark hsub hredacted)
  · intro before before' found old new written hfind hreplace _ hrest u v hsplit hne
    exact hleaves.written before before' found old new written hfind hreplace
      (hleaves.still_ended hrest) u v hsplit hne
  · intro c after _ _ hword
    exact hword

end Key

/-! ## The replacements -/

section Replaced

variable {words : WordClass}

theorem noneOf_of_letter {ended : String}
    (hended : (ofString ended).all (fun c => !isLetter (fold c)) = true) {c : CodePoint}
    (hletter : isLetter (fold c) = true) : noneOf ended c = true := by
  rw [noneOf, Bool.and_eq_true, Bool.not_eq_true', Bool.not_eq_true']
  constructor
  · rw [← Bool.not_eq_true]
    intro hspace
    rw [fold_of_space hspace] at hletter
    have hplain := space_plain hspace
    rw [hletter] at hplain
    cases hplain
  · rw [← Bool.not_eq_true, List.contains_iff_mem]
    intro hmem
    have hnot := List.all_eq_true.mp hended c hmem
    rw [hletter] at hnot
    cases hnot

theorem equals_unique {name after name' after' : List CodePoint}
    (h : name ++ equals :: after = name' ++ equals :: after') (hname : equals ∉ name)
    (hname' : equals ∉ name') : name = name' ∧ after = after' := by
  induction name generalizing name' with
  | nil =>
      cases name' with
      | nil =>
          injection h with _ hafter
          exact ⟨rfl, hafter⟩
      | cons c name' =>
          injection h with hc _
          exact absurd (hc ▸ List.mem_cons_self) hname'
  | cons c name ih =>
      cases name' with
      | nil =>
          injection h with hc _
          exact absurd (hc ▸ List.mem_cons_self) hname
      | cons d name' =>
          injection h with hc hrest
          obtain ⟨hsame, hafter⟩ := ih hrest (fun hmem => hname (List.mem_cons_of_mem c hmem))
            (fun hmem => hname' (List.mem_cons_of_mem d hmem))
          exact ⟨by rw [hc, hsame], hafter⟩

/-- In the marker only one character can open a word: the first letter. -/
theorem marker_opens {u v : List CodePoint} {c : CodePoint} (h : redacted = u ++ c :: v)
    (hword : words.isWord c = true) (hr : c ≠ 0x72) :
    ∀ before : Option CodePoint, (u.getLast?.or before).any words.isWord = true := by
  have hcheck : Shape.Throughout (fun before text => text.head?.all (fun c =>
      c == 0x72 || !asciiWord c || before.any asciiWord) = true) none redacted := by decide
  have hascii : redacted.all (fun c => c.val < 0x80) = true := by decide
  have hplace := Shape.throughout_iff.mp hcheck u (c :: v) h (List.cons_ne_nil c v)
  have hlow : ∀ d ∈ redacted, asciiWord d = words.isWord d := by
    intro d hd
    have hd' := List.all_eq_true.mp hascii d hd
    rw [decide_eq_true_eq] at hd'
    exact (words.ascii d hd').symm
  have hc : c ∈ redacted := by
    rw [h]
    exact List.mem_append_right u List.mem_cons_self
  rw [List.head?_cons, Option.all_some, hlow c hc, hword, Bool.not_true, Bool.or_false,
    Bool.or_eq_true, beq_iff_eq] at hplace
  have hbehind := hplace.resolve_left hr
  intro before
  cases hlast : u.getLast? with
  | none =>
      rw [hlast] at hbehind
      cases hbehind
  | some d =>
      rw [hlast] at hbehind
      have hd : d ∈ redacted := by
        rw [h]
        exact List.mem_append_left _ (List.mem_of_getLast? hlast)
      rw [Option.some_or, Option.any_some] at hbehind ⊢
      rw [← hlow d hd]
      exact hbehind

/-- So no shape that opens with another word character is found in it. -/
theorem find_marker {shape : Shape CodePoint}
    (hne : ∀ found, shape.Accepts found → found.text ≠ [])
    (hopens : ∀ c, Opens shape c → words.isWord c = true ∧ c ≠ 0x72) {u v : List CodePoint}
    {before : Option CodePoint} {after : List CodePoint} (h : redacted = u ++ v) (hv : v ≠ []) :
    shape.find words.isWord (u.getLast?.or before) (v ++ after) = none := by
  by_contra hfound
  obtain ⟨found, hfind⟩ := Option.ne_none_iff_exists'.mp hfound
  obtain ⟨hboundary, rest, _, htext, haccepts⟩ := Shape.find_eq_some hfind
  obtain ⟨c, v, rfl⟩ := List.exists_cons_of_ne_nil hv
  obtain ⟨d, others, hd⟩ := List.exists_cons_of_ne_nil (hne found haccepts)
  rw [hd] at htext
  injection htext with hc _
  rw [← hc] at hd
  obtain ⟨hword, hr⟩ := hopens c ⟨found, others, haccepts, hd⟩
  rw [List.cons_append, boundary_open hword, marker_opens h hword hr] at hboundary
  cases hboundary

/-- No key is read from within the marker. -/
theorem keyMarked_marker {key : Expr CodePoint} {ended : String}
    {spellings : List (List CodePoint)} (hspells : Spells key spellings)
    (hplain : spellings.all plainWord = true) {u v new : List CodePoint}
    {before : Option CodePoint} (h : redacted = u ++ v) (hv : v ≠ []) :
    KeyMarked words key ended before (v ++ new) := by
  intro name after _ htext hname
  obtain ⟨_, _, _, hclosing, _⟩ := name_plain hspells hplain hname
  have hends : ∃ v₀, v = v₀ ++ [0x3E] := by
    apply List.getLast?_eq_some_iff.mp
    rw [← List.getLast?_append_of_ne_nil u hv, ← h]
    decide
  obtain ⟨v₀, hv₀⟩ := hends
  have hwhole : name ++ [equals] <+: v₀ ++ 0x3E :: new := by
    rw [hv₀, List.append_assoc] at htext
    exact ⟨after, by rw [List.append_assoc]; exact htext.symm⟩
  have hprefix : name ++ [equals] <+: v₀ := by
    apply prefix_before hwhole
    intro hmem
    rcases List.mem_append.mp hmem with hmem | hmem
    · exact hclosing hmem
    · exact absurd (List.mem_singleton.mp hmem) (by decide)
  have hequals : equals ∈ redacted := by
    rw [h, hv₀]
    apply List.mem_append_right u
    apply List.mem_append_left
    exact hprefix.subset (List.mem_append_right name (List.mem_singleton_self equals))
  exact absurd hequals (by decide)

theorem head_assigned {key : Expr CodePoint} {ended : String}
    {spellings : List (List CodePoint)} (hspells : Spells key spellings)
    (hplain : spellings.all plainWord = true) {c : CodePoint}
    (h : Opens (assigned key ended) c) :
    ∃ spelling ∈ spellings, spelling.head? = some (fold c) := by
  obtain ⟨found, rest, haccepts, htext⟩ := h
  obtain ⟨name, secret, _, _, hfound, hname, _⟩ := assigned_accepts haccepts
  obtain ⟨⟨first, others, hfirst, _⟩, _⟩ := name_plain hspells hplain hname
  refine ⟨name.map fold, hspells name hname, ?_⟩
  rw [htext, hfirst] at hfound
  injection hfound with hc
  rw [hfirst, List.map_cons, List.head?_cons, hc]

theorem fold_assigned {key : Expr CodePoint} {ended : String}
    {spellings : List (List CodePoint)} (hspells : Spells key spellings)
    (hplain : spellings.all plainWord = true) {c : CodePoint}
    (h : Opens (assigned key ended) c) : isLetter (fold c) = true := by
  obtain ⟨spelling, hspelling, hhead⟩ := head_assigned hspells hplain h
  have hword := List.all_eq_true.mp hplain spelling hspelling
  rw [plainWord, Bool.and_eq_true, hhead] at hword
  exact hword.1

theorem replacement_assigned {key : Expr CodePoint} {ended : String} {found : Match CodePoint}
    {written : List CodePoint} (haccepts : (assigned key ended).Accepts found)
    (h : replacement found = .ok written) :
    ∃ name secret, key.Accepts name ∧ found.text = name ++ equals :: secret ∧
      written = name ++ equals :: redacted := by
  obtain ⟨name, secret, hgroup, _, htext, hname, _⟩ := assigned_accepts haccepts
  have hequals : found.text.contains equals = true := by
    rw [htext, List.contains_iff_mem]
    exact List.mem_append_right name List.mem_cons_self
  rw [replacement, if_pos hequals, hgroup] at h
  injection h with h
  exact ⟨name, secret, hname, htext, h.symm⟩

theorem isWord_before (words : WordClass) {key : Expr CodePoint}
    {spellings : List (List CodePoint)} {P : List CodePoint → Prop}
    (hspells : Spells key spellings) (hbefore : ∀ spelling ∈ spellings, LetterBefore P spelling)
    {u v : List CodePoint} {c : CodePoint} (hname : key.Accepts (u ++ c :: v)) (hv : v ≠ [])
    (hrest : P (v.map fold)) : words.isWord c = true := by
  have hsplit : (u ++ c :: v).map fold = (u.map fold ++ [fold c]) ++ v.map fold := by simp
  have hplace := Shape.throughout_iff.mp (hbefore _ (hspells _ hname)) _ _ hsplit
    (by simpa using hv) hrest
  rw [List.getLast?_concat, Option.some_or, Option.all_some] at hplace
  exact isWord_of_letter hplace

/-- A name and its equals sign, split inside the name. -/
theorem name_split {name u v : List CodePoint} {c : CodePoint}
    (h : name ++ [equals] = u ++ c :: v) (hv : v ≠ []) :
    ∃ v', v = v' ++ [equals] ∧ name = u ++ c :: v' := by
  have hends : ∃ v', v = v' ++ [equals] := by
    apply List.getLast?_eq_some_iff.mp
    have hlast : (u ++ [c] ++ v).getLast? = some equals := by
      rw [List.append_assoc, List.singleton_append, ← h, List.getLast?_concat]
    rw [← hlast, List.getLast?_append_of_ne_nil _ hv]
  obtain ⟨v', hv'⟩ := hends
  refine ⟨v', hv', ?_⟩
  rw [hv'] at h
  have hcancel : name ++ [equals] = (u ++ c :: v') ++ [equals] := by
    rw [h, List.append_assoc]
    rfl
  exact List.append_cancel_right hcancel

section Assignments

variable {key replacedKey : Expr CodePoint} {ended replacedEnded : String}
  {spellings replacedSpellings : List (List CodePoint)}

/-- Nothing is found from inside a name: a match would have to end with it, and a word
character stands before its last part. -/
theorem find_inside_name (hspells : Spells key spellings)
    (hplain : spellings.all plainWord = true)
    (hreplacedSpells : Spells replacedKey replacedSpellings)
    (hreplacedPlain : replacedSpellings.all plainWord = true)
    (hinner : ∀ spelling ∈ spellings, LetterBefore (· ∈ replacedSpellings) spelling)
    {name after u v : List CodePoint} {c : CodePoint} (hname : key.Accepts name)
    (hsplit : name ++ [equals] = u ++ c :: v) (hv : v ≠ []) :
    (assigned replacedKey replacedEnded).find words.isWord (some c) (v ++ after) = none := by
  by_contra hfound
  obtain ⟨found, hfind⟩ := Option.ne_none_iff_exists'.mp hfound
  obtain ⟨hboundary, rest, _, htext, haccepts⟩ := Shape.find_eq_some hfind
  obtain ⟨other, secret, _, _, hother, hreplaced, _⟩ := assigned_accepts haccepts
  obtain ⟨⟨first, others, hfirst, hletter⟩, hequals, _⟩ :=
    name_plain hreplacedSpells hreplacedPlain hreplaced
  obtain ⟨v', hv', hwhole⟩ := name_split hsplit hv
  obtain ⟨_, hnone, _⟩ := name_plain hspells hplain hname
  have hsame : v' = other := by
    rw [hv', hother, List.append_assoc, List.append_assoc] at htext
    refine (equals_unique htext ?_ hequals).1
    intro hmem
    apply hnone
    rw [hwhole]
    exact List.mem_append_right u (List.mem_cons_of_mem c hmem)
  rw [hwhole, hsame] at hname
  have hne : other ≠ [] := by
    rw [hfirst]
    exact List.cons_ne_nil first others
  have hword := isWord_before words hspells hinner hname hne
    (hreplacedSpells other hreplaced)
  rw [hv', hsame, hfirst, List.append_assoc, List.cons_append,
    boundary_open (isWord_of_letter hletter), Option.any_some, hword] at hboundary
  cases hboundary

/-- What follows a place in a replaced assignment: part of the marker, or the end of the
name, the equals sign and the marker. -/
theorem written_split {other u v : List CodePoint}
    (h : other ++ equals :: redacted = u ++ v) :
    (∃ u', redacted = u' ++ v) ∨ ∃ v', other = u ++ v' ∧ v = v' ++ equals :: redacted := by
  rcases List.append_eq_append_iff.mp h with ⟨u', hu, hrest⟩ | ⟨v', hname, hrest⟩
  · cases u' with
    | nil => exact Or.inr ⟨[], by rw [hu]; simp, hrest.symm⟩
    | cons c u' =>
        injection hrest with _ hrest
        exact Or.inl ⟨u', hrest⟩
  · exact Or.inr ⟨v', hname, hrest⟩

/-- A key that is read in a replaced assignment is the one replaced, and its secret is the
marker. -/
theorem keyMarked_written (hspells : Spells key spellings)
    (hplain : spellings.all plainWord = true)
    (hreplacedSpells : Spells replacedKey replacedSpellings)
    (hreplacedPlain : replacedSpellings.all plainWord = true)
    (hmark : redacted.all (noneOf ended) = true)
    (houter : ∀ spelling ∈ replacedSpellings, LetterBefore (· ∈ spellings) spelling)
    (hagree : ∀ name, key.Accepts name → replacedKey.Accepts name → ended = replacedEnded)
    {before before' : Option CodePoint} {found : Match CodePoint} {old new written : List CodePoint}
    (hfind : (assigned replacedKey replacedEnded).find words.isWord before
      (found.text ++ old) = some found)
    (hreplace : replacement found = .ok written)
    (hended : old.takeWhile (noneOf ended) = [] → new.takeWhile (noneOf ended) = [])
    {u v : List CodePoint} (hsplit : written = u ++ v) (hv : v ≠ []) :
    KeyMarked words key ended (u.getLast?.or before') (v ++ new) := by
  obtain ⟨_, _, _, _, haccepts⟩ := Shape.find_eq_some hfind
  obtain ⟨other, secret, hother, htext, hwritten⟩ := replacement_assigned haccepts hreplace
  obtain ⟨_, hequals, _⟩ := name_plain hreplacedSpells hreplacedPlain hother
  rw [hwritten] at hsplit
  rcases written_split hsplit with ⟨u', hu'⟩ | ⟨v', hparts, hv'⟩
  · exact keyMarked_marker hspells hplain hu' hv
  · intro name after hboundary hplace hname
    obtain ⟨⟨first, others, hfirst, hletter⟩, hnone, _⟩ := name_plain hspells hplain hname
    rw [hv', List.append_assoc, List.cons_append] at hplace
    have hout : equals ∉ v' := by
      intro hmem
      apply hequals
      rw [hparts]
      exact List.mem_append_right u hmem
    obtain ⟨hsame, hafter⟩ := equals_unique hplace hout hnone
    rw [hsame] at hparts
    rcases List.eq_nil_or_concat u with hu | ⟨u₀, d, hu⟩
    · -- the key is the one replaced, and its secret is now the marker
      rw [hu, List.nil_append] at hparts
      rw [hparts] at hother
      have hsameEnd := hagree name hname hother
      have hold : old.takeWhile (noneOf ended) = [] := by
        apply takeWhile_stop
        intro c rest hrest
        rw [hsameEnd]
        exact Shape.find_stops (.seq .run) hfind rfl hrest
      rw [← hafter, redacted_noneOf hmark, hended hold, List.append_nil]
      exact Or.inr rfl
    · rw [hu, List.concat_eq_append, List.append_assoc] at hparts
      rw [hparts] at hother
      have hne : name ≠ [] := by
        rw [hfirst]
        exact List.cons_ne_nil first others
      have hword := isWord_before words hreplacedSpells houter hother hne (hspells name hname)
      rw [hu, List.concat_eq_append, List.getLast?_concat, Option.some_or, hv', hsame, hfirst,
        List.append_assoc, List.cons_append, boundary_open (isWord_of_letter hletter),
        Option.any_some, hword] at hboundary
      cases hboundary

/-- One kind of assignment, replaced, and the keys of another or the same. -/
theorem leavesKeys_assigned (hspells : Spells key spellings)
    (hplain : spellings.all plainWord = true)
    (hreplacedSpells : Spells replacedKey replacedSpellings)
    (hreplacedPlain : replacedSpellings.all plainWord = true)
    (hended : (ofString ended).all (fun c => !isLetter (fold c)) = true)
    (hreplacedEnded : (ofString replacedEnded).all (fun c => !isLetter (fold c)) = true)
    (hmark : redacted.all (noneOf ended) = true)
    (hr : replacedSpellings.all (fun spelling => spelling.head? != some 0x72) = true)
    (hinner : ∀ spelling ∈ spellings, LetterBefore (· ∈ replacedSpellings) spelling)
    (houter : ∀ spelling ∈ replacedSpellings, LetterBefore (· ∈ spellings) spelling)
    (hagree : ∀ name, key.Accepts name → replacedKey.Accepts name → ended = replacedEnded) :
    LeavesKeys words key ended (assigned replacedKey replacedEnded) replacement where
  nonempty := by
    intro found h
    obtain ⟨name, secret, _, _, htext, _⟩ := assigned_accepts h
    rw [htext]
    simp
  marks := by
    intro found written haccepts hreplace
    obtain ⟨name, secret, hname, htext, hwritten⟩ := replacement_assigned haccepts hreplace
    obtain ⟨_, _, _, _, hneeded⟩ := name_plain hreplacedSpells hreplacedPlain hname
    refine ⟨name ++ [equals], secret, redacted, ?_, ?_, Or.inl rfl, ?_⟩
    · rw [htext, List.append_assoc]
      rfl
    · rw [hwritten, List.append_assoc]
      rfl
    · intro c hc
      rcases List.mem_append.mp hc with hc | hc
      · exact hneeded c hc
      · rw [List.mem_singleton.mp hc]
        decide
  past := past_of_endsIn (.seq .run) fun c h =>
    noneOf_of_letter hreplacedEnded (fold_assigned hspells hplain h)
  begins := fun c h =>
    noneOf_of_letter hended (fold_assigned hreplacedSpells hreplacedPlain h)
  named := fun _ _ _ _ _ hname hsplit hv =>
    find_inside_name hspells hplain hreplacedSpells hreplacedPlain hinner hname hsplit hv
  marked := by
    intro u v before after hsplit hv
    refine find_marker ?_ ?_ hsplit hv
    · intro found h
      obtain ⟨name, secret, _, _, htext, _⟩ := assigned_accepts h
      rw [htext]
      simp
    · intro c hopens
      refine ⟨isWord_of_letter (fold_assigned hreplacedSpells hreplacedPlain hopens), ?_⟩
      intro hc
      obtain ⟨spelling, hspelling, hhead⟩ := head_assigned hreplacedSpells hreplacedPlain hopens
      have hnot := List.all_eq_true.mp hr spelling hspelling
      rw [hhead, hc] at hnot
      exact absurd hnot (by decide)
  written := fun _ _ _ _ _ _ hfind hreplace hkept _ _ hsplit hv =>
    keyMarked_written hspells hplain hreplacedSpells hreplacedPlain hmark houter hagree hfind
      hreplace hkept hsplit hv

end Assignments

/-! ## A DSN -/

def inUser (c : CodePoint) : Bool := noneOf ":/@\"'" c

def inPassword (c : CodePoint) : Bool := noneOf "@\"'" c

/-- What a DSN has before its colon and slashes. -/
def Scheme (words : WordClass) (scheme : List CodePoint) : Prop :=
  ∃ name rest ql driver, scheme = name ++ rest ∧ rest = ql ++ driver ∧
    (caseless "postgres").Accepts name ∧ (Expr.optional (caseless "ql")).Accepts ql ∧
    (Expr.optional (.seq (oneOf "+") (.many 1 words.isWord))).Accepts driver

/-- A DSN, from its parts. -/
def dsnText (scheme user password : List CodePoint) : List CodePoint :=
  scheme ++ (ofString "://" ++ (user ++ 0x3A :: (password ++ [0x40])))

/-- The password, and then an at sign. -/
theorem dsnText_at {scheme user password : List CodePoint} :
    dsnText scheme user password =
      (scheme ++ (ofString "://" ++ (user ++ 0x3A :: password))) ++ [0x40] := by
  rw [dsnText]
  simp

theorem dsn_accepts {found : Match CodePoint} (h : (dsn words).Accepts found) :
    found.group = none ∧ ∃ scheme user password, found.text = dsnText scheme user password ∧
      Scheme words scheme ∧ user ≠ [] ∧ (∀ c ∈ user, inUser c = true) ∧
      password ≠ [] ∧ ∀ c ∈ password, inPassword c = true := by
  obtain ⟨group, tail⟩ := found
  cases group with
  | some name => cases h
  | none =>
      obtain ⟨name, _, htail, hname, ql, _, hafterName, hql, driver, _, hafterQl, hdriver,
        slashes, _, hafterDriver, hslashes, user, _, hafterSlashes, huser, colon, _, hafterUser,
        ⟨c, hc, hadmits⟩, password, last, hafterColon, hpassword, ⟨d, hd, hends⟩⟩ := h
      have hcolon : c = 0x3A := List.mem_singleton.mp (List.contains_iff_mem.mp hadmits)
      have hat : d = 0x40 := List.mem_singleton.mp (List.contains_iff_mem.mp hends)
      rw [spelled, Expr.accepts_literal, List.map_id] at hslashes
      refine ⟨rfl, name ++ (ql ++ driver), user, password, ?_,
        ⟨name, ql ++ driver, ql, driver, rfl, rfl, hname, hql, hdriver⟩, ?_, huser.2, ?_,
        hpassword.2⟩
      · rw [Match.text, htail, hafterName, hafterQl, hafterDriver, hslashes, hafterSlashes,
          hafterUser, hafterColon, hc, hd, hcolon, hat, dsnText]
        simp
      · intro hnil
        rw [hnil] at huser
        exact absurd huser.1 (by decide)
      · intro hnil
        rw [hnil] at hpassword
        exact absurd hpassword.1 (by decide)

theorem accepts_dsn {scheme user password : List CodePoint} (hscheme : Scheme words scheme)
    (huser : user ≠ []) (hinUser : ∀ c ∈ user, inUser c = true) (hpassword : password ≠ [])
    (hinPassword : ∀ c ∈ password, inPassword c = true) :
    (dsn words).Accepts ⟨none, dsnText scheme user password⟩ := by
  obtain ⟨name, _, ql, driver, hparts, hrest, hname, hql, hdriver⟩ := hscheme
  refine ⟨name, _, ?_, hname, ql, _, rfl, hql, driver, _, rfl, hdriver, ofString "://", _, rfl,
    ?_, user, _, rfl, ⟨List.length_pos_iff.mpr huser, hinUser⟩, [0x3A], _, rfl,
    ⟨0x3A, rfl, by decide⟩, password, [0x40], rfl,
    ⟨List.length_pos_iff.mpr hpassword, hinPassword⟩, 0x40, rfl, by decide⟩
  · rw [dsnText, hparts, hrest]
    simp
  · rw [spelled, Expr.accepts_literal, List.map_id]

theorem inUser_of_word {c : CodePoint} (hword : words.isWord c = true) : inUser c = true := by
  have hpunctuation : ∀ d ∈ [0x3A, 0x2F, 0x40, 0x22, 0x27], words.isWord d = false := by
    intro d hd
    simp only [List.mem_cons, List.not_mem_nil, or_false] at hd
    rcases hd with rfl | rfl | rfl | rfl | rfl
    all_goals
      rw [words.ascii _ (by decide)]
      decide
  rw [inUser, noneOf, Bool.and_eq_true, Bool.not_eq_true', Bool.not_eq_true',
    ← Bool.not_eq_true, ← Bool.not_eq_true]
  constructor
  · intro hspace
    rw [words.spaced c hspace] at hword
    cases hword
  · intro hmem
    rw [hpunctuation c (List.contains_iff_mem.mp hmem)] at hword
    cases hword

theorem inPassword_of_user {c : CodePoint} (h : inUser c = true) : inPassword c = true := by
  rw [inUser, noneOf, Bool.and_eq_true] at h
  rw [inPassword, noneOf, Bool.and_eq_true]
  have hfewer : ofString "@\"'" ⊆ ofString ":/@\"'" := by decide
  obtain ⟨hspace, hnone⟩ := h
  refine ⟨hspace, ?_⟩
  rw [Bool.not_eq_true', ← Bool.not_eq_true, List.contains_iff_mem] at hnone ⊢
  exact fun hmem => hnone (hfewer hmem)

/-- A scheme begins with a `p`, and is of word characters and a plus sign. -/
theorem scheme_characters {scheme : List CodePoint} (h : Scheme words scheme) :
    (∃ c rest, scheme = c :: rest ∧ fold c = 0x70) ∧
      ∀ c ∈ scheme, words.isWord c = true ∨ c = 0x2B := by
  obtain ⟨name, rest, ql, driver, hparts, hrest, hname, hql, hdriver⟩ := h
  have hletters : ∀ word : String, (ofString word).all isLetter = true → ∀ text : List CodePoint,
      (caseless word).Accepts text → ∀ c ∈ text, words.isWord c = true := by
    intro word hword text htext c hc
    exact isWord_of_letter (List.all_eq_true.mp hword _ (fold_mem htext hc))
  constructor
  · rw [caseless, Expr.accepts_literal] at hname
    obtain ⟨c, others, hfirst, hc, _⟩ := List.map_eq_cons_iff.mp hname
    exact ⟨c, others ++ rest, by rw [hparts, hfirst]; rfl, hc⟩
  · intro c hc
    rw [hparts, hrest, List.mem_append, List.mem_append] at hc
    rcases hc with hc | hc | hc
    · exact Or.inl (hletters "postgres" (by decide) name hname c hc)
    · rcases hql with hql | hql
      · exact Or.inl (hletters "ql" (by decide) ql hql c hc)
      · rw [hql] at hc
        cases hc
    · rcases hdriver with ⟨plus, driver', hsplit, ⟨d, hplus, hadmits⟩, hmany⟩ | hdriver
      · rw [hsplit, hplus, List.singleton_append, List.mem_cons] at hc
        rcases hc with hc | hc
        · rw [hc]
          exact Or.inr (List.mem_singleton.mp (List.contains_iff_mem.mp hadmits))
        · exact Or.inl (hmany.2 c hc)
      · rw [hdriver] at hc
        cases hc

theorem fold_dsn {c : CodePoint} (h : Opens (dsn words) c) : fold c = 0x70 := by
  obtain ⟨found, rest, haccepts, htext⟩ := h
  obtain ⟨_, scheme, user, password, hfound, hscheme, _⟩ := dsn_accepts haccepts
  obtain ⟨⟨first, others, hfirst, hfold⟩, _⟩ := scheme_characters hscheme
  rw [htext, dsnText, hfirst] at hfound
  injection hfound with hc
  rw [hc]
  exact hfold

theorem dsn_ne_nil (found : Match CodePoint) (h : (dsn words).Accepts found) :
    found.text ≠ [] := by
  obtain ⟨_, scheme, user, password, hfound, _⟩ := dsn_accepts h
  rw [hfound, dsnText]
  simp

theorem isLetter_dsn {c : CodePoint} (h : Opens (dsn words) c) : isLetter (fold c) = true := by
  rw [fold_dsn h]
  decide

theorem opens_dsn {c : CodePoint} (h : Opens (dsn words) c) :
    words.isWord c = true ∧ c ≠ 0x72 := by
  refine ⟨isWord_of_letter (isLetter_dsn h), ?_⟩
  intro hc
  have hfold := fold_dsn h
  rw [hc] at hfold
  exact absurd hfold (by decide)

theorem past_dsn (shape : Shape CodePoint) : Past words shape (dsn words) := by
  intro before found c after hfind _
  obtain ⟨_, _, _, _, haccepts⟩ := Shape.find_eq_some hfind
  obtain ⟨_, scheme, user, password, hfound, _⟩ := dsn_accepts haccepts
  have hlast : found.text.getLast? = some 0x40 := by
    rw [hfound, dsnText_at, List.getLast?_concat]
  rw [hlast, Option.some_or, Option.any_some, isWord_at]

theorem replacement_dsn {found : Match CodePoint} {written : List CodePoint}
    (haccepts : (dsn words).Accepts found) (h : replacement found = .ok written) :
    written = redacted := by
  rw [replacement, (dsn_accepts haccepts).1] at h
  split at h
  · cases h
  · injection h with h
    exact h.symm

theorem marks_dsn : Marks replacement (dsn words) := by
  intro found written haccepts hreplace
  exact ⟨[], found.text, redacted, rfl, replacement_dsn haccepts hreplace, Or.inl rfl,
    fun c hc => by cases hc⟩

theorem leavesKeys_dsn {key : Expr CodePoint} {ended : String}
    {spellings : List (List CodePoint)} (hspells : Spells key spellings)
    (hplain : spellings.all plainWord = true)
    (hended : (ofString ended).all (fun c => !isLetter (fold c)) = true)
    (hinside : ∀ spelling ∈ spellings, LetterBefore (·.head? = some 0x70) spelling) :
    LeavesKeys words key ended (dsn words) replacement where
  nonempty := dsn_ne_nil
  marks := marks_dsn
  past := past_dsn _
  begins := fun c h => noneOf_of_letter hended (isLetter_dsn h)
  named := by
    intro name after u c v hname hsplit hv
    by_contra hfound
    obtain ⟨found, hfind⟩ := Option.ne_none_iff_exists'.mp hfound
    obtain ⟨hboundary, rest, _, htext, haccepts⟩ := Shape.find_eq_some hfind
    obtain ⟨d, v, rfl⟩ := List.exists_cons_of_ne_nil hv
    obtain ⟨e, others, he⟩ := List.exists_cons_of_ne_nil (dsn_ne_nil found haccepts)
    rw [he] at htext
    injection htext with hd _
    rw [← hd] at he
    have hopens : Opens (dsn words) d := ⟨found, others, haccepts, he⟩
    have hfold := fold_dsn hopens
    obtain ⟨v', hv', hwhole⟩ := name_split hsplit hv
    cases v' with
    | nil =>
        injection hv' with hequals _
        rw [hequals] at hfold
        exact absurd hfold (by decide)
    | cons d' v' =>
        injection hv' with hsame _
        rw [← hsame] at hwhole
        rw [hwhole] at hname
        have hword := isWord_before words hspells hinside hname (List.cons_ne_nil d v')
          (by rw [List.map_cons, List.head?_cons, hfold])
        rw [List.cons_append, boundary_open (opens_dsn hopens).1, Option.any_some, hword]
          at hboundary
        cases hboundary
  marked := fun u v before after hsplit hv =>
    find_marker dsn_ne_nil (fun c h => opens_dsn h) hsplit hv
  written := by
    intro before before' found old new written hfind hreplace _ u v hsplit hv
    obtain ⟨_, _, _, _, haccepts⟩ := Shape.find_eq_some hfind
    rw [replacement_dsn haccepts hreplace] at hsplit
    exact keyMarked_marker hspells hplain hsplit hv

/-- A word at a place of the text as it becomes was there before, or runs into what a DSN was
replaced with. -/
theorem prefix_or_dsn {Kept : Option CodePoint → List CodePoint → Prop}
    {before : Option CodePoint} {old new wanted : List CodePoint}
    (h : Shape.Substituted words.isWord (dsn words) replacement Kept before old new)
    (hnew : wanted <+: new) :
    wanted <+: old ∨ ∃ x y found after, wanted = x ++ 0x3C :: y ∧
      old = x ++ (found.text ++ after) ∧ (dsn words).Accepts found := by
  induction h generalizing wanted with
  | nil => exact Or.inl hnew
  | @kept before c old new _ _ ih =>
      cases wanted with
      | nil => exact Or.inl List.nil_prefix
      | cons d wanted =>
          obtain ⟨hd, hrest⟩ := List.cons_prefix_cons.mp hnew
          rcases ih hrest with hold | ⟨x, y, found, after, hwanted, hold, haccepts⟩
          · exact Or.inl (List.cons_prefix_cons.mpr ⟨hd, hold⟩)
          · refine Or.inr ⟨d :: x, y, found, after, ?_, ?_, haccepts⟩
            · rw [hwanted]
              rfl
            · rw [hold, hd]
              rfl
  | @found before old new written found _ hfind hreplace _ _ =>
      obtain ⟨_, _, _, _, haccepts⟩ := Shape.find_eq_some hfind
      rw [replacement_dsn haccepts hreplace] at hnew
      cases wanted with
      | nil => exact Or.inl List.nil_prefix
      | cons d wanted =>
          obtain ⟨hd, _⟩ := List.cons_prefix_cons.mp hnew
          refine Or.inr ⟨[], wanted, found, old, ?_, rfl, haccepts⟩
          rw [hd]
          rfl

/-- Where a character stands that is not of the first of two parts, it is in the second. -/
theorem split_second {c : CodePoint} {x y first second : List CodePoint}
    (h : x ++ c :: y = first ++ second) (hfirst : c ∉ first) :
    ∃ z, x = first ++ z ∧ second = z ++ c :: y := by
  rcases List.append_eq_append_iff.mp h with ⟨z, hparts, hrest⟩ | ⟨z, hx, hrest⟩
  · cases z with
    | nil => exact ⟨[], by rw [hparts]; simp, hrest.symm⟩
    | cons d z =>
        injection hrest with hd _
        apply absurd _ hfirst
        rw [hparts, hd]
        exact List.mem_append_right x List.mem_cons_self
  · exact ⟨z, hx, hrest⟩

/-- A DSN begun, up to where another begins that is whole: together they are one. -/
theorem dsn_absorbs {scheme user password x y : List CodePoint} (hscheme : Scheme words scheme)
    (huser : ∀ c ∈ user, inUser c = true) (hne : user ≠ [])
    (hpassword : ∀ c ∈ password, inPassword c = true)
    (hwhole : dsnText scheme user password = x ++ 0x3C :: y) {found : Match CodePoint}
    (hfound : (dsn words).Accepts found) :
    ∃ other, (dsn words).Accepts other ∧ other.text = x ++ found.text := by
  obtain ⟨_, scheme', user', password', htext, hscheme', hne', huser', hpne', hpassword'⟩ :=
    dsn_accepts hfound
  -- what comes before the first user holds no bracket
  have hbracket : 0x3C ∉ scheme ++ ofString "://" := by
    intro hmem
    rcases List.mem_append.mp hmem with hmem | hmem
    · rcases (scheme_characters hscheme).2 0x3C hmem with hword | hplus
      · rw [isWord_opening] at hword
        cases hword
      · exact absurd hplus (by decide)
    · exact absurd hmem (by decide)
  have hslashes : (ofString "//").all inPassword = true := by decide
  have hrest : ∀ c ∈ ofString "//" ++ (user' ++ 0x3A :: password'), inPassword c = true := by
    intro c hc
    rw [List.mem_append, List.mem_append, List.mem_cons] at hc
    rcases hc with hc | hc | hc | hc
    · exact List.all_eq_true.mp hslashes c hc
    · exact inPassword_of_user (huser' c hc)
    · rw [hc]
      decide
    · exact hpassword' c hc
  have hinUser : ∀ c ∈ scheme', inUser c = true := by
    intro c hc
    rcases (scheme_characters hscheme').2 c hc with hword | hplus
    · exact inUser_of_word hword
    · rw [hplus]
      decide
  have hcolon : ofString "://" = 0x3A :: ofString "//" := by decide
  rw [dsnText, ← List.append_assoc] at hwhole
  obtain ⟨x₁, hx, hsecond⟩ := split_second hwhole.symm hbracket
  rcases List.append_eq_append_iff.mp hsecond with ⟨z, hx₁, hafter⟩ | ⟨z, hparts, _⟩
  · -- it begins in the password, and goes on with it
    cases z with
    | nil =>
        injection hafter with hc _
        exact absurd hc (by decide)
    | cons c z =>
        injection hafter with hc hpart
        have hz : ∀ d ∈ z, inPassword d = true := by
          rcases List.append_eq_append_iff.mp hpart with ⟨w, _, hat⟩ | ⟨w, hsplit, _⟩
          · cases w with
            | nil =>
                injection hat with hd _
                exact absurd hd (by decide)
            | cons d w =>
                injection hat with _ hnil
                cases w <;> cases hnil
          · intro d hd
            exact hpassword d (hsplit ▸ List.mem_append_left w hd)
        refine ⟨⟨none, dsnText scheme user
          (z ++ (scheme' ++ (ofString "://" ++ (user' ++ 0x3A :: password'))))⟩,
          accepts_dsn hscheme hne huser ?_ ?_, ?_⟩
        · rw [hcolon]
          simp
        · intro d hd
          rw [List.mem_append, List.mem_append, hcolon, List.cons_append, List.mem_cons] at hd
          rcases hd with hd | hd | hd | hd
          · exact hz d hd
          · exact inPassword_of_user (hinUser d hd)
          · rw [hd]
            decide
          · exact hrest d hd
        · rw [Match.text, hx, hx₁, htext, ← hc, dsnText, dsnText]
          simp
  · -- it begins in the user, whose name goes on up to its colon
    refine ⟨⟨none, dsnText scheme (x₁ ++ scheme') (ofString "//" ++ (user' ++ 0x3A :: password'))⟩,
      accepts_dsn hscheme ?_ ?_ ?_ hrest, ?_⟩
    · obtain ⟨⟨first, others, hfirst, _⟩, _⟩ := scheme_characters hscheme'
      rw [hfirst]
      simp
    · intro d hd
      rcases List.mem_append.mp hd with hd | hd
      · exact huser d (hparts ▸ List.mem_append_left z hd)
      · exact hinUser d hd
    · simp
    · rw [Match.text, hx, htext, dsnText, dsnText, hcolon]
      simp

/-- No DSN is left. -/
theorem dsn_notFound {old new : List CodePoint}
    (h : Shape.Substituted words.isWord (dsn words) replacement
      (fun before text => (dsn words).find words.isWord before text = none) none old new) :
    Shape.Throughout (fun before text => (dsn words).find words.isWord before text = none) none
      new := by
  refine h.throughout (Behind words (dsn words)) ?_ ?_ ?_ ?_ ?_
  · intro c old d after _ _ hword
    exact hword
  · intro before before' found old written hfind _
    exact behind_past (past_dsn _) hfind
  · intro before before' c old new hbehind hnone hrest
    by_contra hfound
    obtain ⟨found, hfind⟩ := Option.ne_none_iff_exists'.mp hfound
    obtain ⟨hboundary, rest, _, hplace, haccepts⟩ := Shape.find_eq_some hfind
    obtain ⟨_, scheme, user, password, htext, hscheme, huser, hinUser, _, hinPassword⟩ :=
      dsn_accepts haccepts
    obtain ⟨first, wanted, hwanted⟩ := List.exists_cons_of_ne_nil (dsn_ne_nil found haccepts)
    rw [hwanted] at hplace
    injection hplace with hc hnew
    rw [← hc] at hwanted
    have hopens : Opens (dsn words) c := ⟨found, wanted, haccepts, hwanted⟩
    have hbefore := hbehind.boundary (opens_dsn hopens).1 hopens hboundary
    rcases prefix_or_dsn hrest ⟨rest, hnew.symm⟩ with
      ⟨after, hold⟩ | ⟨x, y, inner, after, hsplit, hold, hinner⟩
    · have hthere : c :: old = found.text ++ after := by
        rw [hwanted, ← hold]
        rfl
      exact Shape.find_ne_none hbefore haccepts hthere hnone
    · have hwhole : dsnText scheme user password = (c :: x) ++ 0x3C :: y := by
        rw [← htext, hwanted, hsplit]
        rfl
      obtain ⟨other, hother, hsame⟩ :=
        dsn_absorbs hscheme hinUser huser hinPassword hwhole hinner
      have hthere : c :: old = other.text ++ after := by
        rw [hsame, hold, List.append_assoc]
        rfl
      exact Shape.find_ne_none hbefore hother hthere hnone
  · intro before before' found old new written hfind hreplace _ _ u v hsplit hv
    obtain ⟨_, _, _, _, haccepts⟩ := Shape.find_eq_some hfind
    rw [replacement_dsn haccepts hreplace] at hsplit
    exact find_marker dsn_ne_nil (fun c h => opens_dsn h) hsplit hv
  · intro c after _ _ hword
    exact hword

end Replaced

end Synthia.Observability
