import Synthia.Observability.Logging

/-!
# What a replacement leaves of a token

Redacting is five replacements in a row, and each has to leave what those before it did. For
a bearer token and for a JWT that is an argument about the mark alone. What is written for a
match is the opening of the match and then a mark in brackets; no token holds a bracket, and
each has inside it a space or a full stop, which the opening does not have. So a token in the
text as it becomes lies wholly in characters that stayed, or were the opening of a match, and
stood there before.

The look-behind needs a word more. Where a mark is followed by something a token opens with,
there is now no word character before it, and there was none before.
-/

namespace Synthia.Observability

open Text Regex

/-- What is written for a match: what the match opens with, and a mark. -/
def IsMark (mark : List CodePoint) : Prop := mark = redacted ∨ mark = 0x20 :: redacted

/-- A character some match of a shape begins with. -/
def Opens (shape : Shape CodePoint) (c : CodePoint) : Prop :=
  ∃ found rest, shape.Accepts found ∧ found.text = c :: rest

/-! ## Characters -/

section Characters

variable {words : WordClass} {c : CodePoint}

theorem isWord_of_fold (hleast : 0x61 ≤ (fold c).val) (hmost : (fold c).val ≤ 0x7A) :
    words.isWord c = true := by
  unfold fold at hleast hmost
  split at hleast
  · next hupper =>
      rw [words.ascii c (by omega)]
      simp [asciiWord, hupper.1, hupper.2]
  · next hupper =>
      rw [if_neg hupper] at hmost
      split at hleast
      · next hi => exact words.folded c (by omega)
      · next hi =>
          rw [if_neg hi] at hmost
          split at hleast
          · next hs => exact words.folded c (by omega)
          · next hs =>
              rw [if_neg hs] at hmost
              split at hleast
              · next hk => exact words.folded c (by omega)
              · next hk =>
                  rw [if_neg hk] at hmost
                  rw [words.ascii c (by omega)]
                  simp [asciiWord, hleast, hmost]

theorem fold_of_space (hspace : isSpace c = true) : fold c = c := by
  unfold isSpace at hspace
  unfold fold
  simp only [Bool.or_eq_true, Bool.and_eq_true, decide_eq_true_eq, beq_iff_eq] at hspace
  rw [if_neg (by omega), if_neg (by omega), if_neg (by omega), if_neg (by omega)]

theorem isWord_opening : words.isWord 0x3C = false := by
  rw [words.ascii 0x3C (by decide)]
  decide

theorem isWord_at : words.isWord 0x40 = false := by
  rw [words.ascii 0x40 (by decide)]
  decide

/-- A character of a word read under `(?i)` is compared as one of its letters. -/
theorem fold_mem {word : String} {text : List CodePoint} (h : (caseless word).Accepts text)
    (hc : c ∈ text) : fold c ∈ ofString word := by
  rw [caseless, Expr.accepts_literal] at h
  rw [← h]
  exact List.mem_map_of_mem hc

/-- The first character of a text that opens with such a word. -/
theorem fold_head {word : String} {d : CodePoint} {letters name rest after : List CodePoint}
    (hword : ofString word = d :: letters) (h : (caseless word).Accepts name)
    (htext : c :: rest = name ++ after) : fold c = d := by
  rw [caseless, Expr.accepts_literal, hword] at h
  obtain ⟨first, others, hname, hfirst, _⟩ := List.map_eq_cons_iff.mp h
  rw [hname] at htext
  injection htext with hc
  rw [hc, hfirst]

end Characters

/-! ## A bearer token, and a JWT -/

section Tokens

variable {found : Match CodePoint}

theorem bearer_accepts (h : bearer.Accepts found) :
    ∃ name spaces token, found.text = name ++ (spaces ++ token) ∧ found.group = some name ∧
      ((caseless "bearer").Accepts name ∨ (caseless "basic").Accepts name) ∧
      1 ≤ spaces.length ∧ (∀ c ∈ spaces, isSpace c = true) ∧
      8 ≤ token.length ∧ ∀ c ∈ token, tokenCharacter c = true := by
  obtain ⟨group, tail⟩ := found
  cases group with
  | none => cases h
  | some name =>
      obtain ⟨hname, spaces, token, htail, hspaces, htoken⟩ := h
      dsimp only at htail
      refine ⟨name, spaces, token, ?_, rfl, hname, hspaces.1, hspaces.2, htoken.1, htoken.2⟩
      rw [Match.text, htail]
      rfl

theorem jwt_accepts (h : jwt.Accepts found) :
    ∃ header payload signature, found.text =
        ofString "eyJ" ++ (header ++ 0x2E :: (payload ++ 0x2E :: signature)) ∧
      found.group = none ∧ (∀ c ∈ header, urlSafe c = true) ∧
      8 ≤ payload.length ∧ (∀ c ∈ payload, urlSafe c = true) ∧
      ∀ c ∈ signature, urlSafe c = true := by
  obtain ⟨group, tail⟩ := found
  cases group with
  | some name => cases h
  | none =>
      obtain ⟨start, _, htail, hstart, header, _, hrest, hheader, dot, _, hrest', hdot, payload,
        _, hrest'', hpayload, dot', signature, hrest''', hdot', hsignature⟩ := h
      obtain ⟨c, hc, hadmits⟩ := hdot
      obtain ⟨c', hc', hadmits'⟩ := hdot'
      rw [spelled, Expr.accepts_literal, List.map_id] at hstart
      have hdots : ∀ c : CodePoint, (ofString ".").contains c = true → c = 0x2E := by
        intro c h
        exact List.mem_singleton.mp (List.contains_iff_mem.mp h)
      refine ⟨header, payload, signature, ?_, rfl, hheader.2, hpayload.1, hpayload.2,
        hsignature.2⟩
      rw [Match.text, htail, hstart, hrest, hrest', hrest'', hrest''', hc, hc', hdots c hadmits,
        hdots c' hadmits']
      rfl

/-- The characters of a JWT. -/
theorem jwt_characters (h : jwt.Accepts found) {c : CodePoint} (hc : c ∈ found.text) :
    urlSafe c = true ∨ c = 0x2E := by
  obtain ⟨header, payload, signature, htext, _, hheader, _, hpayload, hsignature⟩ :=
    jwt_accepts h
  have hstart : (ofString "eyJ").all urlSafe = true := by decide
  rw [htext, List.mem_append, List.mem_append, List.mem_cons, List.mem_append,
    List.mem_cons] at hc
  rcases hc with hc | hc | hc | hc | hc | hc
  · exact Or.inl (List.all_eq_true.mp hstart c hc)
  · exact Or.inl (hheader c hc)
  · exact Or.inr hc
  · exact Or.inl (hpayload c hc)
  · exact Or.inr hc
  · exact Or.inl (hsignature c hc)

theorem fold_bearer {c : CodePoint} (h : Opens bearer c) : fold c = 0x62 := by
  obtain ⟨found, rest, haccepts, htext⟩ := h
  obtain ⟨name, spaces, token, hfound, _, hname, _⟩ := bearer_accepts haccepts
  rw [htext] at hfound
  rcases hname with hname | hname
  · exact fold_head rfl hname hfound
  · exact fold_head rfl hname hfound

theorem eq_jwt {c : CodePoint} (h : Opens jwt c) : c = 0x65 := by
  obtain ⟨found, rest, haccepts, htext⟩ := h
  obtain ⟨header, payload, signature, hfound, _⟩ := jwt_accepts haccepts
  rw [htext] at hfound
  injection hfound

end Tokens

/-! ## Shapes that do not reach into a mark -/

/-- A space or a full stop: what every bearer token and every JWT has inside it. -/
def needed (c : CodePoint) : Bool := isSpace c || c == 0x2E

/-- A shape whose matches hold neither bracket of the mark, do not end at a space, and have
a needed character inside. -/
structure KeepsOff (words : WordClass) (shape : Shape CodePoint) : Prop where
  opens : ∀ c, Opens shape c → words.isWord c = true
  brackets : ∀ found, shape.Accepts found → 0x3C ∉ found.text ∧ 0x3E ∉ found.text
  closed : ∀ found, shape.Accepts found → found.text.getLast? ≠ some 0x20
  inside : ∀ found, shape.Accepts found → ∃ u n c v, found.text = u ++ n :: c :: v ∧
    needed n = true

theorem keepsOff_bearer (words : WordClass) : KeepsOff words bearer where
  opens := by
    intro c h
    have hfold := fold_bearer h
    exact isWord_of_fold (by rw [hfold]; decide) (by rw [hfold]; decide)
  brackets := by
    intro found h
    obtain ⟨name, spaces, token, htext, _, hname, _, hspaces, _, htoken⟩ := bearer_accepts h
    -- none of the three parts can hold a character that is no letter, space or token character
    have hnone : ∀ c : CodePoint, fold c ∉ ofString "bearer" → fold c ∉ ofString "basic" →
        isSpace c = false → tokenCharacter c = false → c ∉ found.text := by
      intro c hbearer hbasic hspace hcharacter hc
      rw [htext, List.mem_append, List.mem_append] at hc
      rcases hc with hc | hc | hc
      · rcases hname with hname | hname
        · exact hbearer (fold_mem hname hc)
        · exact hbasic (fold_mem hname hc)
      · rw [hspaces c hc] at hspace
        cases hspace
      · rw [htoken c hc] at hcharacter
        cases hcharacter
    exact ⟨hnone 0x3C (by decide) (by decide) (by decide) (by decide),
      hnone 0x3E (by decide) (by decide) (by decide) (by decide)⟩
  closed := by
    intro found h hlast
    obtain ⟨name, spaces, token, htext, _, _, _, _, hlong, htoken⟩ := bearer_accepts h
    have hne : token ≠ [] := by
      intro hnil
      rw [hnil] at hlong
      exact absurd hlong (by decide)
    rw [htext, List.getLast?_append_of_ne_nil _ (List.append_ne_nil_of_right_ne_nil _ hne),
      List.getLast?_append_of_ne_nil _ hne] at hlast
    have hspace := htoken 0x20 (List.mem_of_getLast? hlast)
    exact absurd hspace (by decide)
  inside := by
    intro found h
    obtain ⟨name, spaces, token, htext, _, _, hone, hspaces, hlong, _⟩ := bearer_accepts h
    cases spaces with
    | nil => exact absurd hone (by decide)
    | cons n spaces =>
        cases hafter : spaces ++ token with
        | nil =>
            rw [(List.append_eq_nil_iff.mp hafter).2] at hlong
            exact absurd hlong (by decide)
        | cons c v =>
            refine ⟨name, n, c, v, by rw [htext, List.cons_append, hafter], ?_⟩
            rw [needed, hspaces n List.mem_cons_self]
            rfl

theorem keepsOff_jwt (words : WordClass) : KeepsOff words jwt where
  opens := by
    intro c h
    rw [eq_jwt h, words.ascii 0x65 (by decide)]
    decide
  brackets := by
    intro found h
    have hnone : ∀ c : CodePoint, urlSafe c = false → c ≠ 0x2E → c ∉ found.text := by
      intro c hunsafe hdot hc
      rcases jwt_characters h hc with hsafe | heq
      · rw [hsafe] at hunsafe
        cases hunsafe
      · exact hdot heq
    exact ⟨hnone 0x3C (by decide) (by decide), hnone 0x3E (by decide) (by decide)⟩
  closed := by
    intro found h hlast
    exact absurd (jwt_characters h (List.mem_of_getLast? hlast)) (by decide)
  inside := by
    intro found h
    obtain ⟨header, payload, signature, htext, _, _, hlong, _⟩ := jwt_accepts h
    cases payload with
    | nil => exact absurd hlong (by decide)
    | cons c payload =>
        refine ⟨ofString "eyJ" ++ header, 0x2E, c, payload ++ 0x2E :: signature, ?_, by decide⟩
        rw [htext, List.append_assoc]
        rfl

/-! ## One replacement -/

/-- What a shape's matches are replaced with: their opening, which is no token, and a
mark. -/
def Marks (replace : Match CodePoint → Except IndexError (List CodePoint))
    (shape : Shape CodePoint) : Prop :=
  ∀ found written, shape.Accepts found → replace found = .ok written →
    ∃ opening tail mark, found.text = opening ++ tail ∧ written = opening ++ mark ∧
      IsMark mark ∧ ∀ c ∈ opening, needed c = false

/-- Where a match is followed by what another shape opens with, there was no word
character before it. -/
def Past (words : WordClass) (shape replaced : Shape CodePoint) : Prop :=
  ∀ before found c after,
    replaced.find words.isWord before (found.text ++ c :: after) = some found →
    Opens shape c → (found.text.getLast?.or before).any words.isWord = false

/-- Of the character before a place where a shape may open, that it is no word character is
not new. -/
def Behind (words : WordClass) (shape : Shape CodePoint) (before before' : Option CodePoint)
    (old : List CodePoint) : Prop :=
  ∀ c after, old = c :: after → Opens shape c → before.any words.isWord = true →
    before'.any words.isWord = true

section Replacement

variable {words : WordClass} {shape replaced : Shape CodePoint}
  {replace : Match CodePoint → Except IndexError (List CodePoint)}

theorem past_of_endsIn {admits : CodePoint → Bool} (hends : replaced.rest.EndsIn admits)
    (hopens : ∀ c, Opens shape c → admits c = true) : Past words shape replaced := by
  intro before found c after hfind hopen
  have hstop := Shape.find_stops hends hfind rfl rfl
  rw [hopens c hopen] at hstop
  cases hstop

theorem behind_past (hpast : Past words shape replaced) {before before' : Option CodePoint}
    {found : Match CodePoint} {old written : List CodePoint}
    (hfind : replaced.find words.isWord before (found.text ++ old) = some found) :
    Behind words shape (found.text.getLast?.or before) (written.getLast?.or before') old := by
  intro c after hold hopens hword
  rw [hold] at hfind
  rw [hpast before found c after hfind hopens] at hword
  cases hword

/-- A place a shape can open at, if what it opens with is a word character. -/
theorem boundary_open {before : Option CodePoint} {c : CodePoint} {rest : List CodePoint}
    (hc : words.isWord c = true) :
    Shape.boundary words.isWord before (c :: rest) = true ↔
      before.any words.isWord = false := by
  rw [Shape.boundary, List.head?_cons, Option.any_some, hc, Bool.bne_true, Bool.not_eq_true']

theorem Behind.boundary {before before' : Option CodePoint} {c : CodePoint}
    {old new : List CodePoint} (hbehind : Behind words shape before before' (c :: old))
    (hword : words.isWord c = true) (hopens : Opens shape c)
    (h : Shape.boundary words.isWord before' (c :: new) = true) :
    Shape.boundary words.isWord before (c :: old) = true := by
  rw [boundary_open hword] at h ⊢
  cases hbefore : before.any words.isWord with
  | false => rfl
  | true =>
      rw [hbehind c old rfl hopens hbefore] at h
      cases h

theorem prefix_before {c : CodePoint} {word text rest : List CodePoint}
    (h : word <+: text ++ c :: rest) (hnone : c ∉ word) : word <+: text := by
  have hto : text ++ [c] <+: text ++ c :: rest := by
    rw [List.prefix_append_right_inj]
    exact ⟨rest, rfl⟩
  rcases List.prefix_or_prefix_of_prefix h hto with hshort | hlong
  · rcases List.prefix_concat_iff.mp hshort with heq | hprefix
    · rw [heq] at hnone
      exact absurd (List.mem_append_right text (List.mem_singleton_self c)) hnone
    · exact hprefix
  · exact absurd (hlong.subset (List.mem_append_right text (List.mem_singleton_self c))) hnone

/-- In what is written, only the first bracket of the mark follows a needed character. -/
theorem bracket_of_needed {opening mark u v : List CodePoint} {n c : CodePoint}
    (hopening : ∀ c ∈ opening, needed c = false) (hmark : IsMark mark)
    (h : opening ++ mark = u ++ n :: c :: v) (hneeded : needed n = true) : c = 0x3C := by
  have hredacted : redacted.all fun c => !needed c := by decide
  have hnone : n ∉ redacted := by
    intro hmem
    have hplain := List.all_eq_true.mp hredacted n hmem
    rw [hneeded] at hplain
    cases hplain
  have hsplit : ∃ u', mark = u' ++ n :: c :: v := by
    rcases List.append_eq_append_iff.mp h with ⟨u', _, hrest⟩ | ⟨v', hopen, hrest⟩
    · exact ⟨u', hrest⟩
    · cases v' with
      | nil => exact ⟨[], hrest.symm⟩
      | cons d v' =>
          injection hrest with hd _
          have hplain := hopening n (by rw [hopen, hd]; simp)
          rw [hneeded] at hplain
          cases hplain
  obtain ⟨u', hrest⟩ := hsplit
  rcases hmark with hmark | hmark
  · rw [hmark] at hrest
    exact absurd (hrest ▸ List.mem_append_right u' List.mem_cons_self) hnone
  · rw [hmark] at hrest
    cases u' with
    | nil =>
        injection hrest with _ hafter
        injection hafter with hc
        exact hc.symm
    | cons d u' =>
        injection hrest with _ hafter
        exact absurd (hafter ▸ List.mem_append_right u' List.mem_cons_self) hnone

/-- A word without the bracket and not ending at a space does not begin where a mark
does. -/
theorem not_prefix_mark {mark word after : List CodePoint} (hmark : IsMark mark)
    (hne : word ≠ []) (hopening : 0x3C ∉ word) (hlast : word.getLast? ≠ some 0x20) :
    ¬ word <+: mark ++ after := by
  intro h
  obtain ⟨c, rest, hword⟩ := List.exists_cons_of_ne_nil hne
  rw [hword] at h hopening hlast
  rcases hmark with hmark | hmark
  · rw [hmark] at h
    obtain ⟨hc, _⟩ := List.cons_prefix_cons.mp h
    exact hopening (hc ▸ List.mem_cons_self)
  · rw [hmark] at h
    obtain ⟨hc, hrest⟩ := List.cons_prefix_cons.mp h
    cases rest with
    | nil =>
        rw [hc] at hlast
        exact hlast rfl
    | cons d rest =>
        obtain ⟨hd, _⟩ := List.cons_prefix_cons.mp hrest
        exact hopening (hd ▸ List.mem_cons_of_mem c List.mem_cons_self)

theorem IsMark.ends {mark : List CodePoint} (hmark : IsMark mark) :
    ∃ start, mark = start ++ [0x3E] := by
  rcases hmark with hmark | hmark
  · exact ⟨ofString "<redacted", by rw [hmark]; rfl⟩
  · exact ⟨0x20 :: ofString "<redacted", by rw [hmark]; rfl⟩

/-- Nor is such a shape found in what is written for a match. -/
theorem KeepsOff.written (hshape : KeepsOff words shape) {opening mark written : List CodePoint}
    (hwritten : written = opening ++ mark) (hmark : IsMark mark)
    (hplain : ∀ c ∈ opening, needed c = false) {u v : List CodePoint}
    (hsplit : written = u ++ v) (hne : v ≠ []) {before : Option CodePoint}
    {new : List CodePoint} : shape.find words.isWord before (v ++ new) = none := by
  by_contra hfound
  obtain ⟨other, hfind⟩ := Option.ne_none_iff_exists'.mp hfound
  obtain ⟨_, rest, _, htext, hother⟩ := Shape.find_eq_some hfind
  obtain ⟨hopening, hclosing⟩ := hshape.brackets other hother
  obtain ⟨u', n, c, v', hinside, hneeded⟩ := hshape.inside other hother
  obtain ⟨start, hstart⟩ := hmark.ends
  -- what is left of the mark has its closing bracket, so the match is before that
  have hends : ∃ v₀, v = v₀ ++ [0x3E] := by
    have hlast : written.getLast? = v.getLast? := by
      rw [hsplit, List.getLast?_append_of_ne_nil _ hne]
    rw [hwritten, hstart, ← List.append_assoc, List.getLast?_append_of_ne_nil _ (by simp)] at hlast
    exact List.getLast?_eq_some_iff.mp hlast.symm
  obtain ⟨v₀, hv⟩ := hends
  rw [hv, List.append_assoc] at htext
  have hbefore : other.text <+: v₀ := prefix_before ⟨rest, htext.symm⟩ hclosing
  obtain ⟨y, hy⟩ := hbefore
  have hwhole : opening ++ mark = (u ++ u') ++ n :: c :: (v' ++ (y ++ [0x3E])) := by
    rw [← hwritten, hsplit, hv, ← hy, hinside]
    simp
  apply hopening
  rw [hinside, ← bracket_of_needed hplain hmark hwhole hneeded]
  simp

/-- A shape that keeps off the marks and is found nowhere that stays is found nowhere. -/
theorem KeepsOff.notFound (hshape : KeepsOff words shape) (hmarks : Marks replace replaced)
    (hpast : Past words shape replaced) {old new : List CodePoint}
    (h : Shape.Substituted words.isWord replaced replace
      (fun before text => shape.find words.isWord before text = none) none old new) :
    Shape.Throughout (fun before text => shape.find words.isWord before text = none) none
      new := by
  refine h.throughout (Behind words shape) ?_ ?_ ?_ ?_ ?_
  · intro c old d after _ _ hword
    exact hword
  · intro before before' found old written hfind _
    exact behind_past hpast hfind
  · intro before before' c old new hbehind hnone hrest
    by_contra hfound
    obtain ⟨found, hfind⟩ := Option.ne_none_iff_exists'.mp hfound
    obtain ⟨hboundary, rest, _, htext, haccepts⟩ := Shape.find_eq_some hfind
    obtain ⟨hopening, hclosing⟩ := hshape.brackets found haccepts
    cases hword : found.text with
    | nil =>
        obtain ⟨u, n, d, v, hinside, _⟩ := hshape.inside found haccepts
        rw [hword] at hinside
        cases u <;> cases hinside
    | cons d wanted =>
        rw [hword, List.cons_append] at htext
        injection htext with hc hnew
        have hopen : Opens shape c := ⟨found, wanted, haccepts, by rw [hword, hc]⟩
        -- the word was there before, and could open there before
        have hold : wanted <+: old := by
          refine hrest.prefix_old IsMark ?_ ?_ ⟨rest, hnew.symm⟩
          · intro found written haccepts hreplace
            obtain ⟨opening, tail, mark, hfound, hwritten, hmark, _⟩ :=
              hmarks found written haccepts hreplace
            exact ⟨opening, tail, mark, hfound, hwritten, hmark⟩
          · intro u v mark after hsplit hne hmark
            rw [hsplit] at hword
            apply not_prefix_mark hmark hne
            · intro hv
              apply hopening
              rw [hword]
              exact List.mem_cons_of_mem d (List.mem_append_right u hv)
            · intro hlast
              apply hshape.closed found haccepts
              rw [hword, ← List.cons_append, List.getLast?_append_of_ne_nil _ hne, hlast]
        obtain ⟨after, hafter⟩ := hold
        have hplace : c :: old = found.text ++ after := by
          rw [hword, ← hafter, hc]
          rfl
        refine Shape.find_ne_none ?_ haccepts hplace hnone
        exact hbehind.boundary (hshape.opens c hopen) hopen hboundary
  · intro before before' found old new written hfind hreplace _ _ u v hsplit hne
    obtain ⟨_, _, _, _, haccepts⟩ := Shape.find_eq_some hfind
    obtain ⟨_, _, _, _, hwritten, hmark, hplain⟩ := hmarks found written haccepts hreplace
    exact hshape.written hwritten hmark hplain hsplit hne
  · intro c after _ _ hword
    exact hword

end Replacement

end Synthia.Observability
