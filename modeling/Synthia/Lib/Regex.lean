import Mathlib.Data.List.Infix
import Mathlib.Data.List.TakeWhile
import Mathlib.Tactic.TypeStar

/-!
# Regular expressions that are searched for and replaced

The expressions an engine backtracks through: one character of a class, a greedy run of a
class, a choice, a sequence. `ends` lists the ways an expression can match
at the head of a text, the one the engine prefers first, so what a search finds is its head.
Which ways there are is a matter of the matched text alone: no expression looks ahead.

A shape opens at a word boundary and may capture a group there. Replacing goes through the
text from the left, looks behind into the text as it was, and goes on after what it found.
-/

namespace Regex

variable {α ε : Type*}

inductive Expr (α : Type*) where
  | empty
  | one (admits : α → Bool)
  | many (least : Nat) (admits : α → Bool)
  | either (first second : Expr α)
  | seq (first second : Expr α)

namespace Expr

/-- `(?:body)?` -/
def optional (body : Expr α) : Expr α := .either body .empty

/-- A word, of the characters `fold` takes to its own. -/
def literal [BEq α] (fold : α → α) : List α → Expr α
  | [] => .empty
  | d :: rest => .seq (.one fun c => fold c == d) (literal fold rest)

/-- The ways to match at the head of a text, as what is taken and what is left. A run gives
back a character at a time. -/
def ends : Expr α → List α → List (List α × List α)
  | empty, text => [([], text)]
  | one _, [] => []
  | one admits, c :: rest => if admits c then [([c], rest)] else []
  | many least admits, text =>
      let longest := (text.takeWhile admits).length
      (List.range (longest + 1 - least)).map fun fewer => text.splitAt (longest - fewer)
  | either first second, text => first.ends text ++ second.ends text
  | seq first second, text =>
      (first.ends text).flatMap fun taken =>
        (second.ends taken.2).map fun next => (taken.1 ++ next.1, next.2)

/-- The texts an expression matches. -/
def Accepts : Expr α → List α → Prop
  | empty, word => word = []
  | one admits, word => ∃ c, word = [c] ∧ admits c = true
  | many least admits, word => least ≤ word.length ∧ ∀ c ∈ word, admits c = true
  | either first second, word => first.Accepts word ∨ second.Accepts word
  | seq first second, word => ∃ u v, word = u ++ v ∧ first.Accepts u ∧ second.Accepts v

theorem mem_ends_many {least : Nat} {admits : α → Bool} {text taken rest : List α} :
    (taken, rest) ∈ (many least admits).ends text ↔
      text = taken ++ rest ∧ (many least admits).Accepts taken := by
  rw [ends, Accepts, List.mem_map]
  constructor
  · intro h
    obtain ⟨fewer, hfewer, hsplit⟩ := h
    rw [List.mem_range] at hfewer
    rw [List.splitAt_eq] at hsplit
    injection hsplit with htaken hrest
    have hlong : (text.takeWhile admits).length ≤ text.length :=
      (List.takeWhile_prefix admits).length_le
    refine ⟨by rw [← htaken, ← hrest, List.take_append_drop], ?_, ?_⟩
    · rw [← htaken, List.length_take]
      omega
    · intro c hc
      rw [← htaken] at hc
      have hrun : c ∈ text.takeWhile admits := by
        have hprefix := List.prefix_iff_eq_take.mp (List.takeWhile_prefix admits (l := text))
        rw [ hprefix]
        exact List.take_subset_take_left text (Nat.sub_le _ fewer) hc
      exact List.mem_takeWhile_imp hrun
  · intro h
    obtain ⟨htext, hleast, hall⟩ := h
    have hrun : taken.length ≤ (text.takeWhile admits).length := by
      rw [htext, List.takeWhile_append_of_pos hall, List.length_append]
      omega
    refine ⟨(text.takeWhile admits).length - taken.length, List.mem_range.mpr (by omega), ?_⟩
    rw [List.splitAt_eq, Nat.sub_sub_self hrun, htext, List.take_left, List.drop_left]

theorem mem_ends {expr : Expr α} {text taken rest : List α} :
    (taken, rest) ∈ expr.ends text ↔ text = taken ++ rest ∧ expr.Accepts taken := by
  induction expr generalizing text taken rest with
  | empty =>
      rw [ends, Accepts, List.mem_singleton, Prod.mk.injEq]
      constructor
      · rintro ⟨htaken, hrest⟩
        rw [htaken, hrest]
        exact ⟨rfl, rfl⟩
      · rintro ⟨htext, htaken⟩
        rw [htext, htaken]
        exact ⟨rfl, rfl⟩
  | one admits =>
      cases text with
      | nil =>
          constructor
          · intro h
            cases h
          · rintro ⟨htext, c, hword, _⟩
            rw [hword] at htext
            cases htext
      | cons c text =>
          rw [ends]
          constructor
          · intro h
            split at h
            · next hadmits =>
                rw [List.mem_singleton] at h
                injection h with htaken hrest
                rw [htaken, hrest]
                exact ⟨rfl, c, rfl, hadmits⟩
            · cases h
          · rintro ⟨htext, d, hword, hadmits⟩
            rw [hword] at htext
            injection htext with hc hrest
            rw [hc, if_pos hadmits, hword, hrest]
            exact List.mem_singleton_self _
  | many least admits => exact mem_ends_many
  | either first second ihfirst ihsecond =>
      rw [ends, Accepts, List.mem_append, ihfirst, ihsecond, and_or_left]
  | seq first second ihfirst ihsecond =>
      rw [ends, Accepts, List.mem_flatMap]
      constructor
      · intro h
        obtain ⟨⟨u, middle⟩, hfirst, hnext⟩ := h
        obtain ⟨⟨v, last⟩, hsecond, heq⟩ := List.mem_map.mp hnext
        obtain ⟨htext, hu⟩ := ihfirst.mp hfirst
        obtain ⟨hmiddle, hv⟩ := ihsecond.mp hsecond
        injection heq with htaken hrest
        dsimp only at hmiddle htaken hrest
        refine ⟨?_, u, v, htaken.symm, hu, hv⟩
        rw [htext, hmiddle, ← htaken, hrest, List.append_assoc]
      · rintro ⟨htext, u, v, hword, hu, hv⟩
        refine ⟨(u, v ++ rest), ihfirst.mpr ⟨?_, hu⟩, ?_⟩
        · rw [htext, hword, List.append_assoc]
        · exact List.mem_map.mpr ⟨(v, rest), ihsecond.mpr ⟨rfl, hv⟩, by rw [hword]⟩

theorem accepts_literal [BEq α] [LawfulBEq α] {fold : α → α} {letters word : List α} :
    (literal fold letters).Accepts word ↔ word.map fold = letters := by
  induction letters generalizing word with
  | nil => rw [literal, Accepts, List.map_eq_nil_iff]
  | cons d letters ih =>
      rw [literal, Accepts, List.map_eq_cons_iff]
      constructor
      · rintro ⟨u, v, hword, ⟨c, hu, hc⟩, hv⟩
        exact ⟨c, v, by rw [hword, hu]; rfl, beq_iff_eq.mp hc, ih.mp hv⟩
      · rintro ⟨c, v, hword, hc, hv⟩
        exact ⟨[c], v, hword, ⟨c, rfl, beq_iff_eq.mpr hc⟩, ih.mpr hv⟩

/-- `re.search`, where only whether something is found matters. -/
def search (expr : Expr α) (text : List α) : Bool :=
  text.tails.any fun rest => !(expr.ends rest).isEmpty

/-- The run an engine prefers leaves no character of its class behind. -/
theorem head_many {least : Nat} {admits : α → Bool} {text taken rest : List α}
    (h : ((many least admits).ends text).head? = some (taken, rest)) :
    taken = text.takeWhile admits ∧ rest = text.dropWhile admits := by
  rw [ends] at h
  cases hrange : (text.takeWhile admits).length + 1 - least with
  | zero =>
      rw [hrange] at h
      cases h
  | succ count =>
      rw [hrange, List.range_succ_eq_map, List.map_cons, List.head?_cons, Nat.sub_zero,
        List.splitAt_eq, Option.some.injEq, Prod.mk.injEq] at h
      have hsplit : text.takeWhile admits ++ text.dropWhile admits = text :=
        List.takeWhile_append_dropWhile
      obtain ⟨htaken, hrest⟩ := h
      constructor
      · rw [← htaken]
        exact (List.prefix_iff_eq_take.mp (List.takeWhile_prefix admits)).symm
      · calc rest
            = (text.takeWhile admits ++ text.dropWhile admits).drop
                (text.takeWhile admits).length := by rw [hsplit, hrest]
          _ = text.dropWhile admits := List.drop_left

/-- What an engine prefers of a sequence, it prefers of the second part. -/
theorem head_seq {first second : Expr α} {text taken rest : List α}
    (h : ((seq first second).ends text).head? = some (taken, rest)) :
    ∃ u middle v, (u, middle) ∈ first.ends text ∧
      (second.ends middle).head? = some (v, rest) ∧ taken = u ++ v := by
  rw [ends, List.head?_flatMap] at h
  obtain ⟨⟨u, middle⟩, hfirst, hhead⟩ := List.exists_of_findSome?_eq_some h
  rw [List.head?_map, Option.map_eq_some_iff] at hhead
  obtain ⟨⟨v, last⟩, hsecond, heq⟩ := hhead
  injection heq with htaken hrest
  dsimp only at htaken hrest hsecond
  refine ⟨u, middle, v, hfirst, ?_, htaken.symm⟩
  rw [hsecond, hrest]

/-- An expression that ends in a run of a class, and so leaves none of the class behind. -/
inductive EndsIn (admits : α → Bool) : Expr α → Prop where
  | run {least : Nat} : EndsIn admits (many least admits)
  | seq {first second : Expr α} : EndsIn admits second → EndsIn admits (seq first second)

theorem EndsIn.head {admits : α → Bool} {expr : Expr α} (hends : expr.EndsIn admits)
    {text taken rest : List α} (h : (expr.ends text).head? = some (taken, rest)) :
    ∀ c after, rest = c :: after → admits c = false := by
  induction hends generalizing text taken rest with
  | run =>
      intro c after hrest
      have hdrop := (head_many h).2
      rw [hrest] at hdrop
      have hhead := List.head?_dropWhile_not admits text
      rw [← hdrop] at hhead
      exact hhead
  | seq _ ih =>
      obtain ⟨_, _, _, _, hsecond, _⟩ := head_seq h
      exact ih hsecond

end Expr

/-! ## Searching -/

/-- What opens at a word boundary: `\b`, a captured group if there is one, and the rest. -/
structure Shape (α : Type*) where
  group : Option (Expr α)
  rest : Expr α

structure Match (α : Type*) where
  group : Option (List α)
  tail : List α
  deriving DecidableEq

/-- The whole of what was matched. -/
def Match.text (found : Match α) : List α := found.group.getD [] ++ found.tail

namespace Shape

def ends (shape : Shape α) (text : List α) : List (Match α × List α) :=
  match shape.group with
  | none => (shape.rest.ends text).map fun taken => (⟨none, taken.1⟩, taken.2)
  | some group =>
      (group.ends text).flatMap fun captured =>
        (shape.rest.ends captured.2).map fun taken =>
          (⟨some captured.1, taken.1⟩, taken.2)

def Accepts (shape : Shape α) (found : Match α) : Prop :=
  match shape.group, found.group with
  | none, none => shape.rest.Accepts found.tail
  | some group, some captured => group.Accepts captured ∧ shape.rest.Accepts found.tail
  | _, _ => False

theorem mem_ends {shape : Shape α} {text rest : List α} {found : Match α} :
    (found, rest) ∈ shape.ends text ↔ text = found.text ++ rest ∧ shape.Accepts found := by
  obtain ⟨group, tail⟩ := found
  cases hshape : shape.group with
  | none =>
      rw [ends, hshape, Accepts, hshape]
      constructor
      · intro h
        obtain ⟨⟨taken, last⟩, htaken, heq⟩ := List.mem_map.mp h
        obtain ⟨htext, haccepts⟩ := Expr.mem_ends.mp htaken
        injection heq with hmatch hrest
        injection hmatch with hgroup htail
        dsimp only at hrest htail
        rw [← hgroup, ← htail, ← hrest]
        exact ⟨htext, haccepts⟩
      · rintro ⟨htext, haccepts⟩
        cases group with
        | none => exact List.mem_map.mpr ⟨(tail, rest), Expr.mem_ends.mpr ⟨htext, haccepts⟩, rfl⟩
        | some captured => cases haccepts
  | some expr =>
      rw [ends, hshape, Accepts, hshape]
      constructor
      · intro h
        obtain ⟨⟨captured, middle⟩, hcaptured, hnext⟩ := List.mem_flatMap.mp h
        obtain ⟨⟨taken, last⟩, htaken, heq⟩ := List.mem_map.mp hnext
        obtain ⟨htext, hgroup'⟩ := Expr.mem_ends.mp hcaptured
        obtain ⟨hmiddle, haccepts⟩ := Expr.mem_ends.mp htaken
        injection heq with hmatch hrest
        injection hmatch with hgroup htail
        dsimp only at hrest htail hgroup hmiddle
        rw [← hgroup, ← htail, ← hrest]
        refine ⟨?_, hgroup', haccepts⟩
        rw [htext, hmiddle, ← List.append_assoc]
        rfl
      · rintro ⟨htext, haccepts⟩
        cases group with
        | none => cases haccepts
        | some captured =>
            refine List.mem_flatMap.mpr ⟨(captured, tail ++ rest), ?_, ?_⟩
            · refine Expr.mem_ends.mpr ⟨?_, haccepts.1⟩
              rw [htext, ← List.append_assoc]
              rfl
            · exact List.mem_map.mpr ⟨(tail, rest), Expr.mem_ends.mpr ⟨rfl, haccepts.2⟩, rfl⟩

/-- `\b`, before a text and after a character, of the characters `word` selects. -/
def boundary (word : α → Bool) (before : Option α) (text : List α) : Bool :=
  before.any word != text.head?.any word

/-- The match an engine finds at a place. -/
def find (word : α → Bool) (shape : Shape α) (before : Option α) (text : List α) :
    Option (Match α) :=
  if boundary word before text then (shape.ends text).head?.map Prod.fst else none

section Find

variable {word : α → Bool} {shape : Shape α} {before : Option α} {text : List α}
  {found : Match α}

theorem find_eq_some (h : shape.find word before text = some found) :
    boundary word before text = true ∧
      ∃ rest, (shape.ends text).head? = some (found, rest) ∧ text = found.text ++ rest ∧
        shape.Accepts found := by
  rw [find] at h
  split at h
  · next hboundary =>
      obtain ⟨⟨match_, rest⟩, hhead, heq⟩ := Option.map_eq_some_iff.mp h
      dsimp only at heq
      rw [heq] at hhead
      exact ⟨hboundary, rest, hhead, mem_ends.mp (List.mem_of_mem_head? hhead)⟩
  · cases h

theorem find_ne_none (hboundary : boundary word before text = true) {rest : List α}
    (haccepts : shape.Accepts found) (htext : text = found.text ++ rest) :
    shape.find word before text ≠ none := by
  have hmem : (found, rest) ∈ shape.ends text := mem_ends.mpr ⟨htext, haccepts⟩
  rw [find, if_pos hboundary]
  cases hends : shape.ends text with
  | nil =>
      rw [hends] at hmem
      cases hmem
  | cons first others =>
      intro h
      cases h

/-- Where the rest of a shape ends in a run of a class, what follows a match is not of it. -/
theorem find_stops {admits : α → Bool} (hends : shape.rest.EndsIn admits)
    (h : shape.find word before text = some found) {rest : List α}
    (htext : text = found.text ++ rest) {c : α} {after : List α} (hrest : rest = c :: after) :
    admits c = false := by
  obtain ⟨_, last, hhead, hlast, _⟩ := find_eq_some h
  rw [hlast] at htext
  rw [List.append_cancel_left htext] at hhead
  rw [ends] at hhead
  split at hhead
  · rw [List.head?_map, Option.map_eq_some_iff] at hhead
    obtain ⟨⟨taken, remains⟩, htaken, heq⟩ := hhead
    injection heq with _ hremains
    dsimp only at hremains
    rw [hremains] at htaken
    exact hends.head htaken c after hrest
  · rw [List.head?_flatMap] at hhead
    obtain ⟨⟨captured, middle⟩, _, hsecond⟩ := List.exists_of_findSome?_eq_some hhead
    rw [List.head?_map, Option.map_eq_some_iff] at hsecond
    obtain ⟨⟨taken, remains⟩, htaken, heq⟩ := hsecond
    injection heq with _ hremains
    dsimp only at hremains
    rw [hremains] at htaken
    exact hends.head htaken c after hrest

end Find

/-! ## Replacing -/

/-- `sub`, from a place on: `skip` characters belong to what was last found. A shape that
matches the empty text is not replaced right. -/
def subFrom (word : α → Bool) (shape : Shape α) (replace : Match α → Except ε (List α)) :
    Option α → Nat → List α → Except ε (List α)
  | _, _, [] => .ok []
  | _, skip + 1, c :: rest => subFrom word shape replace (some c) skip rest
  | before, 0, c :: rest =>
      match shape.find word before (c :: rest) with
      | none => (subFrom word shape replace (some c) 0 rest).map fun new => c :: new
      | some found =>
          match replace found with
          | .error raised => .error raised
          | .ok written =>
              (subFrom word shape replace (some c) (found.text.length - 1) rest).map
                fun new => written ++ new

def sub (word : α → Bool) (shape : Shape α) (replace : Match α → Except ε (List α))
    (text : List α) : Except ε (List α) :=
  subFrom word shape replace none 0 text

/-- `finditer`, from a place on. -/
def iterFrom (word : α → Bool) (shape : Shape α) : Option α → Nat → List α → List (Match α)
  | _, _, [] => []
  | _, skip + 1, c :: rest => iterFrom word shape (some c) skip rest
  | before, 0, c :: rest =>
      match shape.find word before (c :: rest) with
      | none => iterFrom word shape (some c) 0 rest
      | some found => found :: iterFrom word shape (some c) (found.text.length - 1) rest

/-- What a replacement of the shape goes through, in order. -/
def finditer (word : α → Bool) (shape : Shape α) (text : List α) : List (Match α) :=
  iterFrom word shape none 0 text

/-- A text and the text with what was found replaced, from a place on. `Kept` holds at each
place whose character stays. -/
inductive Substituted (word : α → Bool) (shape : Shape α)
    (replace : Match α → Except ε (List α)) (Kept : Option α → List α → Prop) :
    Option α → List α → List α → Prop where
  | nil {before : Option α} : Substituted word shape replace Kept before [] []
  | kept {before : Option α} {c : α} {old new : List α} (hkept : Kept before (c :: old))
      (hrest : Substituted word shape replace Kept (some c) old new) :
      Substituted word shape replace Kept before (c :: old) (c :: new)
  | found {before : Option α} {old new written : List α} {found : Match α}
      (hne : found.text ≠ [])
      (hfind : shape.find word before (found.text ++ old) = some found)
      (hreplace : replace found = .ok written)
      (hrest : Substituted word shape replace Kept (found.text.getLast?.or before) old new) :
      Substituted word shape replace Kept before (found.text ++ old) (written ++ new)

/-- What is behind a place, one character on. -/
theorem behind_cons (c : α) (passed : List α) (before : Option α) :
    (c :: passed).getLast?.or before = passed.getLast?.or (some c) := by
  rw [List.getLast?_cons]
  cases passed.getLast? with
  | none => rfl
  | some last => rfl

section Substitution

variable {word : α → Bool} {shape : Shape α} {replace : Match α → Except ε (List α)}

theorem subFrom_skip {passed rest : List α} {before : Option α} :
    subFrom word shape replace before passed.length (passed ++ rest) =
      subFrom word shape replace (passed.getLast?.or before) 0 rest := by
  induction passed generalizing before with
  | nil => rfl
  | cons c passed ih =>
      rw [List.cons_append, List.length_cons, subFrom, ih, behind_cons]

theorem substituted_subFrom (hword : ∀ found, shape.Accepts found → found.text ≠ [])
    {before : Option α} {text new : List α}
    (h : subFrom word shape replace before 0 text = .ok new) :
    Substituted word shape replace (fun before text => shape.find word before text = none)
      before text new := by
  -- on the length of the text: what is found takes at least a character of it
  induction hlength : text.length using Nat.strong_induction_on generalizing before text new with
  | _ length ih =>
      cases text with
      | nil =>
          rw [subFrom] at h
          injection h with h
          rw [← h]
          exact .nil
      | cons c rest =>
          rw [subFrom] at h
          cases hfind : shape.find word before (c :: rest) with
          | none =>
              rw [hfind] at h
              cases hnext : subFrom word shape replace (some c) 0 rest with
              | error raised =>
                  rw [hnext] at h
                  cases h
              | ok later =>
                  rw [hnext] at h
                  injection h with h
                  rw [← h]
                  refine .kept hfind (ih rest.length ?_ hnext rfl)
                  rw [← hlength]
                  exact Nat.lt_succ_self _
          | some found =>
              rw [hfind] at h
              dsimp only at h
              obtain ⟨_, old, _, htext, haccepts⟩ := find_eq_some hfind
              cases hreplace : replace found with
              | error raised =>
                  rw [hreplace] at h
                  cases h
              | ok written =>
                  rw [hreplace] at h
                  dsimp only at h
                  cases hfound : found.text with
                  | nil => exact absurd hfound (hword found haccepts)
                  | cons first passed =>
                      rw [hfound, List.cons_append] at htext
                      injection htext with hfirst hrest
                      rw [hfound, List.length_cons, Nat.add_sub_cancel, hrest,
                        subFrom_skip] at h
                      cases hnext : subFrom word shape replace
                          (passed.getLast?.or (some c)) 0 old with
                      | error raised =>
                          rw [hnext] at h
                          cases h
                      | ok later =>
                          rw [hnext] at h
                          injection h with h
                          rw [← h, hrest, hfirst, ← List.cons_append, ← hfound]
                          have hlast : found.text.getLast?.or before =
                              passed.getLast?.or (some c) := by
                            rw [hfound, behind_cons, hfirst]
                          refine .found (hword found haccepts) ?_ hreplace ?_
                          · rw [hfound, List.cons_append, ← hfirst, ← hrest]
                            exact hfind
                          · rw [hlast]
                            refine ih old.length ?_ hnext rfl
                            rw [← hlength, hrest, List.length_cons, List.length_append]
                            omega

/-- Replacing comes to its end if and only if each match has something to be written. -/
theorem isOk_subFrom (before : Option α) (skip : Nat) (text : List α) :
    (subFrom word shape replace before skip text).isOk =
      (iterFrom word shape before skip text).all fun found => (replace found).isOk := by
  induction text generalizing before skip with
  | nil =>
      rw [iterFrom, subFrom]
      rfl
  | cons c rest ih =>
      cases skip with
      | succ skip =>
          rw [iterFrom, subFrom]
          exact ih (some c) skip
      | zero =>
          rw [iterFrom, subFrom]
          cases hfind : shape.find word before (c :: rest) with
          | none =>
              dsimp only
              rw [← ih (some c) 0]
              cases subFrom word shape replace (some c) 0 rest <;> rfl
          | some found =>
              dsimp only
              rw [List.all_cons, ← ih (some c) (found.text.length - 1)]
              cases hreplace : replace found with
              | error raised => rfl
              | ok written =>
                  dsimp only
                  cases subFrom word shape replace (some c) (found.text.length - 1) rest <;> rfl

theorem isOk_sub (text : List α) : (shape.sub word replace text).isOk =
    (shape.finditer word text).all fun found => (replace found).isOk :=
  isOk_subFrom none 0 text

/-- What a replacement goes through is a match, of characters of the text. -/
theorem mem_iterFrom {before : Option α} {skip : Nat} {text : List α} {found : Match α}
    (h : found ∈ iterFrom word shape before skip text) :
    shape.Accepts found ∧ found.text ⊆ text := by
  induction text generalizing before skip with
  | nil => cases h
  | cons c rest ih =>
      have hlater : ∀ {before skip}, found ∈ iterFrom word shape before skip rest →
          shape.Accepts found ∧ found.text ⊆ c :: rest :=
        fun hmem => ⟨(ih hmem).1, List.subset_cons_of_subset c (ih hmem).2⟩
      cases skip with
      | succ skip => exact hlater h
      | zero =>
          rw [iterFrom] at h
          cases hfind : shape.find word before (c :: rest) with
          | none =>
              rw [hfind] at h
              exact hlater h
          | some first =>
              rw [hfind] at h
              rcases List.mem_cons.mp h with rfl | hmem
              · obtain ⟨_, after, _, htext, haccepts⟩ := find_eq_some hfind
                rw [htext]
                exact ⟨haccepts, List.subset_append_left _ after⟩
              · exact hlater hmem

theorem mem_finditer {text : List α} {found : Match α} (h : found ∈ shape.finditer word text) :
    shape.Accepts found ∧ found.text ⊆ text :=
  mem_iterFrom h

/-- At each place of a text but its end, with what is behind the place. -/
def Throughout (P : Option α → List α → Prop) : Option α → List α → Prop
  | _, [] => True
  | before, c :: rest => P before (c :: rest) ∧ Throughout P (some c) rest

instance decidableThroughout (P : Option α → List α → Prop)
    [∀ before text, Decidable (P before text)] :
    ∀ before text, Decidable (Throughout P before text)
  | _, [] => isTrue trivial
  | before, c :: rest =>
      have := decidableThroughout P (some c) rest
      inferInstanceAs (Decidable (P before (c :: rest) ∧ Throughout P (some c) rest))

section Places

variable {P : Option α → List α → Prop} {before : Option α} {text : List α}

theorem throughout_iff : Throughout P before text ↔
    ∀ u v, text = u ++ v → v ≠ [] → P (u.getLast?.or before) v := by
  induction text generalizing before with
  | nil =>
      constructor
      · intro _ u v htext hne
        exact absurd (List.append_eq_nil_iff.mp htext.symm).2 hne
      · intro _
        trivial
  | cons c rest ih =>
      rw [Throughout, ih]
      constructor
      · rintro ⟨hhere, hlater⟩ u v htext hne
        cases u with
        | nil =>
            rw [List.nil_append] at htext
            rw [← htext]
            exact hhere
        | cons d u =>
            injection htext with hc hrest
            rw [← hc, behind_cons]
            exact hlater u v hrest hne
      · intro h
        refine ⟨h [] (c :: rest) rfl (List.cons_ne_nil c rest), ?_⟩
        intro u v hrest hne
        rw [← behind_cons]
        exact h (c :: u) v (by rw [hrest]; rfl) hne

theorem Throughout.imp {Q : Option α → List α → Prop} (hall : Throughout P before text)
    (himp : ∀ before text, P before text → Q before text) : Throughout Q before text :=
  throughout_iff.mpr fun u v htext hne => himp _ v (throughout_iff.mp hall u v htext hne)

/-- A replacement has nothing to go through where the shape is found nowhere. -/
theorem finditer_eq_nil_iff {text : List α} : shape.finditer word text = [] ↔
    Throughout (fun before text => shape.find word before text = none) none text := by
  have hplaces : ∀ before, iterFrom word shape before 0 text = [] ↔
      Throughout (fun before text => shape.find word before text = none) before text := by
    induction text with
    | nil => exact fun _ => ⟨fun _ => trivial, fun _ => rfl⟩
    | cons c rest ih =>
        intro before
        rw [iterFrom, Throughout]
        cases hfind : shape.find word before (c :: rest) with
        | none => exact (ih (some c)).trans (and_iff_right rfl).symm
        | some found =>
            constructor
            · intro h
              cases h
            · intro h
              cases h.1
  exact hplaces none

theorem throughout_append {written : List α}
    (hwritten : ∀ u v, written = u ++ v → v ≠ [] → P (u.getLast?.or before) (v ++ text))
    (htext : Throughout P (written.getLast?.or before) text) :
    Throughout P before (written ++ text) := by
  induction written generalizing before with
  | nil => exact htext
  | cons c written ih =>
      refine ⟨hwritten [] (c :: written) rfl (List.cons_ne_nil c written), ih ?_ ?_⟩
      · intro u v hsplit hne
        rw [← behind_cons]
        exact hwritten (c :: u) v (by rw [hsplit]; rfl) hne
      · rw [← behind_cons]
        exact htext

theorem Throughout.rest {passed : List α} (hall : Throughout P before (passed ++ text)) :
    Throughout P (passed.getLast?.or before) text := by
  rw [throughout_iff] at hall ⊢
  intro u v htext hne
  have hplace := hall (passed ++ u) v (by rw [htext, List.append_assoc]) hne
  rw [List.getLast?_append, Option.or_assoc] at hplace
  exact hplace

end Places

namespace Substituted

variable {Kept P : Option α → List α → Prop}

/-- What holds throughout the text as it was holds where a character stays. -/
theorem and {before : Option α} {old new : List α}
    (h : Substituted word shape replace Kept before old new) (hall : Throughout P before old) :
    Substituted word shape replace (fun before text => Kept before text ∧ P before text)
      before old new := by
  induction h with
  | nil => exact .nil
  | kept hkept _ ih => exact .kept ⟨hkept, hall.1⟩ (ih hall.2)
  | found hne hfind hreplace _ ih => exact .found hne hfind hreplace (ih hall.rest)

theorem imp {before : Option α} {old new : List α}
    (h : Substituted word shape replace Kept before old new)
    (himp : ∀ before text, Kept before text → P before text) :
    Substituted word shape replace P before old new := by
  induction h with
  | nil => exact .nil
  | kept hkept _ ih => exact .kept (himp _ _ hkept) ih
  | found hne hfind hreplace _ ih => exact .found hne hfind hreplace ih

/-- Another way to replace that writes the same for what is found. -/
theorem congr_replace (other : Match α → Except ε (List α)) {before : Option α}
    {old new : List α} (h : Substituted word shape replace Kept before old new)
    (hall : Throughout (fun before text => ∀ found written,
      shape.find word before text = some found → replace found = .ok written →
        other found = .ok written) before old) :
    Substituted word shape other Kept before old new := by
  induction h with
  | nil => exact .nil
  | kept hkept _ ih => exact .kept hkept (ih hall.2)
  | @found before old new written found hne hfind hreplace _ ih =>
      refine .found hne hfind ?_ (ih hall.rest)
      obtain ⟨c, rest, htext⟩ := List.exists_cons_of_ne_nil hne
      rw [htext] at hall hfind
      exact hall.1 found written hfind hreplace

/-- A word at a place of the text as it becomes was there before, if what is written for a
match is the beginning of the match up to a mark the word does not run into. -/
theorem prefix_old (Mark : List α → Prop)
    (hmarked : ∀ found written, shape.Accepts found → replace found = .ok written →
      ∃ opening tail mark, found.text = opening ++ tail ∧ written = opening ++ mark ∧ Mark mark)
    {before : Option α} {old new wanted : List α}
    (h : Substituted word shape replace Kept before old new)
    (hbars : ∀ u v mark after, wanted = u ++ v → v ≠ [] → Mark mark → ¬ v <+: mark ++ after)
    (hnew : wanted <+: new) : wanted <+: old := by
  induction h generalizing wanted with
  | nil => exact hnew
  | @kept before c old new _ _ ih =>
      cases wanted with
      | nil => exact List.nil_prefix
      | cons d wanted =>
          rw [List.cons_prefix_cons] at hnew ⊢
          refine ⟨hnew.1, ih ?_ hnew.2⟩
          intro u v mark after hsplit
          exact hbars (d :: u) v mark after (by rw [hsplit]; rfl)
  | @found before old new written found _ hfind hreplace _ _ =>
      obtain ⟨_, _, _, _, haccepts⟩ := find_eq_some hfind
      obtain ⟨opening, tail, mark, htext, hwritten, hmark⟩ :=
        hmarked found written haccepts hreplace
      rw [hwritten, List.append_assoc] at hnew
      rw [htext, List.append_assoc]
      rcases List.prefix_or_prefix_of_prefix hnew (List.prefix_append opening (mark ++ new)) with
        hshort | hlong
      · exact hshort.trans (List.prefix_append opening _)
      · obtain ⟨v, hv⟩ := hlong
        rw [← hv, List.prefix_append_right_inj] at hnew
        cases v with
        | nil =>
            rw [← hv, List.append_nil]
            exact List.prefix_append opening _
        | cons c v =>
            exact absurd hnew (hbars opening (c :: v) mark new hv.symm (List.cons_ne_nil c v) hmark)

/-- A stretch in which nothing is found stays. -/
theorem through {before : Option α} {stretch old new : List α}
    (hnone : ∀ u v, stretch = u ++ v → v ≠ [] →
      shape.find word (u.getLast?.or before) (v ++ old) = none)
    (h : Substituted word shape replace Kept before (stretch ++ old) new) :
    ∃ rest, new = stretch ++ rest ∧
      Substituted word shape replace Kept (stretch.getLast?.or before) old rest := by
  induction stretch generalizing before new with
  | nil => exact ⟨new, rfl, h⟩
  | cons c stretch ih =>
      have hhere := hnone [] (c :: stretch) rfl (List.cons_ne_nil c stretch)
      generalize htext : (c :: stretch) ++ old = text at h hhere
      cases h with
      | nil => cases htext
      | kept _ hrest =>
          injection htext with hc hothers
          rw [← hothers, ← hc] at hrest
          have hlater : ∀ u v, stretch = u ++ v → v ≠ [] →
              shape.find word (u.getLast?.or (some c)) (v ++ old) = none := by
            intro u v hsplit hne
            rw [← behind_cons]
            exact hnone (c :: u) v (by rw [hsplit]; rfl) hne
          obtain ⟨rest, hnew, hsub⟩ := ih hlater hrest
          refine ⟨rest, by rw [hnew, hc]; rfl, ?_⟩
          rw [behind_cons]
          exact hsub
      | found _ hfind _ _ =>
          rw [List.getLast?_nil, Option.none_or] at hhere
          rw [hhere] at hfind
          cases hfind

/-- What holds throughout the text as it becomes: at each place that stays, and at each
place written. `Behind` says what of the character before a place is kept. -/
theorem throughout (Behind : Option α → Option α → List α → Prop)
    (hbehind : ∀ c old, Behind (some c) (some c) old)
    (hpast : ∀ before before' found old written,
      shape.find word before (found.text ++ old) = some found → replace found = .ok written →
      Behind (found.text.getLast?.or before) (written.getLast?.or before') old)
    (hkept : ∀ before before' c old new, Behind before before' (c :: old) →
      Kept before (c :: old) → Substituted word shape replace Kept (some c) old new →
      P before' (c :: new))
    (hfound : ∀ before before' found old new written,
      shape.find word before (found.text ++ old) = some found → replace found = .ok written →
      Behind before before' (found.text ++ old) →
      Substituted word shape replace Kept (found.text.getLast?.or before) old new →
      ∀ u v, written = u ++ v → v ≠ [] → P (u.getLast?.or before') (v ++ new))
    {before before' : Option α} {old new : List α}
    (h : Substituted word shape replace Kept before old new)
    (hstart : Behind before before' old) : Throughout P before' new := by
  induction h generalizing before' with
  | nil => trivial
  | kept hheld hrest ih => exact ⟨hkept _ _ _ _ _ hstart hheld hrest, ih (hbehind _ _)⟩
  | found _ hfind hreplace hrest ih =>
      exact throughout_append (hfound _ _ _ _ _ _ hfind hreplace hstart hrest)
        (ih (hpast _ _ _ _ _ hfind hreplace))

/-- What every match has no less of than what is written for it, a text has no less of than
the text it becomes. -/
theorem countP_le {counted : α → Bool}
    (hle : ∀ found written, shape.Accepts found → replace found = .ok written →
      written.countP counted ≤ found.text.countP counted)
    {before : Option α} {old new : List α}
    (h : Substituted word shape replace Kept before old new) :
    new.countP counted ≤ old.countP counted := by
  induction h with
  | nil => exact Nat.le_refl _
  | kept _ _ ih =>
      rw [List.countP_cons, List.countP_cons]
      omega
  | found _ hfind hreplace _ ih =>
      obtain ⟨_, _, _, _, haccepts⟩ := find_eq_some hfind
      have hone := hle _ _ haccepts hreplace
      rw [List.countP_append, List.countP_append]
      omega

/-- A character that is not in a text is not in what it becomes, if nothing is written that
has it for a match that has it not. -/
theorem notMem {d : α}
    (hwritten : ∀ found written, shape.Accepts found → replace found = .ok written →
      d ∉ found.text → d ∉ written)
    {before : Option α} {old new : List α}
    (h : Substituted word shape replace Kept before old new) (hold : d ∉ old) : d ∉ new := by
  induction h with
  | nil => exact hold
  | kept _ _ ih =>
      rw [List.mem_cons, not_or] at hold ⊢
      exact ⟨hold.1, ih hold.2⟩
  | found _ hfind hreplace _ ih =>
      obtain ⟨_, _, _, _, haccepts⟩ := find_eq_some hfind
      rw [List.mem_append, not_or] at hold ⊢
      exact ⟨hwritten _ _ haccepts hreplace hold.1, ih hold.2⟩

/-- If a text loses none of it, no match does. -/
theorem replaced_tight {counted : α → Bool}
    (hle : ∀ found written, shape.Accepts found → replace found = .ok written →
      written.countP counted ≤ found.text.countP counted)
    (other : Match α → Except ε (List α))
    (hother : ∀ found written, shape.Accepts found → replace found = .ok written →
      found.text.countP counted ≤ written.countP counted → other found = .ok written)
    {before : Option α} {old new : List α}
    (h : Substituted word shape replace Kept before old new)
    (hsame : old.countP counted ≤ new.countP counted) :
    Substituted word shape other Kept before old new := by
  induction h with
  | nil => exact .nil
  | kept hkept _ ih =>
      rw [List.countP_cons, List.countP_cons] at hsame
      exact .kept hkept (ih (by omega))
  | found hne hfind hreplace hrest ih =>
      obtain ⟨_, _, _, _, haccepts⟩ := find_eq_some hfind
      have hone := hle _ _ haccepts hreplace
      have hmore := hrest.countP_le hle
      rw [List.countP_append, List.countP_append] at hsame
      exact .found hne hfind (hother _ _ haccepts hreplace (by omega)) (ih (by omega))

/-- A word at a place of the text as it becomes was there before, and what follows it did
too or is a mark, if what is written for a match is the beginning of it and a mark, and
the word has no character a mark begins with. -/
theorem prefix_next {mark : α}
    (hmarked : ∀ found written, shape.Accepts found → replace found = .ok written →
      ∃ opening tail rest, found.text = opening ++ tail ∧ written = opening ++ mark :: rest)
    {before : Option α} {old new wanted next : List α}
    (h : Substituted word shape replace Kept before old new) (hmark : mark ∉ wanted)
    (hnew : new = wanted ++ next) :
    ∃ followed, old = wanted ++ followed ∧
      (next.head? = followed.head? ∨ next.head? = some mark) := by
  induction h generalizing wanted with
  | nil =>
      obtain ⟨hwanted, hnext⟩ := List.append_eq_nil_iff.mp hnew.symm
      exact ⟨[], by rw [hwanted]; rfl, Or.inl (by rw [hnext])⟩
  | @kept before c old new _ _ ih =>
      cases wanted with
      | nil => exact ⟨c :: old, rfl, Or.inl (by rw [← show c :: new = next from hnew]; rfl)⟩
      | cons d wanted =>
          injection hnew with hd hnew
          obtain ⟨followed, hold, hnext⟩ :=
            ih (fun hmem => hmark (List.mem_cons_of_mem d hmem)) hnew
          exact ⟨followed, by rw [hold, hd]; rfl, hnext⟩
  | @found before old new written found _ hfind hreplace _ _ =>
      obtain ⟨_, _, _, _, haccepts⟩ := find_eq_some hfind
      obtain ⟨opening, tail, rest, htext, hwritten⟩ := hmarked found written haccepts hreplace
      rw [hwritten, List.append_assoc] at hnew
      rcases List.append_eq_append_iff.mp hnew with ⟨more, hwanted, hrest⟩ | ⟨more, hopening, hrest⟩
      · -- the opening is a beginning of the word, which has no mark behind it
        cases more with
        | nil =>
            rw [List.append_nil] at hwanted
            refine ⟨tail ++ old, by rw [htext, hwanted, List.append_assoc], Or.inr ?_⟩
            rw [List.nil_append] at hrest
            rw [← hrest]
            rfl
        | cons d more =>
            injection hrest with hd _
            refine absurd ?_ hmark
            rw [hwanted, hd]
            exact List.mem_append_right opening List.mem_cons_self
      · refine ⟨more ++ (tail ++ old), by rw [htext, hopening]; simp, ?_⟩
        rw [hrest]
        cases more with
        | nil => exact Or.inr rfl
        | cons d more => exact Or.inl rfl

/-- A word at a place of the text as it becomes was there before, or a mark follows it, if
what is written for a match is the beginning of it, one character at most, and a mark. -/
theorem prefix_or_mark {mark : α}
    (hmarked : ∀ found written, shape.Accepts found → replace found = .ok written →
      ∃ opening tail between rest, found.text = opening ++ tail ∧
        written = opening ++ between ++ mark :: rest ∧ between.length ≤ 1)
    {before : Option α} {old new wanted next : List α}
    (h : Substituted word shape replace Kept before old new) (hmark : mark ∉ wanted)
    (hnew : new = wanted ++ next) : wanted <+: old ∨ next.head? = some mark := by
  induction h generalizing wanted with
  | nil =>
      rw [(List.append_eq_nil_iff.mp hnew.symm).1]
      exact Or.inl List.nil_prefix
  | @kept before c old new _ _ ih =>
      cases wanted with
      | nil => exact Or.inl List.nil_prefix
      | cons d wanted =>
          injection hnew with hd hnew
          rcases ih (fun hmem => hmark (List.mem_cons_of_mem d hmem)) hnew with hold | hnext
          · exact Or.inl (List.cons_prefix_cons.mpr ⟨hd.symm, hold⟩)
          · exact Or.inr hnext
  | @found before old new written found _ hfind hreplace _ _ =>
      obtain ⟨_, _, _, _, haccepts⟩ := find_eq_some hfind
      obtain ⟨opening, tail, between, rest, htext, hwritten, hshort⟩ :=
        hmarked found written haccepts hreplace
      rw [hwritten, List.append_assoc] at hnew
      rcases List.append_eq_append_iff.mp hnew with ⟨more, hwanted, hrest⟩ | ⟨more, hparts, hrest⟩
      · cases more with
        | nil =>
            rw [List.nil_append] at hrest
            rw [← hrest]
            exact Or.inr rfl
        | cons d more =>
            injection hrest with hd _
            refine absurd ?_ hmark
            rw [hwanted, hd]
            exact List.mem_append_right _ List.mem_cons_self
      · -- the word ends before the mark: in the opening, or with the character behind it
        rcases List.append_eq_append_iff.mp hparts with
          ⟨part, hwanted, hbetween⟩ | ⟨part, hopening, _⟩
        · cases more with
          | nil =>
              rw [hrest]
              exact Or.inr rfl
          | cons d more =>
              have hnone : part = [] := by
                rw [hbetween, List.length_append, List.length_cons] at hshort
                exact List.eq_nil_of_length_eq_zero (by omega)
              rw [hwanted, hnone, List.append_nil, htext, List.append_assoc]
              exact Or.inl (List.prefix_append opening _)
        · rw [htext, hopening, List.append_assoc, List.append_assoc]
          exact Or.inl (List.prefix_append wanted _)

/-- A place of a text is inside of a match, or a place of the text as it becomes. There the
character behind is of the word characters if it was, where matches and what is written for
them end alike. -/
theorem at_place
    (hends : ∀ found written, shape.Accepts found → replace found = .ok written →
      ∃ c d, found.text.getLast? = some c ∧ written.getLast? = some d ∧ word c = word d)
    {before before' : Option α} {u v new : List α}
    (h : Substituted word shape replace Kept before (u ++ v) new)
    (hbefore : before.any word = before'.any word) :
    (∃ first rest, new = first ++ rest ∧
      Substituted word shape replace Kept (u.getLast?.or before) v rest ∧
      (u.getLast?.or before).any word = (first.getLast?.or before').any word) ∨
    ∃ found x y w, shape.Accepts found ∧ found.text = x ++ y ∧ y ≠ [] ∧ x ≠ [] ∧ v = y ++ w := by
  generalize htext : u ++ v = text at h
  induction h generalizing u before' with
  | nil =>
      obtain ⟨rfl, rfl⟩ := List.append_eq_nil_iff.mp htext
      exact Or.inl ⟨[], [], rfl, .nil, hbefore⟩
  | @kept before c old new hkept hrest ih =>
      cases u with
      | nil =>
          rw [List.nil_append] at htext
          exact Or.inl ⟨[], c :: new, rfl, by rw [htext]; exact .kept hkept hrest, hbefore⟩
      | cons d u =>
          injection htext with hd htext
          have hsame : (some c).any word = (some c).any word := rfl
          rcases ih hsame htext with ⟨first, rest, hnew, hsub, hany⟩ | hinside
          · refine Or.inl ⟨c :: first, rest, by rw [hnew]; rfl, ?_, ?_⟩
            · rw [hd, behind_cons]
              exact hsub
            · rw [hd, behind_cons, behind_cons]
              exact hany
          · exact Or.inr hinside
  | @found before old new written found hne hfind hreplace hrest ih =>
      obtain ⟨_, _, _, _, haccepts⟩ := find_eq_some hfind
      rcases List.append_eq_append_iff.mp htext with ⟨y, hfound, hv⟩ | ⟨more, hu, hold⟩
      · cases u with
        | nil =>
            rw [List.nil_append] at htext
            exact Or.inl ⟨[], written ++ new, rfl,
              by rw [htext]; exact .found hne hfind hreplace hrest, hbefore⟩
        | cons d u =>
            cases y with
            | nil =>
                rw [List.append_nil] at hfound
                rw [List.nil_append] at hv
                obtain ⟨c, e, hc, he, hword⟩ := hends found written haccepts hreplace
                refine Or.inl ⟨written, new, rfl, by rw [hv, ← hfound]; exact hrest, ?_⟩
                rw [← hfound, hc, he, Option.some_or, Option.some_or, Option.any_some,
                  Option.any_some, hword]
            | cons e y =>
                exact Or.inr ⟨found, d :: u, e :: y, old, haccepts, hfound,
                  List.cons_ne_nil e y, List.cons_ne_nil d u, hv⟩
      · obtain ⟨c, e, hc, he, hword⟩ := hends found written haccepts hreplace
        have hany : (found.text.getLast?.or before).any word =
            (written.getLast?.or before').any word := by
          rw [hc, he, Option.some_or, Option.some_or, Option.any_some, Option.any_some, hword]
        rcases ih hany hold.symm with ⟨first, rest, hnew, hsub, hlast⟩ | hinside
        · refine Or.inl ⟨written ++ first, rest, by rw [hnew, List.append_assoc], ?_, ?_⟩
          · rw [hu, List.getLast?_append, Option.or_assoc]
            exact hsub
          · rw [hu, List.getLast?_append, List.getLast?_append, Option.or_assoc, Option.or_assoc]
            exact hlast
        · exact Or.inr hinside

end Substituted

/-- Where what is written for every match is the match, a text stays as it is. -/
theorem subFrom_eq_self (hword : ∀ found, shape.Accepts found → found.text ≠ [])
    {before : Option α} {text : List α}
    (h : Throughout (fun before text => ∀ found, shape.find word before text = some found →
      replace found = .ok found.text) before text) :
    subFrom word shape replace before 0 text = .ok text := by
  induction hlength : text.length using Nat.strong_induction_on generalizing before text with
  | _ length ih =>
      cases text with
      | nil => rfl
      | cons c rest =>
          rw [subFrom]
          cases hfind : shape.find word before (c :: rest) with
          | none =>
              rw [ih rest.length (by rw [← hlength]; exact Nat.lt_succ_self _) h.2 rfl]
              rfl
          | some found =>
              obtain ⟨_, old, _, htext, haccepts⟩ := find_eq_some hfind
              dsimp only
              rw [h.1 found hfind]
              dsimp only
              cases hfound : found.text with
              | nil => exact absurd hfound (hword found haccepts)
              | cons first passed =>
                  rw [hfound, List.cons_append] at htext
                  injection htext with hfirst hrest
                  have hlater := h.2
                  rw [hrest] at hlater
                  have hshort : old.length < length := by
                    rw [← hlength, hrest, List.length_cons, List.length_append]
                    omega
                  rw [List.length_cons, Nat.add_sub_cancel, hrest, subFrom_skip,
                    ih old.length hshort hlater.rest rfl, hfirst]
                  rfl

end Substitution

end Shape

end Regex
