import Mathlib.Data.List.Basic

/-!
# Frames out of a text that arrives in pieces

A reader holds back what it has not been able to cut yet. It appends every piece to what it
holds, and cuts off everything up to a separator for as long as there is one. Nothing is
lost or doubled by that, wherever the pieces end: a separator found in a text is found at
the same place when more text follows, so what the pieces yield one after the other is what
the whole text yields at once.

A frame survives the way if its separator is the first one behind its beginning, which is
a condition on the frame and all of the separator but its last character.
-/

namespace Framing

variable {α : Type*} [DecidableEq α]

/-- What stands before the first separator, and what behind it. -/
def cut (separator : List α) : List α → Option (List α × List α)
  | [] => if separator.isPrefixOf [] then some ([], []) else none
  | c :: text =>
      if separator.isPrefixOf (c :: text) then some ([], (c :: text).drop separator.length)
      else (cut separator text).map fun parts => (c :: parts.1, parts.2)

/-- All frames that end in the text, and what is left. There are no more of them than
characters, which is what the fuel counts. -/
def drain (separator : List α) : Nat → List α → List (List α) × List α
  | 0, text => ([], text)
  | fuel + 1, text =>
      match cut separator text with
      | none => ([], text)
      | some (frame, rest) =>
          (frame :: (drain separator fuel rest).1, (drain separator fuel rest).2)

def drained (separator text : List α) : List (List α) × List α :=
  drain separator text.length text

/-- The frames that the pieces complete, beginning with what is held. -/
def feed (separator : List α) : List α → List (List α) → List (List α)
  | _, [] => []
  | held, piece :: pieces =>
      (drained separator (held ++ piece)).1 ++
        feed separator (drained separator (held ++ piece)).2 pieces

/-! ## The first separator -/

variable {separator : List α}

theorem cut_front {text : List α} (h : separator <+: text) :
    cut separator text = some ([], text.drop separator.length) := by
  have hstarts : separator.isPrefixOf text = true := List.isPrefixOf_iff_prefix.mpr h
  cases text with
  | nil => simp [cut, hstarts]
  | cons c text => rw [cut, if_pos hstarts]

theorem cut_cons {c : α} {text : List α} (h : ¬ separator <+: c :: text) :
    cut separator (c :: text) =
      (cut separator text).map fun parts => (c :: parts.1, parts.2) := by
  rw [cut, if_neg (fun hstarts => h (List.isPrefixOf_iff_prefix.mp hstarts))]

theorem cut_nil (hseparator : separator ≠ []) : cut separator [] = none := by
  rw [cut, if_neg]
  intro hstarts
  exact hseparator (List.prefix_nil.mp (List.isPrefixOf_iff_prefix.mp hstarts))

theorem cut_sound {text frame rest : List α} (h : cut separator text = some (frame, rest)) :
    text = frame ++ separator ++ rest := by
  induction text generalizing frame with
  | nil =>
      rw [cut] at h
      split at h
      · next hstarts =>
          cases h
          simpa using List.isPrefixOf_iff_prefix.mp hstarts
      · cases h
  | cons c text ih =>
      by_cases hstarts : separator <+: c :: text
      · rw [cut_front hstarts] at h
        cases h
        obtain ⟨rest, hrest⟩ := hstarts
        simp [← hrest]
      · rw [cut_cons hstarts, Option.map_eq_some_iff] at h
        obtain ⟨parts, hparts, heq⟩ := h
        cases heq
        simp [ih hparts]

/-- More text behind a separator does not move it. -/
theorem cut_append {text frame rest : List α} (h : cut separator text = some (frame, rest))
    (more : List α) : cut separator (text ++ more) = some (frame, rest ++ more) := by
  induction text generalizing frame with
  | nil =>
      obtain ⟨hframe, hseparator, hrest⟩ : frame = [] ∧ separator = [] ∧ rest = [] := by
        simpa using (cut_sound h).symm
      subst hframe hseparator hrest
      exact cut_front List.nil_prefix
  | cons c text ih =>
      by_cases hstarts : separator <+: c :: text
      · rw [cut_front hstarts] at h
        cases h
        rw [cut_front (hstarts.trans (List.prefix_append _ _)),
          List.drop_append_of_le_length hstarts.length_le]
      · rw [cut_cons hstarts, Option.map_eq_some_iff] at h
        obtain ⟨parts, hparts, heq⟩ := h
        cases heq
        rw [List.cons_append, cut_cons, ih hparts]
        · rfl
        · intro hlonger
          have hlength : separator.length ≤ (c :: text).length := by
            have := congrArg List.length (cut_sound hparts)
            simp at this ⊢
            omega
          exact hstarts (List.prefix_of_prefix_length_le hlonger
            (List.prefix_append (c :: text) more) hlength)

theorem cut_none_cons {c : α} {text : List α} (h : cut separator (c :: text) = none) :
    (¬ separator <+: c :: text) ∧ cut separator text = none := by
  have hstarts : ¬ separator <+: c :: text := by
    intro hstarts
    rw [cut_front hstarts] at h
    cases h
  refine ⟨hstarts, ?_⟩
  rw [cut_cons hstarts, Option.map_eq_none_iff] at h
  exact h

/-- A frame is cut off whole if no separator begins in it, not even one that ends behind it. -/
theorem cut_frame {frame : List α} (hseparator : separator ≠ [])
    (h : cut separator (frame ++ separator.dropLast) = none) (rest : List α) :
    cut separator (frame ++ separator ++ rest) = some (frame, rest) := by
  have hsplit := List.dropLast_append_getLast hseparator
  induction frame with
  | nil => simpa using cut_front (List.prefix_append separator rest)
  | cons c frame ih =>
      obtain ⟨hstarts, hlater⟩ := cut_none_cons h
      rw [List.cons_append, List.cons_append, cut_cons, ih hlater]
      · rfl
      · intro hlonger
        have hshort : c :: (frame ++ separator.dropLast) <+: c :: (frame ++ separator ++ rest) := by
          refine ⟨separator.getLast hseparator :: rest, ?_⟩
          conv_rhs => rw [← hsplit]
          simp
        have hlength : separator.length ≤ (c :: (frame ++ separator.dropLast)).length := by
          simp only [List.length_cons, List.length_append, List.length_dropLast]
          omega
        exact hstarts (List.prefix_of_prefix_length_le hlonger hshort hlength)

/-! ## All of them -/

theorem length_rest_lt (hseparator : separator ≠ []) {text frame rest : List α}
    (h : cut separator text = some (frame, rest)) : rest.length < text.length := by
  have hpositive := List.length_pos_iff.mpr hseparator
  rw [cut_sound h, List.length_append, List.length_append]
  omega

/-- A property of texts holds if it holds where there is no separator, and otherwise follows
from the text behind the first. -/
theorem cut_induction (hseparator : separator ≠ []) {P : List α → Prop}
    (whole : ∀ text, cut separator text = none → P text)
    (behind : ∀ text frame rest, cut separator text = some (frame, rest) → P rest → P text)
    (text : List α) : P text := by
  induction hlength : text.length using Nat.strongRecOn generalizing text with
  | _ length ih =>
      cases hcut : cut separator text with
      | none => exact whole text hcut
      | some parts =>
          have hshorter := length_rest_lt hseparator hcut
          exact behind text parts.1 parts.2 hcut (ih _ (hlength ▸ hshorter) parts.2 rfl)

theorem drain_none {fuel : Nat} {text : List α} (h : cut separator text = none) :
    drain separator fuel text = ([], text) := by
  cases fuel with
  | zero => rfl
  | succ fuel => simp [drain, h]

theorem drain_eq (hseparator : separator ≠ []) (text : List α) :
    ∀ first second, text.length ≤ first → text.length ≤ second →
      drain separator first text = drain separator second text := by
  induction text using cut_induction hseparator with
  | whole text hcut =>
      intro first second _ _
      rw [drain_none hcut, drain_none hcut]
  | behind text frame rest hcut ih =>
      intro first second hfirst hsecond
      have hshorter := length_rest_lt hseparator hcut
      obtain ⟨first, rfl⟩ : ∃ fuel, first = fuel + 1 := ⟨first - 1, by omega⟩
      obtain ⟨second, rfl⟩ : ∃ fuel, second = fuel + 1 := ⟨second - 1, by omega⟩
      simp only [drain, hcut]
      rw [ih first second (by omega) (by omega)]

theorem drained_none {text : List α} (h : cut separator text = none) :
    drained separator text = ([], text) := drain_none h

theorem drained_some (hseparator : separator ≠ []) {text frame rest : List α}
    (h : cut separator text = some (frame, rest)) :
    drained separator text =
      (frame :: (drained separator rest).1, (drained separator rest).2) := by
  have hshorter := length_rest_lt hseparator h
  rw [drained, drained,
    drain_eq hseparator text text.length (text.length + 1) (Nat.le_refl _) (Nat.le_succ _),
    drain_eq hseparator rest rest.length text.length (Nat.le_refl _) (Nat.le_of_lt hshorter),
    drain, h]

/-- What is left holds no separator. -/
theorem cut_drained (hseparator : separator ≠ []) (text : List α) :
    cut separator (drained separator text).2 = none := by
  induction text using cut_induction hseparator with
  | whole text hcut => rw [drained_none hcut, hcut]
  | behind text frame rest hcut ih => rw [drained_some hseparator hcut, ih]

/-- What a longer text yields: what its beginning yields, and then what the rest of it
yields behind what the beginning left. -/
theorem drained_append (hseparator : separator ≠ []) (text more : List α) :
    drained separator (text ++ more) =
      ((drained separator text).1 ++
          (drained separator ((drained separator text).2 ++ more)).1,
        (drained separator ((drained separator text).2 ++ more)).2) := by
  induction text using cut_induction hseparator with
  | whole text hcut => simp [drained_none hcut]
  | behind text frame rest hcut ih =>
      rw [drained_some hseparator (cut_append hcut more), drained_some hseparator hcut, ih]
      rfl

/-- Wherever the pieces were cut, they yield what their text yields. -/
theorem feed_eq_drained (hseparator : separator ≠ []) {held : List α}
    (hheld : cut separator held = none) (pieces : List (List α)) :
    feed separator held pieces = (drained separator (held ++ pieces.flatten)).1 := by
  induction pieces generalizing held with
  | nil => simp [feed, drained_none hheld]
  | cons piece pieces ih =>
      rw [feed, ih (cut_drained hseparator _), List.flatten_cons, ← List.append_assoc,
        drained_append hseparator (held ++ piece)]

theorem cut_eq_none_iff {text : List α} (hseparator : separator ≠ []) :
    cut separator text = none ↔ ¬ separator <:+: text := by
  induction text with
  | nil => simp [cut_nil hseparator, List.infix_nil, hseparator]
  | cons c text ih =>
      rw [List.infix_cons_iff, not_or]
      constructor
      · intro h
        obtain ⟨hstarts, hlater⟩ := cut_none_cons h
        exact ⟨hstarts, ih.mp hlater⟩
      · intro ⟨hstarts, hlater⟩
        rw [cut_cons hstarts, ih.mpr hlater]
        rfl

/-! ## Blank lines

The separator that is a line break twice. A frame that ends in a line break runs into its
separator, so that one too few is cut off, and the next frame begins with what was left.
A reader of frames for whom a line break at either end, and an empty frame, are nothing
reads the same all the way.
-/

variable {lineBreak : α}

theorem cut_unbroken {frame : List α} (h : ¬ [lineBreak, lineBreak] <:+: frame)
    (hlast : frame.getLast? ≠ some lineBreak) (rest : List α) :
    cut [lineBreak, lineBreak] (frame ++ [lineBreak, lineBreak] ++ rest) =
      some (frame, rest) := by
  refine cut_frame (List.cons_ne_nil _ _) ?_ rest
  rw [cut_eq_none_iff (List.cons_ne_nil _ _)]
  intro hinfix
  rcases List.infix_concat_iff.mp hinfix with hsuffix | hinfix
  · obtain hnil | ⟨init, hinit, hsuffix⟩ := List.suffix_concat_iff.mp hsuffix
    · cases hnil
    · obtain ⟨before, rfl⟩ := hsuffix
      have hinit : [lineBreak] ++ [lineBreak] = init ++ [lineBreak] := hinit
      obtain rfl := List.append_cancel_right hinit
      simp at hlast
  · exact h hinfix

theorem cut_broken {frame : List α} (h : ¬ [lineBreak, lineBreak] <:+: frame ++ [lineBreak])
    (rest : List α) :
    cut [lineBreak, lineBreak] (frame ++ [lineBreak] ++ [lineBreak, lineBreak] ++ rest) =
      some (frame, lineBreak :: rest) := by
  have hbroken : cut [lineBreak, lineBreak] (frame ++ [lineBreak]) = none :=
    (cut_eq_none_iff (List.cons_ne_nil _ _)).mpr h
  have hcut := cut_frame (List.cons_ne_nil _ _) hbroken (lineBreak :: rest)
  simpa using hcut

/-- The frames are the ones that were sent just when none of them ends in a line break. -/
theorem drained_blank_iff {frames : List (List α)}
    (h : ∀ frame ∈ frames, ¬ [lineBreak, lineBreak] <:+: frame) :
    (drained [lineBreak, lineBreak] (frames.flatMap (· ++ [lineBreak, lineBreak]))).1 = frames ↔
      ∀ frame ∈ frames, frame.getLast? ≠ some lineBreak := by
  induction frames with
  | nil => simp [drained_none (cut_nil (List.cons_ne_nil lineBreak [lineBreak]))]
  | cons frame frames ih =>
      rw [List.forall_mem_cons] at h
      rw [List.flatMap_cons, List.forall_mem_cons, ← ih h.2]
      by_cases hlast : frame.getLast? = some lineBreak
      · obtain ⟨init, rfl⟩ := List.getLast?_eq_some_iff.mp hlast
        rw [drained_some (List.cons_ne_nil _ _) (cut_broken h.1 _)]
        simp
      · rw [drained_some (List.cons_ne_nil _ _) (cut_unbroken h.1 hlast _)]
        simp [hlast]

section Reading

variable {β : Type*} {read : List α → Option β} (hempty : read [] = none)
  (hfront : ∀ frame, read (lineBreak :: frame) = read frame)
  (hback : ∀ frame, read (frame ++ [lineBreak]) = read frame)

include hback in
/-- The first frame is read as it was sent, and what it leaves is a line break at most. -/
theorem cut_read {frame : List α} (h : ¬ [lineBreak, lineBreak] <:+: frame) (rest : List α) :
    ∃ found held, cut [lineBreak, lineBreak] (frame ++ [lineBreak, lineBreak] ++ rest) =
        some (found, held ++ rest) ∧ read found = read frame ∧
      (held = [] ∨ held = [lineBreak]) := by
  by_cases hlast : frame.getLast? = some lineBreak
  · obtain ⟨init, rfl⟩ := List.getLast?_eq_some_iff.mp hlast
    exact ⟨init, [lineBreak], cut_broken h rest, (hback init).symm, Or.inr rfl⟩
  · exact ⟨frame, [], cut_unbroken h hlast rest, rfl, Or.inl rfl⟩

include hempty hfront hback in
theorem filterMap_drained {frames : List (List α)}
    (h : ∀ frame ∈ frames, ¬ [lineBreak, lineBreak] <:+: frame) {held : List α}
    (hheld : held = [] ∨ held = [lineBreak]) :
    (drained [lineBreak, lineBreak]
        (held ++ frames.flatMap (· ++ [lineBreak, lineBreak]))).1.filterMap read =
      frames.filterMap read := by
  induction frames generalizing held with
  | nil =>
      have hcut : cut [lineBreak, lineBreak] held = none := by
        rcases hheld with rfl | rfl <;>
          simp [cut_eq_none_iff, List.infix_cons_iff, List.infix_nil]
      simp [drained_none hcut]
  | cons frame frames ih =>
      rw [List.forall_mem_cons] at h
      -- a frame whose beginning holds no blank line is cut off as it is read
      have hwhole : ∀ front, read front = read frame →
          ¬ [lineBreak, lineBreak] <:+: front →
          (drained [lineBreak, lineBreak] (front ++ [lineBreak, lineBreak] ++
              frames.flatMap (· ++ [lineBreak, lineBreak]))).1.filterMap read =
            (frame :: frames).filterMap read := by
        intro front hread hfront
        obtain ⟨found, left, hcut, hfound, hleft⟩ := cut_read hback hfront _
        rw [drained_some (List.cons_ne_nil _ _) hcut, List.filterMap_cons, ih h.2 hleft,
          hfound, hread, List.filterMap_cons]
      rw [List.flatMap_cons, ← List.append_assoc, ← List.append_assoc]
      rcases hheld with rfl | rfl
      · exact hwhole frame rfl h.1
      · by_cases hblank : [lineBreak, lineBreak] <:+: lineBreak :: frame
        · -- the line break that was left and the first of the frame are a blank line
          obtain ⟨behind, rfl⟩ : ∃ behind, frame = lineBreak :: behind := by
            rcases List.infix_cons_iff.mp hblank with hstarts | hinfix
            · obtain ⟨behind, hbehind⟩ := hstarts
              exact ⟨behind, (List.cons.inj hbehind).2.symm⟩
            · exact absurd hinfix h.1
          have hcut := cut_front
            (List.prefix_append [lineBreak, lineBreak] (behind ++ [lineBreak, lineBreak] ++
              frames.flatMap (· ++ [lineBreak, lineBreak])))
          rw [show [lineBreak] ++ lineBreak :: behind ++ [lineBreak, lineBreak] ++
              frames.flatMap (· ++ [lineBreak, lineBreak]) =
            [lineBreak, lineBreak] ++ (behind ++ [lineBreak, lineBreak] ++
              frames.flatMap (· ++ [lineBreak, lineBreak])) by simp,
            drained_some (List.cons_ne_nil _ _) hcut, List.drop_left, List.filterMap_cons,
            hempty]
          refine hwhole behind (hfront behind).symm fun hinfix => h.1 ?_
          exact hinfix.trans (List.suffix_cons _ _).isInfix
        · exact hwhole (lineBreak :: frame) (hfront frame) hblank

end Reading

end Framing

/-!
## Codes that need no separator

Where no code begins another, what a text begins with says what was coded first, and a text
is the codes of one list only.
-/

namespace PrefixCode

variable {α β : Type*}

/-- Of the values in question none has the code that another's begins with. -/
structure On (valid : α → Prop) (code : α → List β) : Prop where
  nonempty : ∀ a, valid a → code a ≠ []
  first : ∀ a b x y, valid a → valid b → code a ++ x = code b ++ y → a = b

theorem On.flatMap_inj {valid : α → Prop} {code : α → List β} (h : On valid code)
    {values others : List α} (hvalues : ∀ a ∈ values, valid a) (hothers : ∀ a ∈ others, valid a)
    (hsame : values.flatMap code = others.flatMap code) : values = others := by
  induction values generalizing others with
  | nil =>
      cases others with
      | nil => rfl
      | cons b others =>
          rw [List.flatMap_nil, List.flatMap_cons] at hsame
          have hnil := (List.append_eq_nil_iff.mp hsame.symm).1
          exact absurd hnil (h.nonempty b (hothers b List.mem_cons_self))
  | cons a values ih =>
      obtain ⟨ha, hrest⟩ := List.forall_mem_cons.mp hvalues
      cases others with
      | nil =>
          rw [List.flatMap_nil, List.flatMap_cons] at hsame
          exact absurd (List.append_eq_nil_iff.mp hsame).1 (h.nonempty a ha)
      | cons b others =>
          obtain ⟨hb, hlater⟩ := List.forall_mem_cons.mp hothers
          rw [List.flatMap_cons, List.flatMap_cons] at hsame
          obtain rfl := h.first a b _ _ ha hb hsame
          rw [ih hrest hlater (List.append_cancel_left hsame)]

end PrefixCode
