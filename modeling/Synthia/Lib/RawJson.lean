import Synthia.Lib.Json

/-!
# JSON without escapes

An object whose names and texts are put between quotes as they stand, as a template does it.
Read back, its texts are the ones that were put there exactly if none has a character that a
literal cannot hold as it is.

That plain text is read back is one step after the other. The converse is about one literal:
what is read takes at least as many characters to write as it has, with as many only where
nothing is escaped. If more was taken than the text that was put there, a quote was taken for
an escaped one. The first quote of a literal is read at an earlier place than it is written
at, behind a backslash, and a text that is its own reading has it at the same.
-/

namespace Json

open Text

/-- Text that stands in a literal as it is. -/
def Plain {n : Nat} (text : List (Fin n)) : Prop :=
  ∀ c ∈ text, c.val ≠ 0x22 ∧ c.val ≠ 0x5C ∧ 0x20 ≤ c.val

instance {n : Nat} (text : List (Fin n)) : Decidable (Plain text) :=
  List.decidableBAll _ text

/-! ## One literal -/

theorem push_eq_some {unit : CodeUnit} {read : Option (List CodeUnit × List CodeUnit)}
    {found rest : List CodeUnit} (h : push unit read = some (found, rest)) :
    ∃ tail, found = unit :: tail ∧ read = some (tail, rest) := by
  obtain ⟨⟨tail, behind⟩, hread, hpair⟩ := Option.map_eq_some_iff.mp h
  obtain ⟨rfl, rfl⟩ := Prod.mk.inj hpair
  exact ⟨tail, rfl, hread⟩

/-- How a literal was written that is read as a text. -/
structure Spelled (text raw : List CodeUnit) : Prop where
  length : text.length ≤ raw.length
  plain : text.length = raw.length → text = raw ∧ Plain raw
  quote : 0x22 ∈ raw → text.idxOf 0x22 < raw.idxOf 0x22

theorem Spelled.nil : Spelled [] [] :=
  ⟨le_rfl, fun _ => ⟨rfl, fun _ hc => absurd hc List.not_mem_nil⟩,
    fun h => absurd h List.not_mem_nil⟩

/-- A character that stands for itself. -/
theorem Spelled.cons {unit : CodeUnit} {text raw : List CodeUnit} (h : Spelled text raw)
    (hquote : unit ≠ 0x22) (hslash : unit ≠ 0x5C) (hcontrol : ¬ unit.val < 0x20) :
    Spelled (unit :: text) (unit :: raw) := by
  refine ⟨Nat.succ_le_succ h.length, fun hlength => ?_, fun hmem => ?_⟩
  · obtain ⟨hsame, hplain⟩ := h.plain (Nat.succ.inj hlength)
    refine ⟨by rw [hsame], fun c hc => ?_⟩
    rcases List.mem_cons.mp hc with rfl | hc
    · exact ⟨fun hval => hquote (Fin.ext hval), fun hval => hslash (Fin.ext hval),
        Nat.not_lt.mp hcontrol⟩
    · exact hplain c hc
  · have hraw := (List.mem_cons.mp hmem).resolve_left (Ne.symm hquote)
    rw [List.idxOf_cons_ne _ hquote, List.idxOf_cons_ne _ hquote]
    exact Nat.succ_lt_succ (h.quote hraw)

/-- A character for which more than one are written, of which only the second may be a
quote. -/
theorem Spelled.escape {unit first second : CodeUnit} {more text raw : List CodeUnit}
    (h : Spelled text raw) (hfirst : first ≠ 0x22) (hmore : 0x22 ∉ more)
    (hunit : second = 0x22 → unit = 0x22) :
    Spelled (unit :: text) (first :: second :: (more ++ raw)) := by
  have hlength := h.length
  refine ⟨?_, fun hsame => ?_, fun hmem => ?_⟩
  · simp only [List.length_cons, List.length_append]
    omega
  · simp only [List.length_cons, List.length_append] at hsame
    omega
  · rw [List.idxOf_cons_ne _ hfirst]
    by_cases hquote : unit = 0x22
    · rw [hquote, List.idxOf_cons_self]
      exact Nat.succ_pos _
    · have hsecond : second ≠ 0x22 := fun hsecond => hquote (hunit hsecond)
      have hraw : 0x22 ∈ raw := by
        have hrest := (List.mem_cons.mp hmem).resolve_left (Ne.symm hfirst)
        have hrest := (List.mem_cons.mp hrest).resolve_left (Ne.symm hsecond)
        exact (List.mem_append.mp hrest).resolve_left hmore
      have := h.quote hraw
      rw [List.idxOf_cons_ne _ hquote, List.idxOf_cons_ne _ hsecond, List.idxOf_append,
        if_neg hmore]
      omega

/-- A hexadecimal digit is no quote. -/
theorem quote_not_mem_of_unitOfHex {digits : List CodeUnit} {unit : CodeUnit}
    (h : unitOfHex digits = some unit) : 0x22 ∉ digits := by
  intro hmem
  have hnone : none ∈ digits.map fun digit => hexDigit digit.val :=
    List.mem_map.mpr ⟨0x22, hmem, by decide⟩
  unfold unitOfHex at h
  split at h
  next a b c d hdigits =>
    rw [hdigits] at hnone
    simp at hnone
  next => cases h

/-- What is read was written, up to the closing quote. -/
theorem spelled_of_scanString {text found rest : List CodeUnit}
    (h : scanString text = some (found, rest)) :
    ∃ raw, text = raw ++ 0x22 :: rest ∧ Spelled found raw := by
  fun_induction scanString text generalizing found with
  | case1 => cases h
  | case2 behind =>
      cases h
      exact ⟨[], rfl, .nil⟩
  | case3 => cases h
  | case4 => cases h
  | case5 first second third fourth behind unit hunit _ _ ih =>
      obtain ⟨tail, rfl, hread⟩ := push_eq_some h
      obtain ⟨raw, rfl, hspelled⟩ := ih hread
      exact ⟨0x5C :: 0x75 :: ([first, second, third, fourth] ++ raw), rfl,
        hspelled.escape (by decide) (quote_not_mem_of_unitOfHex hunit) fun h => by cases h⟩
  | case6 => cases h
  | case7 => cases h
  | case8 letter behind _ unit hunit _ _ ih =>
      obtain ⟨tail, rfl, hread⟩ := push_eq_some h
      obtain ⟨raw, rfl, hspelled⟩ := ih hread
      refine ⟨0x5C :: letter :: ([] ++ raw), rfl,
        hspelled.escape (by decide) List.not_mem_nil fun hletter => ?_⟩
      rw [hletter] at hunit
      exact (Option.some.inj hunit).symm
  | case9 => cases h
  | case10 letter behind hquote hcontrol hslash ih =>
      obtain ⟨tail, rfl, hread⟩ := push_eq_some h
      obtain ⟨raw, rfl, hspelled⟩ := ih hread
      exact ⟨letter :: raw, rfl, hspelled.cons hquote hslash hcontrol⟩

theorem scanString_of_plain {text : List CodeUnit} (h : Plain text) (rest : List CodeUnit) :
    scanString (text ++ 0x22 :: rest) = some (text, rest) := by
  induction text with
  | nil => exact scanString_end rest
  | cons unit text ih =>
      obtain ⟨hquote, hslash, hcontrol⟩ := h unit List.mem_cons_self
      rw [List.cons_append, scanString_plain _ (fun heq => hquote (congrArg Fin.val heq))
        (fun heq => hslash (congrArg Fin.val heq)) (Nat.not_lt.mpr hcontrol),
        ih fun c hc => h c (List.mem_cons_of_mem unit hc)]
      rfl

/-- **A text is its own reading** exactly if it is plain, and then it is read up to its own
closing quote. -/
theorem scanString_own_iff {text behind rest : List CodeUnit} :
    scanString (text ++ 0x22 :: behind) = some (text, rest) ↔ Plain text ∧ rest = behind := by
  constructor
  · intro h
    obtain ⟨raw, htext, hspelled⟩ := spelled_of_scanString h
    obtain ⟨more, rfl⟩ : ∃ more, raw = text ++ more :=
      (List.prefix_of_prefix_length_le (List.prefix_append text _)
        (htext ▸ List.prefix_append raw _) hspelled.length).imp fun _ heq => heq.symm
    rw [List.append_assoc, List.append_cancel_left_eq] at htext
    cases more with
    | nil =>
        rw [List.append_nil] at hspelled
        exact ⟨(hspelled.plain rfl).2, ((List.cons.inj htext).2).symm⟩
    | cons quote more =>
        -- more was taken, so the closing quote was read as an escaped one
        obtain ⟨rfl, _⟩ := List.cons.inj htext
        have hless := hspelled.quote (List.mem_append_right text List.mem_cons_self)
        rw [List.idxOf_append] at hless
        split at hless
        next => exact absurd hless (Nat.lt_irrefl _)
        next hmissing =>
          rw [List.idxOf_cons_self, List.idxOf_eq_length hmissing] at hless
          exact absurd hless (by omega)
  · intro h
    rw [h.2]
    exact scanString_of_plain h.1 behind

/-! ## An object -/

/-- `"name":"text"`, as the two stand. -/
def rawMember (entry : List CodeUnit × List CodeUnit) : List CodeUnit :=
  0x22 :: (entry.1 ++ 0x22 :: 0x3A :: 0x22 :: (entry.2 ++ [0x22]))

/-- The members behind the first, and the closing brace. -/
def rawMembers : List (List CodeUnit × List CodeUnit) → List CodeUnit
  | [] => [0x7D]
  | entry :: entries => 0x2C :: (rawMember entry ++ rawMembers entries)

def rawObject : List (List CodeUnit × List CodeUnit) → List CodeUnit
  | [] => [0x7B, 0x7D]
  | entry :: entries => 0x7B :: (rawMember entry ++ rawMembers entries)

/-- The members, as an object has them. -/
def members (entries : List (List CodeUnit × List CodeUnit)) :
    List (List CodeUnit × Value CodeUnit) :=
  entries.map fun entry => (entry.1, .string entry.2)

theorem expect_unit {unit : CodeUnit} {wanted : Nat} (hwanted : 0x20 < wanted)
    (hunit : unit.val = wanted) (text : List CodeUnit) :
    javaScript.expect wanted (unit :: text) = some text :=
  Reader.expect_found javaScript (Reads.isGap_false (hwanted.trans_eq hunit.symm)) hunit text

theorem expect_unit_other {unit : CodeUnit} (hunit : 0x20 < unit.val) {wanted : Nat}
    (hwanted : unit.val ≠ wanted) (text : List CodeUnit) :
    javaScript.expect wanted (unit :: text) = none :=
  Reader.expect_missing javaScript (Reads.isGap_false hunit) hwanted text

/-- A member is read by its text; what follows that decides whether more are. -/
theorem members_rawMember {entry : List CodeUnit × List CodeUnit} (hname : Plain entry.1)
    (fuel : Nat) (tail : List CodeUnit) :
    javaScript.members (fuel + 2) (rawMember entry ++ tail) =
      match scanString (entry.2 ++ 0x22 :: tail) with
      | none => none
      | some (text, rest) =>
          match javaScript.expect 0x2C rest with
          | some rest => (javaScript.members (fuel + 1) rest).map fun read =>
              ((entry.1, .string text) :: read.1, read.2)
          | none => (javaScript.expect 0x7D rest).map fun rest =>
              ([(entry.1, .string text)], rest) := by
  have htext : rawMember entry ++ tail =
      0x22 :: (entry.1 ++ 0x22 :: (0x3A :: 0x22 :: (entry.2 ++ 0x22 :: tail))) := by
    simp [rawMember]
  have hquote : ∀ text, javaScript.expect 0x22 (0x22 :: text) = some text :=
    fun text => @expect_unit 0x22 0x22 (by decide) rfl text
  have hcolon : ∀ text, javaScript.expect 0x3A (0x3A :: text) = some text :=
    fun text => @expect_unit 0x3A 0x3A (by decide) rfl text
  have hscan : javaScript.string
        (entry.1 ++ 0x22 :: (0x3A :: 0x22 :: (entry.2 ++ 0x22 :: tail))) =
      some (entry.1, 0x3A :: 0x22 :: (entry.2 ++ 0x22 :: tail)) := scanString_of_plain hname _
  have hstring : javaScript.string (entry.2 ++ 0x22 :: tail) =
      scanString (entry.2 ++ 0x22 :: tail) := rfl
  rw [htext, Reader.members, hquote, Option.bind_some, hscan]
  simp only []
  rw [hcolon, Option.bind_some, Reader.value, hquote]
  simp only []
  rw [hstring]
  cases scanString (entry.2 ++ 0x22 :: tail) with
  | none => rfl
  | some read =>
      obtain ⟨text, rest⟩ := read
      simp only [Option.map_some]
      cases javaScript.expect 0x2C rest <;> rfl

/-- A plain member is read as what was put there. -/
theorem members_plain {entry : List CodeUnit × List CodeUnit} (hname : Plain entry.1)
    (hplain : Plain entry.2) (fuel : Nat) (tail : List CodeUnit) :
    javaScript.members (fuel + 2) (rawMember entry ++ tail) =
      match javaScript.expect 0x2C tail with
      | some rest => (javaScript.members (fuel + 1) rest).map fun read =>
          ((entry.1, .string entry.2) :: read.1, read.2)
      | none => (javaScript.expect 0x7D tail).map fun rest =>
          ([(entry.1, .string entry.2)], rest) := by
  rw [members_rawMember hname, scanString_of_plain hplain]

/-- What is read as what was put there is plain. -/
theorem plain_of_members {entry : List CodeUnit × List CodeUnit} (hname : Plain entry.1)
    {fuel : Nat} {tail rest : List CodeUnit} {more : List (List CodeUnit × Value CodeUnit)}
    (h : javaScript.members (fuel + 2) (rawMember entry ++ tail) =
      some ((entry.1, .string entry.2) :: more, rest)) : Plain entry.2 := by
  rw [members_rawMember hname] at h
  split at h
  · cases h
  next text behind hscan =>
    have hsame : text = entry.2 := by
      split at h
      · obtain ⟨read, _, hpair⟩ := Option.map_eq_some_iff.mp h
        cases (List.cons.inj (Prod.mk.inj hpair).1).1
        rfl
      · obtain ⟨read, _, hpair⟩ := Option.map_eq_some_iff.mp h
        cases (List.cons.inj (Prod.mk.inj hpair).1).1
        rfl
    rw [hsame] at hscan
    exact (scanString_own_iff.mp hscan).1

/-- **The members are read as what was put there** exactly if each text is plain, and then
up to the closing brace. -/
theorem members_raw_iff {entries : List (List CodeUnit × List CodeUnit)}
    {entry : List CodeUnit × List CodeUnit} {tail rest : List CodeUnit} (fuel : Nat)
    (hnames : ∀ one ∈ entry :: entries, Plain one.1) :
    javaScript.members (fuel + entries.length + 2)
        (rawMember entry ++ (rawMembers entries ++ tail)) =
      some (members (entry :: entries), rest) ↔
    (∀ one ∈ entry :: entries, Plain one.2) ∧ rest = tail := by
  induction entries generalizing entry fuel with
  | nil =>
      have hname := hnames entry List.mem_cons_self
      have hcomma : javaScript.expect 0x2C (0x7D :: tail) = none :=
        expect_unit_other (by decide) (by decide) tail
      have hbrace : javaScript.expect 0x7D (0x7D :: tail) = some tail :=
        @expect_unit 0x7D 0x7D (by decide) rfl tail
      by_cases hplain : Plain entry.2
      · rw [List.length_nil, Nat.add_zero, members_plain hname hplain]
        simp only [rawMembers, List.cons_append, List.nil_append, hcomma, hbrace]
        simp [members, hplain, eq_comm]
      · refine iff_of_false (fun h => hplain ?_) fun h => hplain (h.1 entry List.mem_cons_self)
        exact plain_of_members hname h
  | cons next entries ih =>
      have hname := hnames entry List.mem_cons_self
      have hcomma : javaScript.expect 0x2C
            (0x2C :: (rawMember next ++ (rawMembers entries ++ tail))) =
          some (rawMember next ++ (rawMembers entries ++ tail)) :=
        @expect_unit 0x2C 0x2C (by decide) rfl _
      have hrest := @ih next fuel fun one hone => hnames one (List.mem_cons_of_mem entry hone)
      by_cases hplain : Plain entry.2
      · rw [List.length_cons, show fuel + (entries.length + 1) + 2 =
            (fuel + entries.length + 1) + 2 by omega, members_plain hname hplain, rawMembers,
          List.cons_append, List.append_assoc, hcomma, List.forall_mem_cons, and_assoc,
          and_iff_right hplain, ← hrest]
        simp only []
        cases javaScript.members (fuel + entries.length + 1 + 1)
            (rawMember next ++ (rawMembers entries ++ tail)) with
        | none => simp
        | some read => simp [members, Prod.ext_iff]
      · refine iff_of_false (fun h => hplain ?_) fun h => hplain (h.1 entry List.mem_cons_self)
        exact plain_of_members hname h

theorem length_rawMembers (entries : List (List CodeUnit × List CodeUnit)) :
    entries.length < (rawMembers entries).length := by
  induction entries with
  | nil => exact Nat.zero_lt_one
  | cons entry entries ih =>
      simp only [rawMembers, List.length_cons, List.length_append]
      omega

/-- **The object is read as what was put there** exactly if each text is plain. -/
theorem jsonParse_raw_iff {entry : List CodeUnit × List CodeUnit}
    {entries : List (List CodeUnit × List CodeUnit)}
    (hnames : ∀ one ∈ entry :: entries, Plain one.1) :
    jsonParse (rawObject (entry :: entries)) = some (.object (members (entry :: entries))) ↔
      ∀ one ∈ entry :: entries, Plain one.2 := by
  let text := rawMember entry ++ (rawMembers entries ++ [])
  obtain ⟨fuel, hfuel⟩ : ∃ fuel, 2 * (rawObject (entry :: entries)).length + 2 =
      fuel + entries.length + 2 + 1 := by
    have := length_rawMembers entries
    refine ⟨2 * (rawObject (entry :: entries)).length + 2 - (entries.length + 2 + 1), ?_⟩
    simp only [rawObject, List.length_cons, List.length_append]
    omega
  have hvalue : javaScript.value (fuel + entries.length + 2 + 1) (rawObject (entry :: entries)) =
      (javaScript.members (fuel + entries.length + 2) text).map fun read =>
        (.object read.1, read.2) := by
    have hother : ∀ wanted : Nat, wanted ≠ 0x7B →
        javaScript.expect wanted (rawObject (entry :: entries)) = none :=
      fun wanted hwanted => expect_unit_other (by decide) (fun h => hwanted h.symm) _
    have hbrace : javaScript.expect 0x7B (rawObject (entry :: entries)) = some text := by
      simp only [text, List.append_nil]
      exact @expect_unit 0x7B 0x7B (by decide) rfl _
    have hfirst : javaScript.expect 0x7D text = none :=
      @expect_unit_other 0x22 (by decide) 0x7D (by decide) _
    rw [Reader.value, hother 0x22 (by decide), hother 0x5B (by decide), hbrace]
    simp only []
    rw [hfirst]
  have hmembers := fun rest => @members_raw_iff entries entry [] rest fuel hnames
  rw [jsonParse, Reader.parse, hfuel, hvalue]
  constructor
  · intro h
    cases hread : javaScript.members (fuel + entries.length + 2) text with
    | none => simp [hread] at h
    | some read =>
        rw [hread, Option.map_some] at h
        simp only [Option.ite_none_right_eq_some, Option.some.injEq, Value.object.injEq] at h
        exact ((hmembers read.2).mp (by rw [← h.2]; exact hread)).1
  · intro h
    rw [(hmembers []).mpr ⟨h, rfl⟩]
    rfl

end Json
