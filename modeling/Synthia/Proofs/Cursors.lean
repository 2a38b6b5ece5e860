import Synthia.Api.OpaqueCursor
import Synthia.Proofs.Keys

/-!
# Cursors come back as they were issued

What a position is written as is read back at each level: an identifier's text is its
thirty-two digits in five groups, the payload is cut at its first separator and an
identifier has none, UTF-8 keeps well-formed text, and Base64Url keeps every byte.

A cursor nobody issued is read without an exception, since the slices are taken at a
place of the payload. What it holds is text the UTF-8 reader returned, which is well
formed whatever the bytes were, so the position can be issued in its turn. The cursor
that is then issued need not be the one that was read.
-/

namespace Synthia

open Text

/-! ## Identifiers -/

namespace Guid

/-- The value of digits behind a value. -/
theorem hexValue_hexDigits (width n : Nat) :
    hexValue (hexDigits width n) = some (n % 0x10 ^ width) := by
  have hfold : ∀ value, (hexDigits width n).foldl (fun value c =>
      value.bind fun v => (hexDigit c.val).map fun d => 16 * v + d) (some value) =
        some (value * 0x10 ^ width + n % 0x10 ^ width) := by
    induction width with
    | zero =>
        intro value
        rw [pow_zero, Nat.mod_one, Nat.mul_one]
        rfl
    | succ width ih =>
        intro value
        obtain ⟨_, _, _, _, hdigit⟩ :=
          val_hexChar (n / 0x10 ^ width % 0x10) (Nat.mod_lt _ (by omega))
        rw [hexDigits_succ, List.foldl_cons, Option.bind_some, hdigit, Option.map_some, ih,
          Nat.mod_pow_succ, pow_succ]
        congr 1
        ring
  rw [hexValue, hfold, Nat.zero_mul, Nat.zero_add]

/-- A group behind what is in front of it. -/
theorem group_append {start length : Nat} {front part rest : List CodePoint}
    (hfront : front.length = start) (hpart : part.length = length) :
    group start length (front ++ part ++ rest) = part := by
  rw [group, List.append_assoc, List.drop_left' hfront, List.take_left' hpart]

theorem getElem?_behind {place : Nat} {front rest : List CodePoint} {c : CodePoint}
    (hfront : front.length = place) : (front ++ c :: rest)[place]? = some c := by
  rw [List.getElem?_append_right (by omega), hfront, Nat.sub_self, List.getElem?_cons_zero]

/-- Five groups of digits between hyphens. -/
theorem exactD_groups {a b c d e : List CodePoint} {value : Nat} (ha : a.length = 8)
    (hb : b.length = 4) (hc : c.length = 4) (hd : d.length = 4) (he : e.length = 12)
    (hvalue : hexValue (a ++ b ++ c ++ d ++ e) = some value) :
    exactD (a ++ [0x2D] ++ b ++ [0x2D] ++ c ++ [0x2D] ++ d ++ [0x2D] ++ e) =
      some (BitVec.ofNat 128 value) := by
  generalize htext : a ++ [0x2D] ++ b ++ [0x2D] ++ c ++ [0x2D] ++ d ++ [0x2D] ++ e = text
  have hlength : text.length = 36 := by
    rw [← htext]
    simp [ha, hb, hc, hd, he]
  have hfirst : group 0 8 text = a := by
    have h : text = [] ++ a ++ (0x2D :: (b ++ 0x2D :: (c ++ 0x2D :: (d ++ 0x2D :: e)))) := by
      rw [← htext]
      simp
    rw [h, group_append List.length_nil ha]
  have hsecond : group 9 4 text = b ∧ text[8]? = some 0x2D := by
    have h : text = (a ++ [0x2D]) ++ b ++ (0x2D :: (c ++ 0x2D :: (d ++ 0x2D :: e))) := by
      rw [← htext]
      simp
    refine ⟨by rw [h, group_append (by simp [ha]) hb], ?_⟩
    rw [h, List.append_assoc, List.append_assoc]
    exact getElem?_behind ha
  have hthird : group 14 4 text = c ∧ text[13]? = some 0x2D := by
    have h : text = (a ++ 0x2D :: b ++ [0x2D]) ++ c ++ (0x2D :: (d ++ 0x2D :: e)) := by
      rw [← htext]
      simp
    refine ⟨by rw [h, group_append (by simp [ha, hb]) hc], ?_⟩
    rw [h, List.append_assoc, List.append_assoc]
    exact getElem?_behind (by simp [ha, hb])
  have hfourth : group 19 4 text = d ∧ text[18]? = some 0x2D := by
    have h : text = (a ++ 0x2D :: (b ++ 0x2D :: c) ++ [0x2D]) ++ d ++ (0x2D :: e) := by
      rw [← htext]
      simp
    refine ⟨by rw [h, group_append (by simp [ha, hb, hc]) hd], ?_⟩
    rw [h, List.append_assoc, List.append_assoc]
    exact getElem?_behind (by simp [ha, hb, hc])
  have hfifth : group 24 12 text = e ∧ text[23]? = some 0x2D := by
    have h : text = (a ++ 0x2D :: (b ++ 0x2D :: (c ++ 0x2D :: d)) ++ [0x2D]) ++ e ++ [] := by
      rw [← htext]
      simp
    refine ⟨by rw [h, group_append (by simp [ha, hb, hc, hd]) he], ?_⟩
    rw [h, List.append_assoc, List.append_assoc]
    exact getElem?_behind (by simp [ha, hb, hc, hd])
  have hhyphens : [8, 13, 18, 23].all (fun i => text[i]? == some 0x2D) = true := by
    simp [hsecond.2, hthird.2, hfourth.2, hfifth.2]
  rw [exactD, if_pos ⟨hlength, hhyphens⟩, hfirst, hsecond.1, hthird.1, hfourth.1, hfifth.1]
  simp only [hvalue]

end Guid

/-- The text of an identifier is read as the identifier. -/
theorem Uuid.exactD_toText (id : Uuid) : Guid.exactD id.toText = some id := by
  have hlength := length_hexDigits 32 id.toNat
  have hvalue := Guid.hexValue_hexDigits 32 id.toNat
  rw [Nat.mod_eq_of_lt (by have := id.isLt; omega)] at hvalue
  rw [Uuid.toText_eq]
  generalize hexDigits 32 id.toNat = digits at hlength hvalue
  rw [← Uuid.groups_append digits] at hvalue
  rw [Guid.exactD_groups (by simp [hlength]) (by simp [hlength]) (by simp [hlength])
    (by simp [hlength]) (by simp [hlength]) hvalue, BitVec.ofNat_toNat, BitVec.setWidth_eq]

theorem Uuid.tryParseExactD_toText (id : Uuid) : Guid.tryParseExactD id.toText = some id := by
  have hplain : ∀ c ∈ id.toText, Guid.isWhiteSpace c = false := by
    intro c hc
    have hsmall := Uuid.val_toText hc
    rcases Uuid.mem_toText hc with hhex | hhyphen
    · unfold isHex at hhex
      simp only [Bool.or_eq_true, Bool.and_eq_true, decide_eq_true_eq] at hhex
      simp only [Guid.isWhiteSpace, Bool.or_eq_false_iff, Bool.and_eq_false_iff,
        decide_eq_false_iff_not, beq_eq_false_iff_ne]
      omega
    · rw [hhyphen]
      decide
  rw [Guid.tryParseExactD, stripWhere_self hplain, Uuid.exactD_toText]

/-! ## Payloads -/

theorem Uuid.separator_notMem (id : Uuid) : OpaqueCursor.separator ∉ id.toText := by
  intro hmem
  rcases Uuid.mem_toText hmem with hhex | hhyphen
  · exact absurd hhex (by decide)
  · exact absurd hhyphen (by decide)

theorem Uuid.wellFormed_toText (id : Uuid) : WellFormed id.toText := by
  intro c hc
  have hsmall := Uuid.val_toText hc
  rw [isScalar, Bool.or_eq_true, decide_eq_true_eq]
  exact Or.inl (by omega)

namespace OpaqueCursor

theorem bne_separator {text : List CodePoint} (h : separator ∉ text) :
    ∀ c ∈ text, (c != separator) = true := by
  intro c hc
  rw [bne_iff_ne]
  intro hcs
  rw [hcs] at hc
  exact h hc

/-- A payload is cut at its first separator. -/
theorem ofPayload_behind {front rest : List CodePoint} (h : separator ∉ front) :
    ofPayload (front ++ separator :: rest) =
      if front.isEmpty then none
      else (Guid.tryParseExactD front).map fun id => ⟨rest, id⟩ := by
  have htake : (front ++ separator :: rest).takeWhile (· != separator) = front := by
    rw [List.takeWhile_append_of_pos (bne_separator h), List.takeWhile_cons_of_neg (by simp),
      List.append_nil]
  have hlength : (front.length == (front ++ separator :: rest).length) = false := by
    rw [beq_eq_false_iff_ne, List.length_append, List.length_cons]
    omega
  unfold ofPayload
  dsimp only
  rw [htake, hlength, Bool.or_false, List.drop_length_add_append, List.drop_succ_cons,
    List.drop_zero]

theorem ofPayload_none {payload : List CodePoint} (h : separator ∉ payload) :
    ofPayload payload = none := by
  have htake : payload.takeWhile (· != separator) = payload :=
    List.takeWhile_eq_self_iff.mpr (bne_separator h)
  unfold ofPayload
  dsimp only
  rw [htake, beq_self_eq_true, Bool.or_true, if_pos rfl]

/-- The position a payload is made of. -/
theorem ofPayload_position (position : KeysetAnchor) :
    ofPayload (position.id.toText ++ separator :: position.sortValue) = some position := by
  have hne : position.id.toText.isEmpty = false := by
    rw [List.isEmpty_eq_false_iff, ← List.length_pos_iff, Uuid.length_toText]
    omega
  rw [ofPayload_behind (Uuid.separator_notMem position.id), hne, if_neg Bool.false_ne_true,
    Uuid.tryParseExactD_toText]
  rfl

/-- What is in front of a position's sort value. -/
theorem ofPayload_eq_some {payload : List CodePoint} {position : KeysetAnchor}
    (h : ofPayload payload = some position) :
    ∃ front, payload = front ++ separator :: position.sortValue := by
  by_cases hmem : separator ∈ payload
  · obtain ⟨front, rest, hpayload, hfront⟩ := List.eq_append_cons_of_mem hmem
    rw [hpayload, ofPayload_behind hfront] at h
    split at h
    · cases h
    · obtain ⟨id, _, hposition⟩ := Option.map_eq_some_iff.mp h
      rw [← hposition]
      exact ⟨front, hpayload⟩
  · rw [ofPayload_none hmem] at h
    cases h

theorem tryDecode_eq_some {codec : CursorCodec} {cursor : Option (List CodePoint)}
    {position : KeysetAnchor} (h : tryDecode codec cursor = some (some position)) :
    ∃ payload, codec.decodeFromChars (cursor.getD []) = some payload ∧
      ofPayload payload = some position := by
  unfold tryDecode at h
  split at h
  · cases h
  · obtain ⟨found, hfound, hposition⟩ := Option.map_eq_some_iff.mp h
    injection hposition with hposition
    rw [hposition] at hfound
    exact Option.bind_eq_some_iff.mp hfound

end OpaqueCursor

namespace Api.Paging

/-! ## Slices -/

theorem indexOf_behind {front rest : List CodePoint} {c : CodePoint} (h : c ∉ front) :
    indexOf (front ++ c :: rest) c = front.length := by
  rw [indexOf, if_pos (by simp), List.idxOf_append, if_neg h, List.idxOf_cons_self,
    Nat.zero_add]

theorem indexOf_none {text : List CodePoint} {c : CodePoint} (h : c ∉ text) :
    indexOf text c = -1 := by
  rw [indexOf, if_neg (by simpa using h)]

theorem substring_front (front rest : List CodePoint) :
    substring (front ++ rest) 0 front.length = .ok front := by
  rw [substring, if_neg (by simp only [List.length_append]; omega), Int.toNat_zero,
    List.drop_zero, Int.toNat_natCast, List.take_left]

theorem substring_behind (front rest : List CodePoint) (c : CodePoint) :
    substring (front ++ c :: rest) (front.length + 1)
      ((front ++ c :: rest).length - (front.length + 1)) = .ok rest := by
  have hlength : (front ++ c :: rest).length = front.length + 1 + rest.length := by
    rw [List.length_append, List.length_cons]
    omega
  have hstart : ((front.length : Int) + 1).toNat = front.length + 1 := by omega
  have hrest : ((front.length + 1 + rest.length : Nat) - ((front.length : Int) + 1)).toNat =
      rest.length := by omega
  rw [substring, hlength, if_neg (by omega), hstart, hrest, List.drop_length_add_append,
    List.drop_succ_cons, List.drop_zero, List.take_length]

/-! ## Reading -/

/-- What is returned of what the binder has read. -/
def returned : Option (Option KeysetAnchor) → Bool × Option KeysetAnchor
  | none => (false, none)
  | some position => (true, position)

/-- **The binder's reader is the code's**: nothing is raised, and what is read is the same. -/
theorem tryDecode_eq (cursor : Option (List CodePoint)) :
    OpaqueCursor.tryDecode cursor =
      .ok (returned (Synthia.OpaqueCursor.tryDecode codec cursor)) := by
  unfold OpaqueCursor.tryDecode Synthia.OpaqueCursor.tryDecode
  split
  · rfl
  · dsimp only [codec, decodeFromChars]
    cases Base64Url.decode (cursor.getD []) with
    | none => rfl
    | some decoded =>
        dsimp only [Option.map_some, Option.bind_some]
        by_cases hmem : Synthia.OpaqueCursor.separator ∈ Utf8.decode decoded
        · obtain ⟨front, rest, hpayload, hfront⟩ := List.eq_append_cons_of_mem hmem
          rw [hpayload, indexOf_behind hfront, Synthia.OpaqueCursor.ofPayload_behind hfront]
          cases front with
          | nil => rfl
          | cons c front =>
              rw [if_neg (by simp only [List.length_cons]; omega), substring_front,
                substring_behind, List.isEmpty_cons, if_neg Bool.false_ne_true]
              dsimp only [bind, Except.bind]
              cases Guid.tryParseExactD (c :: front) with
              | none => rfl
              | some id => rfl
        · rw [indexOf_none hmem, Synthia.OpaqueCursor.ofPayload_none hmem]
          rfl

/-! ## The round trip -/

theorem wellFormed_payload {position : KeysetAnchor} (h : WellFormed position.sortValue) :
    WellFormed
      (position.id.toText ++ Synthia.OpaqueCursor.separator :: position.sortValue) := by
  intro c hc
  rcases List.mem_append.mp hc with hc | hc
  · exact Uuid.wellFormed_toText position.id c hc
  · rcases List.mem_cons.mp hc with hc | hc
    · rw [hc]
      decide
    · exact h c hc

/-- A position is read out of the cursor it was issued as. -/
theorem tryDecode_encode {position : KeysetAnchor} (h : WellFormed position.sortValue) :
    OpaqueCursor.tryDecode (some (OpaqueCursor.encode position)) =
      .ok (true, some position) := by
  have hread : codec.decodeFromChars (OpaqueCursor.encode position) =
      some (position.id.toText ++ Synthia.OpaqueCursor.separator :: position.sortValue) := by
    dsimp only [codec, OpaqueCursor.encode]
    rw [Base64Url.decode_encode, Option.map_some, Utf8.decode_encode (wellFormed_payload h)]
  have hpresent : isNullOrEmpty (some (OpaqueCursor.encode position)) = false := by
    rw [isNullOrEmpty, Option.getD_some, List.isEmpty_eq_false_iff]
    intro hempty
    have hnothing : codec.decodeFromChars [] = some [] := rfl
    rw [hempty, hnothing] at hread
    injection hread with hread
    exact List.append_ne_nil_of_right_ne_nil _ (List.cons_ne_nil _ _) hread.symm
  rw [tryDecode_eq, Synthia.OpaqueCursor.tryDecode, hpresent, if_neg Bool.false_ne_true,
    Option.getD_some, hread, Option.bind_some, Synthia.OpaqueCursor.ofPayload_position]
  rfl

/-- A position that is read is one that can be issued. -/
theorem wellFormed_of_tryDecode {cursor : Option (List CodePoint)} {position : KeysetAnchor}
    (h : OpaqueCursor.tryDecode cursor = .ok (true, some position)) :
    WellFormed position.sortValue := by
  rw [tryDecode_eq] at h
  injection h with h
  have hread : Synthia.OpaqueCursor.tryDecode codec cursor = some (some position) := by
    cases hread : Synthia.OpaqueCursor.tryDecode codec cursor with
    | none =>
        rw [hread] at h
        cases h
    | some found =>
        rw [hread] at h
        exact congrArg some (Prod.mk.inj h).2
  obtain ⟨payload, hpayload, hposition⟩ := Synthia.OpaqueCursor.tryDecode_eq_some hread
  obtain ⟨decoded, _, hdecoded⟩ := Option.map_eq_some_iff.mp hpayload
  obtain ⟨front, hfront⟩ := Synthia.OpaqueCursor.ofPayload_eq_some hposition
  have hwell := Utf8.decode_wellFormed decoded
  rw [hdecoded, hfront] at hwell
  exact fun c hc => hwell c (List.mem_append_right front (List.mem_cons_of_mem _ hc))

/-- **A cursor comes back as it was issued.** Every position is read out of the cursor it
was issued as; no cursor raises; and a position that is read out of any cursor comes back
out of the cursor it is then issued as. -/
theorem cursor_comes_back :
    (∀ position, WellFormed position.sortValue →
      OpaqueCursor.tryDecode (some (OpaqueCursor.encode position)) =
        .ok (true, some position)) ∧
    (∀ cursor, ∃ answer, OpaqueCursor.tryDecode cursor = .ok answer) ∧
    ∀ cursor position, OpaqueCursor.tryDecode cursor = .ok (true, some position) →
      OpaqueCursor.tryDecode (some (OpaqueCursor.encode position)) =
        .ok (true, some position) :=
  ⟨fun _ => tryDecode_encode, fun cursor => ⟨_, tryDecode_eq cursor⟩,
    fun _ _ h => tryDecode_encode (wellFormed_of_tryDecode h)⟩

/-- A display name that has the separator in it, twice. -/
def separated : KeysetAnchor where
  sortValue := [0x41, Synthia.OpaqueCursor.separator, 0x20AC, Synthia.OpaqueCursor.separator]
  id := 7

theorem separated_comes_back :
    OpaqueCursor.tryDecode (some (OpaqueCursor.encode separated)) =
        .ok (true, some separated) ∧
      ∃ answer, OpaqueCursor.tryDecode (some (ofString "not a cursor")) = .ok answer := by
  have hwell : WellFormed separated.sortValue :=
    List.all_eq_true.mp (show separated.sortValue.all isScalar = true from rfl)
  exact ⟨cursor_comes_back.1 separated hwell, cursor_comes_back.2.1 _⟩

end Api.Paging

end Synthia
