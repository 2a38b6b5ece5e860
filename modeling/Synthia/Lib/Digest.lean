import Synthia.Lib.Numeral
import Mathlib.Data.Nat.Digits.Lemmas

/-!
# Text that can be taken apart, and digests

Integers in decimal, fields behind a separator and numbers at a fixed width: three
ways of writing that lose nothing, so that what is joined out of them can be told
apart again.

A hash function as a program sees it through `hexdigest`: a text goes in and
hexadecimal digits come out. What is assumed of one is that no two texts collide
and that nothing but digits is written. The length is left open, because no
function into a bounded set of digests has the first property.

Writing a number at a fixed width is the other source of hexadecimal text, and
it loses nothing as long as the number fits.
-/

namespace Text

theorem ofString_injective : Function.Injective ofString := by
  intro a b h
  unfold ofString at h
  rw [← String.toList_inj]
  refine List.map_injective_iff.mpr ?_ h
  intro c d hcd
  have hlt : ∀ e : Char, e.toNat < 0x110000 := by
    intro e
    have := e.valid
    unfold UInt32.isValidChar Nat.isValidChar at this
    show e.val.toNat < _
    omega
  have hval := congrArg Fin.val hcd
  simp only [Fin.ofNat, Nat.mod_eq_of_lt (hlt c), Nat.mod_eq_of_lt (hlt d)] at hval
  exact Char.toNat_inj.mp hval

/-! ## Decimal text and separators -/

theorem toList_toString_ofNat (n : Nat) : (toString (Int.ofNat n)).toList = Nat.toDigits 10 n := by
  show (Nat.repr n).toList = _
  rw [Nat.repr_eq_ofList_toDigits, String.toList_ofList]

theorem toList_toString_negSucc (n : Nat) :
    (toString (Int.negSucc n)).toList = '-' :: Nat.toDigits 10 (n + 1) := by
  show ("-" ++ Nat.repr (n + 1)).toList = _
  rw [Nat.repr_eq_ofList_toDigits, String.toList_append, String.toList_ofList,
    String.toList_ofList]
  rfl

theorem toDigits_injective : Function.Injective (Nat.toDigits 10) := by
  intro a b h
  rw [← @Nat.ofDigitChars_ten_toDigits a, h, Nat.ofDigitChars_ten_toDigits]

theorem not_mem_toDigits {c : Char} (h : c.isDigit = false) (n : Nat) :
    c ∉ Nat.toDigits 10 n := by
  intro hmem
  rw [Nat.isDigit_of_mem_toDigits (by omega) (by omega) hmem] at h
  cases h

/-- `str` of an integer tells integers apart. -/
theorem toString_int_injective : Function.Injective fun n : Int => toString n := by
  intro a b h
  have hlist := congrArg String.toList h
  dsimp only at hlist
  cases a with
  | ofNat a =>
      cases b with
      | ofNat b =>
          rw [toList_toString_ofNat, toList_toString_ofNat] at hlist
          rw [toDigits_injective hlist]
      | negSucc b =>
          rw [toList_toString_ofNat, toList_toString_negSucc] at hlist
          refine absurd ?_ (not_mem_toDigits (show '-'.isDigit = false by decide) a)
          rw [hlist]
          exact List.mem_cons_self
  | negSucc a =>
      cases b with
      | ofNat b =>
          rw [toList_toString_ofNat, toList_toString_negSucc] at hlist
          refine absurd ?_ (not_mem_toDigits (show '-'.isDigit = false by decide) b)
          rw [← hlist]
          exact List.mem_cons_self
      | negSucc b =>
          rw [toList_toString_negSucc, toList_toString_negSucc] at hlist
          injection hlist with _ hlist
          have := toDigits_injective hlist
          rw [show a = b by omega]

/-- Behind the last separator nothing is lost, and so nothing in front of it. -/
theorem append_separator_inj {α : Type} {separator : α} {a b x y : List α}
    (hx : separator ∉ x) (hy : separator ∉ y)
    (h : a ++ separator :: x = b ++ separator :: y) : a = b ∧ x = y := by
  rcases List.append_eq_append_iff.mp h with ⟨c, hb, hc⟩ | ⟨c, ha, hc⟩
  · cases c with
    | nil =>
        injection hc with _ hxy
        rw [hb, List.append_nil]
        exact ⟨rfl, hxy⟩
    | cons d c =>
        injection hc with _ hxy
        refine absurd ?_ hx
        rw [hxy]
        exact List.mem_append.mpr (Or.inr List.mem_cons_self)
  · cases c with
    | nil =>
        injection hc with _ hxy
        rw [ha, List.append_nil]
        exact ⟨rfl, hxy.symm⟩
    | cons d c =>
        injection hc with _ hxy
        refine absurd ?_ hy
        rw [hxy]
        exact List.mem_append.mpr (Or.inr List.mem_cons_self)
/-! ## Hexadecimal text -/

/-- A lower-case hexadecimal digit. -/
def isHex (c : CodePoint) : Bool :=
  (0x30 ≤ c.val && c.val ≤ 0x39) || (0x61 ≤ c.val && c.val ≤ 0x66)

theorem isHex_hexChar : ∀ digit < 0x10, isHex (hexChar digit) = true := by decide

theorem hexChar_inj : ∀ a < 0x10, ∀ b < 0x10, hexChar a = hexChar b → a = b := by decide

/-- The last `width` hexadecimal digits of a number. -/
def hexDigits (width n : Nat) : List CodePoint :=
  (List.range width).map fun i => hexChar (n / 0x10 ^ (width - 1 - i) % 0x10)

@[simp] theorem length_hexDigits (width n : Nat) : (hexDigits width n).length = width := by
  rw [hexDigits, List.length_map, List.length_range]

theorem isHex_of_mem_hexDigits {width n : Nat} {c : CodePoint} (h : c ∈ hexDigits width n) :
    isHex c = true := by
  obtain ⟨i, _, rfl⟩ := List.mem_map.mp h
  exact isHex_hexChar _ (Nat.mod_lt _ (by omega))

/-- Two numbers that agree in their last digits agree up to the width. -/
theorem mod_eq_of_digits {a b : Nat} : ∀ width,
    (∀ i < width, a / 0x10 ^ i % 0x10 = b / 0x10 ^ i % 0x10) →
      a % 0x10 ^ width = b % 0x10 ^ width := by
  intro width
  induction width with
  | zero => intro _; rw [pow_zero, Nat.mod_one, Nat.mod_one]
  | succ width ih =>
      intro h
      have hlow := ih fun i hi => h i (by omega)
      have hhigh := h width (by omega)
      rw [Nat.mod_pow_succ, Nat.mod_pow_succ, hlow, hhigh]

theorem hexDigits_inj {width a b : Nat} (ha : a < 0x10 ^ width) (hb : b < 0x10 ^ width)
    (h : hexDigits width a = hexDigits width b) : a = b := by
  rw [← Nat.mod_eq_of_lt ha, ← Nat.mod_eq_of_lt hb]
  apply mod_eq_of_digits
  intro i hi
  have hmap := List.map_inj_left.mp h (width - 1 - i) (List.mem_range.mpr (by omega))
  rw [show width - 1 - (width - 1 - i) = i by omega] at hmap
  exact hexChar_inj _ (Nat.mod_lt _ (by omega)) _ (Nat.mod_lt _ (by omega)) hmap

theorem hexDigits_succ (width n : Nat) :
    hexDigits (width + 1) n = hexChar (n / 0x10 ^ width % 0x10) :: hexDigits width n := by
  rw [hexDigits, List.range_succ_eq_map, List.map_cons, List.map_map]
  congr 1
  refine List.map_congr_left fun i _ => ?_
  rw [Function.comp_apply, show width + 1 - 1 - i.succ = width - 1 - i by omega]

theorem val_hexChar : ∀ digit < 0x10, 0x30 ≤ (hexChar digit).val ∧ (hexChar digit).val < 0x67 ∧
    (hexChar digit).val ≠ 0x58 ∧ (hexChar digit).val ≠ 0x5F ∧
    hexDigit (hexChar digit).val = some digit := by
  decide

/-- Digits are read back one by one. -/
theorem scanHex_hexDigits (width value n : Nat) :
    scanHex false value ((hexDigits width n).map Fin.val) =
      some (value * 0x10 ^ width + n % 0x10 ^ width, []) := by
  induction width generalizing value with
  | zero =>
      rw [pow_zero, Nat.mod_one, Nat.mul_one]
      rfl
  | succ width ih =>
      obtain ⟨_, _, _, hunderscore, hdigit⟩ :=
        val_hexChar (n / 0x10 ^ width % 0x10) (Nat.mod_lt _ (by omega))
      rw [hexDigits_succ, List.map_cons, scanHex, beq_eq_false_iff_ne.mpr hunderscore, hdigit]
      simp only [Bool.false_eq_true, if_false]
      rw [ih, Nat.mod_pow_succ, pow_succ]
      congr 2
      ring

theorem readSign_self {c : Nat} (hplus : c ≠ 0x2B) (hminus : c ≠ 0x2D) (rest : List Nat) :
    readSign (c :: rest) = (1, c :: rest) := by
  unfold readSign
  split
  · next h => exact absurd (List.cons.inj h).1 hplus
  · next h => exact absurd (List.cons.inj h).1 hminus
  · rfl

theorem readRadix_self {text : List Nat} (h : ∀ c ∈ text, c ≠ 0x78 ∧ c ≠ 0x58) :
    readRadix text = text := by
  unfold readRadix
  split
  · next x rest =>
      obtain ⟨hlower, hupper⟩ := h x (List.mem_cons_of_mem _ List.mem_cons_self)
      rw [if_neg]
      rw [Bool.or_eq_true, beq_iff_eq, beq_iff_eq]
      exact fun hx => hx.elim hlower hupper
  · rfl

theorem toAsciiNumeral_hexDigits (width n : Nat) :
    (hexDigits width n).map toAsciiNumeral = (hexDigits width n).map Fin.val := by
  refine List.map_congr_left fun c hc => ?_
  obtain ⟨i, _, rfl⟩ := List.mem_map.mp hc
  obtain ⟨_, hsmall, _⟩ := val_hexChar (n / 0x10 ^ (width - 1 - i) % 0x10)
    (Nat.mod_lt _ (by omega))
  exact if_pos (by omega)

/-- A number's digits, at least one of them, read as the number. -/
theorem intBase16_hexDigits (width n : Nat) :
    intBase16 (hexDigits (width + 1) n) = some ((n % 0x10 ^ (width + 1) : Nat) : Int) := by
  obtain ⟨hlarge, hsmall, _, hunderscore, _⟩ :=
    val_hexChar (n / 0x10 ^ width % 0x10) (Nat.mod_lt _ (by omega))
  have hread := scanHex_hexDigits (width + 1) 0 n
  have hradix : readRadix ((hexDigits (width + 1) n).map Fin.val) =
      (hexDigits (width + 1) n).map Fin.val := by
    refine readRadix_self fun c hc => ?_
    obtain ⟨d, hd, rfl⟩ := List.mem_map.mp hc
    obtain ⟨i, _, rfl⟩ := List.mem_map.mp hd
    obtain ⟨_, hbound, hupper, _⟩ := val_hexChar (n / 0x10 ^ (width + 1 - 1 - i) % 0x10)
      (Nat.mod_lt _ (by omega))
    exact ⟨by omega, hupper⟩
  have hlength : ((hexDigits (width + 1) n).map Fin.val).length = width + 1 := by
    rw [List.length_map, length_hexDigits]
  rw [intBase16, toAsciiNumeral_hexDigits]
  have hcons : (hexDigits (width + 1) n).map Fin.val =
      (hexChar (n / 0x10 ^ width % 0x10)).val :: (hexDigits width n).map Fin.val := by
    rw [hexDigits_succ, List.map_cons]
  have hdrop : ((hexDigits (width + 1) n).map Fin.val).dropWhile asciiSpace =
      (hexDigits (width + 1) n).map Fin.val := by
    rw [hcons]
    refine List.dropWhile_cons_of_neg ?_
    simp only [asciiSpace, Bool.or_eq_true, Bool.and_eq_true, decide_eq_true_eq, beq_iff_eq]
    omega
  have hsign : readSign ((hexDigits (width + 1) n).map Fin.val) =
      (1, (hexDigits (width + 1) n).map Fin.val) := by
    rw [hcons]
    exact readSign_self (by omega) (by omega) _
  have hhead : (((hexDigits (width + 1) n).map Fin.val).head? == some 0x5F) = false := by
    rw [hcons, List.head?_cons, beq_eq_false_iff_ne]
    exact fun h => hunderscore (Option.some.inj h)
  rw [hdrop, hsign]
  simp only [hradix, hhead, hread, hlength, Bool.false_eq_true, if_false]
  rw [Nat.zero_mul, Nat.zero_add]
  simp

/-! ## Digests -/

/-- What is assumed of a hash function and the text of its digests. -/
structure Digest (hash : List CodePoint → List CodePoint) : Prop where
  injective : Function.Injective hash
  hex : ∀ text, ∀ c ∈ hash text, isHex c = true

/-! ## A digest that exists -/

/-- Every code point in six digits: injective, and longer than a digest would
be. -/
def spellHex (text : List CodePoint) : List CodePoint :=
  text.flatMap fun c => hexDigits 6 c.val

theorem length_spellHex (text : List CodePoint) : (spellHex text).length = 6 * text.length := by
  induction text with
  | nil => rfl
  | cons c text ih =>
      show (hexDigits 6 c.val ++ spellHex text).length = _
      rw [List.length_append, length_hexDigits, ih, List.length_cons]
      omega

theorem spellHex_injective : Function.Injective spellHex := by
  intro a
  induction a with
  | nil =>
      intro b h
      have hlength := congrArg List.length h
      rw [length_spellHex, length_spellHex, List.length_nil] at hlength
      exact (List.length_eq_zero_iff.mp (by omega)).symm
  | cons c text ih =>
      intro b h
      cases b with
      | nil =>
          have hlength := congrArg List.length h
          rw [length_spellHex, length_spellHex, List.length_nil, List.length_cons] at hlength
          omega
      | cons d other =>
          have hsplit : hexDigits 6 c.val ++ spellHex text =
              hexDigits 6 d.val ++ spellHex other := h
          obtain ⟨hhead, htail⟩ := List.append_inj hsplit (by
            rw [length_hexDigits, length_hexDigits])
          have hc := c.isLt
          have hd := d.isLt
          rw [ih htail, Fin.ext (hexDigits_inj (by omega) (by omega) hhead)]

/-- The digests of a few texts, and every other text spelt out. -/
def tabulated (known : List (List CodePoint × List CodePoint)) (text : List CodePoint) :
    List CodePoint :=
  ((known.find? fun entry => entry.1 == text).map Prod.snd).getD (spellHex text)

/-- A table of digests no text is spelt like is a digest. -/
theorem digest_tabulated {known : List (List CodePoint × List CodePoint)}
    (hlength : ∀ entry ∈ known, entry.2.length % 6 ≠ 0)
    (hhex : (known.all fun entry => entry.2.all isHex) = true)
    (hdistinct : (known.map Prod.snd).Nodup) : Digest (tabulated known) where
  injective := by
    have hcases : ∀ text,
        (∃ entry ∈ known, entry.1 = text ∧ tabulated known text = entry.2) ∨
          tabulated known text = spellHex text := by
      intro text
      unfold tabulated
      cases hfound : known.find? fun entry => entry.1 == text with
      | none => exact Or.inr rfl
      | some entry =>
          refine Or.inl ⟨entry, List.mem_of_find?_eq_some hfound, ?_, rfl⟩
          simpa using List.find?_some hfound
    have hspelt : ∀ entry ∈ known, ∀ text, entry.2 ≠ spellHex text := by
      intro entry hentry text hsame
      apply hlength entry hentry
      rw [hsame, length_spellHex]
      omega
    intro a b h
    rcases hcases a with ⟨entry, hentry, rfl, ha⟩ | ha
    · rcases hcases b with ⟨other, hother, rfl, hb⟩ | hb
      · rw [ha, hb] at h
        rw [List.inj_on_of_nodup_map hdistinct hentry hother h]
      · rw [ha, hb] at h
        exact absurd h (hspelt entry hentry b)
    · rcases hcases b with ⟨other, hother, rfl, hb⟩ | hb
      · rw [ha, hb] at h
        exact absurd h.symm (hspelt other hother a)
      · rw [ha, hb] at h
        exact spellHex_injective h
  hex := by
    intro text c hc
    unfold tabulated at hc
    cases hfound : known.find? fun entry => entry.1 == text with
    | none =>
        rw [hfound] at hc
        obtain ⟨d, _, hd⟩ := List.mem_flatMap.mp hc
        exact isHex_of_mem_hexDigits hd
    | some entry =>
        rw [hfound] at hc
        have hall := List.all_eq_true.mp hhex entry (List.mem_of_find?_eq_some hfound)
        exact List.all_eq_true.mp hall c hc

end Text
