import Synthia.Lib.Numeral
import Synthia.Lib.Utf8

/-!
# Query strings

A query string as it arrives, a sequence of bytes, and as an application reads it: cut at
the ampersands and at the first equals sign of each piece, a plus read as a space, the
escapes of a percent sign and two hexadecimal digits read as bytes and those as UTF-8.

Text without a percent sign is read as it stands.
-/

namespace Urlencoded

open Text

/-- Every byte as the character of its number. -/
def latin1 (bytes : List Byte) : List CodePoint :=
  bytes.map fun b => Fin.ofNat 0x110000 b.val

/-- The names and values of the pieces that are not empty. -/
def pairs (query : List CodePoint) : List (List CodePoint × List CodePoint) :=
  ((query.splitOn 0x26).filter fun piece => !piece.isEmpty).map fun piece =>
    (piece.takeWhile (· ≠ 0x3D), (piece.dropWhile (· ≠ 0x3D)).drop 1)

/-- The bytes of a text in ASCII, escapes taken for what they spell. A percent sign without
two digits behind it stands for itself. -/
def unescape : List CodePoint → List Byte
  | [] => []
  | c :: high :: low :: rest =>
      match c == 0x25, hexDigit high.val, hexDigit low.val with
      | true, some first, some second =>
          Fin.ofNat 0x100 (16 * first + second) :: unescape rest
      | _, _, _ => Fin.ofNat 0x100 c.val :: unescape (high :: low :: rest)
  | c :: rest => Fin.ofNat 0x100 c.val :: unescape rest

/-- `unquote`: each run of ASCII on its own, which is held in reverse while it is read. -/
def unquoteFrom : List CodePoint → List CodePoint → List CodePoint
  | run, [] => Utf8.decode (unescape run.reverse)
  | run, c :: rest =>
      if c.val < 0x80 then unquoteFrom (c :: run) rest
      else Utf8.decode (unescape run.reverse) ++ c :: unquoteFrom [] rest

def unquote (text : List CodePoint) : List CodePoint := unquoteFrom [] text

/-- `text.replace("+", " ")`. -/
def plusToSpace (text : List CodePoint) : List CodePoint :=
  text.map fun c => if c = 0x2B then 0x20 else c

def decoded (text : List CodePoint) : List CodePoint := unquote (plusToSpace text)

/-- `parse_qsl(query, keep_blank_values=True)`. -/
def parseQsl (query : List CodePoint) : List (List CodePoint × List CodePoint) :=
  (pairs query).map fun pair => (decoded pair.1, decoded pair.2)

/-! ## Text without escapes -/

theorem unescape_of_notMem {text : List CodePoint} (h : 0x25 ∉ text) :
    unescape text = text.map fun c => Fin.ofNat 0x100 c.val := by
  induction text using unescape.induct with
  | case1 => rfl
  | case2 c high low rest first second hsecond hfirst hpercent ih =>
      rw [beq_iff_eq] at hpercent
      exact absurd (hpercent ▸ List.mem_cons_self) h
  | case3 c high low rest hnone ih =>
      rw [List.mem_cons, not_or] at h
      have hpercent : (c == 0x25) = false := beq_eq_false_iff_ne.mpr (Ne.symm h.1)
      simp only [unescape, hpercent]
      rw [ih h.2]
      rfl
  | case4 c rest hshort ih =>
      rw [List.mem_cons, not_or] at h
      rw [unescape, ih h.2]
      · rfl
      · exact hshort

/-- A text in ASCII is its own bytes. -/
theorem decode_ascii {text : List CodePoint} (h : ∀ c ∈ text, c.val < 0x80) :
    Utf8.decode (text.map fun c => Fin.ofNat 0x100 c.val) = text := by
  have hscalar : WellFormed text := by
    intro c hc
    have := h c hc
    simp only [isScalar, Bool.or_eq_true, decide_eq_true_eq]
    omega
  have hencode : Utf8.encode text = text.map fun c => Fin.ofNat 0x100 c.val := by
    rw [Utf8.encode, List.map_eq_flatMap]
    refine List.flatMap_congr fun c hc => ?_
    rw [Utf8.encodeCodePoint, if_pos (hscalar c hc), Utf8.spell, if_pos (h c hc)]
  rw [← hencode]
  exact Utf8.decode_encode hscalar

/-- A run of ASCII that is held back is read as it stands. -/
theorem decode_run {run : List CodePoint} (hrun : ∀ c ∈ run, c.val < 0x80)
    (hpercent : 0x25 ∉ run) : Utf8.decode (unescape run.reverse) = run.reverse := by
  rw [unescape_of_notMem fun hmem => hpercent (List.mem_reverse.mp hmem)]
  exact decode_ascii fun c hc => hrun c (List.mem_reverse.mp hc)

theorem unquoteFrom_of_notMem {run text : List CodePoint} (hrun : ∀ c ∈ run, c.val < 0x80)
    (hpercent : 0x25 ∉ run) (h : 0x25 ∉ text) :
    unquoteFrom run text = run.reverse ++ text := by
  induction text generalizing run with
  | nil => simp [unquoteFrom, decode_run hrun hpercent]
  | cons c text ih =>
      rw [List.mem_cons, not_or] at h
      rw [unquoteFrom]
      split
      · next hascii =>
          rw [ih (List.forall_mem_cons.mpr ⟨hascii, hrun⟩) (by simp [h.1, hpercent]) h.2]
          simp
      · rw [decode_run hrun hpercent, ih (by simp) (by simp) h.2]
        simp

theorem unquote_of_notMem {text : List CodePoint} (h : 0x25 ∉ text) : unquote text = text := by
  have hread := unquoteFrom_of_notMem (List.forall_mem_nil _) List.not_mem_nil h
  rwa [List.reverse_nil, List.nil_append] at hread

theorem plusToSpace_of_notMem {text : List CodePoint} (h : 0x2B ∉ text) :
    plusToSpace text = text := by
  rw [plusToSpace]
  refine (List.map_congr_left fun c hc => if_neg fun heq => h ?_).trans (List.map_id text)
  rw [← heq]
  exact hc

theorem notMem_plusToSpace {text : List CodePoint} (h : 0x25 ∉ text) :
    0x25 ∉ plusToSpace text := by
  intro hmem
  obtain ⟨c, hc, heq⟩ := List.mem_map.mp hmem
  split at heq
  · cases heq
  · exact h (heq ▸ hc)

end Urlencoded
