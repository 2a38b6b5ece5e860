import Synthia.Lib.Utf8

/-!
# Bytes in a URL

Base64 in the alphabet of URLs, as .NET writes and reads it. Three bytes are four
numbers of six bits, and a number is a symbol; what is left at the end is written
without padding. The reader passes over white space, takes the padding that would
complete the last group, and does not look at the bits a last symbol has to spare, so
many texts are read as the same bytes and only one of them is what those bytes are
written as.
-/

namespace Text

namespace Base64Url

/-! ## Symbols -/

/-- The symbol of a number below 64. -/
def symbol (n : Nat) : CodePoint :=
  if n < 26 then Fin.ofNat 0x110000 (0x41 + n)
  else if n < 52 then Fin.ofNat 0x110000 (0x61 + (n - 26))
  else if n < 62 then Fin.ofNat 0x110000 (0x30 + (n - 52))
  else if n = 62 then 0x2D
  else 0x5F

def number (c : CodePoint) : Option Nat :=
  if 0x41 ≤ c.val ∧ c.val ≤ 0x5A then some (c.val - 0x41)
  else if 0x61 ≤ c.val ∧ c.val ≤ 0x7A then some (c.val - 0x61 + 26)
  else if 0x30 ≤ c.val ∧ c.val ≤ 0x39 then some (c.val - 0x30 + 52)
  else if c = 0x2D then some 62
  else if c = 0x5F then some 63
  else none

def isBlank (c : CodePoint) : Bool := c == 0x20 || c == 0x09 || c == 0x0D || c == 0x0A

/-- Padding, as it is or as a URL may have it. -/
def isPadding (c : CodePoint) : Bool := c == 0x3D || c == 0x25

/-! ## Groups -/

/-- The numbers of six bits a sequence of bytes is cut into. -/
def sextets : List Byte → List Nat
  | [] => []
  | [a] => [a.val / 4, a.val % 4 * 16]
  | [a, b] => [a.val / 4, a.val % 4 * 16 + b.val / 16, b.val % 16 * 4]
  | a :: b :: c :: rest =>
      [a.val / 4, a.val % 4 * 16 + b.val / 16, b.val % 16 * 4 + c.val / 64, c.val % 64] ++
        sextets rest

def byte (n : Nat) : Byte := Fin.ofNat 0x100 n

/-- The bytes of such numbers. One number alone is less than a byte. -/
def bytes : List Nat → Option (List Byte)
  | [] => some []
  | [_] => none
  | [a, b] => some [byte (a * 4 + b / 16)]
  | [a, b, c] => some [byte (a * 4 + b / 16), byte (b % 16 * 16 + c / 4)]
  | a :: b :: c :: d :: rest =>
      (bytes rest).map fun more =>
        byte (a * 4 + b / 16) :: byte (b % 16 * 16 + c / 4) :: byte (c % 4 * 64 + d) :: more

def encode (data : List Byte) : List CodePoint := (sextets data).map symbol

def decode (text : List CodePoint) : Option (List Byte) :=
  let text := text.filter fun c => !isBlank c
  let symbols := text.rdropWhile isPadding
  if text.length ≤ (symbols.length + 3) / 4 * 4 then (symbols.mapM number).bind bytes else none

/-! ## What is written is read -/

theorem number_symbol : ∀ n < 64, number (symbol n) = some n := by decide

theorem symbol_plain : ∀ n < 64, isBlank (symbol n) = false ∧ isPadding (symbol n) = false := by
  decide

theorem sextets_lt {data : List Byte} {n : Nat} (h : n ∈ sextets data) : n < 64 := by
  induction data using sextets.induct with
  | case1 => cases h
  | case2 a =>
      simp only [sextets, List.mem_cons, List.not_mem_nil, or_false] at h
      omega
  | case3 a b =>
      simp only [sextets, List.mem_cons, List.not_mem_nil, or_false] at h
      omega
  | case4 a b c rest ih =>
      simp only [sextets, List.mem_append, List.mem_cons, List.not_mem_nil, or_false] at h
      rcases h with h | h
      · omega
      · exact ih h

theorem byte_val {b : Byte} {n : Nat} (h : n = b.val) : byte n = b := by
  rw [h]
  exact Fin.ext (Nat.mod_eq_of_lt b.isLt)

theorem bytes_sextets (data : List Byte) : bytes (sextets data) = some data := by
  induction data using sextets.induct with
  | case1 => rfl
  | case2 a =>
      rw [sextets, bytes, byte_val (b := a) (by omega)]
  | case3 a b =>
      rw [sextets, bytes, byte_val (b := a) (by omega), byte_val (b := b) (by omega)]
  | case4 a b c rest ih =>
      rw [sextets, List.cons_append, List.cons_append, List.cons_append, List.cons_append,
        List.nil_append, bytes, ih, byte_val (b := a) (by omega), byte_val (b := b) (by omega),
        byte_val (b := c) (by omega)]
      rfl

theorem mapM_number {numbers : List Nat} (h : ∀ n ∈ numbers, n < 64) :
    (numbers.map symbol).mapM number = some numbers := by
  induction numbers with
  | nil => rfl
  | cons n numbers ih =>
      rw [List.map_cons, List.mapM_cons, number_symbol n (h n List.mem_cons_self),
        ih fun m hm => h m (List.mem_cons_of_mem n hm)]
      rfl

/-- Nothing that is written is passed over. -/
theorem encode_plain {data : List Byte} {c : CodePoint} (h : c ∈ encode data) :
    isBlank c = false ∧ isPadding c = false := by
  obtain ⟨n, hn, hc⟩ := List.mem_map.mp h
  rw [← hc]
  exact symbol_plain n (sextets_lt hn)

theorem decode_encode (data : List Byte) : decode (encode data) = some data := by
  have hfilter : (encode data).filter (fun c => !isBlank c) = encode data := by
    refine List.filter_eq_self.mpr fun c hc => ?_
    rw [(encode_plain hc).1]
    rfl
  have hpadding : (encode data).rdropWhile isPadding = encode data := by
    refine List.rdropWhile_eq_self_iff.mpr fun hne hlast => ?_
    rw [(encode_plain (List.getLast_mem hne)).2] at hlast
    cases hlast
  unfold decode
  dsimp only
  rw [hfilter, hpadding, if_pos (by omega), encode, mapM_number fun n hn => sextets_lt hn]
  exact bytes_sextets data

/-- Two texts that are read as the same byte. -/
example : decode [0x59, 0x51] = some [0x61] ∧ decode [0x59, 0x52, 0x3D, 0x20, 0x3D] =
    some [0x61] := by
  decide +kernel

end Base64Url

end Text
