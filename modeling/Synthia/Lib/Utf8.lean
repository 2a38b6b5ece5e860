import Synthia.Lib.Text

/-!
# Text as bytes

UTF-8, one way and the other. A reader that must not fail puts U+FFFD in place of
what spells nothing, once for every longest beginning of a character, so what it
returns is always a sequence of scalar values, whatever it was given.

The reader takes a byte at a time. Between two bytes it holds the number it has put
together, how many bytes are owed, and what the next of them may be. The numbers a
character can still become are an interval, and the bounds on the next byte keep the
surrogates, the numbers past U+10FFFF and the longer spellings out of it. A byte that
is taken narrows the interval; that is all there is to say of the reader's output.
-/

namespace Text

abbrev Byte := Fin 0x100

instance neZero_byte : NeZero 0x100 := ⟨by decide⟩

/-- A code point that is no half of a surrogate pair. -/
def isScalar (c : CodePoint) : Bool := c.val < 0xD800 || 0xE000 ≤ c.val

/-- Text as Unicode has it, without lone surrogates. -/
def WellFormed (text : List CodePoint) : Prop := ∀ c ∈ text, isScalar c = true

namespace Utf8

/-! ## Writing -/

/-- A byte behind the first. -/
def tail (n : Nat) : Byte := Fin.ofNat 0x100 (0x80 + n % 0x40)

def spell (n : Nat) : List Byte :=
  if n < 0x80 then [Fin.ofNat 0x100 n]
  else if n < 0x800 then [Fin.ofNat 0x100 (0xC0 + n / 0x40), tail n]
  else if n < 0x10000 then
    [Fin.ofNat 0x100 (0xE0 + n / 0x1000), tail (n / 0x40), tail n]
  else
    [Fin.ofNat 0x100 (0xF0 + n / 0x40000), tail (n / 0x1000), tail (n / 0x40), tail n]

/-- What stands for what cannot be written or read. -/
def substitute : CodePoint := 0xFFFD

def encodeCodePoint (c : CodePoint) : List Byte :=
  spell (if isScalar c then c.val else substitute.val)

def encode (text : List CodePoint) : List Byte := text.flatMap encodeCodePoint

/-! ## Reading -/

/-- A character of which bytes are owed. -/
structure Pending where
  value : Nat
  owed : Nat
  low : Nat
  high : Nat

/-- The least second byte behind a first one. -/
def lowest (first : Nat) : Nat :=
  if first = 0xE0 then 0xA0 else if first = 0xF0 then 0x90 else 0x80

/-- The greatest second byte behind a first one. -/
def highest (first : Nat) : Nat :=
  if first = 0xED then 0x9F else if first = 0xF4 then 0x8F else 0xBF

/-- A byte between characters: what is read, and what is pending. -/
def start (b : Byte) : List CodePoint × Option Pending :=
  if b.val < 0x80 then ([Fin.ofNat 0x110000 b.val], none)
  else if b.val < 0xC2 then ([substitute], none)
  else if b.val < 0xE0 then ([], some ⟨b.val - 0xC0, 1, 0x80, 0xBF⟩)
  else if b.val < 0xF0 then ([], some ⟨b.val - 0xE0, 2, lowest b.val, highest b.val⟩)
  else if b.val < 0xF5 then ([], some ⟨b.val - 0xF0, 3, lowest b.val, highest b.val⟩)
  else ([substitute], none)

def Pending.joined (pending : Pending) (b : Byte) : Nat :=
  pending.value * 0x40 + (b.val - 0x80)

/-- A byte that is owed. -/
def Pending.take (pending : Pending) (b : Byte) : List CodePoint × Option Pending :=
  if pending.owed ≤ 1 then ([Fin.ofNat 0x110000 (pending.joined b)], none)
  else ([], some ⟨pending.joined b, pending.owed - 1, 0x80, 0xBF⟩)

/-- A byte that is not the one owed begins the next character. -/
def step (pending : Option Pending) (b : Byte) : List CodePoint × Option Pending :=
  match pending with
  | none => start b
  | some pending =>
      if pending.low ≤ b.val ∧ b.val ≤ pending.high then pending.take b
      else (substitute :: (start b).1, (start b).2)

def decodeFrom : Option Pending → List Byte → List CodePoint
  | none, [] => []
  | some _, [] => [substitute]
  | pending, b :: rest => (step pending b).1 ++ decodeFrom (step pending b).2 rest

def decode (bytes : List Byte) : List CodePoint := decodeFrom none bytes

/-! ## What is written is read -/

theorem val_ofNat {n : Nat} (h : n < 0x100) : (Fin.ofNat 0x100 n : Byte).val = n :=
  Nat.mod_eq_of_lt h

theorem val_tail (n : Nat) : (tail n).val = 0x80 + n % 0x40 :=
  val_ofNat (by omega)

theorem start_single {n : Nat} (h : n < 0x80) :
    start (Fin.ofNat 0x100 n) = ([Fin.ofNat 0x110000 n], none) := by
  rw [start, val_ofNat (by omega), if_pos h]

theorem start_pair {n : Nat} (hlow : 0x80 ≤ n) (hhigh : n < 0x800) :
    start (Fin.ofNat 0x100 (0xC0 + n / 0x40)) = ([], some ⟨n / 0x40, 1, 0x80, 0xBF⟩) := by
  rw [start, val_ofNat (by omega), if_neg (by omega), if_neg (by omega), if_pos (by omega),
    Nat.add_sub_cancel_left]

theorem start_triple {n : Nat} (h : n < 0x10000) :
    start (Fin.ofNat 0x100 (0xE0 + n / 0x1000)) =
      ([], some ⟨n / 0x1000, 2, lowest (0xE0 + n / 0x1000), highest (0xE0 + n / 0x1000)⟩) := by
  rw [start, val_ofNat (by omega), if_neg (by omega), if_neg (by omega), if_neg (by omega),
    if_pos (by omega), Nat.add_sub_cancel_left]

theorem start_quadruple {n : Nat} (h : n < 0x110000) :
    start (Fin.ofNat 0x100 (0xF0 + n / 0x40000)) =
      ([], some ⟨n / 0x40000, 3, lowest (0xF0 + n / 0x40000),
        highest (0xF0 + n / 0x40000)⟩) := by
  rw [start, val_ofNat (by omega), if_neg (by omega), if_neg (by omega), if_neg (by omega),
    if_neg (by omega), if_pos (by omega), Nat.add_sub_cancel_left]

theorem joined_tail (pending : Pending) (n : Nat) :
    pending.joined (tail n) = pending.value * 0x40 + n % 0x40 := by
  unfold Pending.joined
  rw [val_tail, Nat.add_sub_cancel_left]

/-- A byte that is owed, with more of them behind it. -/
theorem decodeFrom_tail {value owed low high n : Nat} {rest : List Byte}
    (hlow : low ≤ 0x80 + n % 0x40) (hhigh : 0x80 + n % 0x40 ≤ high) :
    decodeFrom (some ⟨value, owed + 2, low, high⟩) (tail n :: rest) =
      decodeFrom (some ⟨value * 0x40 + n % 0x40, owed + 1, 0x80, 0xBF⟩) rest := by
  have howed : ¬ owed + 2 ≤ 1 := by omega
  have hstep : step (some ⟨value, owed + 2, low, high⟩) (tail n) =
      ([], some ⟨value * 0x40 + n % 0x40, owed + 1, 0x80, 0xBF⟩) := by
    simp only [step, val_tail, hlow, hhigh, and_self, if_true, Pending.take, howed, if_false,
      joined_tail, Nat.add_sub_cancel (n := owed + 1) (m := 1)]
  rw [decodeFrom, hstep, List.nil_append]

/-- The last byte that is owed. -/
theorem decodeFrom_last {value low high n : Nat} {rest : List Byte}
    (hlow : low ≤ 0x80 + n % 0x40) (hhigh : 0x80 + n % 0x40 ≤ high) :
    decodeFrom (some ⟨value, 1, low, high⟩) (tail n :: rest) =
      Fin.ofNat 0x110000 (value * 0x40 + n % 0x40) :: decodeFrom none rest := by
  have hstep : step (some ⟨value, 1, low, high⟩) (tail n) =
      ([Fin.ofNat 0x110000 (value * 0x40 + n % 0x40)], none) := by
    simp only [step, val_tail, hlow, hhigh, and_self, if_true, Pending.take, Nat.le_refl,
      joined_tail]
  rw [decodeFrom, hstep, List.singleton_append]

/-- The second byte of a scalar value is within the bounds its first one sets. -/
theorem triple_bounds {n : Nat} (hlow : 0x800 ≤ n) (hhigh : n < 0x10000)
    (hscalar : n < 0xD800 ∨ 0xE000 ≤ n) :
    lowest (0xE0 + n / 0x1000) ≤ 0x80 + n / 0x40 % 0x40 ∧
      0x80 + n / 0x40 % 0x40 ≤ highest (0xE0 + n / 0x1000) := by
  unfold lowest highest
  constructor
  · split
    · omega
    · rw [if_neg (by omega)]
      omega
  · split
    · omega
    · rw [if_neg (by omega)]
      omega

theorem quadruple_bounds {n : Nat} (hlow : 0x10000 ≤ n) (hhigh : n < 0x110000) :
    lowest (0xF0 + n / 0x40000) ≤ 0x80 + n / 0x1000 % 0x40 ∧
      0x80 + n / 0x1000 % 0x40 ≤ highest (0xF0 + n / 0x40000) := by
  unfold lowest highest
  constructor
  · rw [if_neg (by omega)]
    split <;> omega
  · rw [if_neg (by omega)]
    split <;> omega

theorem decodeFrom_spell {n : Nat} (h : n < 0x110000) (hscalar : n < 0xD800 ∨ 0xE000 ≤ n)
    (rest : List Byte) :
    decodeFrom none (spell n ++ rest) = Fin.ofNat 0x110000 n :: decodeFrom none rest := by
  unfold spell
  split
  · next hsingle =>
      rw [List.cons_append, decodeFrom, step, start_single hsingle]
      rfl
  · next hpair =>
      split
      · next hlt =>
          rw [List.cons_append, decodeFrom, step, start_pair (by omega) hlt, List.nil_append,
            List.cons_append, decodeFrom_last (by omega) (by omega),
            show n / 0x40 * 0x40 + n % 0x40 = n by omega]
          rfl
      · next htriple =>
          split
          · next hlt =>
              obtain ⟨hlow, hhigh⟩ := triple_bounds (by omega) hlt hscalar
              rw [List.cons_append, decodeFrom, step, start_triple hlt, List.nil_append,
                List.cons_append, decodeFrom_tail hlow hhigh, List.cons_append,
                decodeFrom_last (by omega) (by omega),
                show (n / 0x1000 * 0x40 + n / 0x40 % 0x40) * 0x40 + n % 0x40 = n by omega]
              rfl
          · next hquadruple =>
              obtain ⟨hlow, hhigh⟩ := quadruple_bounds (by omega) h
              have hvalue : ((n / 0x40000 * 0x40 + n / 0x1000 % 0x40) * 0x40 +
                  n / 0x40 % 0x40) * 0x40 + n % 0x40 = n := by omega
              rw [List.cons_append, decodeFrom, step, start_quadruple h, List.nil_append,
                List.cons_append, decodeFrom_tail hlow hhigh, List.cons_append,
                decodeFrom_tail (by omega) (by omega), List.cons_append,
                decodeFrom_last (by omega) (by omega), hvalue]
              rfl

/-- Text as Unicode has it is read back. -/
theorem decode_encode {text : List CodePoint} (h : WellFormed text) :
    decode (encode text) = text := by
  unfold decode encode
  induction text with
  | nil => rfl
  | cons c text ih =>
      have hscalar := h c List.mem_cons_self
      have hrange : c.val < 0xD800 ∨ 0xE000 ≤ c.val := by
        rw [isScalar, Bool.or_eq_true, decide_eq_true_eq, decide_eq_true_eq] at hscalar
        exact hscalar
      rw [List.flatMap_cons, encodeCodePoint, if_pos hscalar, decodeFrom_spell c.isLt hrange,
        ih fun d hd => h d (List.mem_cons_of_mem c hd)]
      exact congrArg (· :: text) (Fin.ext (Nat.mod_eq_of_lt c.isLt))

/-! ## What is read is text -/

/-- The least number a character can still become. -/
def Pending.least (pending : Pending) : Nat :=
  (pending.value * 0x40 + (pending.low - 0x80)) * 0x40 ^ (pending.owed - 1)

/-- One past the greatest. -/
def Pending.limit (pending : Pending) : Nat :=
  (pending.value * 0x40 + (pending.high - 0x80) + 1) * 0x40 ^ (pending.owed - 1)

/-- Whatever the bytes that are owed, the character is a scalar value. -/
structure Pending.Scalar (pending : Pending) : Prop where
  owed : 1 ≤ pending.owed
  above : 0x80 ≤ pending.low
  range : pending.limit ≤ 0xD800 ∨ (0xE000 ≤ pending.least ∧ pending.limit ≤ 0x110000)

theorem isScalar_ofNat {n : Nat} (h : n < 0xD800 ∨ (0xE000 ≤ n ∧ n < 0x110000)) :
    isScalar (Fin.ofNat 0x110000 n) = true := by
  have hval : (Fin.ofNat 0x110000 n : CodePoint).val = n := Nat.mod_eq_of_lt (by omega)
  rw [isScalar, hval, Bool.or_eq_true, decide_eq_true_eq, decide_eq_true_eq]
  omega

theorem isScalar_substitute : isScalar substitute = true := by decide

/-- What a step returns: characters, and one that may be pending. -/
def Sound (read : List CodePoint × Option Pending) : Prop :=
  WellFormed read.1 ∧ ∀ pending, read.2 = some pending → pending.Scalar

theorem Sound.character {c : CodePoint} (h : isScalar c = true) : Sound ([c], none) := by
  refine ⟨fun d hd => ?_, fun _ hpending => by cases hpending⟩
  rw [List.mem_singleton.mp hd]
  exact h

theorem Sound.pending {pending : Pending} (h : pending.Scalar) : Sound ([], some pending) := by
  refine ⟨fun d hd => absurd hd List.not_mem_nil, fun other hother => ?_⟩
  injection hother with hother
  rw [← hother]
  exact h

theorem lowest_ge (first : Nat) : 0x80 ≤ lowest first := by
  unfold lowest
  split
  · omega
  · split <;> omega

theorem highest_le (first : Nat) : highest first ≤ 0xBF := by
  unfold highest
  split
  · omega
  · split <;> omega

/-- The bounds on the second byte keep the character among the scalar values. -/
theorem start_sound (b : Byte) : Sound (start b) := by
  have hlow := lowest_ge b.val
  have hhigh := highest_le b.val
  unfold start
  split
  · exact .character (isScalar_ofNat (by omega))
  · split
    · exact .character isScalar_substitute
    · split
      · refine .pending ⟨Nat.le_refl 1, Nat.le_refl 0x80, Or.inl ?_⟩
        simp only [Pending.limit, Nat.sub_self, Nat.pow_zero]
        omega
      · split
        · have hsurrogate : b.val = 0xED → highest b.val = 0x9F := fun h => by rw [h]; rfl
          refine .pending ⟨Nat.le_add_left 1 1, hlow, ?_⟩
          simp only [Pending.limit, Pending.least, Nat.reduceSub, Nat.pow_one]
          omega
        · split
          · have hleast : b.val = 0xF0 → lowest b.val = 0x90 := fun h => by rw [h]; rfl
            have hlimit : b.val = 0xF4 → highest b.val = 0x8F := fun h => by rw [h]; rfl
            refine .pending ⟨Nat.le_add_left 1 2, hlow, Or.inr ?_⟩
            simp only [Pending.limit, Pending.least, Nat.reduceSub, Nat.reducePow]
            omega
          · exact .character isScalar_substitute

/-- A byte that is taken narrows what the character can become. -/
theorem Pending.Scalar.take {pending : Pending} (h : pending.Scalar) {b : Byte}
    (hlow : pending.low ≤ b.val) (hhigh : b.val ≤ pending.high) : Sound (pending.take b) := by
  have habove := h.above
  have hrange := h.range
  unfold Pending.take Pending.joined
  unfold Pending.least Pending.limit at hrange
  generalize hfrom : pending.value * 0x40 + (b.val - 0x80) = value
  have hleast : pending.value * 0x40 + (pending.low - 0x80) ≤ value := by omega
  have hlimit : value + 1 ≤ pending.value * 0x40 + (pending.high - 0x80) + 1 := by omega
  have hleast := Nat.mul_le_mul_right (0x40 ^ (pending.owed - 1)) hleast
  have hlimit := Nat.mul_le_mul_right (0x40 ^ (pending.owed - 1)) hlimit
  have howed := h.owed
  split
  · next hlast =>
      rw [show pending.owed - 1 = 0 by omega, Nat.pow_zero] at hrange hleast hlimit
      exact .character (isScalar_ofNat (by omega))
  · next hmore =>
      have hpow : 0x40 ^ (pending.owed - 1) = 0x40 * 0x40 ^ (pending.owed - 1 - 1) := by
        rw [← Nat.pow_succ', show (pending.owed - 1 - 1).succ = pending.owed - 1 by omega]
      refine .pending ⟨by dsimp only; omega, Nat.le_refl 0x80, ?_⟩
      have hless : (value * 0x40 + (0x80 - 0x80)) * 0x40 ^ (pending.owed - 1 - 1) =
          value * 0x40 ^ (pending.owed - 1) := by
        rw [hpow, Nat.sub_self, Nat.add_zero, Nat.mul_assoc]
      have hmore : (value * 0x40 + (0xBF - 0x80) + 1) * 0x40 ^ (pending.owed - 1 - 1) =
          (value + 1) * 0x40 ^ (pending.owed - 1) := by
        rw [hpow, ← Nat.mul_assoc,
          show value * 0x40 + (0xBF - 0x80) + 1 = (value + 1) * 0x40 by omega]
      simp only [Pending.limit, Pending.least, hless, hmore]
      omega

theorem step_sound {pending : Option Pending} (h : ∀ held, pending = some held → held.Scalar)
    (b : Byte) : Sound (step pending b) := by
  unfold step
  split
  · exact start_sound b
  · next held =>
      split
      · next hbetween => exact (h held rfl).take hbetween.1 hbetween.2
      · obtain ⟨hread, hpending⟩ := start_sound b
        refine ⟨fun c hc => ?_, hpending⟩
        rcases List.mem_cons.mp hc with hc | hc
        · rw [hc]
          exact isScalar_substitute
        · exact hread c hc

theorem decodeFrom_wellFormed {pending : Option Pending}
    (h : ∀ held, pending = some held → held.Scalar) (bytes : List Byte) :
    WellFormed (decodeFrom pending bytes) := by
  induction bytes generalizing pending with
  | nil =>
      intro c hc
      cases pending with
      | none => cases hc
      | some held =>
          rw [decodeFrom] at hc
          rw [List.mem_singleton.mp hc]
          exact isScalar_substitute
  | cons b bytes ih =>
      obtain ⟨hread, hpending⟩ := step_sound h b
      intro c hc
      rw [decodeFrom] at hc
      rcases List.mem_append.mp hc with hc | hc
      · exact hread c hc
      · exact ih hpending c hc

/-- Whatever the bytes, what is read is text as Unicode has it. -/
theorem decode_wellFormed (bytes : List Byte) : WellFormed (decode bytes) :=
  decodeFrom_wellFormed (fun _ h => by cases h) bytes

/-- A first byte with nothing behind it, and a byte that begins nothing. -/
example : decode [0xE2, 0x82, 0x41, 0xFF] = [substitute, 0x41, substitute] := by decide +kernel

end Utf8

end Text
