import Mathlib.Data.Rat.Floor
import Mathlib.Tactic.Linarith
import Mathlib.Tactic.NormNum
import Mathlib.Tactic.Positivity
import Synthia.Messaging.Envelopes
import Synthia.Proofs.Starvation

/-!
# Backoff

`messaging.retry`: the delay before the next attempt. The base is doubled for every attempt
already made, what comes of it is cut off at the maximum, and the delay is drawn between
nothing and that. Seconds are exact here; what is not left out of the arithmetic of floats is
that an integer has to fit into one, and a `timedelta` has a smallest and a largest value and
nothing between two microseconds.
-/

namespace Synthia

/-! ## `timedelta` -/

def microsecondsPerDay : ℤ := 86400000000

structure Timedelta where
  microseconds : ℤ
  least : -999999999 * microsecondsPerDay ≤ microseconds
  greatest : microseconds < 1000000000 * microsecondsPerDay
  deriving DecidableEq

/-- What arithmetic raises. -/
inductive OverflowError where
  | intTooLarge
  | daysTooLarge
  deriving DecidableEq, Repr

namespace Timedelta

def ofMicroseconds (microseconds : ℤ) : Except OverflowError Timedelta :=
  if least : -999999999 * microsecondsPerDay ≤ microseconds then
    if greatest : microseconds < 1000000000 * microsecondsPerDay then
      .ok ⟨microseconds, least, greatest⟩
    else .error .daysTooLarge
  else .error .daysTooLarge

def totalSeconds (delta : Timedelta) : ℚ := delta.microseconds / 1000000

/-- To the nearest, and of two to the even one. -/
def rounded (value : ℚ) : ℤ :=
  let below := ⌊value⌋
  let rest := value - below
  if rest < 1 / 2 ∨ (rest = 1 / 2 ∧ below % 2 = 0) then below else below + 1

/-- `timedelta(seconds=seconds)`. -/
def ofSeconds (seconds : ℚ) : Except OverflowError Timedelta :=
  ofMicroseconds (rounded (seconds * 1000000))

end Timedelta

/-! ## The policy -/

/-- `BackoffPolicy`, with the delays. -/
structure BackoffDelays extends BackoffPolicy where
  baseDelay : Timedelta := ⟨1000000, by decide, by decide⟩
  maxDelay : Timedelta := ⟨60000000, by decide, by decide⟩

/-- An integer as a float: exact, if it is not too large. -/
def floatOfInt (value : ℕ) : Except OverflowError ℚ :=
  if value < 2 ^ 1024 - 2 ^ 970 then .ok value else .error .intTooLarge

namespace BackoffDelays

/-- The delay before jitter, in seconds. -/
def bounded (policy : BackoffDelays) (attempts : ℤ) : Except OverflowError ℚ :=
  (floatOfInt (2 ^ attempts.toNat)).map fun power =>
    min (policy.baseDelay.totalSeconds * power) policy.maxDelay.totalSeconds

/-- `delay_for`, with what `random()` draws. -/
def delayFor (policy : BackoffDelays) (attempts : ℤ) (jitter : ℚ) :
    Except OverflowError Timedelta :=
  (policy.bounded attempts).bind fun bound => Timedelta.ofSeconds (0 + (bound - 0) * jitter)

end BackoffDelays

end Synthia

/-!
## Backoff is bounded while it can be computed

The exponential is computed before it is cut off. The power of two is an integer, and an
integer is multiplied by a float once it is one: from the power 1024 on it cannot be. A row
that the transport never takes is read by every pass, so its attempts get there.
-/

namespace Synthia

open Timedelta

/-! ### Rounding -/

section Rounding

variable {value : ℚ} {bound : ℤ}

theorem le_rounded (h : (bound : ℚ) ≤ value) : bound ≤ rounded value := by
  have hfloor : bound ≤ ⌊value⌋ := Int.le_floor.mpr h
  unfold rounded
  dsimp only
  split <;> omega

theorem rounded_le (h : value ≤ bound) : rounded value ≤ bound := by
  have hfloor : ⌊value⌋ ≤ bound := by
    exact_mod_cast (Int.floor_le value).trans h
  unfold rounded
  dsimp only
  split
  next => exact hfloor
  next hup =>
    -- Where the value is rounded up it is no integer.
    have hne : ⌊value⌋ ≠ bound := by
      rintro rfl
      have hrest : value - ⌊value⌋ = 0 := by
        have := Int.floor_le value
        linarith
      exact hup (.inl (by rw [hrest]; norm_num))
    omega

@[simp] theorem rounded_intCast : rounded (bound : ℚ) = bound :=
  le_antisymm (rounded_le le_rfl) (le_rounded le_rfl)

theorem ofMicroseconds_eq_ok {microseconds : ℤ} {delta : Timedelta}
    (h : Timedelta.ofMicroseconds microseconds = .ok delta) :
    delta.microseconds = microseconds := by
  unfold Timedelta.ofMicroseconds at h
  split at h
  · split at h
    · cases h; rfl
    · cases h
  · cases h

end Rounding

/-! ### Before jitter -/

section Bounded

variable {policy : BackoffDelays} {attempts : ℤ}

/-- A power of two is below a greater one by more than one that is less than half of it. -/
theorem power_lt_sub {exponent least most : ℕ} (h : exponent < most) (hleast : least + 1 < most) :
    2 ^ exponent < 2 ^ most - 2 ^ least := by
  obtain ⟨half, rfl⟩ : ∃ half, most = half + 1 := ⟨most - 1, by omega⟩
  have hpower : 2 ^ exponent ≤ 2 ^ half := Nat.pow_le_pow_right Nat.two_pos (by omega)
  have hsmall : 2 ^ least < 2 ^ half := Nat.pow_lt_pow_right Nat.one_lt_two (by omega)
  rw [Nat.pow_succ]
  omega

theorem power_not_lt_sub {exponent least most : ℕ} (h : most ≤ exponent) :
    ¬ 2 ^ exponent < 2 ^ most - 2 ^ least := by
  have hpower : 2 ^ most ≤ 2 ^ exponent := Nat.pow_le_pow_right Nat.two_pos h
  exact Nat.not_lt.mpr ((Nat.sub_le _ _).trans hpower)

theorem floatOfInt_power {exponent : ℕ} (h : exponent < 1024) :
    floatOfInt (2 ^ exponent) = .ok (2 ^ exponent) := by
  unfold floatOfInt
  rw [if_pos (power_lt_sub h (by omega)), Nat.cast_pow, Nat.cast_ofNat]

theorem floatOfInt_too_large {exponent : ℕ} (h : 1024 ≤ exponent) :
    floatOfInt (2 ^ exponent) = .error .intTooLarge := by
  unfold floatOfInt
  rw [if_neg (power_not_lt_sub h)]

theorem bounded_eq (h : attempts < 1024) : policy.bounded attempts =
    .ok (min (policy.baseDelay.totalSeconds * 2 ^ attempts.toNat)
      policy.maxDelay.totalSeconds) := by
  unfold BackoffDelays.bounded
  rw [floatOfInt_power (by omega)]
  rfl

theorem bounded_too_large (h : 1024 ≤ attempts) :
    policy.bounded attempts = .error .intTooLarge := by
  unfold BackoffDelays.bounded
  rw [floatOfInt_too_large (by omega)]
  rfl

/-- What is drawn between nothing and a delay is a delay between the two. -/
theorem delay_between {bound jitter : ℚ} {limit : Timedelta} (hbound : 0 ≤ bound)
    (hlimit : bound ≤ limit.totalSeconds) (hfirst : 0 ≤ jitter) (hlast : jitter ≤ 1) :
    ∃ delay, Timedelta.ofSeconds (0 + (bound - 0) * jitter) = .ok delay ∧
      0 ≤ delay.microseconds ∧ delay.microseconds ≤ limit.microseconds := by
  unfold totalSeconds at hlimit
  have hleast : ((0 : ℤ) : ℚ) ≤ (0 + (bound - 0) * jitter) * 1000000 := by
    rw [Int.cast_zero, zero_add, sub_zero]
    positivity
  have hmost : (0 + (bound - 0) * jitter) * 1000000 ≤ (limit.microseconds : ℚ) := by
    have hdrawn : bound * jitter ≤ bound := mul_le_of_le_one_right hbound hlast
    linarith
  have hzero := le_rounded hleast
  have hlimit := rounded_le hmost
  have hgreatest := limit.greatest
  refine ⟨⟨rounded ((0 + (bound - 0) * jitter) * 1000000), ?_, ?_⟩, ?_, hzero, hlimit⟩
  · unfold microsecondsPerDay
    omega
  · exact hlimit.trans_lt hgreatest
  · unfold ofSeconds ofMicroseconds
    rw [dif_pos, dif_pos]

/-- Where nothing is drawn off, whole microseconds stay what they are. -/
theorem delayFor_one (h : attempts < 1024) : policy.delayFor attempts 1 =
    ofMicroseconds
      (min (policy.baseDelay.microseconds * 2 ^ attempts.toNat) policy.maxDelay.microseconds) := by
  have hmicroseconds : (0 + (min (policy.baseDelay.totalSeconds * 2 ^ attempts.toNat)
      policy.maxDelay.totalSeconds - 0) * 1) * 1000000 =
      ((min (policy.baseDelay.microseconds * 2 ^ attempts.toNat)
        policy.maxDelay.microseconds : ℤ) : ℚ) := by
    unfold totalSeconds
    rw [zero_add, sub_zero, mul_one, min_mul_of_nonneg _ _ (by norm_num), Int.cast_min]
    push_cast
    congr 1 <;> ring
  unfold BackoffDelays.delayFor
  rw [bounded_eq h]
  show Timedelta.ofSeconds _ = _
  unfold ofSeconds
  rw [hmicroseconds, rounded_intCast]

/-! ### Delays -/

/-- The delay after so many attempts is there, between nothing and the maximum, and no
smaller than after fewer. -/
structure Timely (policy : BackoffDelays) (attempts : ℤ) : Prop where
  returns : ∀ jitter, 0 ≤ jitter → jitter ≤ 1 →
    ∃ delay, policy.delayFor attempts jitter = .ok delay ∧ 0 ≤ delay.microseconds ∧
      delay.microseconds ≤ policy.maxDelay.microseconds
  rises : ∀ fewer ≤ attempts, ∀ before after, policy.bounded fewer = .ok before →
    policy.bounded attempts = .ok after → before ≤ after

theorem bounded_rises {fewer : ℤ} {before after : ℚ} (hbase : 0 ≤ policy.baseDelay.microseconds)
    (hfewer : fewer ≤ attempts) (hattempts : attempts < 1024)
    (hbefore : policy.bounded fewer = .ok before)
    (hafter : policy.bounded attempts = .ok after) : before ≤ after := by
  rw [bounded_eq (hfewer.trans_lt hattempts)] at hbefore
  rw [bounded_eq hattempts] at hafter
  cases hbefore
  cases hafter
  have hseconds : 0 ≤ policy.baseDelay.totalSeconds := by
    unfold totalSeconds
    positivity
  have hpower : (2 : ℚ) ^ fewer.toNat ≤ 2 ^ attempts.toNat :=
    pow_le_pow_right₀ (by norm_num) (Int.toNat_le_toNat hfewer)
  exact min_le_min_right _ (mul_le_mul_of_nonneg_left hpower hseconds)

/-- **Bounded backoff.** The delay is there and in its bounds exactly while the power of two
is a float, if no delay of the policy is negative. -/
theorem timely_iff (policy : BackoffDelays) (attempts : ℤ) :
    Timely policy attempts ↔ 0 ≤ policy.baseDelay.microseconds ∧
      0 ≤ policy.maxDelay.microseconds ∧ attempts < 1024 := by
  constructor
  · intro h
    obtain ⟨delay, hreturned, hleast, hmost⟩ := h.returns 1 zero_le_one le_rfl
    have hattempts : attempts < 1024 := by
      by_contra hmany
      unfold BackoffDelays.delayFor at hreturned
      rw [bounded_too_large (not_lt.mp hmany)] at hreturned
      cases hreturned
    rw [delayFor_one hattempts] at hreturned
    rw [ofMicroseconds_eq_ok hreturned, le_min_iff] at hleast
    have hpower : (0 : ℤ) < 2 ^ attempts.toNat := by positivity
    exact ⟨nonneg_of_mul_nonneg_left hleast.1 hpower, hleast.2, hattempts⟩
  · intro h
    obtain ⟨hbase, hmax, hattempts⟩ := h
    constructor
    · intro jitter hfirst hlast
      have hbound : (0 : ℚ) ≤ min (policy.baseDelay.totalSeconds * 2 ^ attempts.toNat)
          policy.maxDelay.totalSeconds := by
        unfold totalSeconds
        exact le_min (by positivity) (by positivity)
      unfold BackoffDelays.delayFor
      rw [bounded_eq hattempts]
      exact delay_between hbound (min_le_right _ _) hfirst hlast
    · intro fewer hfewer before after hbefore hafter
      exact bounded_rises hbase hfewer hattempts hbefore hafter

end Bounded

/-! ### What a row reaches -/

/-- A row of a table that no row of which has been tried has been tried so often. -/
def Reached (attempts : ℤ) : Prop :=
  ∃ (batchSize : ℕ) (table : OutboxTable) (passes : List OutboxDispatch.Circumstances),
    (∀ row ∈ table.rows, row.attempts = 0) ∧
      ∃ row ∈ (OutboxDispatch.dispatchPasses {} batchSize table passes).rows,
        row.attempts = attempts

/-- No pass leaves an exhausted row out. -/
theorem reached_every (attempts : ℕ) : Reached attempts := by
  have hstart : OutboxDispatch.IsDead 0 (OutboxDispatch.triggerRow 1 1 0) :=
    ⟨rfl, rfl, rfl, rfl, rfl, rfl⟩
  have htable : (⟨[OutboxDispatch.triggerRow 1 1 0, OutboxDispatch.triggerRow 2 2 0],
      by decide⟩ : OutboxTable).rows =
      [OutboxDispatch.triggerRow 1 1 0, OutboxDispatch.triggerRow 2 2 0] := rfl
  obtain ⟨dead, hrows, hdead⟩ := hstart.passes attempts htable
  refine ⟨1, _, _, ?_, dead, hrows ▸ List.mem_cons_self, ?_⟩
  · simp [OutboxDispatch.triggerRow]
  · rw [hdead.attempts, Nat.zero_add]

theorem not_timely_reached :
    ¬ ∀ attempts, Reached attempts → Timely ({} : BackoffDelays) attempts := by
  intro h
  have hreached := reached_every 1024
  obtain ⟨delay, hreturned, -⟩ := (h 1024 hreached).returns 1 zero_le_one le_rfl
  unfold BackoffDelays.delayFor at hreturned
  rw [bounded_too_large le_rfl] at hreturned
  cases hreturned

end Synthia
