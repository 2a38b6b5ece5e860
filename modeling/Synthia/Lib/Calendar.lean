import Synthia.Lib.Text
import Mathlib.Algebra.Order.BigOperators.Group.List
import Mathlib.Tactic.Ring

/-!
# Dates as text

The proleptic Gregorian calendar and the fixed-width form in which both Python and
.NET write a date and time. A day is counted from the first of January of the
year 1, a second from the midnight it begins with.

Going from a day to a date divides out the four cycles of the calendar, the last
of the two long ones cut at three, and then walks the months. Everything after
that is digits of a known number, so a text that was written can be read back.
-/

namespace Calendar

open Text

/-! ## Digits -/

def digitChar (digit : Nat) : CodePoint := Fin.ofNat 0x110000 (0x30 + digit)

def digitValue (c : CodePoint) : Option Nat :=
  if 0x30 ≤ c.val ∧ c.val ≤ 0x39 then some (c.val - 0x30) else none

/-- The last `width` decimal digits of a number. -/
def pad : Nat → Nat → List CodePoint
  | 0, _ => []
  | width + 1, n => pad width (n / 10) ++ [digitChar (n % 10)]

/-- The value of a text of digits. -/
def digitsValue (text : List CodePoint) : Option Nat :=
  text.foldl (fun value c => value.bind fun v => (digitValue c).map fun d => 10 * v + d) (some 0)

/-- The number the first `width` characters write, and the text behind them. -/
def readPad (width : Nat) (text : List CodePoint) : Option (Nat × List CodePoint) :=
  if text.length < width then none
  else (digitsValue (text.take width)).map fun value => (value, text.drop width)

/-- The text behind one character that has to be there. -/
def expect (c : CodePoint) : List CodePoint → Option (List CodePoint)
  | [] => none
  | d :: rest => if d == c then some rest else none

@[simp] theorem length_pad (width n : Nat) : (pad width n).length = width := by
  induction width generalizing n with
  | zero => rfl
  | succ width ih => simp [pad, ih]

theorem digitValue_digitChar {digit : Nat} (h : digit < 10) :
    digitValue (digitChar digit) = some digit := by
  have hval : (digitChar digit).val = 0x30 + digit := Nat.mod_eq_of_lt (by omega)
  simp only [digitValue, hval]
  rw [if_pos (by omega)]
  congr 1
  omega

theorem digitsValue_concat (text : List CodePoint) (c : CodePoint) :
    digitsValue (text ++ [c]) =
      (digitsValue text).bind fun v => (digitValue c).map fun d => 10 * v + d := by
  simp [digitsValue, List.foldl_append]

theorem digitsValue_pad {width n : Nat} (h : n < 10 ^ width) :
    digitsValue (pad width n) = some n := by
  induction width generalizing n with
  | zero =>
      have hzero : n = 0 := by simpa using h
      rw [hzero]
      rfl
  | succ width ih =>
      rw [pow_succ] at h
      rw [pad, digitsValue_concat, ih (by omega), digitValue_digitChar (by omega)]
      simp only [Option.bind_some, Option.map_some, Option.some.injEq]
      omega

@[simp] theorem readPad_pad {width n : Nat} (h : n < 10 ^ width) (rest : List CodePoint) :
    readPad width (pad width n ++ rest) = some (n, rest) := by
  have hlength : ¬ (pad width n ++ rest).length < width := by simp
  rw [readPad, if_neg hlength, List.take_left' (length_pad width n),
    List.drop_left' (length_pad width n), digitsValue_pad h]
  rfl

@[simp] theorem expect_cons (c : CodePoint) (rest : List CodePoint) :
    expect c (c :: rest) = some rest := by
  simp [expect]

theorem digitValue_eq_some {c : CodePoint} {digit : Nat} (h : digitValue c = some digit) :
    digit < 10 ∧ c = digitChar digit := by
  unfold digitValue at h
  split at h
  · next hrange =>
      injection h with h
      refine ⟨by omega, Fin.ext ?_⟩
      have hval : (digitChar digit).val = 0x30 + digit := Nat.mod_eq_of_lt (by omega)
      omega
  · cases h

/-- A text of digits is what its value is written as at its length. -/
theorem digitsValue_eq_some {text : List CodePoint} {value : Nat}
    (h : digitsValue text = some value) :
    value < 10 ^ text.length ∧ text = pad text.length value := by
  induction text using List.reverseRecOn generalizing value with
  | nil =>
      injection h with h
      rw [← h]
      exact ⟨Nat.one_pos, rfl⟩
  | append_singleton text c ih =>
      rw [digitsValue_concat] at h
      obtain ⟨front, hfront, h⟩ := Option.bind_eq_some_iff.mp h
      obtain ⟨digit, hdigit, h⟩ := Option.map_eq_some_iff.mp h
      obtain ⟨hlt, hc⟩ := digitValue_eq_some hdigit
      obtain ⟨hbound, htext⟩ := ih hfront
      rw [List.length_append, List.length_singleton, pow_succ, pad,
        show value / 10 = front by omega, show value % 10 = digit by omega, ← htext, hc]
      exact ⟨by omega, rfl⟩

/-- What is read at a width is what was written at it. -/
theorem readPad_eq_some {width n : Nat} {text rest : List CodePoint} :
    readPad width text = some (n, rest) ↔ n < 10 ^ width ∧ text = pad width n ++ rest := by
  constructor
  · intro h
    unfold readPad at h
    split at h
    · cases h
    · next hlength =>
        obtain ⟨value, hvalue, hpair⟩ := Option.map_eq_some_iff.mp h
        injection hpair with hn hrest
        obtain ⟨hbound, htake⟩ := digitsValue_eq_some hvalue
        rw [List.length_take, Nat.min_eq_left (by omega)] at hbound htake
        rw [← hn, ← hrest, ← htake, List.take_append_drop]
        exact ⟨hbound, rfl⟩
  · rintro ⟨hbound, rfl⟩
    exact readPad_pad hbound rest

theorem expect_eq_some {c : CodePoint} {text rest : List CodePoint} :
    expect c text = some rest ↔ text = c :: rest := by
  constructor
  · intro h
    cases text with
    | nil => cases h
    | cons d text =>
        rw [expect] at h
        split at h
        · next hd =>
            injection h with h
            rw [beq_iff_eq.mp hd, h]
        · cases h
  · rintro rfl
    exact expect_cons c rest

/-! ## Dates -/

structure Date where
  year : Nat
  month : Nat
  day : Nat
  deriving DecidableEq, Repr

def isLeap (year : Nat) : Bool := year % 4 == 0 && (year % 100 != 0 || year % 400 == 0)

def monthLengths (year : Nat) : List Nat :=
  [31, if isLeap year then 29 else 28, 31, 30, 31, 30, 31, 31, 30, 31, 30, 31]

/-- The days of a month, by its number from 1. -/
def monthLength (year month : Nat) : Nat := (monthLengths year).getD (month - 1) 0

def daysBeforeYear (year : Nat) : Nat :=
  365 * (year - 1) + (year - 1) / 4 - (year - 1) / 100 + (year - 1) / 400

/-- The day a date is, the first of January of the year 1 being 0. -/
def Date.toDay (date : Date) : Nat :=
  daysBeforeYear date.year + ((monthLengths date.year).take (date.month - 1)).sum +
    (date.day - 1)

/-- The month and day that a number of days into months of these lengths is. -/
def monthDay : List Nat → Nat → Nat → Nat × Nat
  | [], month, days => (month, days + 1)
  | length :: lengths, month, days =>
      if days < length then (month, days + 1) else monthDay lengths (month + 1) (days - length)

/-- A day as its year and its place in it. -/
def yearDay (day : Nat) : Nat × Nat :=
  let ofFourHundred := day % 146097
  let centuries := min (ofFourHundred / 36524) 3
  let ofCentury := ofFourHundred - 36524 * centuries
  let ofFour := ofCentury % 1461
  let years := min (ofFour / 365) 3
  (400 * (day / 146097) + 100 * centuries + 4 * (ofCentury / 1461) + years + 1,
    ofFour - 365 * years)

def ofDay (day : Nat) : Date :=
  let place := yearDay day
  let month := monthDay (monthLengths place.1) 1 place.2
  ⟨place.1, month.1, month.2⟩

def Date.isValid (date : Date) : Bool :=
  decide (1 ≤ date.year) && decide (1 ≤ date.month) && decide (date.month ≤ 12) &&
    decide (1 ≤ date.day) && decide (date.day ≤ monthLength date.year date.month)

theorem isLeap_iff {year : Nat} :
    isLeap year = true ↔ year % 4 = 0 ∧ (year % 100 ≠ 0 ∨ year % 400 = 0) := by
  simp [isLeap]

section Cycles

variable {cycle centuries fours years : Nat} (hcenturies : centuries ≤ 3) (hfours : fours ≤ 24)
  (hyears : years ≤ 3)
include hcenturies hfours hyears

theorem daysBeforeYear_cycles :
    daysBeforeYear (400 * cycle + 100 * centuries + 4 * fours + years + 1) =
      146097 * cycle + 36524 * centuries + 1461 * fours + 365 * years := by
  have hfour : (400 * cycle + 100 * centuries + 4 * fours + years) / 4 =
      100 * cycle + 25 * centuries + fours := by omega
  have hhundred : (400 * cycle + 100 * centuries + 4 * fours + years) / 100 =
      4 * cycle + centuries := by omega
  have hfourHundred : (400 * cycle + 100 * centuries + 4 * fours + years) / 400 = cycle := by
    omega
  rw [daysBeforeYear, Nat.add_sub_cancel, hfour, hhundred, hfourHundred]
  omega

theorem isLeap_cycles :
    isLeap (400 * cycle + 100 * centuries + 4 * fours + years + 1) = true ↔
      years = 3 ∧ (fours ≠ 24 ∨ centuries = 3) := by
  rw [isLeap_iff]
  have hfour : (400 * cycle + 100 * centuries + 4 * fours + years + 1) % 4 = 0 ↔
      years = 3 := by omega
  rw [hfour]
  refine and_congr_right fun hthree => ?_
  have hhundred : (400 * cycle + 100 * centuries + 4 * fours + years + 1) % 100 ≠ 0 ↔
      fours ≠ 24 := by omega
  have hfourHundred : (400 * cycle + 100 * centuries + 4 * fours + years + 1) % 400 = 0 ↔
      fours = 24 ∧ centuries = 3 := by omega
  rw [hhundred, hfourHundred]
  omega

end Cycles

/-- The four cycles a day is made of. -/
theorem yearDay_cycles (day : Nat) :
    ∃ cycle centuries fours years left, centuries ≤ 3 ∧ fours ≤ 24 ∧ years ≤ 3 ∧ left ≤ 365 ∧
      (left = 365 → years = 3 ∧ (fours ≠ 24 ∨ centuries = 3)) ∧
      yearDay day = (400 * cycle + 100 * centuries + 4 * fours + years + 1, left) ∧
      146097 * cycle + 36524 * centuries + 1461 * fours + 365 * years + left = day := by
  refine ⟨_, _, _, _, _, ?_, ?_, ?_, ?_, ?_, rfl, ?_⟩
  all_goals
    have hrest : day % 146097 < 146097 := Nat.mod_lt _ (Nat.succ_pos _)
    have hday := Nat.div_add_mod day 146097
    generalize day / 146097 = cycle at *
    generalize day % 146097 = rest at *
  · exact Nat.min_le_right _ _
  · omega
  · exact Nat.min_le_right _ _
  · omega
  · omega
  · omega

/-- The days of a year are a year's, and the years before it hold the rest. -/
theorem yearDay_spec (day : Nat) :
    1 ≤ (yearDay day).1 ∧ daysBeforeYear (yearDay day).1 + (yearDay day).2 = day ∧
      (yearDay day).2 < (monthLengths (yearDay day).1).sum := by
  obtain ⟨cycle, centuries, fours, years, left, hcenturies, hfours, hyears, hleft, hlong, heq,
    hday⟩ := yearDay_cycles day
  rw [heq]
  dsimp only
  refine ⟨by omega, by rw [daysBeforeYear_cycles hcenturies hfours hyears, hday], ?_⟩
  simp only [monthLengths, isLeap_cycles hcenturies hfours hyears]
  split
  · show left < 366
    omega
  · next hleap =>
      show left < 365
      have hne : left ≠ 365 := fun h => hleap (hlong h)
      omega

theorem monthDay_spec {lengths : List Nat} (month : Nat) {days : Nat} (h : days < lengths.sum) :
    month ≤ (monthDay lengths month days).1 ∧
      (monthDay lengths month days).1 < month + lengths.length ∧
      1 ≤ (monthDay lengths month days).2 ∧
      (monthDay lengths month days).2 ≤
        lengths.getD ((monthDay lengths month days).1 - month) 0 ∧
      (lengths.take ((monthDay lengths month days).1 - month)).sum +
        (monthDay lengths month days).2 = days + 1 := by
  induction lengths generalizing month days with
  | nil => simp at h
  | cons length lengths ih =>
      rw [List.sum_cons] at h
      simp only [monthDay]
      split
      · next hdays =>
          simp
          omega
      · next hdays =>
          obtain ⟨hlow, hhigh, hone, hlength, hsum⟩ :=
            ih (month + 1) (by omega : days - length < lengths.sum)
          generalize monthDay lengths (month + 1) (days - length) = found at *
          -- one month further into the list
          have hplace : found.1 - month = (found.1 - (month + 1)) + 1 := by omega
          rw [hplace, List.getD_cons_succ, List.take_succ_cons, List.sum_cons, List.length_cons]
          omega

theorem length_monthLengths (year : Nat) : (monthLengths year).length = 12 := rfl

theorem ofDay_isValid (day : Nat) : (ofDay day).isValid = true := by
  obtain ⟨hyear, _, hdays⟩ := yearDay_spec day
  obtain ⟨hlow, hhigh, hone, hlength, _⟩ := monthDay_spec 1 hdays
  rw [length_monthLengths] at hhigh
  simp only [Date.isValid, Bool.and_eq_true, decide_eq_true_eq]
  exact ⟨⟨⟨⟨hyear, hlow⟩, Nat.le_of_lt_succ hhigh⟩, hone⟩, hlength⟩

/-- A day written as a date is the day it was. -/
theorem toDay_ofDay (day : Nat) : (ofDay day).toDay = day := by
  obtain ⟨_, hday, hdays⟩ := yearDay_spec day
  obtain ⟨hlow, _, hone, _, hsum⟩ := monthDay_spec 1 hdays
  simp only [Date.toDay, ofDay]
  omega

theorem monthLength_le (year month : Nat) : monthLength year month ≤ 31 := by
  have hall : ∀ length ∈ monthLengths year, length ≤ 31 := by
    simp only [monthLengths]
    split <;> decide
  rw [monthLength, List.getD_eq_getElem?_getD]
  cases hlength : (monthLengths year)[month - 1]? with
  | none => exact Nat.zero_le 31
  | some length => exact hall length (List.mem_of_getElem? hlength)

/-- The first day of the year 10000. -/
def dayLimit : Nat := 3652059

theorem ofDay_year_lt {day : Nat} (h : day < dayLimit) : (ofDay day).year < 10 ^ 4 := by
  have hvalid := ofDay_isValid day
  simp only [Date.isValid, Bool.and_eq_true, decide_eq_true_eq] at hvalid
  have hyear := hvalid.1.1.1.1
  have hday := toDay_ofDay day
  simp only [Date.toDay, daysBeforeYear] at hday
  simp only [dayLimit] at h
  by_contra hlate
  have : 9999 ≤ (ofDay day).year - 1 := by omega
  generalize (ofDay day).year - 1 = years at *
  omega

/-! ## A date and time of day -/

/-- `YYYY-MM-DD`. -/
def dateText (date : Date) : List CodePoint :=
  pad 4 date.year ++ 0x2D :: (pad 2 date.month ++ 0x2D :: pad 2 date.day)

def readDate (text : List CodePoint) : Option (Date × List CodePoint) := do
  let (year, text) ← readPad 4 text
  let text ← expect 0x2D text
  let (month, text) ← readPad 2 text
  let text ← expect 0x2D text
  let (day, text) ← readPad 2 text
  if (Date.mk year month day).isValid then some (⟨year, month, day⟩, text) else none

/-- `HH:MM:SS`, for the seconds of a day. -/
def clockText (clock : Nat) : List CodePoint :=
  pad 2 (clock / 3600) ++ 0x3A :: (pad 2 (clock / 60 % 60) ++ 0x3A :: pad 2 (clock % 60))

def readClock (text : List CodePoint) : Option (Nat × List CodePoint) := do
  let (hour, text) ← readPad 2 text
  let text ← expect 0x3A text
  let (minute, text) ← readPad 2 text
  let text ← expect 0x3A text
  let (second, text) ← readPad 2 text
  if hour < 24 ∧ minute < 60 ∧ second < 60 then
    some (hour * 3600 + minute * 60 + second, text)
  else
    none

/-- `YYYY-MM-DDTHH:MM:SS`, for a count of seconds from the first midnight. -/
def secondsText (seconds : Nat) : List CodePoint :=
  dateText (ofDay (seconds / 86400)) ++ 0x54 :: clockText (seconds % 86400)

/-- The seconds a text begins with, and the text behind them. -/
def readSeconds (text : List CodePoint) : Option (Nat × List CodePoint) := do
  let (date, text) ← readDate text
  let text ← expect 0x54 text
  let (clock, text) ← readClock text
  return (date.toDay * 86400 + clock, text)

theorem readDate_eq_some {date : Date} {text rest : List CodePoint} :
    readDate text = some (date, rest) ↔
      date.isValid = true ∧ date.year < 10 ^ 4 ∧ text = dateText date ++ rest := by
  constructor
  · intro h
    simp only [readDate, Option.bind_eq_bind, Option.bind_eq_some_iff, Prod.exists,
      readPad_eq_some, expect_eq_some] at h
    obtain ⟨year, _, ⟨hyear, rfl⟩, _, rfl, month, _, ⟨_, rfl⟩, _, rfl, day, _, ⟨_, rfl⟩, h⟩ := h
    split at h
    · next hvalid =>
        injection h with h
        injection h with hdate hrest
        rw [← hdate, ← hrest]
        exact ⟨hvalid, hyear, by simp [dateText]⟩
    · cases h
  · rintro ⟨hvalid, hyear, rfl⟩
    have hbounds := hvalid
    simp only [Date.isValid, Bool.and_eq_true, decide_eq_true_eq] at hbounds
    have hlong := monthLength_le date.year date.month
    have hmonth : date.month < 10 ^ 2 := by omega
    have hday : date.day < 10 ^ 2 := by omega
    simp only [readDate, dateText, List.append_assoc, List.cons_append, readPad_pad hyear,
      readPad_pad hmonth, readPad_pad hday, expect_cons, Option.bind_eq_bind, Option.bind_some]
    exact if_pos hvalid

theorem readClock_eq_some {clock : Nat} {text rest : List CodePoint} :
    readClock text = some (clock, rest) ↔ clock < 86400 ∧ text = clockText clock ++ rest := by
  constructor
  · intro h
    simp only [readClock, Option.bind_eq_bind, Option.bind_eq_some_iff, Prod.exists,
      readPad_eq_some, expect_eq_some] at h
    obtain ⟨hour, _, ⟨_, rfl⟩, _, rfl, minute, _, ⟨_, rfl⟩, _, rfl, second, _, ⟨_, rfl⟩, h⟩ := h
    split at h
    · next hbounds =>
        injection h with h
        injection h with hclock hrest
        rw [← hclock, ← hrest, clockText,
          show (hour * 3600 + minute * 60 + second) / 3600 = hour by omega,
          show (hour * 3600 + minute * 60 + second) / 60 % 60 = minute by omega,
          show (hour * 3600 + minute * 60 + second) % 60 = second by omega]
        exact ⟨by omega, by simp⟩
    · cases h
  · rintro ⟨hclock, rfl⟩
    have hhour : clock / 3600 < 10 ^ 2 := by omega
    have hminute : clock / 60 % 60 < 10 ^ 2 := by omega
    have hsecond : clock % 60 < 10 ^ 2 := by omega
    have hsplit : clock / 3600 * 3600 + clock / 60 % 60 * 60 + clock % 60 = clock := by omega
    simp only [readClock, clockText, List.append_assoc, List.cons_append, readPad_pad hhour,
      readPad_pad hminute, readPad_pad hsecond, expect_cons, Option.bind_eq_bind,
      Option.bind_some]
    rw [if_pos (by omega), hsplit]

theorem readSeconds_eq_some {seconds : Nat} {text rest : List CodePoint} :
    readSeconds text = some (seconds, rest) ↔
      ∃ date clock, date.isValid = true ∧ date.year < 10 ^ 4 ∧ clock < 86400 ∧
        seconds = date.toDay * 86400 + clock ∧
        text = dateText date ++ 0x54 :: (clockText clock ++ rest) := by
  constructor
  · intro h
    simp only [readSeconds, Option.bind_eq_bind, Option.bind_eq_some_iff, Prod.exists,
      readDate_eq_some, expect_eq_some, readClock_eq_some, Option.pure_def, Option.some.injEq,
      Prod.mk.injEq] at h
    obtain ⟨date, _, ⟨hvalid, hyear, rfl⟩, _, rfl, clock, _, ⟨hclock, rfl⟩, rfl, rfl⟩ := h
    exact ⟨date, clock, hvalid, hyear, hclock, rfl, rfl⟩
  · rintro ⟨date, clock, hvalid, hyear, hclock, rfl, rfl⟩
    simp only [readSeconds, readDate_eq_some.mpr ⟨hvalid, hyear, rfl⟩,
      readClock_eq_some.mpr ⟨hclock, rfl⟩, expect_cons, Option.bind_eq_bind, Option.bind_some,
      Option.pure_def]

/-- What is written is read back. -/
@[simp] theorem readSeconds_secondsText {seconds : Nat} (h : seconds < dayLimit * 86400)
    (rest : List CodePoint) :
    readSeconds (secondsText seconds ++ rest) = some (seconds, rest) := by
  have hday : seconds / 86400 < dayLimit := by omega
  refine readSeconds_eq_some.mpr ⟨ofDay (seconds / 86400), seconds % 86400, ofDay_isValid _,
    ofDay_year_lt hday, Nat.mod_lt _ (by omega), ?_, ?_⟩
  · rw [toDay_ofDay]
    omega
  · rw [secondsText, List.append_assoc, List.cons_append]

/-- The seconds from the first midnight to the first of January 1970. -/
def unixEpoch : Nat := 62135596800

/-- Python's `isoformat` of a `datetime` in UTC, given in microseconds from 1970.
The fraction is left out where it is zero. -/
def isoformat (instant : Int) : List CodePoint :=
  let micros := (instant + unixEpoch * 1000000).toNat
  secondsText (micros / 1000000) ++
    (if micros % 1000000 = 0 then [] else 0x2E :: pad 6 (micros % 1000000)) ++
    ofString "+00:00"

example : isoformat 1 = ofString "1970-01-01T00:00:00.000001+00:00" := by decide

end Calendar
