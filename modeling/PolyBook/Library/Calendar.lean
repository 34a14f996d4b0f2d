import Mathlib.Algebra.Order.Ring.Int
import Mathlib.Tactic.Common

/-!
# The Gregorian calendar

A row of blocks of given lengths has a block and an offset for every position
(`Blocks.locate`), and these grow with the position (`Blocks.locate_lt`).  A day counted
from the beginning of 1970 is located so in a year, and the rest of it in a month.
-/

/-! ## Positions in a row of blocks -/

namespace Blocks

variable (length : Nat → Nat)

/-- The block of a position behind the beginning of a block, and the offset in it. -/
def locate : (fuel block n : Nat) → Nat × Nat
  | 0, block, n => (block, n)
  | fuel + 1, block, n =>
      if n < length block then (block, n) else locate fuel (block + 1) (n - length block)

/-- A later block, or the same with a greater offset. -/
def Before (x y : Nat × Nat) : Prop := x.1 < y.1 ∨ x.1 = y.1 ∧ x.2 < y.2

variable {length}

theorem le_locate (fuel block n : Nat) : block ≤ (locate length fuel block n).1 := by
  induction fuel generalizing block n with
  | zero => exact le_rfl
  | succ fuel ih =>
      unfold locate
      split
      · exact le_rfl
      · exact (Nat.le_succ block).trans (ih (block + 1) _)

/-- With enough fuel the result does not depend on it. -/
theorem locate_fuel (hpos : ∀ i, 0 < length i) {fuel fuel' block n : Nat} (h : n ≤ fuel)
    (h' : n ≤ fuel') : locate length fuel block n = locate length fuel' block n := by
  induction fuel generalizing fuel' block n with
  | zero =>
      obtain rfl := Nat.le_zero.mp h
      cases fuel' with
      | zero => rfl
      | succ fuel' => rw [locate, locate, if_pos (hpos block)]
  | succ fuel ih =>
      have hlength := hpos block
      cases fuel' with
      | zero =>
          obtain rfl := Nat.le_zero.mp h'
          rw [locate, locate, if_pos hlength]
      | succ fuel' =>
          unfold locate
          split
          · rfl
          · exact ih (by omega) (by omega)

/-- **Later positions lie later.** -/
theorem locate_lt (hpos : ∀ i, 0 < length i) {fuel block m n : Nat} (hlt : m < n)
    (hn : n ≤ fuel) : Before (locate length fuel block m) (locate length fuel block n) := by
  induction fuel generalizing block m n with
  | zero => omega
  | succ fuel ih =>
      have hlength := hpos block
      unfold locate
      by_cases hin : n < length block
      · rw [if_pos hin, if_pos (by omega)]
        exact Or.inr ⟨rfl, hlt⟩
      · rw [if_neg hin]
        split
        · have hle : block + 1 ≤ (locate length fuel (block + 1) (n - length block)).1 :=
            le_locate fuel (block + 1) (n - length block)
          exact Or.inl hle
        · exact ih (by omega) (by omega)

/-- The offset lies in the block. -/
theorem locate_snd_lt (hpos : ∀ i, 0 < length i) {fuel block n : Nat} (hn : n ≤ fuel) :
    (locate length fuel block n).2 < length (locate length fuel block n).1 := by
  induction fuel generalizing block n with
  | zero =>
      obtain rfl := Nat.le_zero.mp hn
      exact hpos block
  | succ fuel ih =>
      have hlength := hpos block
      unfold locate
      split
      · assumption
      · exact ih (by omega)

end Blocks

/-! ## Dates -/

/-- A date of the calendar. -/
structure CivilDate where
  year : Int
  month : Nat
  day : Nat
  deriving DecidableEq

/-- The earlier of two dates has the earlier year, month or day. -/
def CivilDate.Before (a b : CivilDate) : Prop :=
  a.year < b.year ∨ a.year = b.year ∧ (a.month < b.month ∨ a.month = b.month ∧ a.day < b.day)

namespace Gregorian

/-- A leap year of the Gregorian calendar. -/
def isLeap (year : Int) : Bool := year % 4 = 0 && (year % 100 ≠ 0 || year % 400 = 0)

/-- The days of a year. -/
def daysInYear (year : Int) : Nat := if isLeap year then 366 else 365

/-- The days of a month, counted from 0. -/
def daysInMonth (leap : Bool) (month : Nat) : Nat :=
  [31, if leap then 29 else 28, 31, 30, 31, 30, 31, 31, 30, 31, 30, 31].getD month 31

/-- The day of a year, counted from 0. -/
def dateOfYear (year : Int) (day : Nat) : CivilDate :=
  let (month, offset) := Blocks.locate (daysInMonth (isLeap year)) day 0 day
  ⟨year, month + 1, offset + 1⟩

/-- The years from 1970 on. -/
def yearLength (i : Nat) : Nat := daysInYear (1970 + i)

/-- The years before 1970, the last one first. -/
def yearLengthBefore (i : Nat) : Nat := daysInYear (1969 - i)

/-- The date of a day counted from 1970-01-01. -/
def dateOfDay : Int → CivilDate
  | .ofNat n =>
      let (i, day) := Blocks.locate yearLength n 0 n
      dateOfYear (1970 + i) day
  | .negSucc n =>
      let (i, day) := Blocks.locate yearLengthBefore n 0 n
      dateOfYear (1969 - i) (yearLengthBefore i - 1 - day)

theorem daysInYear_pos (year : Int) : 0 < daysInYear year := by
  unfold daysInYear
  split <;> decide

theorem daysInMonth_pos (leap : Bool) (month : Nat) : 0 < daysInMonth leap month := by
  have hfirst : ∀ leap, ∀ m < 12, 0 < daysInMonth leap m := by decide
  by_cases hin : month < 12
  · exact hfirst leap month hin
  · have hnone : daysInMonth leap month = 31 := by
      rw [daysInMonth, List.getD_eq_getElem?_getD, List.getElem?_eq_none, Option.getD_none]
      simp only [List.length_cons, List.length_nil]
      omega
    rw [hnone]
    decide

/-- The days of one year. -/
theorem dateOfYear_before (year : Int) {d d' : Nat} (h : d < d') :
    (dateOfYear year d).Before (dateOfYear year d') := by
  have hlt : Blocks.Before (Blocks.locate (daysInMonth (isLeap year)) d' 0 d)
      (Blocks.locate (daysInMonth (isLeap year)) d' 0 d') :=
    Blocks.locate_lt (daysInMonth_pos (isLeap year)) h le_rfl
  rw [Blocks.locate_fuel (daysInMonth_pos (isLeap year)) h.le (le_refl d)] at hlt
  refine Or.inr ⟨rfl, ?_⟩
  rcases hlt with hmonth | ⟨hmonth, hday⟩
  · exact Or.inl (Nat.succ_lt_succ hmonth)
  · exact Or.inr ⟨congrArg (· + 1) hmonth, Nat.succ_lt_succ hday⟩

theorem dateOfDay_ofNat (n : Nat) : dateOfDay n = dateOfYear
    (1970 + (Blocks.locate yearLength n 0 n).1) (Blocks.locate yearLength n 0 n).2 := rfl

theorem yearLength_pos (i : Nat) : 0 < yearLength i := daysInYear_pos _

theorem locate_year_lt {m n : Nat} (h : m < n) : Blocks.Before
    (Blocks.locate yearLength m 0 m) (Blocks.locate yearLength n 0 n) := by
  rw [Blocks.locate_fuel yearLength_pos (le_refl m) h.le]
  exact Blocks.locate_lt yearLength_pos h le_rfl

/-- **Later days have later dates.** -/
theorem dateOfDay_before {d d' : Int} (hd : 0 ≤ d) (h : d < d') :
    (dateOfDay d).Before (dateOfDay d') := by
  obtain ⟨m, rfl⟩ := Int.eq_ofNat_of_zero_le hd
  obtain ⟨n, rfl⟩ := Int.eq_ofNat_of_zero_le (hd.trans h.le)
  rw [dateOfDay_ofNat, dateOfDay_ofNat]
  rcases locate_year_lt (Int.ofNat_lt.mp h) with hyear | ⟨hyear, hday⟩
  · refine Or.inl ?_
    simp only [dateOfYear]
    omega
  · rw [hyear]
    exact dateOfYear_before _ hday

/-- A year has twelve months of at most 31 days. -/
theorem dateOfYear_fields (year : Int) {d : Nat} (h : d < daysInYear year) :
    (dateOfYear year d).month ≤ 12 ∧ (dateOfYear year d).day ≤ 31 := by
  have hall : ∀ leap, ∀ n < if leap = true then 366 else 365,
      (Blocks.locate (daysInMonth leap) n 0 n).1 + 1 ≤ 12 ∧
        (Blocks.locate (daysInMonth leap) n 0 n).2 + 1 ≤ 31 := by decide +kernel
  exact hall (isLeap year) d h

/-- The last day of the year 9999. -/
def lastFourDigitDay : Int := 2932896

/-- Up to the year 9999 the fields have four, two and two digits. -/
theorem dateOfDay_fields (d : Int) (hd : 0 ≤ d) (hlast : d ≤ lastFourDigitDay) :
    (0 ≤ (dateOfDay d).year ∧ (dateOfDay d).year ≤ 9999) ∧
      (dateOfDay d).month ≤ 12 ∧ (dateOfDay d).day ≤ 31 := by
  obtain ⟨n, rfl⟩ := Int.eq_ofNat_of_zero_le hd
  have hn : n ≤ 2932896 := Int.ofNat_le.mp hlast
  have hfinal : (Blocks.locate yearLength 2932896 0 2932896).1 = 8029 := by decide +kernel
  have hyear : (Blocks.locate yearLength n 0 n).1 ≤ 8029 := by
    rcases Nat.lt_or_eq_of_le hn with hlt | rfl
    · rw [← hfinal]
      rcases locate_year_lt hlt with hyear | ⟨hyear, -⟩
      · exact hyear.le
      · exact hyear.le
    · exact hfinal.le
  rw [dateOfDay_ofNat]
  refine ⟨?_, dateOfYear_fields _ (Blocks.locate_snd_lt yearLength_pos le_rfl)⟩
  simp only [dateOfYear]
  omega

example : dateOfDay 20254 = ⟨2025, 6, 15⟩ := by decide +kernel

end Gregorian
