import Mymuduo.Lib.CInt
import Mymuduo.Lib.Gregorian

/-!
# `base/Date`

A `Date` is its Julian day number. A function returns `none` when an `int` overflows in it;
`Date.InSpan` is where none does, and there the two conversions are those of the Gregorian calendar
(`Date.getYearMonthDay_eq`, `Date.getJulianDayNumber_eq`).
-/

namespace Mymuduo

open CInt Gregorian

namespace Date

/-- `Date::YearMonthDay`: a year, a month from 1 to 12 and a day from 1. -/
abbrev YearMonthDay := Gregorian.Date

def kDaysPerWeek : Int := 7

def getJulianDayNumber (year month day : Int) : Option Int := do
  let a ← int ((14 - month) / 12)
  let y ← int (year + 4800 - a)
  let m ← int (month + 12 * a - 3)
  int (day + (153 * m + 2) / 5 + y * 365 + y / 4 - y / 100 + y / 400 - 32045)

def getYearMonthDay (julianDayNumber : Int) : Option YearMonthDay := do
  let a ← int (julianDayNumber + 32044)
  let b ← int ((4 * a + 3) / 146097)
  let c ← int (a - b * 146097 / 4)
  let d ← int ((4 * c + 3) / 1461)
  let e ← int (c - 1461 * d / 4)
  let m ← int ((5 * e + 2) / 153)
  let day ← int (e - (153 * m + 2) / 5 + 1)
  let month ← int (m + 3 - 12 * (m / 10))
  let year ← int (b * 100 + d - 4800 + m / 10)
  return ⟨year, month, day⟩

/-- `Date::kJulianDayOf1970_01_01`. -/
def kJulianDayOf1970_01_01 : Int := (getJulianDayNumber 1970 1 1).get (by decide)

end Date

/-- `Date`, which is its Julian day number. -/
structure Date where
  julianDayNumber_ : Int
  deriving DecidableEq, Repr

namespace Date

/-- The constructor from a year, a month and a day. -/
def ofYearMonthDay (y m d : Int) : Option Date := do
  return ⟨← getJulianDayNumber y m d⟩

def yearMonthDay (date : Date) : Option YearMonthDay := getYearMonthDay date.julianDayNumber_

/-- From 0, a Sunday, to 6. -/
def weekDay (date : Date) : Option Int := int ((date.julianDayNumber_ + 1) % kDaysPerWeek)

/-- The day numbers, from 1970-01-01, whose conversion stays within `int`. -/
def InSpan (n : Int) : Prop := -2472632 ≤ n ∧ n ≤ 534398279

/-! ## The calendar -/

theorem kJulianDay : kJulianDayOf1970_01_01 = 2440588 := by decide

/-- The algorithm is that of the calendar, moved to a year from which every day counts up. -/
theorem getYearMonthDay_eq {n : Int} (h : InSpan n) : ∃ c : Gregorian.Date,
    getYearMonthDay (n + 2440588) = some c ∧ c.Valid ∧ c.dayNumber = n := by
  obtain ⟨h0, h1⟩ := h
  generalize ha : n + 2472632 = a
  generalize hb : (4 * a + 3) / 146097 = b
  generalize hc : a - b * 146097 / 4 = c
  generalize hd : (4 * c + 3) / 1461 = d
  generalize he : c - 1461 * d / 4 = e
  generalize hm : (5 * e + 2) / 153 = m
  obtain ⟨hin, hdays⟩ := march_of_day hb hc hd he hm
  obtain ⟨hc0, hc1, -⟩ := century hb hc
  obtain ⟨⟨hd0, hd1⟩, he0, he1, -⟩ := yearOfCentury hc0 hc1 hd he
  obtain ⟨hm0, hm1⟩ := hin.month
  have hstart : yearStart (100 * b + d - 4800) = yearStart (100 * b + d) - 1753164 := by
    rw [show 100 * b + d - 4800 = 100 * b + d + 400 * (-12) by omega, yearStart_add]
    rfl
  have hnext : yearStart (100 * b + d - 4800 + 1) = yearStart (100 * b + d + 1) - 1753164 := by
    rw [show 100 * b + d - 4800 + 1 = 100 * b + d + 1 + 400 * (-12) by omega, yearStart_add]
    rfl
  have hvalid : InMonth (100 * b + d - 4800) m e :=
    ⟨hin.month, hin.start, hin.before, by rw [hnext, hstart]; have := hin.year; omega⟩
  refine ⟨ofMarch (100 * b + d - 4800) m e, ?_, (ofMarch_valid_iff hin.month).mpr hvalid, ?_⟩
  · have hline1 : int (((n + 2440588 : Int) : CInt 32) + 32044) = some a := by
      rw [coe_ofNat, coe_add (by omega), int_coe, ← ha]
      exact congrArg some (by omega)
    have hline2 : int ((4 * (a : CInt 32) + 3) / 146097) = some b := by
      rw [← hb]
      simp (disch := omega) only [coe_ofNat, coe_mul, coe_add, coe_div_of_nonneg, int_coe]
    have hline3 : int ((a : CInt 32) - b * 146097 / 4) = some c := by
      rw [← hc]
      simp (disch := omega) only [coe_ofNat, coe_mul, coe_sub, coe_div_of_nonneg, int_coe]
    have hline4 : int ((4 * (c : CInt 32) + 3) / 1461) = some d := by
      rw [← hd]
      simp (disch := omega) only [coe_ofNat, coe_mul, coe_add, coe_div_of_nonneg, int_coe]
    have hline5 : int ((c : CInt 32) - 1461 * d / 4) = some e := by
      rw [← he]
      simp (disch := omega) only [coe_ofNat, coe_mul, coe_sub, coe_div_of_nonneg, int_coe]
    have hline6 : int ((5 * (e : CInt 32) + 2) / 153) = some m := by
      rw [← hm]
      simp (disch := omega) only [coe_ofNat, coe_mul, coe_add, coe_div_of_nonneg, int_coe]
    have hday : int ((e : CInt 32) - (153 * m + 2) / 5 + 1) = some (e - monthStart m + 1) := by
      unfold monthStart
      simp (disch := omega) only [coe_ofNat, coe_mul, coe_add, coe_sub, coe_div_of_nonneg, int_coe]
    have hmonth : int ((m : CInt 32) + 3 - 12 * (m / 10)) = some (m + 3 - 12 * (m / 10)) := by
      simp (disch := omega) only [coe_ofNat, coe_mul, coe_add, coe_sub, coe_div_of_nonneg, int_coe]
    have hyear : int ((b : CInt 32) * 100 + d - 4800 + m / 10) =
        some (100 * b + d - 4800 + m / 10) := by
      rw [Int.mul_comm 100 b]
      simp (disch := omega) only [coe_ofNat, coe_mul, coe_add, coe_sub, coe_div_of_nonneg, int_coe]
    unfold getYearMonthDay
    simp only [hline1, hline2, hline3, hline4, hline5, hline6, hday, hmonth, hyear,
      Option.bind_eq_bind, Option.bind_some]
    rfl
  · rw [dayNumber_ofMarch e hin.month, hstart]
    omega

/-- Years of dates in the span. -/
theorem marchYear_bounds {c : Gregorian.Date} (hc : c.Valid) (h : InSpan c.dayNumber) :
    -4800 ≤ c.marchYear ∧ c.marchYear ≤ 1470000 := by
  have hi := hc.inMonth
  obtain ⟨he0, -⟩ := hi.day_bounds
  have hlast := hi.year
  obtain ⟨h0, h1⟩ : InSpan (yearStart c.marchYear + c.marchDay - 719468) := h
  constructor
  · by_contra hlt
    have hstart := yearStart_le (Int.not_le.mp hlt)
    have h4800 : yearStart (-4800) = -1753164 := rfl
    omega
  · unfold yearStart at h1
    omega

theorem getJulianDayNumber_eq {c : Gregorian.Date} (hc : c.Valid) (h : InSpan c.dayNumber) :
    getJulianDayNumber c.year c.month c.day = some (c.dayNumber + 2440588) := by
  obtain ⟨hy0, hy1⟩ := marchYear_bounds hc h
  obtain ⟨hday, hday'⟩ : 1 ≤ c.day ∧ c.day ≤ 31 :=
    ⟨hc.day.1, Int.le_trans hc.day.2 (daysInMonth_bounds _ _).2⟩
  obtain ⟨hm, hm'⟩ := hc.month
  obtain ⟨hm0, hm1⟩ := hc.inMonth.month
  have hyear : yearStart (c.marchYear + 4800) = yearStart c.marchYear + 1753164 :=
    yearStart_add c.marchYear 12
  generalize ha : (14 - c.month) / 12 = a
  have hline1 : int ((14 - (c.month : CInt 32)) / 12) = some a := by
    rw [← ha]
    simp (disch := omega) only [coe_ofNat, coe_sub, coe_div_of_nonneg, int_coe]
  have hline2 : int ((c.year : CInt 32) + 4800 - a) = some (c.marchYear + 4800) := by
    have hy : c.year + 4800 - a = c.marchYear + 4800 := by
      unfold Gregorian.Date.marchYear
      split <;> omega
    rw [← hy]
    simp (disch := omega) only [coe_ofNat, coe_add, coe_sub, int_coe]
  have hline3 : int ((c.month : CInt 32) + 12 * a - 3) = some c.marchMonth := by
    have hmonth : c.month + 12 * a - 3 = c.marchMonth := by
      unfold Gregorian.Date.marchMonth
      split <;> omega
    rw [← hmonth]
    simp (disch := omega) only [coe_ofNat, coe_add, coe_mul, coe_sub, int_coe]
  unfold getJulianDayNumber
  simp only [hline1, hline2, hline3, Option.bind_eq_bind, Option.bind_some]
  unfold Gregorian.Date.dayNumber Gregorian.Date.marchDay
  unfold yearStart at hyear
  unfold monthStart
  generalize hY : c.marchYear + 4800 = Y at hyear ⊢
  simp (disch := omega) only [coe_ofNat, coe_add, coe_mul, coe_sub, coe_div_of_nonneg, int_coe]
  refine congrArg some ?_
  unfold yearStart
  omega

end Date

end Mymuduo
