import Mymuduo.Base.Date
import Mymuduo.Lib.CString

/-!
# The UTC half of `base/TimeZone`

`toUtcTime` and `fromUtcTime` go through the Julian day number. Everything is computed in `int`, but
for the seconds since the epoch, and a function returns `none` when an `int` overflows in it.
`TimeZone.utc_bijection`: on the days of `Date.InSpan` the two are inverse to each other.
-/

namespace Mymuduo

open CInt CString Gregorian

/-- `struct tm`. -/
structure tm where
  tm_sec : Int
  tm_min : Int
  tm_hour : Int
  tm_mday : Int
  tm_mon : Int
  tm_year : Int
  tm_wday : Int
  tm_yday : Int
  tm_isdst : Int
  tm_gmtoff : Int
  tm_zone : Bytes
  deriving DecidableEq, Repr

namespace TimeZone

def kSecondsPerDay : Int := 24 * 60 * 60

/-- `memZero` on a `tm`. -/
def zeroed : tm := ⟨0, 0, 0, 0, 0, 0, 0, 0, 0, 0, []⟩

/-- `fillHMS`, on an `unsigned`. -/
def fillHMS (seconds : Nat) (utc : tm) : tm :=
  let minutes := seconds / 60
  { utc with
    tm_sec := toInt (seconds % 60 : Nat)
    tm_min := toInt (minutes % 60 : Nat)
    tm_hour := toInt (minutes / 60 : Nat) }

/-- The first lines of `toUtcTime`: the variables `seconds` and `days`. -/
def secondsAndDays (secondsSinceEpoch : Int) : Option (Int × Int) := do
  let seconds := toInt (← int64 (secondsSinceEpoch % kSecondsPerDay))
  let days := toInt (← int64 (secondsSinceEpoch / kSecondsPerDay))
  if seconds < 0 then
    return (← int (seconds + kSecondsPerDay), ← int (days - 1))
  else
    return (seconds, days)

def toUtcTime (secondsSinceEpoch : Int) (yday : Bool) : Option tm := do
  let utc := { zeroed with tm_zone := ascii "GMT" }
  let (seconds, days) ← secondsAndDays secondsSinceEpoch
  let utc := fillHMS (seconds % 2 ^ 32).toNat utc
  let date : Date := ⟨← int (days + Date.kJulianDayOf1970_01_01)⟩
  let ymd ← date.yearMonthDay
  let utc :=
    { utc with
      tm_year := ← int (ymd.year - 1900)
      tm_mon := ← int (ymd.month - 1)
      tm_mday := ymd.day
      tm_wday := ← date.weekDay }
  if yday then
    let startOfYear ← Date.ofYearMonthDay ymd.year 1 1
    return { utc with tm_yday := ← int (date.julianDayNumber_ - startOfYear.julianDayNumber_) }
  else
    return utc

/-- `fromUtcTime`, from the six numbers. -/
def fromUtcYmd (year month day hour minute seconds : Int) : Option Int := do
  let date ← Date.ofYearMonthDay year month day
  let secondsInDay ← int (hour * 3600 + minute * 60 + seconds)
  let days ← int (date.julianDayNumber_ - Date.kJulianDayOf1970_01_01)
  int64 (days * kSecondsPerDay + secondsInDay)

def fromUtcTime (utc : tm) : Option Int := do
  fromUtcYmd (← int (utc.tm_year + 1900)) (← int (utc.tm_mon + 1)) utc.tm_mday
    utc.tm_hour utc.tm_min utc.tm_sec

end TimeZone

/-! ## Civil times -/

/-- A civil time that the calendar and the clock have. -/
structure tm.Valid (utc : tm) : Prop where
  mon : 0 ≤ utc.tm_mon ∧ utc.tm_mon ≤ 11
  mday : 1 ≤ utc.tm_mday ∧ utc.tm_mday ≤ daysInMonth (utc.tm_year + 1900) (utc.tm_mon + 1)
  hour : 0 ≤ utc.tm_hour ∧ utc.tm_hour ≤ 23
  min : 0 ≤ utc.tm_min ∧ utc.tm_min ≤ 59
  sec : 0 ≤ utc.tm_sec ∧ utc.tm_sec ≤ 59

/-- The date of a `tm`, whose years count from 1900 and whose months from 0. -/
def tm.date (utc : tm) : Gregorian.Date := ⟨utc.tm_year + 1900, utc.tm_mon + 1, utc.tm_mday⟩

/-- The second of the day. -/
def tm.clock (utc : tm) : Int := utc.tm_hour * 3600 + utc.tm_min * 60 + utc.tm_sec

theorem tm.Valid.date {utc : tm} (h : utc.Valid) : utc.date.Valid :=
  ⟨⟨Int.le_add_of_sub_right_le h.mon.1, Int.add_le_add_right h.mon.2 1⟩, h.mday⟩

theorem tm.Valid.clock {utc : tm} (h : utc.Valid) : 0 ≤ utc.clock ∧ utc.clock < 86400 := by
  have hh := h.hour
  have hm := h.min
  have hs := h.sec
  unfold tm.clock
  omega

namespace TimeZone

theorem toInt_eq {z : Int} (h : Fits 32 z) : toInt z = z := by
  unfold toInt
  rw [Int.bmod_eq_of_le_mul_two]
  · omega
  · omega

/-- The quotient that truncates, one too large for the times before the epoch. -/
theorem tdiv_day (t : Int) :
    (t.tmod 86400 < 0 → t.tmod 86400 + 86400 = t % 86400 ∧ t.tdiv 86400 - 1 = t / 86400) ∧
      (¬ t.tmod 86400 < 0 → t.tmod 86400 = t % 86400 ∧ t.tdiv 86400 = t / 86400) ∧
        -86400 < t.tmod 86400 ∧ t.tmod 86400 < 86400 := by
  have hsum := Int.mul_tdiv_add_tmod t 86400
  have hlt := Int.tmod_lt_of_pos t (by decide : (0 : Int) < 86400)
  have hgt := Int.lt_tmod_of_pos t (by decide : (0 : Int) < 86400)
  omega

theorem secondsAndDays_eq {t : Int} (h : Date.InSpan (t / 86400)) :
    secondsAndDays t = some (t % 86400, t / 86400) := by
  obtain ⟨hneg, hpos, hlow, hhigh⟩ := tdiv_day t
  obtain ⟨h0, h1⟩ := h
  have hday : (kSecondsPerDay : Int) = 86400 := rfl
  have hq : -2472632 ≤ t.tdiv 86400 ∧ t.tdiv 86400 ≤ 534398280 := by
    by_cases hs : t.tmod 86400 < 0
    · have := (hneg hs).2
      omega
    · have := (hpos hs).2
      omega
  have hrem : int64 ((t : CInt 64) % kSecondsPerDay) = some (t.tmod 86400) := by
    rw [hday, coe_mod (by decide) (by omega) (by omega), int64_coe]
  have hquot : int64 ((t : CInt 64) / kSecondsPerDay) = some (t.tdiv 86400) := by
    rw [hday, coe_div (by decide) (by omega), int64_coe]
  unfold secondsAndDays
  have hrem' : toInt (t.tmod 86400) = t.tmod 86400 := toInt_eq (by omega)
  have hquot' : toInt (t.tdiv 86400) = t.tdiv 86400 := toInt_eq (by omega)
  simp only [hrem, hquot, hrem', hquot', Option.bind_eq_bind, Option.bind_some]
  split
  · rename_i hs
    obtain ⟨hs', hd⟩ := hneg hs
    rw [hday, coe_add (by omega), coe_ofNat, coe_sub (by omega), int_coe, int_coe, hs', hd]
    rfl
  · rename_i hs
    obtain ⟨hs', hd⟩ := hpos hs
    rw [hs', hd]
    rfl

theorem fillHMS_eq {s : Int} (h0 : 0 ≤ s) (h1 : s < 86400) (utc : tm) :
    fillHMS (s % 2 ^ 32).toNat utc =
      { utc with tm_sec := s % 60, tm_min := s / 60 % 60, tm_hour := s / 3600 } := by
  have hs : ((s % 2 ^ 32).toNat : Int) = s := by omega
  generalize (s % 2 ^ 32).toNat = n at hs
  subst hs
  show tm.mk (toInt (n % 60 : Nat)) (toInt (n / 60 % 60 : Nat)) (toInt (n / 60 / 60 : Nat))
    _ _ _ _ _ _ _ _ = _
  rw [toInt_eq (by omega), toInt_eq (by omega), toInt_eq (by omega), Nat.div_div_eq_div_mul]
  rfl

theorem weekDay_isSome {j : Int} (h : Fits 32 (j + 1)) :
    ∃ wday, Date.weekDay ⟨j⟩ = some wday := by
  obtain ⟨h0, h1⟩ := h
  have hsum := Int.mul_tdiv_add_tmod (j + 1) 7
  have hlt := Int.tmod_lt_of_pos (j + 1) (by decide : (0 : Int) < 7)
  have hgt := Int.lt_tmod_of_pos (j + 1) (by decide : (0 : Int) < 7)
  refine ⟨(j + 1).tmod 7, ?_⟩
  show int (((j : CInt 32) + 1) % ((7 : Int) : CInt 32)) = _
  rw [coe_ofNat, coe_add ⟨h0, h1⟩, coe_mod (by decide) (by omega) (by omega), int_coe]

/-- The first of January, which is outside the span for the first year of it. -/
theorem startOfYear_isSome {c : Gregorian.Date} (hc : c.Valid) (h : Date.InSpan c.dayNumber) :
    ∃ start, Date.ofYearMonthDay c.year 1 1 = some start ∧
      -32103 ≤ start.julianDayNumber_ ∧ start.julianDayNumber_ ≤ c.dayNumber + 2440588 := by
  obtain ⟨hy0, hy1⟩ := Date.marchYear_bounds hc h
  have hyear : -4800 ≤ c.year := by
    unfold Gregorian.Date.marchYear at hy0
    split at hy0 <;> omega
  have hle := Gregorian.Date.january_le hc
  rcases Int.lt_or_eq_of_le hyear with hlt | heq
  · have hvalid : (Gregorian.Date.mk c.year 1 1).Valid :=
      ⟨⟨Int.le_refl 1, (by decide : (1 : Int) ≤ 12)⟩, Int.le_refl 1, (by decide : (1 : Int) ≤ 31)⟩
    have h4800 : -1753164 ≤ yearStart (c.year - 1) := by
      have hfirst : yearStart (-4801 + 1) = -1753164 := rfl
      rw [← hfirst]
      exact yearStart_le (Int.lt_sub_right_of_add_lt hlt)
    have hnumber := dayNumber_january c.year
    have hspan : Date.InSpan (Gregorian.Date.mk c.year 1 1).dayNumber :=
      ⟨by omega, Int.le_trans hle h.2⟩
    refine ⟨⟨(Gregorian.Date.mk c.year 1 1).dayNumber + 2440588⟩, ?_, ?_, ?_⟩
    · unfold Date.ofYearMonthDay
      rw [Date.getJulianDayNumber_eq hvalid hspan]
      rfl
    · have := hspan.1
      show -32103 ≤ _ + 2440588
      omega
    · exact Int.add_le_add_right hle 2440588
  · have hlow := h.1
    rw [← heq]
    exact ⟨⟨-32103⟩, by decide, by decide, (by omega : -32103 ≤ c.dayNumber + 2440588)⟩

/-- The time on the clock, and the calendar's date of its day. -/
theorem toUtcTime_eq {t : Int} (h : Date.InSpan (t / 86400)) (yday : Bool) : ∃ utc,
    toUtcTime t yday = some utc ∧ utc.Valid ∧ utc.date.dayNumber = t / 86400 ∧
      utc.clock = t % 86400 := by
  obtain ⟨c, hc, hvalid, hn⟩ := Date.getYearMonthDay_eq h
  obtain ⟨hy0, hy1⟩ := Date.marchYear_bounds hvalid (hn ▸ h)
  have hclock0 : 0 ≤ t % 86400 := Int.emod_nonneg t (by decide)
  have hclock1 : t % 86400 < 86400 := Int.emod_lt_of_pos t (by decide)
  have hy : -4800 ≤ c.year ∧ c.year ≤ 1470001 := by
    unfold Gregorian.Date.marchYear at hy0 hy1
    split at hy0 <;> omega
  obtain ⟨h0, h1⟩ := id h
  obtain ⟨hm, hm'⟩ := hvalid.month
  have hjulian : int (((t / 86400 : Int) : CInt 32) + Date.kJulianDayOf1970_01_01) =
      some (t / 86400 + 2440588) := by
    rw [Date.kJulianDay, coe_add (by omega), int_coe]
  have hyear : int ((c.year : CInt 32) - 1900) = some (c.year - 1900) := by
    rw [coe_ofNat, coe_sub (by omega), int_coe]
  have hmon : int ((c.month : CInt 32) - 1) = some (c.month - 1) := by
    rw [coe_ofNat, coe_sub (by omega), int_coe]
  obtain ⟨wday, hwday⟩ := weekDay_isSome (j := t / 86400 + 2440588) (by omega)
  obtain ⟨start, hstart, hstart0, hstart1⟩ := startOfYear_isSome hvalid (hn ▸ h)
  obtain ⟨days, hutc⟩ : ∃ days, toUtcTime t yday = some
      ⟨t % 86400 % 60, t % 86400 / 60 % 60, t % 86400 / 3600, c.day, c.month - 1, c.year - 1900,
        wday, days, 0, 0, ascii "GMT"⟩ := by
    unfold toUtcTime
    simp only [secondsAndDays_eq h, hjulian, Date.yearMonthDay, hc, hyear, hmon, hwday, hstart,
      Option.bind_eq_bind, Option.bind_some, fillHMS_eq hclock0 hclock1, Option.pure_def]
    cases yday
    · exact ⟨0, rfl⟩
    · refine ⟨t / 86400 + 2440588 - start.julianDayNumber_, ?_⟩
      rw [coe_sub (by omega), int_coe]
      rfl
  have hdate : Gregorian.Date.mk (c.year - 1900 + 1900) (c.month - 1 + 1) c.day = c := by
    rw [Int.sub_add_cancel, Int.sub_add_cancel]
  refine ⟨_, hutc, ⟨?_, ?_, ?_, ?_, ?_⟩, (congrArg _ hdate).trans hn, ?_⟩
  · exact ⟨Int.le_sub_right_of_add_le hm, Int.sub_left_le_of_le_add hm'⟩
  · have := hvalid.day
    rwa [← hdate] at this
  · show 0 ≤ t % 86400 / 3600 ∧ t % 86400 / 3600 ≤ 23
    omega
  · show 0 ≤ t % 86400 / 60 % 60 ∧ t % 86400 / 60 % 60 ≤ 59
    omega
  · show 0 ≤ t % 86400 % 60 ∧ t % 86400 % 60 ≤ 59
    omega
  · show t % 86400 / 3600 * 3600 + t % 86400 / 60 % 60 * 60 + t % 86400 % 60 = t % 86400
    omega

theorem fromUtcTime_eq {utc : tm} (h : utc.Valid) (hspan : Date.InSpan utc.date.dayNumber) :
    fromUtcTime utc = some (utc.date.dayNumber * 86400 + utc.clock) := by
  have hj := Date.getJulianDayNumber_eq h.date hspan
  obtain ⟨hy0, hy1⟩ := Date.marchYear_bounds h.date hspan
  obtain ⟨h0, h1⟩ := hspan
  obtain ⟨hmon, hmon'⟩ := h.mon
  have hh := h.hour
  have hm := h.min
  have hs := h.sec
  have hy : -6700 ≤ utc.tm_year ∧ utc.tm_year ≤ 1500000 := by
    unfold Gregorian.Date.marchYear at hy0 hy1
    have hdate : utc.date.year = utc.tm_year + 1900 := rfl
    split at hy0 <;> omega
  have hyear : int ((utc.tm_year : CInt 32) + 1900) = some utc.date.year := by
    simp (disch := omega) only [coe_ofNat, coe_add, int_coe, tm.date]
  have hmonth : int ((utc.tm_mon : CInt 32) + 1) = some utc.date.month := by
    simp (disch := omega) only [coe_ofNat, coe_add, int_coe, tm.date]
  have hclock : int ((utc.tm_hour : CInt 32) * 3600 + utc.tm_min * 60 + utc.tm_sec) =
      some utc.clock := by
    simp (disch := omega) only [coe_ofNat, coe_add, coe_mul, int_coe, tm.clock]
  have hdays : int (((utc.date.dayNumber + 2440588 : Int) : CInt 32) -
      Date.kJulianDayOf1970_01_01) = some utc.date.dayNumber := by
    rw [Date.kJulianDay]
    simp (disch := omega) only [coe_sub, int_coe]
    exact congrArg some (Int.add_sub_cancel _ _)
  have hclock' := h.clock
  unfold fromUtcTime fromUtcYmd Date.ofYearMonthDay
  have hmday : utc.tm_mday = utc.date.day := rfl
  simp only [hyear, hmonth, hmday, hj, hclock, hdays, Option.bind_eq_bind, Option.bind_some,
    Option.pure_def]
  show int64 (_ * (86400 : Int) + _) = _
  simp (disch := omega) only [coe_add, coe_mul, int64_coe]

theorem divmod_day {n s : Int} (h0 : 0 ≤ s) (h1 : s < 86400) :
    (n * 86400 + s) / 86400 = n ∧ (n * 86400 + s) % 86400 = s := by
  omega

/-- Two civil times on one day and at one second are one. -/
theorem eq_of_date_clock {utc utc' : tm} (h : utc.Valid) (h' : utc'.Valid)
    (hdate : utc.date = utc'.date) (hclock : utc.clock = utc'.clock) :
    utc.tm_year = utc'.tm_year ∧ utc.tm_mon = utc'.tm_mon ∧ utc.tm_mday = utc'.tm_mday ∧
      utc.tm_hour = utc'.tm_hour ∧ utc.tm_min = utc'.tm_min ∧ utc.tm_sec = utc'.tm_sec := by
  have hm := h.min
  have hm' := h'.min
  have hs := h.sec
  have hs' := h'.sec
  unfold tm.clock at hclock
  obtain ⟨hy, hmon, hday⟩ := Gregorian.Date.mk.inj hdate
  have hminute : utc.tm_min = utc'.tm_min := by omega
  exact ⟨(Int.add_left_inj 1900).mp hy, (Int.add_left_inj 1).mp hmon, hday, by omega, hminute,
    by omega⟩

/-- On the day numbers of the span `toUtcTime` and `fromUtcTime` are inverse to each other, no `int`
overflows on the way, and the days follow the calendar. -/
theorem utc_bijection :
    (∀ t yday, Date.InSpan (t / 86400) → ∃ utc, toUtcTime t yday = some utc ∧ utc.Valid ∧
      fromUtcTime utc = some t) ∧
    (∀ utc : tm, utc.Valid → Date.InSpan utc.date.dayNumber → ∀ yday, ∃ t utc',
      fromUtcTime utc = some t ∧ toUtcTime t yday = some utc' ∧
        utc'.tm_year = utc.tm_year ∧ utc'.tm_mon = utc.tm_mon ∧ utc'.tm_mday = utc.tm_mday ∧
        utc'.tm_hour = utc.tm_hour ∧ utc'.tm_min = utc.tm_min ∧ utc'.tm_sec = utc.tm_sec) ∧
    (∀ t t' yday, Date.InSpan (t / 86400) → Date.InSpan (t' / 86400) → t' / 86400 = t / 86400 + 1 →
      ∃ utc utc', toUtcTime t yday = some utc ∧ toUtcTime t' yday = some utc' ∧
        utc'.date = utc.date.next) := by
  refine ⟨fun t yday h => ?_, fun utc hutc h yday => ?_, fun t t' yday h h' hnext => ?_⟩
  · obtain ⟨utc, hto, hvalid, hday, hclock⟩ := toUtcTime_eq h yday
    refine ⟨utc, hto, hvalid, ?_⟩
    rw [fromUtcTime_eq hvalid (hday ▸ h), hday, hclock, Int.mul_comm, Int.mul_ediv_add_emod]
  · have hfrom := fromUtcTime_eq hutc h
    obtain ⟨hquot, hrem⟩ := divmod_day (n := utc.date.dayNumber) hutc.clock.1 hutc.clock.2
    obtain ⟨utc', hto, hvalid, hday, hclock⟩ := toUtcTime_eq (by rwa [hquot]) yday
    have hdate : utc'.date = utc.date :=
      Gregorian.Date.dayNumber_inj hvalid.date hutc.date (hday.trans hquot)
    exact ⟨_, utc', hfrom, hto, eq_of_date_clock hvalid hutc hdate (hclock.trans hrem)⟩
  · obtain ⟨utc, hto, hvalid, hday, -⟩ := toUtcTime_eq h yday
    obtain ⟨utc', hto', hvalid', hday', -⟩ := toUtcTime_eq h' yday
    refine ⟨utc, utc', hto, hto', ?_⟩
    apply Gregorian.Date.dayNumber_inj hvalid'.date hvalid.date.next
    rw [Gregorian.Date.dayNumber_next hvalid.date, hday, hday', hnext]

end TimeZone
end Mymuduo
