import Mathlib.Tactic.IntervalCases

/-!
# The Gregorian calendar

Dates of the Gregorian calendar, extended to all years (year 0 precedes year 1). `Date.next` walks
the calendar day by day, and `Date.dayNumber` counts the days from 1970-01-01, so it grows by one
with each (`Date.dayNumber_next`), no two dates share it (`Date.dayNumber_inj`) and a later date has
a greater one (`Date.dayNumber_lt_iff`). `Date.ofDayNumber` is the way back.

The count goes by years that begin on the first of March, so that a leap day is the last of its
year: `yearStart` and `monthStart` are the days before a year and before a month of it, and a day
is a year, a month and the day of the year, `e` (`ofMarch`). `march_of_day` finds them from the count:
the century `b`, the year `d` of the century and the month `m` by one division each.
-/

namespace Gregorian

/-- A date: months and days count from one. -/
structure Date where
  year : Int
  month : Int
  day : Int
  deriving DecidableEq, Repr

/-- Every fourth year is a leap year, the centuries not divisible by 400 excepted. -/
def IsLeap (year : Int) : Prop := year % 4 = 0 ∧ (year % 100 ≠ 0 ∨ year % 400 = 0)

instance (year : Int) : Decidable (IsLeap year) := inferInstanceAs (Decidable (_ ∧ _))

def daysInMonth (year month : Int) : Int :=
  if month = 2 then
    if IsLeap year then 29 else 28
  else if month = 4 ∨ month = 6 ∨ month = 9 ∨ month = 11 then 30
  else 31

/-- A date that the calendar has. -/
structure Date.Valid (c : Date) : Prop where
  month : 1 ≤ c.month ∧ c.month ≤ 12
  day : 1 ≤ c.day ∧ c.day ≤ daysInMonth c.year c.month

/-- The day after. -/
def Date.next (c : Date) : Date :=
  if c.day < daysInMonth c.year c.month then ⟨c.year, c.month, c.day + 1⟩
  else if c.month < 12 then ⟨c.year, c.month + 1, 1⟩
  else ⟨c.year + 1, 1, 1⟩

/-! ## Years from March -/

/-- The days before the first of March of a year, from that of year 0. -/
def yearStart (y : Int) : Int := 365 * y + y / 4 - y / 100 + y / 400

/-- The days before month `m` of a year from March, with March as month 0. -/
def monthStart (m : Int) : Int := (153 * m + 2) / 5

/-- The year from March in which a date lies. -/
def Date.marchYear (c : Date) : Int := if c.month < 3 then c.year - 1 else c.year

def Date.marchMonth (c : Date) : Int := if c.month < 3 then c.month + 9 else c.month - 3

/-- The day of the year from March, the first being day 0. -/
def Date.marchDay (c : Date) : Int := monthStart c.marchMonth + c.day - 1

/-- The days from 1970-01-01. -/
def Date.dayNumber (c : Date) : Int := yearStart c.marchYear + c.marchDay - 719468

/-- The date in month `m` and on day `e` of a year from March. -/
def ofMarch (y m e : Int) : Date := ⟨y + m / 10, m + 3 - 12 * (m / 10), e - monthStart m + 1⟩

theorem yearStart_succ (y : Int) :
    yearStart (y + 1) = yearStart y + if IsLeap (y + 1) then 366 else 365 := by
  unfold yearStart
  by_cases h : IsLeap (y + 1)
  · rw [if_pos h]
    unfold IsLeap at h
    omega
  · rw [if_neg h]
    unfold IsLeap at h
    omega

theorem yearStart_le {y y' : Int} (h : y < y') : yearStart (y + 1) ≤ yearStart y' := by
  unfold yearStart
  omega

theorem yearLength (y : Int) :
    365 ≤ yearStart (y + 1) - yearStart y ∧ yearStart (y + 1) - yearStart y ≤ 366 := by
  unfold yearStart
  omega

/-- The months of a year from March are as long as those of the calendar, but for the last. -/
theorem daysInMonth_eq (y : Int) {m : Int} (h0 : 0 ≤ m) (h : m < 11) :
    daysInMonth (y + m / 10) (m + 3 - 12 * (m / 10)) = monthStart (m + 1) - monthStart m := by
  interval_cases m <;> rfl

theorem daysInMonth_last (y : Int) :
    daysInMonth (y + 1) 2 = yearStart (y + 1) - yearStart y - monthStart 11 := by
  rw [yearStart_succ]
  unfold daysInMonth
  rw [if_pos rfl]
  show _ = _ - 337
  split
  · omega
  · omega

/-- Where a valid day lies in its year from March. -/
structure InMonth (y m e : Int) : Prop where
  month : 0 ≤ m ∧ m ≤ 11
  start : monthStart m ≤ e
  before : m < 11 → e < monthStart (m + 1)
  year : e < yearStart (y + 1) - yearStart y

theorem InMonth.day_bounds {y m e : Int} (h : InMonth y m e) : 0 ≤ e ∧ e ≤ 365 := by
  have h0 : 0 ≤ monthStart m := by
    have := h.month.1
    unfold monthStart
    omega
  have h1 : e < 366 := Int.lt_of_lt_of_le h.year (yearLength y).2
  exact ⟨Int.le_trans h0 h.start, Int.lt_add_one_iff.mp h1⟩

theorem monthStart_le {m m' : Int} (h : m < m') : monthStart (m + 1) ≤ monthStart m' := by
  unfold monthStart
  omega

theorem Date.ofMarch_march (c : Date) (h : 1 ≤ c.month ∧ c.month ≤ 12) :
    ofMarch c.marchYear c.marchMonth c.marchDay = c := by
  obtain ⟨y, m, d⟩ := c
  obtain ⟨h1, h2⟩ : 1 ≤ m ∧ m ≤ 12 := h
  unfold ofMarch marchDay marchYear marchMonth
  simp only [Date.mk.injEq]
  split
  · omega
  · omega

/-- A month and a day of a year from March make a valid date exactly if the day is in the month. -/
theorem ofMarch_valid_iff {y m e : Int} (hm : 0 ≤ m ∧ m ≤ 11) :
    (ofMarch y m e).Valid ↔ InMonth y m e := by
  have hlen := yearLength y
  have hlast := daysInMonth_last y
  have hmonth : 1 ≤ m + 3 - 12 * (m / 10) ∧ m + 3 - 12 * (m / 10) ≤ 12 := by omega
  rcases Int.lt_or_eq_of_le hm.2 with h | rfl
  · have hday := daysInMonth_eq y hm.1 h
    have hend : monthStart (m + 1) ≤ 337 := by unfold monthStart; omega
    constructor
    · rintro ⟨-, hd⟩
      have hd' : 1 ≤ e - monthStart m + 1 ∧
          e - monthStart m + 1 ≤ daysInMonth (y + m / 10) (m + 3 - 12 * (m / 10)) := hd
      exact ⟨hm, by omega, fun _ => by omega, by omega⟩
    · intro hi
      have hb := hi.before h
      have hs := hi.start
      refine ⟨hmonth, ?_⟩
      show 1 ≤ e - monthStart m + 1 ∧
        e - monthStart m + 1 ≤ daysInMonth (y + m / 10) (m + 3 - 12 * (m / 10))
      omega
  · have hstart : monthStart 11 = 337 := rfl
    constructor
    · rintro ⟨-, hd⟩
      have hd' : 1 ≤ e - monthStart 11 + 1 ∧ e - monthStart 11 + 1 ≤ daysInMonth (y + 1) 2 := hd
      exact ⟨hm, by omega, fun h => absurd h (by decide), by omega⟩
    · intro hi
      have hs := hi.start
      have hy := hi.year
      refine ⟨hmonth, ?_⟩
      show 1 ≤ e - monthStart 11 + 1 ∧ e - monthStart 11 + 1 ≤ daysInMonth (y + 1) 2
      omega

theorem Date.Valid.inMonth {c : Date} (h : c.Valid) :
    InMonth c.marchYear c.marchMonth c.marchDay := by
  have hm : 0 ≤ c.marchMonth ∧ c.marchMonth ≤ 11 := by
    have := h.month
    unfold marchMonth
    split <;> omega
  rw [← ofMarch_valid_iff hm, c.ofMarch_march h.month]
  exact h

theorem dayNumber_ofMarch {y m : Int} (e : Int) (hm : 0 ≤ m ∧ m ≤ 11) :
    (ofMarch y m e).dayNumber = yearStart y + e - 719468 := by
  have hy : (ofMarch y m e).marchYear = y := by
    show (if m + 3 - 12 * (m / 10) < 3 then y + m / 10 - 1 else y + m / 10) = y
    split <;> omega
  have hmonth : (ofMarch y m e).marchMonth = m := by
    show (if m + 3 - 12 * (m / 10) < 3 then m + 3 - 12 * (m / 10) + 9
      else m + 3 - 12 * (m / 10) - 3) = m
    split <;> omega
  unfold Date.dayNumber Date.marchDay
  rw [hy, hmonth]
  show yearStart y + (monthStart m + (e - monthStart m + 1) - 1) - 719468 = _
  omega

/-! ## Counting days -/

/-- The day number determines the date. -/
theorem Date.dayNumber_inj {c c' : Date} (h : c.Valid) (h' : c'.Valid)
    (heq : c.dayNumber = c'.dayNumber) : c = c' := by
  have year_le : ∀ {c c' : Date}, c.Valid → c'.Valid → c.dayNumber = c'.dayNumber →
      c'.marchYear ≤ c.marchYear := by
    intro c c' h h' heq
    by_contra hlt
    have hstart := yearStart_le (Int.not_le.mp hlt)
    have hi := h.inMonth.year
    have hi' := h'.inMonth.start
    have h0 : 0 ≤ monthStart c'.marchMonth := by
      have := h'.inMonth.month.1
      unfold monthStart
      omega
    unfold dayNumber at heq
    omega
  have hy : c.marchYear = c'.marchYear := Int.le_antisymm (year_le h' h heq.symm) (year_le h h' heq)
  have he : c.marchDay = c'.marchDay := by
    unfold dayNumber at heq
    rw [hy] at heq
    omega
  have month_le : ∀ {c c' : Date}, c.Valid → c'.Valid → c.marchDay = c'.marchDay →
      c'.marchMonth ≤ c.marchMonth := by
    intro c c' h h' he
    by_contra hlt
    have hlt := Int.not_le.mp hlt
    have hbefore := h.inMonth.before (Int.lt_of_lt_of_le hlt h'.inMonth.month.2)
    exact absurd (Int.lt_of_lt_of_le hbefore (monthStart_le hlt))
      (Int.not_lt.mpr (he ▸ h'.inMonth.start))
  have hm : c.marchMonth = c'.marchMonth :=
    Int.le_antisymm (month_le h' h he.symm) (month_le h h' he)
  rw [← c.ofMarch_march h.month, ← c'.ofMarch_march h'.month, hy, hm, he]

/-- The day numbers grow with the months, and in a month with the days. -/
theorem Date.dayNumber_lt {c c' : Date} (h : c.Valid) (h' : c'.Valid)
    (hlt : 12 * c.year + c.month < 12 * c'.year + c'.month ∨
      c.year = c'.year ∧ c.month = c'.month ∧ c.day < c'.day) : c.dayNumber < c'.dayNumber := by
  have hi := h.inMonth
  have hi' := h'.inMonth
  have hyear := hi.year
  have hstart' := hi'.start
  have hmonths : ∀ {c : Date}, c.Valid →
      12 * c.marchYear + c.marchMonth = 12 * c.year + c.month - 3 := by
    intro c h
    unfold marchYear marchMonth
    split <;> omega
  rcases hlt with hlt | ⟨hy, hm, hd⟩
  · have heq := hmonths h
    have heq' := hmonths h'
    have hbounds := hi.month
    have hbounds' := hi'.month
    by_cases hsame : c.marchYear = c'.marchYear
    · have hmonth : c.marchMonth < c'.marchMonth := by omega
      have hbefore := hi.before (Int.lt_of_lt_of_le hmonth hbounds'.2)
      have hle := monthStart_le hmonth
      unfold dayNumber
      rw [hsame]
      omega
    · have hlater : c.marchYear < c'.marchYear := by omega
      have hle := yearStart_le hlater
      have h0 : 0 ≤ monthStart c'.marchMonth := by
        unfold monthStart
        omega
      unfold dayNumber
      omega
  · have hmarch : c.marchYear = c'.marchYear ∧ c.marchMonth = c'.marchMonth := by
      unfold marchYear marchMonth
      rw [hy, hm]
      exact ⟨rfl, rfl⟩
    unfold dayNumber marchDay
    rw [hmarch.1, hmarch.2]
    omega

/-- The days count as the dates do: by years, months and days. -/
theorem Date.dayNumber_lt_iff {c c' : Date} (h : c.Valid) (h' : c'.Valid) :
    c.dayNumber < c'.dayNumber ↔ c.year < c'.year ∨ c.year = c'.year ∧
      (c.month < c'.month ∨ c.month = c'.month ∧ c.day < c'.day) := by
  have hm := h.month
  have hm' := h'.month
  constructor
  · intro hlt
    by_contra hnot
    have hback : 12 * c'.year + c'.month < 12 * c.year + c.month ∨
        c'.year = c.year ∧ c'.month = c.month ∧ c'.day < c.day ∨ c = c' := by
      obtain ⟨y, m, d⟩ := c
      obtain ⟨y', m', d'⟩ := c'
      simp only [Date.mk.injEq] at hm hm' hnot ⊢
      omega
    rcases hback with hback | hback | rfl
    · exact absurd hlt (Int.lt_asymm (dayNumber_lt h' h (.inl hback)))
    · exact absurd hlt (Int.lt_asymm (dayNumber_lt h' h (.inr hback)))
    · exact Int.lt_irrefl _ hlt
  · intro hlt
    refine dayNumber_lt h h' ?_
    omega

theorem daysInMonth_bounds (y m : Int) : 28 ≤ daysInMonth y m ∧ daysInMonth y m ≤ 31 := by
  unfold daysInMonth
  repeat' split
  all_goals decide

theorem Date.Valid.next {c : Date} (h : c.Valid) : c.next.Valid := by
  obtain ⟨⟨hm, hm'⟩, hd, -⟩ := h
  have first (y m : Int) : 1 ≤ daysInMonth y m :=
    Int.le_trans (by decide : (1 : Int) ≤ 28) (daysInMonth_bounds y m).1
  unfold Date.next
  split
  · rename_i hlt
    exact ⟨⟨hm, hm'⟩, Int.le_add_one hd, hlt⟩
  · split
    · rename_i hlt
      exact ⟨⟨Int.le_add_one hm, hlt⟩, Int.le_refl 1, first _ _⟩
    · exact ⟨⟨Int.le_refl 1, (by decide : (1 : Int) ≤ 12)⟩, Int.le_refl 1, first _ _⟩

/-- The day after the last of a month is the first of the next. -/
theorem dayNumber_nextMonth (y : Int) {m : Int} (hm : 1 ≤ m) (hm' : m < 12) :
    (Date.mk y (m + 1) 1).dayNumber = (Date.mk y m (daysInMonth y m)).dayNumber + 1 := by
  unfold Date.dayNumber Date.marchDay
  rcases Int.lt_trichotomy m 2 with h | rfl | h
  · obtain rfl : m = 1 := by omega
    show yearStart (y - 1) + (337 + 1 - 1) - 719468 =
      yearStart (y - 1) + (306 + 31 - 1) - 719468 + 1
    omega
  · have hlast := daysInMonth_last (y - 1)
    have h337 : monthStart 11 = 337 := rfl
    rw [Int.sub_add_cancel, h337] at hlast
    show yearStart y + (0 + 1 - 1) - 719468 =
      yearStart (y - 1) + (337 + daysInMonth y 2 - 1) - 719468 + 1
    omega
  · have hlen : daysInMonth y m = monthStart (m - 3 + 1) - monthStart (m - 3) := by
      interval_cases m <;> rfl
    have hy : (Date.mk y (m + 1) 1).marchYear = (Date.mk y m (daysInMonth y m)).marchYear := by
      unfold Date.marchYear
      rw [if_neg (by show ¬ m + 1 < 3; omega), if_neg (by show ¬ m < 3; omega)]
    have hnext : (Date.mk y (m + 1) 1).marchMonth = m - 3 + 1 := by
      unfold Date.marchMonth
      rw [if_neg (by show ¬ m + 1 < 3; omega)]
      show m + 1 - 3 = m - 3 + 1
      omega
    have hmonth : (Date.mk y m (daysInMonth y m)).marchMonth = m - 3 := by
      unfold Date.marchMonth
      rw [if_neg (by show ¬ m < 3; omega)]
    rw [hy, hnext, hmonth]
    dsimp only
    omega

/-- Each day's number is one more than that of the day before. -/
theorem Date.dayNumber_next {c : Date} (h : c.Valid) : c.next.dayNumber = c.dayNumber + 1 := by
  obtain ⟨y, m, d⟩ := c
  obtain ⟨⟨hm, hm'⟩, -, hd⟩ : (1 ≤ m ∧ m ≤ 12) ∧ 1 ≤ d ∧ d ≤ daysInMonth y m := ⟨h.month, h.day⟩
  unfold next
  split
  · unfold dayNumber marchDay marchYear marchMonth
    dsimp only
    omega
  · rename_i hlast
    obtain rfl : d = daysInMonth y m := Int.le_antisymm hd (Int.not_lt.mp hlast)
    split
    · rename_i hlt
      exact dayNumber_nextMonth y hm hlt
    · rename_i hdec
      obtain rfl : m = 12 := Int.le_antisymm hm' (Int.not_lt.mp hdec)
      show yearStart (y + 1 - 1) + (306 + 1 - 1) - 719468 =
        yearStart y + (275 + 31 - 1) - 719468 + 1
      rw [Int.add_sub_cancel]
      omega

theorem dayNumber_january (y : Int) :
    (Date.mk y 1 1).dayNumber = yearStart (y - 1) + 306 - 719468 := rfl

/-- No day of a year is before the first of January. -/
theorem Date.january_le {c : Date} (h : c.Valid) :
    (Date.mk c.year 1 1).dayNumber ≤ c.dayNumber := by
  have hi := h.inMonth
  rw [dayNumber_january]
  suffices yearStart (c.year - 1) + 306 ≤ yearStart c.marchYear + c.marchDay by
    unfold dayNumber
    omega
  by_cases hm : c.month < 3
  · have hyear : c.marchYear = c.year - 1 := if_pos hm
    have hmonth : c.marchMonth = c.month + 9 := if_pos hm
    have hstart := hi.start
    have h1 := h.month.1
    rw [hmonth] at hstart
    rw [hyear]
    unfold monthStart at hstart
    omega
  · have hyear : c.marchYear = c.year := if_neg hm
    have hlen := (yearLength (c.year - 1)).1
    rw [Int.sub_add_cancel] at hlen
    have hday := hi.day_bounds.1
    rw [hyear]
    omega

example : (Date.mk 1970 1 1).dayNumber = 0 := rfl

/-! ## Days as dates -/

theorem yearStart_century {b d : Int} (h0 : 0 ≤ d) (h : d ≤ 99) :
    yearStart (100 * b + d) = b * 146097 / 4 + 1461 * d / 4 := by
  have h4 : (100 * b + d) / 4 = 25 * b + d / 4 := by omega
  have h100 : (100 * b + d) / 100 = b := by omega
  have h400 : (100 * b + d) / 400 = b / 4 := by omega
  have hb : b * 146097 / 4 = 36524 * b + b / 4 := by omega
  have hd : 1461 * d / 4 = 365 * d + d / 4 := by omega
  unfold yearStart
  rw [h4, h100, h400, hb, hd]
  omega

theorem quarters (b : Int) : ∃ q, b = 4 * q ∨ b = 4 * q + 1 ∨ b = 4 * q + 2 ∨ b = 4 * q + 3 :=
  ⟨b / 4, by omega⟩

/-- The century of a day: only every fourth ends with a leap day. -/
theorem century {a b c : Int} (hb : (4 * a + 3) / 146097 = b) (hc : a - b * 146097 / 4 = c) :
    0 ≤ c ∧ c ≤ 36524 ∧ (c = 36524 → b % 4 = 3) := by
  obtain ⟨q, rfl | rfl | rfl | rfl⟩ := quarters b
  all_goals omega

/-- The year of a day of a century. -/
theorem yearOfCentury {c d e : Int} (h0 : 0 ≤ c) (h : c ≤ 36524) (hd : (4 * c + 3) / 1461 = d)
    (he : c - 1461 * d / 4 = e) :
    (0 ≤ d ∧ d ≤ 99) ∧ 0 ≤ e ∧ e ≤ 365 ∧ (e = 365 → d % 4 = 3 ∧ (d = 99 → c = 36524)) := by
  obtain ⟨q, rfl | rfl | rfl | rfl⟩ := quarters d
  all_goals omega

theorem month {e m : Int} (h0 : 0 ≤ e) (h : e ≤ 365) (hm : (5 * e + 2) / 153 = m) :
    (0 ≤ m ∧ m ≤ 11) ∧ monthStart m ≤ e ∧ (m < 11 → e < monthStart (m + 1)) := by
  unfold monthStart
  omega

theorem isLeap_century {b d : Int} (hd : 0 ≤ d ∧ d ≤ 99) :
    IsLeap (100 * b + d + 1) ↔ d % 4 = 3 ∧ (d = 99 → b % 4 = 3) := by
  have h4 : (100 * b + d + 1) % 4 = 0 ↔ d % 4 = 3 := by omega
  have h100 : (100 * b + d + 1) % 100 = 0 ↔ d = 99 := by omega
  have h400 : (100 * b + d + 1) % 400 = 0 ↔ d = 99 ∧ b % 4 = 3 := by omega
  unfold IsLeap
  rw [h4, h400, Ne, h100]
  tauto

/-- A day's century, its year, its month and its day. -/
theorem march_of_day {a b c d e m : Int} (hb : (4 * a + 3) / 146097 = b)
    (hc : a - b * 146097 / 4 = c) (hd : (4 * c + 3) / 1461 = d) (he : c - 1461 * d / 4 = e)
    (hm : (5 * e + 2) / 153 = m) :
    InMonth (100 * b + d) m e ∧ yearStart (100 * b + d) + e = a := by
  obtain ⟨hc0, hc1, hcb⟩ := century hb hc
  obtain ⟨hd01, he0, he1, hed⟩ := yearOfCentury hc0 hc1 hd he
  obtain ⟨hm, hstart, hbefore⟩ := month he0 he1 hm
  have hyear : yearStart (100 * b + d) = b * 146097 / 4 + 1461 * d / 4 :=
    yearStart_century hd01.1 hd01.2
  have hsum : yearStart (100 * b + d) + e = a := by
    rw [hyear, ← he, ← hc, Int.sub_sub, add_sub_cancel]
  refine ⟨⟨hm, hstart, hbefore, ?_⟩, hsum⟩
  rw [yearStart_succ, add_sub_cancel_left]
  split
  · exact Int.lt_add_one_of_le he1
  · rename_i hleap
    rw [isLeap_century hd01] at hleap
    exact lt_of_le_of_ne he1 fun h365 => hleap ⟨(hed h365).1, fun h99 => hcb ((hed h365).2 h99)⟩

/-- The date of a day number. -/
def Date.ofDayNumber (n : Int) : Date :=
  let a := n + 719468
  let b := (4 * a + 3) / 146097
  let c := a - b * 146097 / 4
  let d := (4 * c + 3) / 1461
  let e := c - 1461 * d / 4
  ofMarch (100 * b + d) ((5 * e + 2) / 153) e

theorem Date.ofDayNumber_spec (n : Int) :
    (ofDayNumber n).Valid ∧ (ofDayNumber n).dayNumber = n := by
  obtain ⟨hin, hdays⟩ := march_of_day (a := n + 719468) rfl rfl rfl rfl rfl
  refine ⟨(ofMarch_valid_iff hin.month).mpr hin, ?_⟩
  rw [ofDayNumber, dayNumber_ofMarch _ hin.month, hdays, Int.add_sub_cancel]

/-- The calendar repeats itself every 400 years. -/
theorem yearStart_add (y k : Int) : yearStart (y + 400 * k) = yearStart y + 146097 * k := by
  unfold yearStart
  omega

end Gregorian
