import Mymuduo.Lib.FixedWidth
import Mymuduo.Base.Timestamp
import Mymuduo.Base.UtcTime

/-!
# Times as texts

`Timestamp::toString` and `toFormattedString`, `Date::toIsoString` and the `strftime` of the log
file names. `gmtime_r` is that of the C library, which has the years of an `int`.

* `Timestamp.toString_read`: the text gives the timestamp back, also for times before the epoch.
* `Timestamp.toFormattedString_lt_iff`, `Date.toIsoString_lt_iff`: up to the year 9999 the texts
  sort as the times do.
-/

namespace Mymuduo

open CString Gregorian

/-! ## The C library -/

/-- The year of a second, counted from 1900, is an `int`. -/
def YearFits (t : Int) : Prop :=
  CInt.Fits 32 ((Gregorian.Date.ofDayNumber (t / 86400)).year - 1900)

instance (t : Int) : Decidable (YearFits t) := inferInstanceAs (Decidable (_ ∧ _))

/-- The date and the clock of a second. -/
def civilTime (t : Int) : tm :=
  let date := Gregorian.Date.ofDayNumber (t / 86400)
  { tm_sec := t % 60
    tm_min := t / 60 % 60
    tm_hour := t % 86400 / 3600
    tm_mday := date.day
    tm_mon := date.month - 1
    tm_year := date.year - 1900
    tm_wday := (t / 86400 + 4) % 7
    tm_yday := t / 86400 - (Gregorian.Date.mk date.year 1 1).dayNumber
    tm_isdst := 0
    tm_gmtoff := 0
    tm_zone := ascii "GMT" }

/-- `gmtime_r(3)`, which fails where the year is no `int`. The source does not look at the result;
what the `tm` holds then is taken to be zero, and nothing is said of such seconds. -/
def gmtime_r (t : Int) : tm := if YearFits t then civilTime t else TimeZone.zeroed

/-- `%4d` -/
def padded4 (z : Int) : Bytes := List.replicate (4 - (intText z).length) 32 ++ intText z

/-- `strftime` with `".%Y%m%d-%H%M%S."` -/
def strftime (t : tm) : Bytes :=
  ascii "." ++ (intText (t.tm_year + 1900) ++ zeroPaddedInt 2 (t.tm_mon + 1) ++
    zeroPaddedInt 2 t.tm_mday ++ ascii "-" ++ zeroPaddedInt 2 t.tm_hour ++
    zeroPaddedInt 2 t.tm_min ++ zeroPaddedInt 2 t.tm_sec) ++ ascii "."

/-! ## `Timestamp` and `Date` -/

namespace Timestamp

def toString (t : Timestamp) : Bytes :=
  let seconds := t.tdiv kMicroSecondsPerSecond
  let microseconds := t.tmod kMicroSecondsPerSecond
  snprintf 32 (intText seconds ++ ascii "." ++ zeroPaddedInt 6 microseconds)

/-- `"%4d%02d%02d %02d:%02d:%02d"` -/
def stamp (c : tm) : Bytes :=
  padded4 (c.tm_year + 1900) ++ zeroPaddedInt 2 (c.tm_mon + 1) ++ zeroPaddedInt 2 c.tm_mday ++
    ascii " " ++ zeroPaddedInt 2 c.tm_hour ++ ascii ":" ++ zeroPaddedInt 2 c.tm_min ++ ascii ":" ++
    zeroPaddedInt 2 c.tm_sec

def toFormattedString (t : Timestamp) (showMicroseconds : Bool) : Bytes :=
  let seconds := t.tdiv kMicroSecondsPerSecond
  let tm_time := gmtime_r seconds
  if showMicroseconds then
    let microseconds := t.tmod kMicroSecondsPerSecond
    snprintf 64 (stamp tm_time ++ ascii "." ++ zeroPaddedInt 6 microseconds)
  else snprintf 64 (stamp tm_time)

end Timestamp

namespace Date

def toIsoString (date : Date) : Option Bytes := do
  let ymd ← date.yearMonthDay
  return snprintf 32 (padded4 ymd.year ++ ascii "-" ++ zeroPaddedInt 2 ymd.month ++ ascii "-" ++
    zeroPaddedInt 2 ymd.day)

end Date

/-! ## Civil times -/

/-- The years of more than a thousand million years to either side of the epoch. -/
theorem yearFits_of_seconds {t : Int} (h : -2 ^ 55 ≤ t ∧ t < 2 ^ 55) : YearFits t := by
  obtain ⟨hvalid, hnumber⟩ := Gregorian.Date.ofDayNumber_spec (t / 86400)
  unfold YearFits
  generalize Gregorian.Date.ofDayNumber (t / 86400) = c at hvalid hnumber ⊢
  have hday := hvalid.inMonth.day_bounds
  have hmarch : c.year - 1 ≤ c.marchYear ∧ c.marchYear ≤ c.year := by
    unfold Gregorian.Date.marchYear
    split <;> omega
  unfold Gregorian.Date.dayNumber yearStart at hnumber
  show -2 ^ 31 ≤ c.year - 1900 ∧ c.year - 1900 < 2 ^ 31
  omega

theorem gmtime_spec {t : Int} (h : YearFits t) : (gmtime_r t).Valid ∧
    (gmtime_r t).date.dayNumber = t / 86400 ∧ (gmtime_r t).clock = t % 86400 := by
  rw [gmtime_r, if_pos h]
  obtain ⟨hvalid, hday⟩ := Gregorian.Date.ofDayNumber_spec (t / 86400)
  have hdate : (civilTime t).date = Gregorian.Date.ofDayNumber (t / 86400) := by
    unfold tm.date civilTime
    simp only [Int.sub_add_cancel]
  obtain ⟨hm, hd⟩ := hvalid
  refine ⟨⟨?_, ?_, ?_, ?_, ?_⟩, by rw [hdate, hday], ?_⟩
  · show 0 ≤ _ - 1 ∧ _ - 1 ≤ (11 : Int)
    omega
  · have hsame := hdate
    unfold tm.date at hsame
    obtain ⟨hy, hmon, -⟩ := Gregorian.Date.mk.inj hsame
    rw [hy, hmon]
    exact hd
  · show 0 ≤ t % 86400 / 3600 ∧ t % 86400 / 3600 ≤ 23
    omega
  · show 0 ≤ t / 60 % 60 ∧ t / 60 % 60 ≤ 59
    omega
  · show 0 ≤ t % 60 ∧ t % 60 ≤ 59
    omega
  · show t % 86400 / 3600 * 3600 + t / 60 % 60 * 60 + t % 60 = t % 86400
    omega

/-- The date and the clock compare field by field. -/
def tm.Before (c c' : tm) : Prop :=
  c.date.year < c'.date.year ∨ c.date.year = c'.date.year ∧
    (c.date.month < c'.date.month ∨ c.date.month = c'.date.month ∧
      (c.date.day < c'.date.day ∨ c.date.day = c'.date.day ∧
        (c.tm_hour < c'.tm_hour ∨ c.tm_hour = c'.tm_hour ∧
          (c.tm_min < c'.tm_min ∨ c.tm_min = c'.tm_min ∧ c.tm_sec < c'.tm_sec))))

/-- Times compare as their civil times do. -/
theorem gmtime_lt_iff {t t' : Int} (h : YearFits t) (h' : YearFits t') :
    t < t' ↔ (gmtime_r t).Before (gmtime_r t') := by
  obtain ⟨hvalid, hday, hclock⟩ := gmtime_spec h
  obtain ⟨hvalid', hday', hclock'⟩ := gmtime_spec h'
  generalize gmtime_r t = c at hvalid hday hclock ⊢
  generalize gmtime_r t' = c' at hvalid' hday' hclock' ⊢
  have hlt := Gregorian.Date.dayNumber_lt_iff hvalid.date hvalid'.date
  have heq : c.date.dayNumber = c'.date.dayNumber ↔ c.date.year = c'.date.year ∧
      c.date.month = c'.date.month ∧ c.date.day = c'.date.day := by
    constructor
    · intro h
      have hdate : c.date = c'.date := Gregorian.Date.dayNumber_inj hvalid.date hvalid'.date h
      rw [hdate]
      exact ⟨rfl, rfl, rfl⟩
    · rintro ⟨hy, hm, hd⟩
      rw [show c.date = ⟨c.date.year, c.date.month, c.date.day⟩ from rfl, hy, hm, hd]
  have hfields : c.clock < c'.clock ↔ c.tm_hour < c'.tm_hour ∨ c.tm_hour = c'.tm_hour ∧
      (c.tm_min < c'.tm_min ∨ c.tm_min = c'.tm_min ∧ c.tm_sec < c'.tm_sec) := by
    have hm := hvalid.min
    have hm' := hvalid'.min
    have hs := hvalid.sec
    have hs' := hvalid'.sec
    unfold tm.clock
    omega
  have htime : t < t' ↔ c.date.dayNumber < c'.date.dayNumber ∨
      c.date.dayNumber = c'.date.dayNumber ∧ c.clock < c'.clock := by
    rw [hday, hday', hclock, hclock']
    omega
  rw [htime, hlt, heq, hfields, tm.Before]
  simp only [and_or_left, or_assoc, and_assoc]

/-- The date and the clock are the same field by field. -/
def tm.Same (c c' : tm) : Prop :=
  c.date.year = c'.date.year ∧ c.date.month = c'.date.month ∧ c.date.day = c'.date.day ∧
    c.tm_hour = c'.tm_hour ∧ c.tm_min = c'.tm_min ∧ c.tm_sec = c'.tm_sec

theorem gmtime_eq_iff {t t' : Int} (h : YearFits t) (h' : YearFits t') :
    t = t' ↔ (gmtime_r t).Same (gmtime_r t') := by
  constructor
  · rintro rfl
    exact ⟨rfl, rfl, rfl, rfl, rfl, rfl⟩
  · rintro ⟨hy, hm, hd, hh, hmin, hs⟩
    have hnot : ¬ (gmtime_r t).Before (gmtime_r t') := by
      unfold tm.Before
      omega
    have hnot' : ¬ (gmtime_r t').Before (gmtime_r t) := by
      unfold tm.Before
      omega
    rw [← gmtime_lt_iff h h'] at hnot
    rw [← gmtime_lt_iff h' h] at hnot'
    exact Int.le_antisymm (Int.not_lt.mp hnot') (Int.not_lt.mp hnot)

/-- The first second of the year 10000. -/
def year10000 : Int := 253402300800

theorem yearFits_of_lt {t : Int} (h0 : 0 ≤ t) (h1 : t < year10000) : YearFits t :=
  yearFits_of_seconds ⟨Int.le_trans (by decide) h0, h1.trans (by decide)⟩

theorem gmtime_year {t : Int} (h0 : 0 ≤ t) (h1 : t < year10000) :
    1970 ≤ (gmtime_r t).date.year ∧ (gmtime_r t).date.year ≤ 9999 := by
  obtain ⟨hvalid, hday, -⟩ := gmtime_spec (yearFits_of_lt h0 h1)
  have hepoch : (⟨1970, 1, 1⟩ : Gregorian.Date).Valid := ⟨by decide, by decide⟩
  have hend : (⟨10000, 1, 1⟩ : Gregorian.Date).Valid := ⟨by decide, by decide⟩
  have hfirst := Gregorian.Date.dayNumber_lt_iff hvalid.date hepoch
  have hlast := Gregorian.Date.dayNumber_lt_iff hvalid.date hend
  have hnumber : (⟨1970, 1, 1⟩ : Gregorian.Date).dayNumber = 0 := by decide
  have hnumber' : (⟨10000, 1, 1⟩ : Gregorian.Date).dayNumber = 2932897 := by decide
  have hm := hvalid.date.month
  have hd := hvalid.date.day
  unfold year10000 at h1
  constructor
  · by_contra hearly
    have hbefore := hfirst.mpr (.inl (Int.not_le.mp hearly))
    rw [hday, hnumber] at hbefore
    omega
  · have hbefore : (gmtime_r t).date.dayNumber < (⟨10000, 1, 1⟩ : Gregorian.Date).dayNumber := by
      rw [hday, hnumber']
      omega
    have hcase := hlast.mp hbefore
    simp only at hcase
    omega

/-- Every number fits its field. -/
structure tm.Fits (c : tm) : Prop where
  year : 1970 ≤ c.date.year ∧ c.date.year ≤ 9999
  month : 0 ≤ c.date.month ∧ c.date.month < 100
  day : 0 ≤ c.date.day ∧ c.date.day < 100
  hour : 0 ≤ c.tm_hour ∧ c.tm_hour < 100
  min : 0 ≤ c.tm_min ∧ c.tm_min < 100
  sec : 0 ≤ c.tm_sec ∧ c.tm_sec < 100

theorem gmtime_fits {t : Int} (h0 : 0 ≤ t) (h1 : t < year10000) : (gmtime_r t).Fits := by
  obtain ⟨hvalid, -⟩ := gmtime_spec (yearFits_of_lt h0 h1)
  have hmax := (daysInMonth_bounds (gmtime_r t).date.year (gmtime_r t).date.month).2
  have hmonth := hvalid.date.month
  have hday := hvalid.date.day
  have hhour := hvalid.hour
  have hmin := hvalid.min
  have hsec := hvalid.sec
  exact ⟨gmtime_year h0 h1, by omega, by omega, by omega, by omega, by omega⟩

/-! ## Texts of civil times -/

/-- The six numbers with separators between them, and what follows. -/
def civilText (c : tm) (s₁ s₂ s₃ s₄ s₅ rest : Bytes) : Bytes :=
  zeroPadded 4 c.date.year.toNat ++ (s₁ ++ (zeroPadded 2 c.date.month.toNat ++ (s₂ ++
    (zeroPadded 2 c.date.day.toNat ++ (s₃ ++ (zeroPadded 2 c.tm_hour.toNat ++ (s₄ ++
      (zeroPadded 2 c.tm_min.toNat ++ (s₅ ++ (zeroPadded 2 c.tm_sec.toNat ++ rest))))))))))

theorem toNat_lt_iff {y z : Int} (hy : 0 ≤ y) : y.toNat < z.toNat ↔ y < z := by
  omega

theorem toNat_eq_iff {y z : Int} (hy : 0 ≤ y) (hz : 0 ≤ z) : y.toNat = z.toNat ↔ y = z := by
  omega

theorem zeroPadded_int_lt_iff {w : Nat} (hw : 0 < w) {y z : Int} (hy : 0 ≤ y ∧ y < 10 ^ w)
    (hz : 0 ≤ z ∧ z < 10 ^ w) (r r' : Bytes) :
    zeroPadded w y.toNat ++ r < zeroPadded w z.toNat ++ r' ↔ y < z ∨ y = z ∧ r < r' := by
  have hpow : ((10 ^ w : Nat) : Int) = 10 ^ w := Int.natCast_pow 10 w
  rw [zeroPadded_lt_iff hw (by omega) (by omega), toNat_lt_iff hy.1, toNat_eq_iff hy.1 hz.1]

/-- The texts sort as the times do, and for one time as what follows. -/
theorem civilText_lt_iff {t t' : Int} (h0 : 0 ≤ t) (h1 : t < year10000) (h0' : 0 ≤ t')
    (h1' : t' < year10000) (s₁ s₂ s₃ s₄ s₅ rest rest' : Bytes) :
    civilText (gmtime_r t) s₁ s₂ s₃ s₄ s₅ rest < civilText (gmtime_r t') s₁ s₂ s₃ s₄ s₅ rest' ↔
      t < t' ∨ t = t' ∧ rest < rest' := by
  have hfits := gmtime_fits h0 h1
  have hfits' := gmtime_fits h0' h1'
  have hyears := yearFits_of_lt h0 h1
  have hyears' := yearFits_of_lt h0' h1'
  rw [gmtime_lt_iff hyears hyears', gmtime_eq_iff hyears hyears']
  generalize gmtime_r t = c at hfits ⊢
  generalize gmtime_r t' = c' at hfits' ⊢
  have hyear : 0 ≤ c.date.year ∧ c.date.year < 10 ^ 4 := by
    have := hfits.year
    omega
  have hyear' : 0 ≤ c'.date.year ∧ c'.date.year < 10 ^ 4 := by
    have := hfits'.year
    omega
  unfold civilText
  rw [zeroPadded_int_lt_iff (by decide) hyear hyear', append_lt_append_left_iff,
    zeroPadded_int_lt_iff (by decide) hfits.month hfits'.month, append_lt_append_left_iff,
    zeroPadded_int_lt_iff (by decide) hfits.day hfits'.day, append_lt_append_left_iff,
    zeroPadded_int_lt_iff (by decide) hfits.hour hfits'.hour, append_lt_append_left_iff,
    zeroPadded_int_lt_iff (by decide) hfits.min hfits'.min, append_lt_append_left_iff,
    zeroPadded_int_lt_iff (by decide) hfits.sec hfits'.sec, tm.Before, tm.Same]
  simp only [and_or_left, or_assoc, and_assoc]

theorem length_zeroPadded_int {w : Nat} (hw : 0 < w) {z : Int} (hz : 0 ≤ z ∧ z < 10 ^ w) :
    (zeroPadded w z.toNat).length = w := by
  have hpow : ((10 ^ w : Nat) : Int) = 10 ^ w := Int.natCast_pow 10 w
  exact length_zeroPadded hw (by omega)

theorem length_civilText {c : tm} (h : c.Fits) (s₁ s₂ s₃ s₄ s₅ rest : Bytes) :
    (civilText c s₁ s₂ s₃ s₄ s₅ rest).length =
      14 + (s₁.length + s₂.length + s₃.length + s₄.length + s₅.length + rest.length) := by
  have hyear : 0 ≤ c.date.year ∧ c.date.year < 10 ^ 4 := by
    have := h.year
    omega
  simp only [civilText, List.length_append, length_zeroPadded_int (by decide) hyear,
    length_zeroPadded_int (w := 2) (by decide) h.month, length_zeroPadded_int (w := 2) (by decide) h.day,
    length_zeroPadded_int (w := 2) (by decide) h.hour, length_zeroPadded_int (w := 2) (by decide) h.min,
    length_zeroPadded_int (w := 2) (by decide) h.sec]
  omega

/-- A number of four digits is not padded. -/
theorem intText_four {y : Int} (h : 1970 ≤ y ∧ y ≤ 9999) :
    intText y = zeroPadded 4 y.toNat ∧ padded4 y = zeroPadded 4 y.toNat := by
  obtain ⟨n, rfl⟩ := Int.eq_ofNat_of_zero_le (Int.le_trans (by decide) h.1)
  have hle : (natText n).length ≤ 4 := (natText_length_le_iff (by decide)).mpr (by omega)
  have hmore : ¬ (natText n).length ≤ 3 := fun h =>
    absurd ((natText_length_le_iff (by decide)).mp h) (by omega)
  have hlength : (natText n).length = 4 := by omega
  rw [padded4, intText_natCast, zeroPadded, Int.toNat_natCast, hlength]
  exact ⟨rfl, rfl⟩

theorem strftime_eq {c : tm} (h : c.Fits) :
    strftime c = ascii "." ++ civilText c [] [] (ascii "-") [] [] (ascii ".") := by
  have hyear : intText (c.tm_year + 1900) = zeroPadded 4 c.date.year.toNat := (intText_four h.year).1
  have hmonth : zeroPaddedInt 2 (c.tm_mon + 1) = zeroPadded 2 c.date.month.toNat :=
    zeroPaddedInt_of_nonneg h.month.1 2
  have hday : zeroPaddedInt 2 c.tm_mday = zeroPadded 2 c.date.day.toNat :=
    zeroPaddedInt_of_nonneg h.day.1 2
  rw [strftime, hyear, hmonth, hday, zeroPaddedInt_of_nonneg h.hour.1,
    zeroPaddedInt_of_nonneg h.min.1, zeroPaddedInt_of_nonneg h.sec.1, civilText]
  simp only [List.append_assoc, List.nil_append]

theorem civilText_append (c : tm) (s₁ s₂ s₃ s₄ s₅ rest more : Bytes) :
    civilText c s₁ s₂ s₃ s₄ s₅ rest ++ more = civilText c s₁ s₂ s₃ s₄ s₅ (rest ++ more) := by
  simp only [civilText, List.append_assoc]

/-- Names that begin alike sort as the times in them. -/
theorem strftime_lt_iff {t t' : Int} (h0 : 0 ≤ t) (h1 : t < year10000) (h0' : 0 ≤ t')
    (h1' : t' < year10000) (before rest rest' : Bytes) :
    before ++ (strftime (gmtime_r t) ++ rest) < before ++ (strftime (gmtime_r t') ++ rest') ↔
      t < t' ∨ t = t' ∧ rest < rest' := by
  rw [append_lt_append_left_iff, strftime_eq (gmtime_fits h0 h1), strftime_eq (gmtime_fits h0' h1'),
    List.append_assoc, List.append_assoc, append_lt_append_left_iff, civilText_append,
    civilText_append, civilText_lt_iff h0 h1 h0' h1', append_lt_append_left_iff]

/-! ## Timestamps -/

namespace Timestamp

/-- The text in front of the point and the one behind it give the timestamp back. -/
theorem toString_read (t : Int) (h : -2 ^ 63 ≤ t ∧ t < 2 ^ 63) :
    ∃ seconds microseconds before after, Timestamp.toString t = before ++ ascii "." ++ after ∧
      (46 : UInt8) ∉ before ∧ strto before = some seconds ∧ strto after = some microseconds ∧
      seconds * kMicroSecondsPerSecond + microseconds = t := by
  have hsum := Int.mul_tdiv_add_tmod t kMicroSecondsPerSecond
  have hsecond : (t.tdiv kMicroSecondsPerSecond).natAbs < 10 ^ 13 := by
    rw [Int.natAbs_tdiv]
    refine Nat.div_lt_of_lt_mul ?_
    show t.natAbs < 1000000 * 10 ^ 13
    obtain ⟨hlow, hhigh⟩ := h
    have habs : t.natAbs ≤ 2 ^ 63 := by omega
    exact habs.trans_lt (by decide)
  have hmicro : (t.tmod kMicroSecondsPerSecond).natAbs < 10 ^ 6 := by
    rw [Int.natAbs_tmod]
    exact Nat.mod_lt _ (by decide)
  refine ⟨_, _, intText (t.tdiv kMicroSecondsPerSecond),
    zeroPaddedInt 6 (t.tmod kMicroSecondsPerSecond), ?_, ?_, strto_intText _,
    strto_zeroPaddedInt 6 _, by rw [Int.mul_comm]; exact hsum⟩
  · have hbefore := length_intText_le_succ (k := 13) (by decide) hsecond
    have hafter := length_zeroPaddedInt_le (by decide) hmicro
    refine List.take_of_length_le ?_
    rw [List.length_append, List.length_append]
    show _ + 1 + _ ≤ 31
    omega
  · intro hmem
    rcases mem_intText hmem with hsign | hdigit
    · exact absurd hsign (by decide)
    · exact absurd hdigit (by decide)

/-- A second and a half before the epoch. -/
theorem toString_read_before : ∃ seconds microseconds before after,
    Timestamp.toString (-1500000) = before ++ ascii "." ++ after ∧
      (46 : UInt8) ∉ before ∧ strto before = some seconds ∧ strto after = some microseconds ∧
      seconds * kMicroSecondsPerSecond + microseconds = -1500000 :=
  toString_read (-1500000) (by decide)

/-- Two timestamps are a second apart, or they are in one. -/
theorem lt_iff_seconds (t t' : Int) : t < t' ↔
    t / 1000000 < t' / 1000000 ∨ t / 1000000 = t' / 1000000 ∧ t % 1000000 < t' % 1000000 := by
  omega

theorem stamp_append {c : tm} (h : c.Fits) (rest : Bytes) :
    stamp c ++ rest = civilText c [] [] (ascii " ") (ascii ":") (ascii ":") rest := by
  have hyear : padded4 (c.tm_year + 1900) = zeroPadded 4 c.date.year.toNat := (intText_four h.year).2
  have hmonth : zeroPaddedInt 2 (c.tm_mon + 1) = zeroPadded 2 c.date.month.toNat :=
    zeroPaddedInt_of_nonneg h.month.1 2
  have hday : zeroPaddedInt 2 c.tm_mday = zeroPadded 2 c.date.day.toNat :=
    zeroPaddedInt_of_nonneg h.day.1 2
  rw [stamp, hyear, hmonth, hday, zeroPaddedInt_of_nonneg h.hour.1,
    zeroPaddedInt_of_nonneg h.min.1, zeroPaddedInt_of_nonneg h.sec.1, civilText]
  simp only [List.append_assoc, List.nil_append]

theorem toFormattedString_eq {t : Timestamp} (h0 : 0 ≤ t) (h1 : t / 1000000 < year10000) :
    let c := gmtime_r (t / 1000000)
    t.toFormattedString false = stamp c ∧
      t.toFormattedString true = stamp c ++ (ascii "." ++ zeroPadded 6 (t % 1000000).toNat) := by
  intro c
  have hfits : c.Fits := gmtime_fits (Int.ediv_nonneg h0 (by decide)) h1
  have hdiv : t.tdiv kMicroSecondsPerSecond = t / 1000000 := Int.tdiv_eq_ediv_of_nonneg h0
  have hmod : t.tmod kMicroSecondsPerSecond = t % 1000000 := Int.tmod_eq_emod_of_nonneg h0
  have hmicro : 0 ≤ t % 1000000 ∧ t % 1000000 < 10 ^ 6 :=
    ⟨Int.emod_nonneg t (by decide), Int.emod_lt_of_pos t (by decide)⟩
  have hlength (rest : Bytes) : (stamp c ++ rest).length = 17 + rest.length := by
    rw [stamp_append hfits, length_civilText hfits]
    show 14 + (0 + 0 + 1 + 1 + 1 + _) = _
    omega
  unfold toFormattedString
  simp only [hdiv, hmod]
  constructor
  · rw [if_neg Bool.false_ne_true]
    refine List.take_of_length_le ?_
    rw [← List.append_nil (stamp _), hlength]
    decide
  · rw [if_pos trivial, zeroPaddedInt_of_nonneg hmicro.1, List.append_assoc]
    refine List.take_of_length_le ?_
    rw [hlength, List.length_append, length_zeroPadded_int (w := 6) (by decide) hmicro]
    decide

/-- Up to the year 9999 the texts sort as the times: by the microsecond, or by the second. -/
theorem toFormattedString_lt_iff (t t' : Timestamp) (h0 : 0 ≤ t) (h1 : t / 1000000 < year10000)
    (h0' : 0 ≤ t') (h1' : t' / 1000000 < year10000) :
    (t.toFormattedString true < t'.toFormattedString true ↔ t < t') ∧
      (t.toFormattedString false < t'.toFormattedString false ↔
        t / 1000000 < t' / 1000000) := by
  have hsec : 0 ≤ t / 1000000 := Int.ediv_nonneg h0 (by decide)
  have hsec' : 0 ≤ t' / 1000000 := Int.ediv_nonneg h0' (by decide)
  obtain ⟨hshort, hlong⟩ := toFormattedString_eq h0 h1
  obtain ⟨hshort', hlong'⟩ := toFormattedString_eq h0' h1'
  have hmicro (u : Timestamp) : 0 ≤ u % 1000000 ∧ u % 1000000 < 10 ^ 6 :=
    ⟨Int.emod_nonneg u (by decide), Int.emod_lt_of_pos u (by decide)⟩
  have hfits := gmtime_fits hsec h1
  have hfits' := gmtime_fits hsec' h1'
  constructor
  · rw [hlong, hlong', stamp_append hfits, stamp_append hfits',
      civilText_lt_iff hsec h1 hsec' h1', append_lt_append_left_iff,
      ← List.append_nil (zeroPadded 6 _), ← List.append_nil (zeroPadded 6 (t' % 1000000).toNat),
      zeroPadded_int_lt_iff (by decide) (hmicro t) (hmicro t'), lt_iff_seconds t t']
    simp
  · have hstamp := stamp_append hfits []
    have hstamp' := stamp_append hfits' []
    rw [List.append_nil] at hstamp hstamp'
    rw [hshort, hshort', hstamp, hstamp', civilText_lt_iff hsec h1 hsec' h1']
    simp

theorem toFormattedString_lt_day :
    toFormattedString 86399999999 true < toFormattedString 86400000000 true :=
  ((toFormattedString_lt_iff 86399999999 86400000000 (by decide) (by decide) (by decide)
    (by decide)).1).mpr (by decide)

end Timestamp

/-! ## Dates -/

namespace Date

/-- The days whose dates have years of four digits. -/
def Four (n : Int) : Prop := 0 ≤ n ∧ n * 86400 < year10000

theorem Four.seconds {n : Int} (h : Four n) : 0 ≤ n * 86400 := Int.mul_nonneg h.1 (by decide)

/-- The date and its text, of the day with the number `n` from 1970-01-01. -/
theorem toIsoString_eq {n : Int} (h : Four n) :
    let c := gmtime_r (n * 86400)
    (Date.mk (n + 2440588)).toIsoString = some (zeroPadded 4 c.date.year.toNat ++ (ascii "-" ++
      (zeroPadded 2 c.date.month.toNat ++ (ascii "-" ++ zeroPadded 2 c.date.day.toNat)))) := by
  intro c
  have hfits : c.Fits := gmtime_fits h.seconds h.2
  obtain ⟨hvalid, hday, -⟩ := gmtime_spec (yearFits_of_lt h.seconds h.2)
  rw [Int.mul_ediv_cancel n (by decide)] at hday
  have hspan : InSpan n := by
    obtain ⟨h0, h1⟩ := h
    unfold year10000 at h1
    exact ⟨by omega, by omega⟩
  obtain ⟨ymd, hymd, hymdValid, hnumber⟩ := getYearMonthDay_eq hspan
  have hsame : ymd = c.date :=
    Gregorian.Date.dayNumber_inj hymdValid hvalid.date (hnumber.trans hday.symm)
  have hlength : (zeroPadded 4 c.date.year.toNat ++ (ascii "-" ++ (zeroPadded 2 c.date.month.toNat ++
      (ascii "-" ++ zeroPadded 2 c.date.day.toNat)))).length ≤ 31 := by
    have hyear : 0 ≤ c.date.year ∧ c.date.year < 10 ^ 4 := by
      have := hfits.year
      omega
    simp only [List.length_append, length_zeroPadded_int (by decide) hyear,
      length_zeroPadded_int (w := 2) (by decide) hfits.month,
      length_zeroPadded_int (w := 2) (by decide) hfits.day]
    decide
  rw [toIsoString, yearMonthDay, hymd, hsame]
  simp only [Option.bind_eq_bind, Option.bind_some, Option.pure_def, (intText_four hfits.year).2,
    zeroPaddedInt_of_nonneg hfits.month.1, zeroPaddedInt_of_nonneg hfits.day.1, List.append_assoc]
  exact congrArg some (List.take_of_length_le hlength)

/-- Up to the year 9999 the texts sort as the dates. -/
theorem toIsoString_lt_iff {n n' : Int} (h : Four n) (h' : Four n') :
    ∃ text text', (Date.mk (n + 2440588)).toIsoString = some text ∧
      (Date.mk (n' + 2440588)).toIsoString = some text' ∧ (text < text' ↔ n < n') := by
  refine ⟨_, _, toIsoString_eq h, toIsoString_eq h', ?_⟩
  have hn := gmtime_spec (yearFits_of_lt h.seconds h.2)
  have hn' := gmtime_spec (yearFits_of_lt h'.seconds h'.2)
  rw [Int.mul_ediv_cancel _ (by decide)] at hn hn'
  have hfits := gmtime_fits h.seconds h.2
  have hfits' := gmtime_fits h'.seconds h'.2
  have hlt := Gregorian.Date.dayNumber_lt_iff hn.1.date hn'.1.date
  rw [hn.2.1, hn'.2.1] at hlt
  have hyear : 0 ≤ (gmtime_r (n * 86400)).date.year ∧
      (gmtime_r (n * 86400)).date.year < 10 ^ 4 := by
    have := hfits.year
    omega
  have hyear' : 0 ≤ (gmtime_r (n' * 86400)).date.year ∧
      (gmtime_r (n' * 86400)).date.year < 10 ^ 4 := by
    have := hfits'.year
    omega
  have hdays := zeroPadded_int_lt_iff (w := 2) (by decide) hfits.day hfits'.day [] []
  rw [List.append_nil, List.append_nil] at hdays
  rw [hlt, zeroPadded_int_lt_iff (by decide) hyear hyear', append_lt_append_left_iff,
    zeroPadded_int_lt_iff (w := 2) (by decide) hfits.month hfits'.month, append_lt_append_left_iff,
    hdays]
  simp

end Date

end Mymuduo
