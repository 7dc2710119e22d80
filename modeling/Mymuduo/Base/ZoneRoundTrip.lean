import Mymuduo.Base.LocalTime
import Mymuduo.Base.TimeText

/-!
# Local times and back

What `base/TimeZone` makes of its tables when they are in order. The `n`-th entry holds from the
`n`-th change on, and the first one before. A change that sets the clock back makes local times
occur twice: `findLocaltime` then finds the later entry for them, and `fromLocalTime` takes an hour
off where `tm_isdst` says that the earlier one is meant.

* `findLocaltime_eq`: what the bisection finds.
* `local_round_trip`: when `fromLocalTime` gives back what `toLocalTime` was given, in the years of
  an `int`.
-/

namespace Mymuduo

open CString ByteOrder detail

namespace TimeZone

/-- `timegm(3)` of a time that the calendar and the clock have -/
def timegm (c : tm) : Int := c.date.dayNumber * 86400 + c.clock

theorem timegm_gmtime {seconds : Int} (h : YearFits seconds) :
    timegm (gmtime_r seconds) = seconds := by
  obtain ⟨-, hday, hclock⟩ := gmtime_spec h
  rw [timegm, hday, hclock]
  exact Int.ediv_mul_add_emod seconds 86400

namespace Data

/-- The entry after so many changes. -/
def entry (data : Data) : Nat → Option Localtime
  | 0 => data.localtimes.head?
  | n + 1 => data.transitions[n]?.bind fun t => data.localtimes[t.localtimeIdx]?

def offset (data : Data) (n : Nat) : Int := (data.entry n).elim 0 Localtime.gmtOffset

def isDst (data : Data) (n : Nat) : Bool := (data.entry n).any Localtime.isDst

/-- How many changes there are up to a time. -/
def changes (data : Data) (comp : Comp) (time : Int) : Nat :=
  data.transitions.countP fun t => comp.key t ≤ time

def Sorted (data : Data) (comp : Comp) : Prop :=
  data.transitions.Pairwise fun t t' => comp.key t < comp.key t'

/-- The changes are in order, in local times too, and the time that one sets back is over by the
next. -/
structure Spaced (data : Data) : Prop where
  gmt : data.Sorted ⟨true⟩
  local_ : data.Sorted ⟨false⟩
  apart : ∀ n t t', data.transitions[n]? = some t → data.transitions[n + 1]? = some t' →
    t.gmttime + data.offset n ≤ t'.localtime ∧
      t.gmttime + data.offset n ≤ t'.gmttime + data.offset (n + 1)

/-- The local time of every change is that of the entry which holds from it on. -/
def Timed (data : Data) : Prop :=
  ∀ n t, data.transitions[n]? = some t → t.localtime = t.gmttime + data.offset (n + 1)

/-! ## The entry of a time -/

variable {data : Data} {comp : Comp}

theorem changes_le (data : Data) (comp : Comp) (time : Int) :
    data.changes comp time ≤ data.transitions.length := List.countP_le_length

theorem Sorted.changes_iff (h : data.Sorted comp) {time : Int} {n : Nat} {t : Transition}
    (ht : data.transitions[n]? = some t) : comp.key t ≤ time ↔ n < data.changes comp time := by
  have hiff := countP_iff (q := fun t => decide (comp.key t ≤ time)) (h.imp fun hlt hle => by
    rw [decide_eq_true_iff] at hle ⊢
    exact (Int.le_of_lt hlt).trans hle) ht
  rwa [decide_eq_true_iff] at hiff

theorem changes_eq {time : Int} {n : Nat} (hn : n ≤ data.transitions.length)
    (h : ∀ k t, data.transitions[k]? = some t → (comp.key t ≤ time ↔ k < n)) :
    data.changes comp time = n :=
  countP_eq hn fun k t ht => by rw [decide_eq_true_iff, h k t ht]

theorem Sorted.lt (h : data.Sorted comp) {i j : Nat} {t t' : Transition}
    (ht : data.transitions[i]? = some t) (ht' : data.transitions[j]? = some t') (hij : i < j) :
    comp.key t < comp.key t' := by
  obtain ⟨hi, rfl⟩ := List.getElem?_eq_some_iff.mp ht
  obtain ⟨hj, rfl⟩ := List.getElem?_eq_some_iff.mp ht'
  exact List.pairwise_iff_getElem.mp h i j hi hj hij

theorem Sorted.le (h : data.Sorted comp) {i j : Nat} {t t' : Transition}
    (ht : data.transitions[i]? = some t) (ht' : data.transitions[j]? = some t') (hij : i ≤ j) :
    comp.key t ≤ comp.key t' := by
  rcases Nat.lt_or_eq_of_le hij with hij | rfl
  · exact Int.le_of_lt (h.lt ht ht' hij)
  · rw [Option.some.inj (ht.symm.trans ht')]

/-- Where the bisection ends: behind the changes before the time. -/
theorem Sorted.lower_bound_iff (h : data.Sorted comp) {sentry : Transition} {n : Nat}
    {t : Transition} (ht : data.transitions[n]? = some t) :
    comp.key t < comp.key sentry ↔ n < lower_bound data.transitions sentry comp := by
  have hcount {k : Nat} {t : Transition} (ht : data.transitions[k]? = some t) :
      comp.key t < comp.key sentry ↔
        k < data.transitions.countP fun t => comp.key t < comp.key sentry := by
    have hiff := countP_iff (q := fun t => decide (comp.key t < comp.key sentry))
      (h.imp fun hlt hlt' => by
        rw [decide_eq_true_iff] at hlt' ⊢
        exact hlt.trans hlt') ht
    rwa [decide_eq_true_iff] at hiff
  have hbound : lower_bound data.transitions sentry comp =
      data.transitions.countP fun t => comp.key t < comp.key sentry := by
    refine lowerBound_eq (Nat.zero_le _) (by rw [Nat.zero_add]; exact List.countP_le_length) ?_
    intro i _ hi
    rw [Nat.zero_add] at hi
    rw [List.getElem?_eq_getElem hi, ← hcount (List.getElem?_eq_getElem hi)]
    exact decide_eq_true_iff
  rw [hbound]
  exact hcount ht

/-- The changes up to a time are those that the bisection passes, and the one of that time. -/
theorem Sorted.changes_at (h : data.Sorted comp) {sentry t : Transition}
    (ht : data.transitions[lower_bound data.transitions sentry comp]? = some t) :
    data.changes comp (comp.key sentry) =
      lower_bound data.transitions sentry comp + if comp.equal sentry t then 1 else 0 := by
  have hlt : lower_bound data.transitions sentry comp < data.transitions.length :=
    (List.getElem?_eq_some_iff.mp ht).1
  have hnot : comp.key sentry ≤ comp.key t :=
    Int.not_lt.mp fun hlt' => absurd ((h.lower_bound_iff ht).mp hlt') (Nat.lt_irrefl _)
  split
  · next heq =>
    have heq : comp.key sentry = comp.key t := of_decide_eq_true heq
    refine changes_eq hlt fun k t' ht' => ?_
    rw [h.changes_iff ht', heq, ← h.changes_iff ht']
    constructor
    · intro hle
      by_contra hk
      exact absurd (h.lt ht ht' (by omega)) (Int.not_lt.mpr hle)
    · intro hk
      rcases Nat.lt_or_eq_of_le (Nat.le_of_lt_succ hk) with hk | rfl
      · exact Int.le_of_lt (h.lt ht' ht hk)
      · rw [ht] at ht'
        rw [Option.some.inj ht']
  · next hne =>
    have hne : comp.key sentry ≠ comp.key t := fun heq => hne (decide_eq_true heq)
    refine changes_eq (Nat.le_of_lt hlt) fun k t' ht' => ?_
    rw [Nat.add_zero, ← h.lower_bound_iff ht']
    refine ⟨fun hle => lt_of_le_of_ne hle fun heq => ?_, Int.le_of_lt⟩
    have hk : ¬ k < lower_bound data.transitions sentry comp := fun hk =>
      absurd ((h.lower_bound_iff ht').mpr hk) (by rw [heq]; exact Int.lt_irrefl _)
    rcases Nat.lt_or_eq_of_le (Nat.not_lt.mp hk) with hk | rfl
    · exact absurd (h.lt ht ht' hk) (Int.not_lt.mpr (by rw [heq]; exact hnot))
    · rw [ht] at ht'
      exact hne (by rw [← heq, Option.some.inj ht'])

/-- In tables that are in order, `findLocaltime` finds the entry after the changes up to the
time. -/
theorem findLocaltime_eq (h : data.Sorted comp) (sentry : Transition) :
    findLocaltime data sentry comp = data.entry (data.changes comp (comp.key sentry)) := by
  unfold findLocaltime
  split
  · next hbefore =>
    have hnone : data.changes comp (comp.key sentry) = 0 := by
      refine changes_eq (Nat.zero_le _) fun k t ht => iff_of_false (fun hle => ?_) (Nat.not_lt_zero k)
      cases hfirst : data.transitions[0]? with
      | none =>
        have hnil : data.transitions = [] := by simpa using hfirst
        rw [hnil] at ht
        cases ht
      | some first =>
        rw [List.head?_eq_getElem?, hfirst] at hbefore
        have hlt : comp.key sentry < comp.key first := of_decide_eq_true hbefore
        rcases Nat.eq_zero_or_pos k with rfl | hk
        · rw [hfirst] at ht
          exact absurd hle (Int.not_le.mpr (Option.some.inj ht ▸ hlt))
        · exact absurd (hlt.trans (h.lt hfirst ht hk)) (Int.not_lt.mpr hle)
    rw [hnone, entry]
  · next hnot =>
    obtain ⟨first, hfirst, hafter⟩ : ∃ first, data.transitions.head? = some first ∧
        comp.lt sentry first = false := by
      cases hhead : data.transitions.head? with
      | none => exact absurd (by rw [hhead]; rfl) hnot
      | some first => exact ⟨first, rfl, by rw [hhead] at hnot; exact Bool.eq_false_iff.mpr hnot⟩
    by_cases hend : lower_bound data.transitions sentry comp = data.transitions.length
    · have hall : data.changes comp (comp.key sentry) = data.transitions.length := by
        refine changes_eq (Nat.le_refl _) fun k t ht => ?_
        have hk : k < data.transitions.length := (List.getElem?_eq_some_iff.mp ht).1
        refine iff_of_true (Int.le_of_lt ?_) hk
        exact (h.lower_bound_iff ht).mpr (by rw [hend]; exact hk)
      obtain ⟨m, hm⟩ : ∃ m, data.transitions.length = m + 1 := by
        refine Nat.exists_eq_succ_of_ne_zero fun hzero => ?_
        rw [List.length_eq_zero_iff.mp hzero] at hfirst
        cases hfirst
      rw [hall, hm, entry]
      simp only [ne_eq, hend, not_true_eq_false, if_false, List.getLast?_eq_getElem?, hm,
        Nat.add_sub_cancel, Option.bind_eq_bind]
    · have hlt : lower_bound data.transitions sentry comp < data.transitions.length := by
        have hle := lowerBound_le
          (p := fun i => (data.transitions[i]?).any (comp.lt · sentry)) 0 data.transitions.length
        rw [Nat.zero_add] at hle
        exact Nat.lt_of_le_of_ne hle hend
      obtain ⟨t, -, ht⟩ := TimeZone.index_of_lt hlt
      simp only [ne_eq, hend, not_false_eq_true, if_true, ht, Option.bind_eq_bind,
        Option.bind_some, h.changes_at ht]
      by_cases hequal : comp.equal sentry t = true
      · rw [if_pos hequal, if_pos hequal, entry, ht, Option.bind_some]
      · rw [if_neg hequal, if_neg hequal]
        have hpos := lower_bound_pos hfirst hafter ht hequal
        obtain ⟨m, hm⟩ := Nat.exists_eq_succ_of_ne_zero hpos
        rw [hm]
        simp only [guard, Nat.succ_ne_zero, not_false_eq_true, if_true, Option.pure_def,
          Option.bind_some, Nat.succ_sub_one, entry]

/-! ## Local times that occur twice -/

/-- The local time of these seconds occurs again after the next change. -/
def Repeats (data : Data) (seconds : Int) : Prop :=
  ∃ t, data.transitions[data.changes ⟨true⟩ seconds]? = some t ∧
    t.localtime ≤ seconds + data.offset (data.changes ⟨true⟩ seconds)

/-- The next change ends a summer time of one hour. -/
def SummerEnds (data : Data) (n : Nat) : Prop :=
  data.isDst n = true ∧ data.isDst (n + 1) = false ∧ data.offset n = data.offset (n + 1) + 3600

variable {seconds : Int} {n : Nat}

/-- The changes so far were at local times that are past. -/
theorem Spaced.past (h : data.Spaced) (htimed : data.Timed)
    (hn : data.changes ⟨true⟩ seconds = n) {k : Nat} {t : Transition}
    (ht : data.transitions[k]? = some t) (hk : k < n) :
    t.localtime ≤ seconds + data.offset n := by
  obtain ⟨m, rfl⟩ : ∃ m, n = m + 1 := Nat.exists_eq_succ_of_ne_zero (Nat.ne_zero_of_lt hk)
  have hm : m < data.transitions.length :=
    hn.symm.trans_le (changes_le data ⟨true⟩ seconds)
  obtain ⟨last, -, hlast⟩ := TimeZone.index_of_lt hm
  have hreached : last.gmttime ≤ seconds :=
    (h.gmt.changes_iff hlast).mpr (by rw [hn]; exact Nat.lt_succ_self m)
  have hlocal := htimed m last hlast
  have hle : t.localtime ≤ last.localtime := h.local_.le ht hlast (Nat.le_of_lt_succ hk)
  omega

/-- Where the local time does not occur again, it is in the entry of the seconds. -/
theorem Spaced.changes_local (h : data.Spaced) (htimed : data.Timed)
    (hn : data.changes ⟨true⟩ seconds = n) (hrepeats : ¬ data.Repeats seconds) :
    data.changes ⟨false⟩ (seconds + data.offset n) = n := by
  refine changes_eq (hn ▸ changes_le data ⟨true⟩ seconds) fun k t ht =>
    ⟨fun hle => ?_, h.past htimed hn ht⟩
  by_contra hk
  have hlen : n < data.transitions.length :=
    Nat.lt_of_le_of_lt (Nat.not_lt.mp hk) (List.getElem?_eq_some_iff.mp ht).1
  obtain ⟨next, -, hnext⟩ := TimeZone.index_of_lt hlen
  refine hrepeats ⟨next, by rw [hn]; exact hnext, ?_⟩
  rw [hn]
  exact (h.local_.le hnext ht (Nat.not_lt.mp hk)).trans hle

/-- Where it does, it is found in the next entry, whose seconds are past the change. -/
theorem Spaced.changes_repeats (h : data.Spaced) (htimed : data.Timed)
    (hn : data.changes ⟨true⟩ seconds = n) (hrepeats : data.Repeats seconds) :
    data.changes ⟨false⟩ (seconds + data.offset n) = n + 1 ∧
      data.changes ⟨true⟩ (seconds + data.offset n - data.offset (n + 1)) = n + 1 ∧
      data.offset (n + 1) < data.offset n := by
  obtain ⟨next, hnext, hle⟩ := hrepeats
  rw [hn] at hnext hle
  have hlen : n < data.transitions.length := (List.getElem?_eq_some_iff.mp hnext).1
  have hcoming : seconds < next.gmttime := Int.not_le.mp fun hle => by
    have hlt := (h.gmt.changes_iff hnext).mp hle
    rw [hn] at hlt
    exact Nat.lt_irrefl _ hlt
  have hlocal := htimed n next hnext
  have hfurther {k : Nat} {t : Transition} (ht : data.transitions[k]? = some t) (hk : n < k) :
      seconds + data.offset n < t.localtime ∧
        seconds + data.offset n - data.offset (n + 1) < t.gmttime := by
    obtain ⟨after, -, hafter⟩ := TimeZone.index_of_lt
      (Nat.lt_of_le_of_lt hk (List.getElem?_eq_some_iff.mp ht).1)
    obtain ⟨hlater, hlater'⟩ := h.apart n next after hnext hafter
    have hle : after.localtime ≤ t.localtime := h.local_.le hafter ht hk
    have hle' : after.gmttime ≤ t.gmttime := h.gmt.le hafter ht hk
    omega
  refine ⟨changes_eq hlen fun k t ht => ?_, changes_eq hlen fun k t ht => ?_, by omega⟩
  · rcases Nat.lt_trichotomy k n with hk | rfl | hk
    · exact iff_of_true (h.past htimed hn ht hk) (Nat.lt_succ_of_lt hk)
    · rw [hnext] at ht
      exact iff_of_true (Option.some.inj ht ▸ hle) (Nat.lt_succ_self _)
    · exact iff_of_false (Int.not_le.mpr (hfurther ht hk).1) (Nat.not_lt.mpr hk)
  · rcases Nat.lt_trichotomy k n with hk | rfl | hk
    · have hlt : t.gmttime < next.gmttime := h.gmt.lt ht hnext hk
      refine iff_of_true ?_ (Nat.lt_succ_of_lt hk)
      change t.gmttime ≤ seconds + data.offset n - data.offset (n + 1)
      omega
    · rw [hnext] at ht
      refine iff_of_true ?_ (Nat.lt_succ_self _)
      rw [← Option.some.inj ht]
      change next.gmttime ≤ seconds + data.offset k - data.offset (k + 1)
      omega
    · exact iff_of_false (Int.not_le.mpr (hfurther ht hk).2) (Nat.not_lt.mpr hk)

end Data

/-! ## There and back -/

variable {data : Data} {seconds : Int} {n : Nat}

theorem Data.Usable.entry (h : data.Usable) (hn : n ≤ data.transitions.length) :
    ∃ l, data.entry n = some l ∧ l.arrbIdx ≤ data.abbreviation.length ∧
      l.gmtOffset = data.offset n ∧ l.isDst = data.isDst n := by
  have hfound : ∃ l ∈ data.localtimes, data.entry n = some l := by
    cases n with
    | zero => exact ⟨_, List.head_mem h.localtimes, List.head?_eq_some_head h.localtimes⟩
    | succ n =>
      obtain ⟨t, hmem, ht⟩ := TimeZone.index_of_lt (Nat.lt_of_succ_le hn)
      obtain ⟨l, hl, hat⟩ := TimeZone.index_of_lt (h.localtimeIdx t hmem)
      exact ⟨l, hl, by rw [Data.entry, ht, Option.bind_some, hat]⟩
  obtain ⟨l, hl, hentry⟩ := hfound
  refine ⟨l, hentry, Nat.le_of_lt (h.arrbIdx l hl), ?_, ?_⟩
  · rw [Data.offset, hentry]
    rfl
  · rw [Data.isDst, hentry]
    rfl

/-- What the local time of some seconds says. -/
structure Tells (data : Data) (n : Nat) (seconds : Int) (c : tm) : Prop where
  timegm : timegm c = seconds + data.offset n
  hour : c.tm_hour = (gmtime_r (seconds + data.offset n)).tm_hour
  min : c.tm_min = (gmtime_r (seconds + data.offset n)).tm_min
  isdst : c.tm_isdst = if data.isDst n then 1 else 0

theorem toLocalTime_tells (husable : data.Usable) (hspaced : data.Spaced)
    (hn : data.changes ⟨true⟩ seconds = n) (hyear : YearFits (seconds + data.offset n)) :
    ∃ c, TimeZone.toLocalTime gmtime_r ⟨some data⟩ seconds = some c ∧ Tells data n seconds c := by
  obtain ⟨l, hentry, harrb, hoffset, hdst⟩ :=
    husable.entry (hn ▸ Data.changes_le data ⟨true⟩ seconds)
  have hfound : findLocaltime data ⟨seconds, 0, 0⟩ ⟨true⟩ = some l := by
    rw [Data.findLocaltime_eq hspaced.gmt, ← hentry, ← hn]
    rfl
  refine ⟨{ gmtime_r (seconds + l.gmtOffset) with
    tm_isdst := if l.isDst then 1 else 0
    tm_gmtoff := l.gmtOffset
    tm_zone := c_str (data.abbreviation.drop l.arrbIdx) }, ?_, ?_⟩
  · simp only [TimeZone.toLocalTime, Option.bind_eq_bind, Option.bind_some, hfound, guard, harrb,
      if_true, Option.pure_def]
  · rw [hoffset, hdst]
    exact ⟨timegm_gmtime hyear, rfl, rfl, rfl⟩

/-- What `fromLocalTime` gives, by what the attempt with `tm_isdst` says. -/
theorem fromLocalTime_eq (husable : data.Usable) (hspaced : data.Spaced) {c : tm} {m m' : Nat}
    (hc : Tells data n seconds c) (hm : data.changes ⟨false⟩ (seconds + data.offset n) = m)
    (hm' : data.changes ⟨true⟩ (seconds + data.offset n - data.offset m) = m')
    (hyear : YearFits (seconds + data.offset n - data.offset m + data.offset m')) :
    ∃ tryTm, Tells data m' (seconds + data.offset n - data.offset m) tryTm ∧
      TimeZone.fromLocalTime gmtime_r TimeZone.timegm ⟨some data⟩ c =
        some (if data.isDst n = true ∧ tryTm.tm_isdst = 0 ∧ tryTm.tm_hour = c.tm_hour ∧
            tryTm.tm_min = c.tm_min then
          seconds + data.offset n - 3600 - data.offset m
        else seconds + data.offset n - data.offset m) := by
  obtain ⟨tryTm, htry, htells⟩ := toLocalTime_tells husable hspaced hm' hyear
  obtain ⟨l, hentry, -, hoffset, -⟩ := husable.entry (hm ▸ Data.changes_le data ⟨false⟩ _)
  have hfound : findLocaltime data ⟨0, seconds + data.offset n, 0⟩ ⟨false⟩ = some l := by
    rw [Data.findLocaltime_eq hspaced.local_, ← hentry, ← hm]
    rfl
  refine ⟨tryTm, htells, ?_⟩
  simp only [TimeZone.fromLocalTime, Option.bind_eq_bind, Option.bind_some, hc.timegm, hfound,
    hoffset, htry, hc.isdst]
  by_cases hdst : data.isDst n = true
  · simp only [hdst, if_true, ne_eq, Int.one_ne_zero, not_false_eq_true, true_and]
    split
    · rfl
    · rfl
  · simp only [hdst, if_false, ne_eq, not_true_eq_false, false_and, Bool.false_eq_true]
    rfl

/-- The round trip over the `n`-th entry. -/
theorem Data.Spaced.round_trip (hspaced : data.Spaced) (husable : data.Usable)
    (htimed : data.Timed) (hn : data.changes ⟨true⟩ seconds = n)
    (hyear : YearFits (seconds + data.offset n)) {c : tm} (hc : Tells data n seconds c) :
    TimeZone.fromLocalTime gmtime_r TimeZone.timegm ⟨some data⟩ c = some seconds ↔
      ¬ data.Repeats seconds ∨ data.SummerEnds n := by
  by_cases hrepeats : data.Repeats seconds
  · obtain ⟨hm, hm', hlt⟩ := hspaced.changes_repeats htimed hn hrepeats
    have hsame : seconds + data.offset n - data.offset (n + 1) + data.offset (n + 1) =
        seconds + data.offset n := Int.sub_add_cancel ..
    obtain ⟨tryTm, htells, heq⟩ :=
      fromLocalTime_eq husable hspaced hc hm hm' (by rw [hsame]; exact hyear)
    have hhour : tryTm.tm_hour = c.tm_hour := by rw [htells.hour, hc.hour, hsame]
    have hmin : tryTm.tm_min = c.tm_min := by rw [htells.min, hc.min, hsame]
    rw [heq, htells.isdst, Option.some_inj, Data.SummerEnds, or_iff_right (not_not_intro hrepeats)]
    cases hdst : data.isDst n with
    | false =>
      simp only [Bool.false_eq_true, false_and, if_false, iff_false]
      omega
    | true =>
      cases hdst' : data.isDst (n + 1) with
      | false =>
        simp only [hhour, hmin, Bool.false_eq_true, if_false, true_and, and_self, if_true]
        omega
      | true =>
        simp only [if_true, Int.one_ne_zero, false_and, and_false, if_false, Bool.true_eq_false,
          iff_false]
        omega
  · have hm := hspaced.changes_local htimed hn hrepeats
    have hback : seconds + data.offset n - data.offset n = seconds := Int.add_sub_cancel ..
    have hm' : data.changes ⟨true⟩ (seconds + data.offset n - data.offset n) = n := by
      rw [hback]
      exact hn
    obtain ⟨tryTm, htells, heq⟩ :=
      fromLocalTime_eq husable hspaced hc hm hm' (by rw [hback]; exact hyear)
    rw [heq, hback, htells.isdst]
    refine iff_of_true ?_ (.inl hrepeats)
    rw [if_neg]
    rintro ⟨hdst, hnot, -⟩
    rw [hdst] at hnot
    cases hnot

/-- A file has no local times of its own: they are made from the entries. -/
theorem timed_data {n : Sizes} {bs : Bytes} (h : ZoneFile.Complete n bs) :
    (ZoneFile.data n bs).Timed := by
  intro k t ht
  have hlength : (ZoneFile.data n bs).transitions.length = n.timecnt.toNat := by
    rw [ZoneFile.data, List.length_map, List.length_range]
  have hk : k < n.timecnt.toNat := hlength ▸ (List.getElem?_eq_some_iff.mp ht).1
  have hat : (ZoneFile.data n bs).transitions[k]? = some (ZoneFile.transition n bs k) := by
    simp only [ZoneFile.data, List.getElem?_map, List.getElem?_range hk, Option.map_some]
  have hlocal : (ZoneFile.data n bs).localtimes[(ZoneFile.typeIndex n bs k).toNat]? =
      some (ZoneFile.localtime n bs (ZoneFile.typeIndex n bs k).toNat) := by
    simp only [ZoneFile.data, List.getElem?_map, List.getElem?_range (h.indexed k hk),
      Option.map_some]
  have hentry : (ZoneFile.data n bs).entry (k + 1) =
      some (ZoneFile.localtime n bs (ZoneFile.typeIndex n bs k).toNat) := by
    simp only [Data.entry, hat, Option.bind_some, ZoneFile.transition, hlocal]
  rw [Option.some.inj (ht.symm.trans hat), Data.offset, hentry, Option.elim_some,
    ZoneFile.transition]

/-- For every zone file that is well formed and whose changes are spaced, and for all seconds whose
local year `gmtime_r` can hold: the zone gives them their local time, and that gives them back if
and only if it does not occur again after the next change, or this ends a summer time of one hour.
The sums with the offsets are far from the ends of a `time_t` there. -/
theorem local_round_trip (host : Order) (bs : Bytes)
    (hwell : ZoneFile.WellFormed (ZoneFile.sizes bs) bs)
    (hspaced : (ZoneFile.data (ZoneFile.sizes bs) bs).Spaced) (seconds : Int) :
    let data := ZoneFile.data (ZoneFile.sizes bs) bs
    let n := data.changes ⟨true⟩ seconds
    YearFits (seconds + data.offset n) →
    ∃ zone c, ofFile host (some bs) = some zone ∧ zone.toLocalTime gmtime_r seconds = some c ∧
      TimeZone.timegm c = seconds + data.offset n ∧
        (zone.fromLocalTime gmtime_r TimeZone.timegm c = some seconds ↔
          ¬ data.Repeats seconds ∨ data.SummerEnds n) := by
  intro data n hyear
  have husable : data.Usable := (usable_data_iff hwell.toComplete).mpr hwell
  obtain ⟨c, hto, hc⟩ := toLocalTime_tells husable hspaced (n := n) rfl hyear
  exact ⟨⟨some data⟩, c, ofFile_of_complete host hwell.toComplete, hto, hc.timegm,
    hspaced.round_trip husable (timed_data hwell.toComplete) rfl hyear hc⟩

/-- A zone an hour ahead, with one summer. -/
def summerFile : Bytes :=
  ascii "TZif" ++ List.replicate 28 0 ++ [0, 0, 0, 2] ++ [0, 0, 0, 2] ++ [0, 0, 0, 8] ++
    [1, 0, 0, 0] ++ [2, 0, 0, 0] ++ [1, 0] ++ [0, 0, 14, 16, 0, 0] ++ [0, 0, 28, 32, 1, 4] ++
    ascii "CET" ++ [0] ++ ascii "CES" ++ [0]

theorem data_summerFile : ZoneFile.data (ZoneFile.sizes summerFile) summerFile =
    { transitions := [⟨16777216, 16784416, 1⟩, ⟨33554432, 33558032, 0⟩]
      localtimes := [⟨3600, false, 0⟩, ⟨7200, true, 4⟩]
      abbreviation := ascii "CET" ++ [0] ++ ascii "CES" ++ [0] } := by
  decide +kernel

theorem wellFormed_summerFile : ZoneFile.WellFormed (ZoneFile.sizes summerFile) summerFile :=
  ⟨⟨by decide +kernel, by decide +kernel, by decide +kernel, by decide +kernel, by decide +kernel,
    by decide +kernel⟩, by decide +kernel, by decide +kernel⟩

theorem spaced_summerFile : (ZoneFile.data (ZoneFile.sizes summerFile) summerFile).Spaced := by
  rw [data_summerFile]
  refine ⟨by unfold Data.Sorted; decide, by unfold Data.Sorted; decide, ?_⟩
  rintro (_ | n) t t' ht ht'
  · cases ht
    cases ht'
    decide
  · cases ht'

/-- In the last hour of the summer the local time occurs again, and is told from the other. -/
theorem local_round_trip_summer :
    let data := ZoneFile.data (ZoneFile.sizes summerFile) summerFile
    ∃ zone c, ofFile .little (some summerFile) = some zone ∧
      zone.toLocalTime gmtime_r 33554000 = some c ∧
      TimeZone.timegm c = 33554000 + data.offset (data.changes ⟨true⟩ 33554000) ∧
        (zone.fromLocalTime gmtime_r TimeZone.timegm c = some 33554000 ↔
          ¬ data.Repeats 33554000 ∨ data.SummerEnds (data.changes ⟨true⟩ 33554000)) :=
  local_round_trip .little summerFile wellFormed_summerFile spaced_summerFile 33554000
    (by decide +kernel)

end TimeZone

end Mymuduo
