import Mymuduo.Lib.LowerBound
import Mymuduo.Base.UtcTime
import Mymuduo.Base.ZoneFile

/-!
# The local half of `base/TimeZone`

`findLocaltime` looks up a time in the tables without a test whether there is an entry; where there
is none, it has no result. The tables of a file are there whatever came of reading it, so that the
`TimeZone` is valid in any case.

* `findLocaltime_of_inRange`: what the tables need so that every time is found.
* `valid_ofFile`: no file makes a `TimeZone` invalid.
* `valid_usable_iff`: the files of which a valid `TimeZone` is usable.
* `valid_usable_fails`: the empty file.
-/

namespace Mymuduo

open CString ByteOrder Reading

namespace detail

/-! ## `findLocaltime` -/

structure Comp where
  compareGmt : Bool
  deriving DecidableEq, Repr

namespace Comp

/-- The times that are compared. -/
def key (comp : Comp) (t : Transition) : Int := if comp.compareGmt then t.gmttime else t.localtime

def lt (comp : Comp) (lhs rhs : Transition) : Bool := comp.key lhs < comp.key rhs

def equal (comp : Comp) (lhs rhs : Transition) : Bool := comp.key lhs = comp.key rhs

end Comp

/-- `std::lower_bound`, as an index. -/
def lower_bound (v : List Transition) (sentry : Transition) (comp : Comp) : Nat :=
  lowerBound (fun i => (v[i]?).any (comp.lt · sentry)) 0 v.length

def findLocaltime (data : TimeZone.Data) (sentry : Transition) (comp : Comp) : Option Localtime :=
  if (data.transitions.head?).all (comp.lt sentry ·) then data.localtimes.head?
  else do
    let transI := lower_bound data.transitions sentry comp
    if transI ≠ data.transitions.length then
      let t ← data.transitions[transI]?
      if comp.equal sentry t then data.localtimes[t.localtimeIdx]?
      else
        guard (transI ≠ 0)
        let t ← data.transitions[transI - 1]?
        data.localtimes[t.localtimeIdx]?
    else
      let t ← data.transitions.getLast?
      data.localtimes[t.localtimeIdx]?

end detail

open detail

/-! ## `TimeZone` -/

structure TimeZone where
  data_ : Option TimeZone.Data
  deriving DecidableEq, Repr

namespace TimeZone

/-- The constructor from the content of a file, or from a file that cannot be opened. -/
def ofFile (host : Order) (file : Option Bytes) : Option TimeZone := do
  let (ok, data) ← readTimeZoneFile host file {}
  if ok then return ⟨some data⟩ else return ⟨none⟩

/-- A fixed time zone. -/
def fixed (eastOfUtc : Int) (name : Bytes) : TimeZone where
  data_ := some { localtimes := [⟨eastOfUtc, false, 0⟩], abbreviation := c_str name }

def valid (zone : TimeZone) : Bool := zone.data_.isSome

variable (gmtime_r : Int → tm) (timegm : tm → Int)

/-- `toLocalTime`, with what `gmtime_r` makes of seconds. -/
def toLocalTime (zone : TimeZone) (seconds : Int) : Option tm := do
  let data ← zone.data_
  let l ← findLocaltime data ⟨seconds, 0, 0⟩ ⟨true⟩
  guard (l.arrbIdx ≤ data.abbreviation.length)
  return { gmtime_r (seconds + l.gmtOffset) with
    tm_isdst := if l.isDst then 1 else 0
    tm_gmtoff := l.gmtOffset
    tm_zone := c_str (data.abbreviation.drop l.arrbIdx) }

/-- `fromLocalTime`, with what `timegm` makes of a `tm`. -/
def fromLocalTime (zone : TimeZone) (localTm : tm) : Option Int := do
  let data ← zone.data_
  let seconds := timegm localTm
  let l ← findLocaltime data ⟨0, seconds, 0⟩ ⟨false⟩
  if localTm.tm_isdst ≠ 0 then
    let tryTm ← zone.toLocalTime gmtime_r (seconds - l.gmtOffset)
    if tryTm.tm_isdst = 0 ∧ tryTm.tm_hour = localTm.tm_hour ∧ tryTm.tm_min = localTm.tm_min then
      return seconds - 3600 - l.gmtOffset
    else return seconds - l.gmtOffset
  else return seconds - l.gmtOffset

/-- The time of a log record: `formatTime` asks the zone only when it is valid. -/
def logTime (zone : TimeZone) (seconds : Int) : Option tm :=
  if zone.valid then zone.toLocalTime gmtime_r seconds else some (gmtime_r seconds)

/-! ## Usable tables -/

/-- Every time has an entry to be found, and every entry an abbreviation. -/
structure Data.Usable (data : Data) : Prop where
  localtimes : data.localtimes ≠ []
  localtimeIdx : ∀ t ∈ data.transitions, t.localtimeIdx < data.localtimes.length
  arrbIdx : ∀ l ∈ data.localtimes, l.arrbIdx < data.abbreviation.length

/-- If the zone is valid, its tables are usable, and every time is found in them. -/
def Serves (zone : TimeZone) : Prop :=
  zone.valid = true → ∃ data, zone.data_ = some data ∧ data.Usable ∧
    ∀ gmtime_r seconds, ∃ l ∈ data.localtimes,
      findLocaltime data ⟨seconds, 0, 0⟩ ⟨true⟩ = some l ∧
        (zone.toLocalTime gmtime_r seconds).isSome = true

theorem index_of_lt {α : Type} {v : List α} {i : Nat} (h : i < v.length) :
    ∃ a ∈ v, v[i]? = some a :=
  ⟨v[i], List.getElem_mem h, List.getElem?_eq_getElem h⟩

end TimeZone

namespace detail

variable {data : TimeZone.Data}

theorem Comp.equal_of_not_lt {comp : Comp} {a b : Transition} (h : comp.lt a b = false)
    (h' : comp.lt b a = false) : comp.equal a b = true :=
  decide_eq_true (Int.le_antisymm (Int.not_lt.mp (of_decide_eq_false h'))
    (Int.not_lt.mp (of_decide_eq_false h)))

/-- Where the bisection ends, the transition is not before the time. -/
theorem not_lt_lower_bound {v : List Transition} {sentry t : Transition} {comp : Comp}
    (ht : v[lower_bound v sentry comp]? = some t) : comp.lt t sentry = false := by
  have hlt : lower_bound v sentry comp < 0 + v.length := by
    rw [Nat.zero_add]
    exact (List.getElem?_eq_some_iff.mp ht).1
  have hnot : (v[lower_bound v sentry comp]?).any (comp.lt · sentry) = false :=
    not_at_lowerBound hlt
  rwa [ht] at hnot

/-- The assertion of `findLocaltime`: at the first transition, which is not after the time, the
times are equal. -/
theorem lower_bound_pos {v : List Transition} {sentry first t : Transition} {comp : Comp}
    (hfirst : v.head? = some first) (hafter : comp.lt sentry first = false)
    (ht : v[lower_bound v sentry comp]? = some t) (hne : ¬ comp.equal sentry t = true) :
    lower_bound v sentry comp ≠ 0 := by
  intro hzero
  have hbefore := not_lt_lower_bound ht
  rw [hzero, ← List.head?_eq_getElem?, hfirst] at ht
  cases ht
  exact hne (Comp.equal_of_not_lt hafter hbefore)

theorem findLocaltime_of_inRange (hlocal : data.localtimes ≠ [])
    (hidx : ∀ t ∈ data.transitions, t.localtimeIdx < data.localtimes.length)
    (sentry : Transition) (comp : Comp) :
    ∃ l ∈ data.localtimes, findLocaltime data sentry comp = some l := by
  have hentry : ∀ t ∈ data.transitions, ∃ l ∈ data.localtimes,
      data.localtimes[t.localtimeIdx]? = some l := fun t ht => TimeZone.index_of_lt (hidx t ht)
  unfold findLocaltime
  split
  · exact ⟨_, List.head_mem hlocal, List.head?_eq_some_head hlocal⟩
  · next hnot =>
    obtain ⟨first, hfirst, hafter⟩ : ∃ first, data.transitions.head? = some first ∧
        comp.lt sentry first = false := by
      cases h : data.transitions.head? with
      | none => exact absurd (by rw [h]; rfl) hnot
      | some first => exact ⟨first, rfl, by rw [h] at hnot; exact Bool.eq_false_iff.mpr hnot⟩
    have hle : lower_bound data.transitions sentry comp ≤ 0 + data.transitions.length :=
      lowerBound_le 0 data.transitions.length
    rw [Nat.zero_add] at hle
    by_cases hend : lower_bound data.transitions sentry comp = data.transitions.length
    · have hne : data.transitions ≠ [] := fun hnil => by simp [hnil] at hfirst
      obtain ⟨l, hl, hfound⟩ := hentry _ (List.getLast_mem hne)
      refine ⟨l, hl, ?_⟩
      simp only [ne_eq, hend, not_true_eq_false, if_false, List.getLast?_eq_some_getLast hne,
        Option.bind_eq_bind, Option.bind_some, hfound]
    · have hlt : lower_bound data.transitions sentry comp < data.transitions.length :=
        Nat.lt_of_le_of_ne hle hend
      obtain ⟨t, ht, hat⟩ := TimeZone.index_of_lt hlt
      simp only [ne_eq, hend, not_false_eq_true, if_true, hat, Option.bind_eq_bind,
        Option.bind_some]
      by_cases hequal : comp.equal sentry t = true
      · rw [if_pos hequal]
        exact hentry t ht
      · have hpos := lower_bound_pos hfirst hafter hat hequal
        obtain ⟨t', ht', hat'⟩ := TimeZone.index_of_lt (Nat.lt_of_le_of_lt (Nat.sub_le _ 1) hlt)
        rw [if_neg hequal]
        simp only [guard, hpos, not_false_eq_true, if_true, Option.pure_def, Option.bind_some, hat']
        exact hentry t' ht'

end detail

namespace TimeZone

theorem Data.Usable.found {data : Data} (h : data.Usable) (sentry : Transition) (comp : Comp) :
    ∃ l ∈ data.localtimes, findLocaltime data sentry comp = some l :=
  findLocaltime_of_inRange h.localtimes h.localtimeIdx sentry comp

/-- Usable tables give every second a local time. -/
theorem Data.Usable.toLocalTime {data : Data} (h : data.Usable) (gmtime_r : Int → tm)
    (seconds : Int) : (TimeZone.toLocalTime gmtime_r ⟨some data⟩ seconds).isSome = true := by
  obtain ⟨l, hl, hfound⟩ := h.found ⟨seconds, 0, 0⟩ ⟨true⟩
  have hname : l.arrbIdx ≤ data.abbreviation.length := Nat.le_of_lt (h.arrbIdx l hl)
  simp only [TimeZone.toLocalTime, Option.bind_eq_bind, Option.bind_some, hfound, guard, hname,
    if_true, Option.pure_def, Option.isSome_some]

/-- And every local time a second. -/
theorem Data.Usable.fromLocalTime {data : Data} (h : data.Usable) (gmtime_r : Int → tm)
    (timegm : tm → Int) (localTm : tm) :
    (TimeZone.fromLocalTime gmtime_r timegm ⟨some data⟩ localTm).isSome = true := by
  obtain ⟨l, _, hfound⟩ := h.found ⟨0, timegm localTm, 0⟩ ⟨false⟩
  obtain ⟨tryTm, htry⟩ :=
    Option.isSome_iff_exists.mp (h.toLocalTime gmtime_r (timegm localTm - l.gmtOffset))
  simp only [TimeZone.fromLocalTime, Option.bind_eq_bind, Option.bind_some, hfound, htry]
  split
  · split
    · rfl
    · rfl
  · rfl

theorem serves_iff {data : Data} : Serves ⟨some data⟩ ↔ data.Usable := by
  constructor
  · intro h
    obtain ⟨_, ⟨⟩, husable, _⟩ := h rfl
    exact husable
  · intro h _
    refine ⟨data, rfl, h, fun gmtime_r seconds => ?_⟩
    obtain ⟨l, hl, hfound⟩ := h.found ⟨seconds, 0, 0⟩ ⟨true⟩
    exact ⟨l, hl, hfound, h.toLocalTime gmtime_r seconds⟩

/-- Then every log record has a time. -/
theorem Serves.logTime {zone : TimeZone} (h : zone.Serves) (gmtime_r : Int → tm) (seconds : Int) :
    (zone.logTime gmtime_r seconds).isSome = true := by
  unfold TimeZone.logTime
  split
  · next hvalid =>
    obtain ⟨_, _, _, hfound⟩ := h hvalid
    obtain ⟨_, _, _, hsome⟩ := hfound gmtime_r seconds
    exact hsome
  · rfl

/-- A fixed zone with a name is usable. -/
theorem fixed_usable (eastOfUtc : Int) {name : Bytes} (h : c_str name ≠ []) :
    Serves (fixed eastOfUtc name) := by
  refine serves_iff.mpr ⟨List.cons_ne_nil _ _, nofun, fun l hl => ?_⟩
  rw [List.mem_singleton.mp hl]
  exact List.length_pos_iff.mpr h

/-! ## Zones of files -/

/-- Without an abbreviation no entry has one. -/
theorem not_usable_of_nil {data : Data} (h : data.abbreviation = []) : ¬ data.Usable := by
  rintro ⟨hlocal, _, harrb⟩
  have hlt := harrb _ (List.head_mem hlocal)
  rw [h] at hlt
  exact absurd hlt (Nat.not_lt_zero _)

theorem usable_data_iff {n : Sizes} {bs : Bytes} (h : ZoneFile.Complete n bs) :
    (ZoneFile.data n bs).Usable ↔ ZoneFile.WellFormed n bs := by
  have hlength : (ZoneFile.data n bs).localtimes.length = n.typecnt.toNat := by
    rw [ZoneFile.data, List.length_map, List.length_range]
  have hchars : (ZoneFile.data n bs).abbreviation.length = n.charcnt.toNat := by
    refine List.length_take_of_le ?_
    rw [List.length_drop]
    exact Nat.le_sub_of_add_le' h.length
  constructor
  · rintro ⟨hlocal, _, harrb⟩
    refine ⟨h, ?_, fun i hi => ?_⟩
    · have hpos := List.length_pos_iff.mpr hlocal
      rw [hlength] at hpos
      exact Int.pos_iff_toNat_pos.mpr hpos
    · have hlt := harrb _ (List.mem_map_of_mem (List.mem_range.mpr hi))
      rwa [hchars] at hlt
  · rintro ⟨_, htypes, habbrinds⟩
    refine ⟨?_, ?_, ?_⟩
    · rw [← List.length_pos_iff, hlength]
      exact Int.pos_iff_toNat_pos.mp htypes
    · intro t ht
      obtain ⟨i, hi, rfl⟩ := List.mem_map.mp ht
      rw [hlength]
      exact h.indexed i (List.mem_range.mp hi)
    · intro l hl
      obtain ⟨i, hi, rfl⟩ := List.mem_map.mp hl
      rw [hchars]
      exact habbrinds i (List.mem_range.mp hi)

/-- The tables of a zone are what the reading left, however it ended. -/
theorem ofFile_final {host : Order} {bs : Bytes} {zone : TimeZone}
    (h : ofFile host (some bs) = some zone) :
    zone = ⟨some (final (readTables host ⟨bs, {}⟩)).data⟩ := by
  cases hread : readTables host ⟨bs, {}⟩ with
  | ok u s =>
    simp only [ofFile, readTimeZoneFile, hread] at h
    cases h
    rfl
  | error e s =>
    simp only [ofFile, readTimeZoneFile, hread] at h
    cases e with
    | logic_error what =>
      cases h
      rfl
    | undefined => cases h

/-- No file makes a zone invalid. -/
theorem valid_ofFile {host : Order} {file : Option Bytes} {zone : TimeZone}
    (h : ofFile host file = some zone) : zone.valid = true := by
  cases file with
  | none =>
    cases h
    rfl
  | some bs =>
    rw [ofFile_final h]
    rfl

/-- A file that is read to the end gives a zone of its tables. -/
theorem ofFile_of_complete (host : Order) {bs : Bytes}
    (h : ZoneFile.Complete (ZoneFile.sizes bs) bs) :
    ofFile host (some bs) = some ⟨some (ZoneFile.data (ZoneFile.sizes bs) bs)⟩ := by
  have hread := (readTables_gives host bs () _).mpr ⟨h, rfl, rfl⟩
  simp only [ofFile, readTimeZoneFile, hread]
  rfl

/-- Any other file gives a zone without abbreviations, if it gives one. -/
theorem not_serves_of_not_complete {host : Order} {bs : Bytes}
    (h : ¬ ZoneFile.Complete (ZoneFile.sizes bs) bs) {zone : TimeZone}
    (hzone : ofFile host (some bs) = some zone) : ¬ zone.Serves := by
  intro hserves
  rw [ofFile_final hzone, serves_iff] at hserves
  cases hread : readTables host ⟨bs, {}⟩ with
  | ok u s => exact h ((readTables_gives host bs u s).mp hread).1
  | error e s =>
    rw [hread] at hserves
    exact not_usable_of_nil (abbreviation_of_error hread) hserves

/-- A zone made from a file is usable if and only if the file is there and well formed: only then
is it read to the end, with indices in range throughout. -/
theorem valid_usable_iff (host : Order) (file : Option Bytes) :
    (∃ zone, ofFile host file = some zone ∧ zone.Serves) ↔
      ∃ bs, file = some bs ∧ ZoneFile.WellFormed (ZoneFile.sizes bs) bs := by
  cases file with
  | none =>
    refine ⟨?_, nofun⟩
    rintro ⟨_, ⟨⟩, hserves⟩
    exact absurd (serves_iff.mp hserves) (not_usable_of_nil rfl)
  | some bs =>
    constructor
    · rintro ⟨zone, hzone, hserves⟩
      by_cases hcomplete : ZoneFile.Complete (ZoneFile.sizes bs) bs
      · rw [ofFile_of_complete host hcomplete] at hzone
        cases hzone
        exact ⟨bs, rfl, (usable_data_iff hcomplete).mp (serves_iff.mp hserves)⟩
      · exact absurd hserves (not_serves_of_not_complete hcomplete hzone)
    · rintro ⟨_, ⟨⟩, hwell⟩
      exact ⟨_, ofFile_of_complete host hwell.toComplete,
        serves_iff.mpr ((usable_data_iff hwell.toComplete).mpr hwell)⟩

/-- A file with one type and no transitions. -/
example : ofFile .little (some (ascii "TZif" ++ List.replicate 32 0 ++ [0, 0, 0, 1] ++
    [0, 0, 0, 4] ++ List.replicate 6 0 ++ ascii "UTC" ++ [0])) =
      some ⟨some ⟨[], [⟨0, false, 0⟩], ascii "UTC" ++ [0]⟩⟩ := by
  decide +kernel

/-- The empty file: the first read throws, and the zone is valid all the same. -/
theorem valid_usable_fails : ¬ ∀ (host : Order) (file : Option Bytes),
    ∃ zone, ofFile host file = some zone ∧ zone.Serves := by
  intro hall
  obtain ⟨_, ⟨⟩, hserves⟩ := hall .little (some [])
  exact not_usable_of_nil rfl (serves_iff.mp hserves)

end TimeZone

end Mymuduo
