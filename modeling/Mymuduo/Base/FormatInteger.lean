import Mymuduo.Lib.Numeral
import Mymuduo.Lib.CIntType
import Mymuduo.Base.LogStream

/-!
# `convert` and `convertHex` in place

The two as they run: `i % 10` and `i /= 10` in the arithmetic of the type, the tables indexed, the
characters stored one by one in the caller's memory and then reversed. A step has no value where it
overflows, indexes outside a table or stores outside the memory.

* `digitLoop_eq`: the loop of both.
* `formats_integers`: what they leave in memory, and in the buffer of a stream.
* `formatInteger_holds`, `formatPointer_holds`: the stream does what `LogStream` says.
-/

namespace Mymuduo

open CString detail

namespace InPlace

/-! ## Memory and tables -/

/-- `*p = c` -/
def store (buf : Bytes) (p : Nat) (c : UInt8) : Option Bytes :=
  if p < buf.length then some (buf.set p c) else none

/-- What is in a string literal at an index, its NUL included. -/
def literalAt (literal : Bytes) (i : Int) : Option UInt8 :=
  if 0 ≤ i then (literal ++ [0])[i.toNat]? else none

/-- `zero[lsd]` -/
def zero (lsd : Int) : Option UInt8 := literalAt detail.digits (9 + lsd)

/-- `digitsHex[lsd]` -/
def digitsHex (lsd : Int) : Option UInt8 := literalAt detail.digitsHex lsd

/-- `std::reverse(buf, p)` -/
def reverse (buf : Bytes) (p : Nat) : Bytes := (buf.take p).reverse ++ buf.drop p

/-! ## The functions -/

/-- The loop from `p` on: what is in memory after it, and `p` then. -/
def digitLoop (T : CIntType) (base : Int) (table : Int → Option UInt8) (buf : Bytes) (p : Nat)
    (i : Int) : Option (Bytes × Nat) :=
  if _h : p < buf.length then do
    let lsd := CIntType.int.cast (← T.rem i base)
    let next := T.cast (← T.div i base)
    let c ← table lsd
    if next ≠ 0 then digitLoop T base table (buf.set p c) (p + 1) next
    else some (buf.set p c, p + 1)
  else none
termination_by buf.length - p
decreasing_by
  rw [List.length_set]
  exact Nat.sub_succ_lt_self _ _ _h

/-- `'-'` at `p` for a negative value. -/
def storeSign (value : Int) (buf : Bytes) (p : Nat) : Option (Bytes × Nat) :=
  if value < 0 then (store buf p 45).map (·, p + 1) else some (buf, p)

def convert (T : CIntType) (buf : Bytes) (value : Int) : Option (Bytes × Nat) := do
  let (buf, p) ← digitLoop T 10 zero buf 0 value
  let (buf, p) ← storeSign value buf p
  let buf ← store buf p 0
  return (reverse buf p, p)

/-- The type `uintptr_t`. -/
def uintptr : CIntType := CIntType.uint64

def convertHex (buf : Bytes) (value : UInt64) : Option (Bytes × Nat) := do
  let (buf, p) ← digitLoop uintptr 16 digitsHex buf 0 value.toNat
  let buf ← store buf p 0
  return (reverse buf p, p)

end InPlace

/-- The members of the `FixedBuffer` of a `LogStream`. -/
structure RawStream where
  data_ : Bytes
  cur_ : Nat
  deriving DecidableEq, Repr

namespace RawStream

def avail (s : RawStream) : Nat := s.data_.length - s.cur_

def formatInteger (T : CIntType) (s : RawStream) (v : Int) : Option RawStream :=
  if kMaxNumericSize ≤ s.avail then do
    let (buf, len) ← InPlace.convert T (s.data_.drop s.cur_) v
    return { data_ := s.data_.take s.cur_ ++ buf, cur_ := s.cur_ + len }
  else some s

/-- `operator<<(const void*)` -/
def formatPointer (s : RawStream) (v : UInt64) : Option RawStream :=
  if kMaxNumericSize ≤ s.avail then do
    let buf ← InPlace.store (s.data_.drop s.cur_) 0 48
    let buf ← InPlace.store buf 1 120
    let (rest, len) ← InPlace.convertHex (buf.drop 2) v
    return { data_ := s.data_.take s.cur_ ++ (buf.take 2 ++ rest), cur_ := s.cur_ + (len + 2) }
  else some s

end RawStream

namespace InPlace

/-! ## Stores -/

theorem set_hole (before after : Bytes) (x c : UInt8) :
    (before ++ x :: after).set before.length c = before ++ c :: after := by
  rw [List.set_append_right _ _ (Nat.le_refl _), Nat.sub_self, List.set_cons_zero]

/-- Memory with a hole of the size of what is stored there. -/
theorem store_hole (before after : Bytes) (x c : UInt8) :
    store (before ++ x :: after) before.length c = some (before ++ c :: after) := by
  have hlt : before.length < (before ++ x :: after).length := by simp
  rw [store, if_pos hlt, set_hole]

theorem reverse_prefix (text after : Bytes) :
    reverse (text ++ after) text.length = text.reverse ++ after := by
  rw [reverse, List.take_left, List.drop_left]

theorem exists_hole {buf : Bytes} {n : Nat} (h : n < buf.length) :
    ∃ room x, room.length = n ∧ buf = room ++ x :: buf.drop (n + 1) :=
  ⟨buf.take n, buf[n], List.length_take_of_le (Nat.le_of_lt h), by
    rw [← List.drop_eq_getElem_cons h, List.take_append_drop]⟩

/-! ## The loop -/

section

variable {T : CIntType} {base : Int} {table : Int → Option UInt8} {sym : Int → UInt8}
  {loop : Int → Bytes}

/-- The loop stores what a loop over the integers lists, in memory that has room for it. -/
theorem digitLoop_eq (hbase : 0 < base) (hlt : base < 2 ^ 31)
    (htable : ∀ i, T.Fits i → table (i.tmod base) = some (sym i))
    (hloop : ∀ i, T.Fits i →
      loop i = sym i :: if i.tdiv base = 0 then [] else loop (i.tdiv base))
    (before room after : Bytes) {i : Int} (hi : T.Fits i) (hroom : room.length = (loop i).length) :
    digitLoop T base table (before ++ (room ++ after)) before.length i =
      some (before ++ (loop i ++ after), before.length + (loop i).length) := by
  induction room generalizing before i with
  | nil =>
    rw [hloop i hi] at hroom
    cases hroom
  | cons x room ih =>
    have hp : before.length < (before ++ x :: (room ++ after)).length := by simp
    have hlsd : CIntType.int.Fits (i.tmod base) := by
      have hless := Int.tmod_lt_of_pos i hbase
      have hmore := Int.lt_tmod_of_pos i hbase
      exact ⟨by show -2 ^ 31 ≤ _; omega, by show _ < 2 ^ 31; omega⟩
    have hnext := CIntType.Fits.tdiv hi hbase
    rw [List.cons_append, digitLoop, dif_pos hp, CIntType.rem_eq hi hbase hlt,
      CIntType.div_eq hi hbase hlt]
    simp only [Option.bind_eq_bind, Option.bind_some, CIntType.cast_eq hlsd, CIntType.cast_eq hnext,
      htable i hi, set_hole]
    rw [hloop i hi] at hroom ⊢
    by_cases hzero : i.tdiv base = 0
    · rw [if_pos hzero] at hroom ⊢
      have hnil : room = [] := List.length_eq_zero_iff.mp (Nat.succ.inj hroom)
      rw [if_neg (not_not_intro hzero), hnil]
      rfl
    · rw [if_neg hzero] at hroom ⊢
      have hrest := ih (before ++ [sym i]) hnext (Nat.succ.inj hroom)
      rw [List.length_append, List.append_assoc, List.append_assoc, Nat.add_assoc,
        Nat.add_comm [sym i].length] at hrest
      rw [if_pos hzero]
      exact hrest

end

/-! ## `convert` -/

theorem zero_eq : ∀ d < 10, zero (d : Nat) = some (detail.zero (d : Nat)) ∧
    zero (-(d : Nat)) = some (detail.zero (-(d : Nat))) := by
  decide

theorem zero_tmod (i : Int) : zero (i.tmod 10) = some (detail.zero (i.tmod 10)) := by
  have hlt : (i.tmod 10).natAbs < 10 := by
    rw [Int.natAbs_tmod]
    exact Nat.mod_lt _ (by decide)
  have hd := zero_eq _ hlt
  rcases Int.natAbs_eq (i.tmod 10) with hi | hi
  · rw [hi]
    exact hd.1
  · rw [hi]
    exact hd.2

theorem convert_loop {T : CIntType} {value : Int} (h : T.Fits value) (room after : Bytes)
    (hroom : room.length = (convertLoop value).length) :
    digitLoop T 10 zero (room ++ after) 0 value =
      some (convertLoop value ++ after, (convertLoop value).length) := by
  have htable : ∀ i, T.Fits i → zero (i.tmod 10) = some (detail.zero (i.tmod 10)) :=
    fun i _ => zero_tmod i
  have hdigits : ∀ i, T.Fits i → convertLoop i =
      detail.zero (i.tmod 10) :: if i.tdiv 10 = 0 then [] else convertLoop (i.tdiv 10) := by
    intro i _
    rw [convertLoop]
    rfl
  have hloop := digitLoop_eq (by decide) (by decide) htable hdigits [] room after h hroom
  rw [List.length_nil, Nat.zero_add] at hloop
  exact hloop

/-- The sign in a hole of its size. -/
theorem storeSign_hole (value : Int) (before room after : Bytes)
    (hroom : room.length = (if value < 0 then ascii "-" else []).length) :
    storeSign value (before ++ (room ++ after)) before.length =
      some (before ++ (if value < 0 then ascii "-" else []) ++ after,
        (before ++ if value < 0 then ascii "-" else []).length) := by
  unfold storeSign
  by_cases hneg : value < 0
  · rw [if_pos hneg] at hroom
    obtain ⟨x, rfl⟩ := List.length_eq_one_iff.mp hroom
    rw [if_pos hneg, if_pos hneg, List.singleton_append, store_hole, List.length_append,
      List.append_assoc]
    rfl
  · rw [if_neg hneg] at hroom
    rw [if_neg hneg, if_neg hneg, List.length_eq_zero_iff.mp hroom, List.append_nil, List.nil_append]

theorem convert_hole {T : CIntType} {value : Int} (h : T.Fits value) (room after : Bytes) (x : UInt8)
    (hroom : room.length = (detail.convert value).length) :
    convert T (room ++ x :: after) value =
      some (detail.convert value ++ 0 :: after, (detail.convert value).length) := by
  rw [detail.convert, List.length_reverse] at hroom ⊢
  have hlength := hroom
  rw [List.length_append] at hlength
  have hdigits : (room.take (convertLoop value).length).length = (convertLoop value).length :=
    List.length_take_of_le (hlength ▸ Nat.le_add_right _ _)
  have hsign : (room.drop (convertLoop value).length).length =
      (if value < 0 then ascii "-" else []).length := by
    rw [List.length_drop, hlength, Nat.add_sub_cancel_left]
  rw [← List.take_append_drop (convertLoop value).length room, List.append_assoc, convert,
    convert_loop h _ _ hdigits]
  simp only [Option.bind_eq_bind, Option.bind_some, storeSign_hole value _ _ _ hsign, store_hole,
    reverse_prefix]
  rfl

/-! ## `convertHex` -/

theorem digitsHex_eq : ∀ d < 16, digitsHex (d : Nat) = some (detail.digitsHex.getD d 0) := by
  decide

theorem convertHex_hole (value : UInt64) (room after : Bytes) (x : UInt8)
    (hroom : room.length = (detail.convertHex value).length) :
    convertHex (room ++ x :: after) value =
      some (detail.convertHex value ++ 0 :: after, (detail.convertHex value).length) := by
  have hfits : uintptr.Fits value.toNat := ⟨Int.natCast_nonneg _, by
    show (value.toNat : Int) < 2 ^ 64
    exact_mod_cast value.toNat_lt⟩
  have htable : ∀ i, uintptr.Fits i →
      digitsHex (i.tmod 16) = some (detail.digitsHex.getD (i.toNat % 16) 0) := by
    rintro i ⟨hpos, _⟩
    obtain ⟨n, rfl⟩ := Int.eq_ofNat_of_zero_le hpos
    exact digitsHex_eq (n % 16) (Nat.mod_lt _ (by decide))
  have hloop : ∀ i, uintptr.Fits i → convertHexLoop i.toNat =
      detail.digitsHex.getD (i.toNat % 16) 0 ::
        if i.tdiv 16 = 0 then [] else convertHexLoop (i.tdiv 16).toNat := by
    rintro i ⟨hpos, _⟩
    obtain ⟨n, rfl⟩ := Int.eq_ofNat_of_zero_le hpos
    rw [Int.toNat_natCast, convertHexLoop]
    show _ = _ :: if ((n / 16 : Nat) : Int) = 0 then [] else convertHexLoop (n / 16)
    simp only [Int.natCast_eq_zero]
    rfl
  rw [detail.convertHex, List.length_reverse] at hroom ⊢
  have hdigits := digitLoop_eq (by decide) (by decide) htable hloop [] room (x :: after)
    hfits hroom
  rw [List.length_nil, Nat.zero_add] at hdigits
  simp only [List.nil_append, Int.toNat_natCast] at hdigits
  rw [convertHex, hdigits]
  simp only [Option.bind_eq_bind, Option.bind_some, store_hole, reverse_prefix]
  rfl

end InPlace

/-! ## Canonical texts -/

/-- The character of a digit: `0` to `9`, then `A` and so on. -/
def symbol (d : Nat) : UInt8 := (if d < 10 then 48 + d else 55 + d).toUInt8

/-- The text of a number: the sign of a negative one, and the digits. -/
def IsIntegerText (text : Bytes) (value : Int) : Prop :=
  ∃ digits, IsText symbol 10 digits value.natAbs ∧
    text = (if value < 0 then ascii "-" else []) ++ digits

theorem symbol_decimal : ∀ d < 10, d.digitChar.toNat.toUInt8 = symbol d := by
  decide

theorem symbol_hex : ∀ d < 16, detail.digitsHex.getD d 0 = symbol d := by
  decide

theorem isIntegerText_convert (value : Int) : IsIntegerText (detail.convert value) value := by
  have hquot : ∀ i : Int, (i.tdiv 10).natAbs = i.natAbs / 10 := fun i => Int.natAbs_tdiv i 10
  have hloop : ∀ i, convertLoop i =
      symbol (i.natAbs % 10) :: if i.natAbs / 10 = 0 then [] else convertLoop (i.tdiv 10) := by
    intro i
    rw [convertLoop, detail.zero_tmod, symbol_decimal _ (Nat.mod_lt _ (by decide)), ← hquot]
    simp only [Int.natAbs_eq_zero]
    rfl
  have hdigits := isText_of_division (by decide) Int.natAbs (Int.tdiv · 10) hquot hloop value
  refine ⟨_, hdigits, ?_⟩
  rw [detail.convert, List.reverse_append]
  split
  · rfl
  · rfl

theorem isIntegerText_iff {text : Bytes} {value : Int} :
    IsIntegerText text value ↔ text = detail.convert value := by
  refine ⟨fun h => ?_, fun h => h ▸ isIntegerText_convert value⟩
  obtain ⟨digits, hdigits, rfl⟩ := h
  obtain ⟨digits', hdigits', htext⟩ := isIntegerText_convert value
  rw [htext, hdigits.unique (by decide) hdigits']

theorem isText_convertHex (value : UInt64) :
    IsText symbol 16 (detail.convertHex value) value.toNat := by
  refine isText_of_division (by decide) (fun n => n) (fun n => n / 16) (fun _ => rfl) (fun n => ?_)
    value.toNat
  rw [convertHexLoop, symbol_hex _ (Nat.mod_lt _ (by decide))]
  rfl

theorem isHexText_iff {text : Bytes} {value : UInt64} :
    IsText symbol 16 text value.toNat ↔ text = detail.convertHex value :=
  ⟨fun h => h.unique (by decide) (isText_convertHex value), fun h => h ▸ isText_convertHex value⟩

/-! ## The stream -/

/-- The values of a type of at most 64 bits. -/
def integral {T : CIntType} (hT : T.width ≤ 64) (value : T.Value) : Integral :=
  ⟨value.val, value.property.within hT⟩

namespace InPlace

theorem convert_eq {T : CIntType} {value : Int} (h : T.Fits value) {buf : Bytes}
    (hroom : (detail.convert value).length < buf.length) :
    convert T buf value = some (detail.convert value ++
      0 :: buf.drop ((detail.convert value).length + 1), (detail.convert value).length) := by
  obtain ⟨room, x, hlength, hbuf⟩ := exists_hole hroom
  have hhole := convert_hole h room (buf.drop ((detail.convert value).length + 1)) x hlength
  rwa [← hbuf] at hhole

theorem convertHex_eq (value : UInt64) {buf : Bytes}
    (hroom : (detail.convertHex value).length < buf.length) :
    convertHex buf value = some (detail.convertHex value ++
      0 :: buf.drop ((detail.convertHex value).length + 1), (detail.convertHex value).length) := by
  obtain ⟨room, x, hlength, hbuf⟩ := exists_hole hroom
  have hhole := convertHex_hole value room (buf.drop ((detail.convertHex value).length + 1)) x hlength
  rwa [← hbuf] at hhole

end InPlace

namespace RawStream

/-- The stream with a text and a NUL at `current()`, if there is room for a number. -/
def wrote (s : RawStream) (text : Bytes) : RawStream :=
  if kMaxNumericSize ≤ s.avail then
    { data_ := s.data_.take s.cur_ ++ (text ++ 0 :: s.data_.drop (s.cur_ + (text.length + 1)))
      cur_ := s.cur_ + text.length }
  else s

theorem length_current (s : RawStream) : (s.data_.drop s.cur_).length = s.avail := List.length_drop

theorem formatInteger_eq {T : CIntType} {value : Int} (h : T.Fits value)
    (hlength : (detail.convert value).length < kMaxNumericSize) (s : RawStream) :
    s.formatInteger T value = some (s.wrote (detail.convert value)) := by
  unfold formatInteger wrote
  split
  · next hroom =>
    rw [InPlace.convert_eq h (by rw [length_current]; exact hlength.trans_le hroom), List.drop_drop]
    rfl
  · rfl

theorem formatPointer_eq (s : RawStream) (value : UInt64) :
    s.formatPointer value = some (s.wrote (ascii "0x" ++ detail.convertHex value)) := by
  unfold formatPointer wrote
  split
  · next hroom =>
    have hhex := detail.length_convertHex value
    have htext : (ascii "0x" ++ detail.convertHex value).length =
        (detail.convertHex value).length + 2 := by
      rw [List.length_append, Nat.add_comm]
      rfl
    have hend : ∀ n, s.data_.drop (s.cur_ + n) = (s.data_.drop s.cur_).drop n := fun n =>
      List.drop_drop.symm
    rw [← length_current] at hroom
    rw [hend]
    match s.data_.drop s.cur_, hroom with
    | a :: b :: rest, hroom =>
      have hrest : 46 ≤ rest.length := Nat.le_of_add_le_add_right (b := 2) hroom
      have hdrop : (a :: b :: rest).drop ((ascii "0x" ++ detail.convertHex value).length + 1) =
          rest.drop ((detail.convertHex value).length + 1) := by
        rw [htext]
        rfl
      have hstore := InPlace.store_hole [] (b :: rest) a 48
      have hstore' := InPlace.store_hole [48] rest b 120
      rw [List.nil_append, List.length_nil] at hstore
      rw [List.singleton_append, List.length_singleton] at hstore'
      rw [hdrop, htext, List.append_assoc]
      simp only [Option.bind_eq_bind, hstore, List.nil_append, Option.bind_some, hstore',
        List.singleton_append, List.drop_succ_cons, List.drop_zero,
        InPlace.convertHex_eq value (show _ < rest.length by omega)]
      rfl
  · rfl

/-- The bytes up to `cur_` are those of the stream. -/
structure Holds (r : RawStream) (s : LogStream) : Prop where
  size : r.data_.length = kSmallBuffer
  cur : r.cur_ = s.buffer_.length
  data : r.data_.take r.cur_ = s.buffer_.data

theorem Holds.wrote {r : RawStream} {s : LogStream} (h : r.Holds s) {text : Bytes}
    (hlength : text.length < kMaxNumericSize) : (r.wrote text).Holds (s.format text hlength) := by
  have havail : r.avail = s.buffer_.avail := by
    rw [avail, h.size, h.cur]
    rfl
  unfold RawStream.wrote LogStream.format
  rw [havail]
  by_cases hroom : kMaxNumericSize ≤ s.buffer_.avail
  · rw [if_pos hroom, dif_pos hroom]
    have hcur : (r.data_.take r.cur_).length = r.cur_ := by
      rw [h.data, h.cur]
      rfl
    refine ⟨?_, ?_, ?_⟩
    · have hsize := h.size
      have hfit : kMaxNumericSize ≤ r.avail := by rwa [havail]
      unfold avail at hfit
      simp only [List.length_append, List.length_cons, List.length_drop, hcur]
      omega
    · show r.cur_ + text.length = (s.buffer_.data ++ text).length
      rw [List.length_append, h.cur]
      rfl
    · show List.take (r.cur_ + text.length) _ = s.buffer_.data ++ text
      rw [← List.append_assoc, List.take_left' (by rw [List.length_append, hcur]), h.data]
  · rw [if_neg hroom, dif_neg hroom]
    exact h

theorem formatInteger_holds {T : CIntType} (hT : T.width ≤ 64) (value : T.Value) {r : RawStream}
    {s : LogStream} (h : r.Holds s) :
    ∃ r', r.formatInteger T value.val = some r' ∧ r'.Holds (s.formatInteger (integral hT value)) :=
  have hlength : (detail.convert value.val).length < kMaxNumericSize :=
    (length_convert (integral hT value)).trans_lt (by decide)
  ⟨_, formatInteger_eq value.property hlength r, h.wrote hlength⟩

theorem formatPointer_holds (value : UInt64) {r : RawStream} {s : LogStream} (h : r.Holds s) :
    ∃ r', r.formatPointer value = some r' ∧ r'.Holds (s.formatPointer value) :=
  ⟨_, formatPointer_eq r value, h.wrote _⟩

end RawStream

/-- Of every value of every type and every pointer, the one canonical text is written, with a NUL
after it and nothing past that, in `kMaxNumericSize` bytes at most; and the stream appends it. -/
theorem formats_integers (T : CIntType) (hT : T.width ≤ 64) (value : T.Value) (p : UInt64)
    (buf : Bytes) (hbuf : kMaxNumericSize ≤ buf.length) (s : RawStream) :
    (∃ text, (∀ t, IsIntegerText t value.val ↔ t = text) ∧ strto text = some value.val ∧
      text.length + 1 ≤ kMaxNumericSize ∧
      InPlace.convert T buf value.val =
        some (text ++ 0 :: buf.drop (text.length + 1), text.length) ∧
      s.formatInteger T value.val = some (s.wrote text)) ∧
    (∃ text, (∀ t, IsText symbol 16 t p.toNat ↔ t = text) ∧
      (ascii "0x" ++ text).length + 1 ≤ kMaxNumericSize ∧
      InPlace.convertHex buf p = some (text ++ 0 :: buf.drop (text.length + 1), text.length) ∧
      s.formatPointer p = some (s.wrote (ascii "0x" ++ text))) := by
  have hlength : (detail.convert value.val).length < kMaxNumericSize :=
    (length_convert (integral hT value)).trans_lt (by decide)
  have hhex : (detail.convertHex p).length ≤ 16 := detail.length_convertHex p
  refine ⟨⟨detail.convert value.val, fun _ => isIntegerText_iff, ?_, hlength, ?_, ?_⟩,
    detail.convertHex p, fun _ => isHexText_iff, ?_, ?_, ?_⟩
  · rw [detail.convert_eq]
    exact strto_intText value.val
  · exact InPlace.convert_eq value.property (hlength.trans_le hbuf)
  · exact RawStream.formatInteger_eq value.property hlength s
  · rw [List.length_append]
    exact (Nat.add_le_add_left hhex 2).trans_lt (by decide)
  · exact InPlace.convertHex_eq p ((hhex.trans_lt (by decide)).trans_le hbuf)
  · exact RawStream.formatPointer_eq s p

/-- The least value of all, in the buffer of a new stream. -/
theorem formats_least :
    ∃ text, (∀ t, IsIntegerText t (-2 ^ 63) ↔ t = text) ∧ strto text = some (-2 ^ 63) ∧
      text.length + 1 ≤ kMaxNumericSize ∧
      InPlace.convert CIntType.int64 (List.replicate kMaxNumericSize 0) (-2 ^ 63) = some (text ++
        0 :: (List.replicate kMaxNumericSize 0).drop (text.length + 1), text.length) ∧
      RawStream.formatInteger CIntType.int64 ⟨List.replicate kSmallBuffer 0, 0⟩ (-2 ^ 63) =
        some (RawStream.wrote ⟨List.replicate kSmallBuffer 0, 0⟩ text) :=
  (formats_integers CIntType.int64 (by decide) ⟨-2 ^ 63, by decide⟩ 0
    (List.replicate kMaxNumericSize 0) (by decide) ⟨List.replicate kSmallBuffer 0, 0⟩).1

end Mymuduo
