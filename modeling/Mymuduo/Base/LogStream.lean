import Mymuduo.Lib.CString

/-!
# `base/LogStream`

A `FixedBuffer` and what is streamed into one. Each `operator<<` tests on its own whether there is
room: what is copied has to be shorter than the room left, and what is formatted in place needs
`kMaxNumericSize` bytes of it, however short it is. What does not fit is left out.

* `convert_eq`: `convert` writes the decimal text of an integer.
* `data_put`: what one `operator<<` leaves in the buffer.
* `stream_sublist`: a stream holds whole pieces, in order.
* `avail_stream`: the room left after some pieces, from their lengths.
-/

namespace Mymuduo

open CString

def kSmallBuffer : Nat := 4000

def kLargeBuffer : Nat := 4000 * 1000

/-! ## `FixedBuffer` -/

/-- The bytes from `data_` up to `cur_`. -/
structure FixedBuffer (size : Nat) where
  data : Bytes
  length_le : data.length ≤ size
  deriving DecidableEq, Repr

namespace FixedBuffer

variable {size : Nat}

def new : FixedBuffer size := ⟨[], Nat.zero_le size⟩

def length (b : FixedBuffer size) : Nat := b.data.length

def avail (b : FixedBuffer size) : Nat := size - b.length

/-- What does not fit is left out. -/
def append (b : FixedBuffer size) (buf : Bytes) : FixedBuffer size :=
  if h : buf.length < b.avail then
    { data := b.data ++ buf
      length_le := by
        rw [List.length_append]
        exact Nat.add_le_of_le_sub' b.length_le (Nat.le_of_lt h) }
  else b

/-- The bytes written at `current()`, with a NUL after them, and `add` of their number. -/
def add (b : FixedBuffer size) (written : Bytes) (h : written.length < b.avail) :
    FixedBuffer size where
  data := b.data ++ written
  length_le := by
    rw [List.length_append]
    exact Nat.add_le_of_le_sub' b.length_le (Nat.le_of_lt h)

def reset (_b : FixedBuffer size) : FixedBuffer size := new

theorem data_append {b : FixedBuffer size} {buf : Bytes} (h : buf.length < b.avail) :
    (b.append buf).data = b.data ++ buf := by
  rw [append, dif_pos h]

end FixedBuffer

/-! ## `convert` -/

namespace detail

/-- `digits` -/
def digits : Bytes := ascii "9876543210123456789"

/-- `zero`, which points at the `'0'` of `digits`. -/
def zero (lsd : Int) : UInt8 := digits.getD (lsd + 9).toNat 0

/-- The loop of `convert`: the digits from the last one on. -/
def convertLoop (i : Int) : Bytes :=
  zero (i.tmod 10) :: if _h : i.tdiv 10 = 0 then [] else convertLoop (i.tdiv 10)
termination_by i.natAbs
decreasing_by
  rw [Int.natAbs_tdiv]
  exact Nat.div_lt_self (Int.natAbs_pos.mpr fun hi => _h (by rw [hi]; rfl)) (by decide)

/-- What `convert` writes and returns the length of. -/
def convert (value : Int) : Bytes :=
  (convertLoop value ++ if value < 0 then ascii "-" else []).reverse

def digitsHex : Bytes := ascii "0123456789ABCDEF"

def convertHexLoop (i : Nat) : Bytes :=
  digitsHex.getD (i % 16) 0 :: if _h : i / 16 = 0 then [] else convertHexLoop (i / 16)
termination_by i
decreasing_by exact Nat.div_lt_self (Nat.pos_of_ne_zero fun hi => _h (by rw [hi])) (by decide)

def convertHex (value : UInt64) : Bytes := (convertHexLoop value.toNat).reverse

theorem zero_eq : ∀ d < 10,
    zero (d : Nat) = d.digitChar.toNat.toUInt8 ∧ zero (-(d : Nat)) = d.digitChar.toNat.toUInt8 := by
  decide

/-- `digits` serves a negative remainder as well. -/
theorem zero_tmod (i : Int) : zero (i.tmod 10) = (i.natAbs % 10).digitChar.toNat.toUInt8 := by
  have hd := zero_eq (i.natAbs % 10) (Nat.mod_lt _ (by decide))
  rcases Int.natAbs_eq i with hi | hi
  · rw [← hd.1]
    exact congrArg zero (congrArg (Int.tmod · 10) hi)
  · rw [← hd.2]
    refine congrArg zero ((congrArg (Int.tmod · 10) hi).trans ?_)
    exact Int.neg_tmod _ _

theorem convertLoop_eq (i : Int) : (convertLoop i).reverse = natText i.natAbs := by
  induction i using convertLoop.induct with
  | case1 i ih =>
    have hquot : (i.tdiv 10).natAbs = i.natAbs / 10 := Int.natAbs_tdiv i 10
    rw [convertLoop, zero_tmod, List.reverse_cons, natText]
    split
    · next hzero =>
      have hlt : i.natAbs < 10 := by
        rw [hzero] at hquot
        exact (Nat.div_eq_zero_iff_lt (by decide)).mp hquot.symm
      rw [Nat.toDigits_of_lt_base hlt, Nat.mod_eq_of_lt hlt]
      rfl
    · next hmore =>
      have hle : 10 ≤ i.natAbs := by
        refine Nat.le_of_not_lt fun hlt => hmore (Int.natAbs_eq_zero.mp ?_)
        rw [hquot, Nat.div_eq_of_lt hlt]
      rw [ih hmore, hquot, Nat.toDigits_of_base_le (by decide) hle, List.map_append]
      rfl

theorem convert_eq (value : Int) : convert value = intText value := by
  rw [convert, List.reverse_append, convertLoop_eq, intText]
  split
  · rfl
  · rfl

theorem length_convertHexLoop {i k : Nat} (h : i < 16 ^ (k + 1)) :
    (convertHexLoop i).length ≤ k + 1 := by
  induction k generalizing i with
  | zero =>
    have hquot : i / 16 = 0 := Nat.div_eq_of_lt h
    rw [convertHexLoop, dif_pos hquot]
    exact Nat.le_refl _
  | succ k ih =>
    have hquot : i / 16 < 16 ^ (k + 1) := Nat.div_lt_of_lt_mul (by rwa [Nat.pow_succ'] at h)
    rw [convertHexLoop]
    split
    · exact Nat.le_add_left _ _
    · exact Nat.succ_le_succ (ih hquot)

theorem length_convertHex (value : UInt64) : (convertHex value).length ≤ 16 := by
  rw [convertHex, List.length_reverse]
  exact length_convertHexLoop value.toNat_lt

end detail

/-! ## `LogStream` -/

def kMaxNumericSize : Nat := 48

/-- The values of the integer types, from `short` to `unsigned long long`. -/
def Integral := { v : Int // -2 ^ 63 ≤ v ∧ v < 2 ^ 64 }
  deriving DecidableEq, Repr

def Integral.ofInt (v : Int32) : Integral :=
  ⟨v.toInt, by have := v.le_toInt; omega, by have := v.toInt_lt; omega⟩

theorem length_convert (v : Integral) : (detail.convert v.val).length ≤ 21 := by
  have hdigits : (natText v.val.natAbs).length ≤ 20 := by
    obtain ⟨hlo, hhi⟩ := v.property
    exact (natText_length_le_iff (by decide)).mpr (by omega)
  rw [detail.convert_eq, intText]
  split
  · exact Nat.succ_le_succ hdigits
  · exact hdigits.trans (by decide)

structure LogStream where
  buffer_ : FixedBuffer kSmallBuffer
  deriving DecidableEq, Repr

/-- What can be streamed. -/
inductive Piece
  /-- `const char*`, which may be null -/
  | chars (str : Option Bytes)
  /-- `std::string` and what is streamed as a pointer and a length -/
  | string (v : Bytes)
  | char (v : UInt8)
  | bool (v : Bool)
  | integer (v : Integral)
  | pointer (p : UInt64)
  /-- `double`, with what `"%.12g"` makes of it -/
  | double (text : Bytes) (h : text.length < kMaxNumericSize)
  deriving DecidableEq, Repr

namespace LogStream

def new : LogStream := ⟨FixedBuffer.new⟩

def append (s : LogStream) (data : Bytes) : LogStream := ⟨s.buffer_.append data⟩

/-- The `operator<<` that write at `current()`. -/
def format (s : LogStream) (text : Bytes) (h : text.length < kMaxNumericSize) : LogStream :=
  if hroom : kMaxNumericSize ≤ s.buffer_.avail then ⟨s.buffer_.add text (h.trans_le hroom)⟩ else s

def formatInteger (s : LogStream) (v : Integral) : LogStream :=
  s.format (detail.convert v.val) ((length_convert v).trans_lt (by decide))

def formatPointer (s : LogStream) (p : UInt64) : LogStream :=
  s.format (ascii "0x" ++ detail.convertHex p) (by
    rw [List.length_append]
    exact (Nat.add_le_add_left (detail.length_convertHex p) 2).trans_lt (by decide))

/-- `operator<<` -/
def put (s : LogStream) : Piece → LogStream
  | .chars (some str) => s.append (c_str str)
  | .chars none => s.append (ascii "(null)")
  | .string v => s.append v
  | .char v => s.append [v]
  | .bool v => s.append (ascii (if v then "1" else "0"))
  | .integer v => s.formatInteger v
  | .pointer p => s.formatPointer p
  | .double text h => s.format text h

def stream (s : LogStream) (ps : List Piece) : LogStream := ps.foldl put s

end LogStream

/-! ## What is in the buffer -/

namespace Piece

def text : Piece → Bytes
  | .chars (some str) => c_str str
  | .chars none => ascii "(null)"
  | .string v => v
  | .char v => [v]
  | .bool v => ascii (if v then "1" else "0")
  | .integer v => intText v.val
  | .pointer p => ascii "0x" ++ detail.convertHex p
  | .double text _ => text

/-- What is formatted in place. -/
def numeric : Piece → Bool
  | .integer _ | .pointer _ | .double _ _ => true
  | _ => false

/-- Whether the piece is kept with this room left. -/
def fits (p : Piece) (avail : Nat) : Bool :=
  if p.numeric then kMaxNumericSize ≤ avail else p.text.length < avail

/-- The room left after the piece. -/
def room (avail : Nat) (p : Piece) : Nat :=
  if p.fits avail then avail - p.text.length else avail

theorem length_lt_of_numeric {p : Piece} (h : p.numeric = true) :
    p.text.length < kMaxNumericSize := by
  cases p with
  | integer v =>
    rw [text, ← detail.convert_eq]
    exact (length_convert v).trans_lt (by decide)
  | pointer p =>
    rw [text, List.length_append]
    exact (Nat.add_le_add_left (detail.length_convertHex p) 2).trans_lt (by decide)
  | double text hlt => exact hlt
  | _ => cases h

theorem length_lt_of_fits {p : Piece} {avail : Nat} (h : p.fits avail = true) :
    p.text.length < avail := by
  unfold fits at h
  split at h
  · next hnumeric => exact (length_lt_of_numeric hnumeric).trans_le (of_decide_eq_true h)
  · exact of_decide_eq_true h

end Piece

namespace LogStream

theorem data_append (s : LogStream) (data : Bytes) :
    (s.append data).buffer_.data =
      s.buffer_.data ++ if data.length < s.buffer_.avail then data else [] := by
  split
  · next h => exact FixedBuffer.data_append h
  · next h => rw [append, FixedBuffer.append, dif_neg h, List.append_nil]

theorem data_format (s : LogStream) {text : Bytes} (h : text.length < kMaxNumericSize) :
    (s.format text h).buffer_.data =
      s.buffer_.data ++ if kMaxNumericSize ≤ s.buffer_.avail then text else [] := by
  unfold format
  split
  · rfl
  · rw [List.append_nil]

theorem data_put_copied {s : LogStream} {p : Piece} (hput : s.put p = s.append p.text)
    (hcopied : p.numeric = false) :
    (s.put p).buffer_.data =
      s.buffer_.data ++ if p.fits s.buffer_.avail then p.text else [] := by
  rw [hput, data_append, Piece.fits, hcopied]
  simp only [Bool.false_eq_true, if_false, decide_eq_true_eq]

theorem data_put_formatted {s : LogStream} {p : Piece} (hnumeric : p.numeric = true)
    (hput : s.put p = s.format p.text (Piece.length_lt_of_numeric hnumeric)) :
    (s.put p).buffer_.data =
      s.buffer_.data ++ if p.fits s.buffer_.avail then p.text else [] := by
  rw [hput, data_format, Piece.fits, hnumeric]
  simp only [if_true, decide_eq_true_eq]

/-- What one piece leaves in the buffer. -/
theorem data_put (s : LogStream) (p : Piece) :
    (s.put p).buffer_.data =
      s.buffer_.data ++ if p.fits s.buffer_.avail then p.text else [] := by
  cases p with
  | chars str =>
    cases str with
    | some str => exact data_put_copied rfl rfl
    | none => exact data_put_copied rfl rfl
  | string v => exact data_put_copied rfl rfl
  | char v => exact data_put_copied rfl rfl
  | bool v => exact data_put_copied rfl rfl
  | integer v =>
    refine data_put_formatted rfl ?_
    simp only [put, formatInteger, Piece.text, detail.convert_eq]
  | pointer p => exact data_put_formatted rfl rfl
  | double text h => exact data_put_formatted rfl rfl

theorem stream_append (s : LogStream) (ps qs : List Piece) :
    s.stream (ps ++ qs) = (s.stream ps).stream qs :=
  List.foldl_append

/-- The room left depends on the lengths alone. -/
theorem avail_put (s : LogStream) (p : Piece) :
    (s.put p).buffer_.avail = p.room s.buffer_.avail := by
  rw [FixedBuffer.avail, FixedBuffer.length, data_put, List.length_append, Piece.room]
  split
  · rw [← Nat.sub_sub]
    rfl
  · rfl

theorem avail_stream (s : LogStream) (ps : List Piece) :
    (s.stream ps).buffer_.avail = ps.foldl Piece.room s.buffer_.avail := by
  induction ps generalizing s with
  | nil => rfl
  | cons p ps ih =>
    rw [stream, List.foldl_cons, List.foldl_cons, ← avail_put]
    exact ih (s.put p)

/-- There is always room for the NUL that `debugString` writes. -/
theorem avail_stream_pos {s : LogStream} (h : 0 < s.buffer_.avail) (ps : List Piece) :
    0 < (s.stream ps).buffer_.avail := by
  induction ps generalizing s with
  | nil => exact h
  | cons p ps ih =>
    refine ih (s := s.put p) ?_
    rw [avail_put, Piece.room]
    split
    · next hfits => exact Nat.sub_pos_of_lt (Piece.length_lt_of_fits hfits)
    · exact h

theorem length_stream_lt (ps : List Piece) : (new.stream ps).buffer_.length < kSmallBuffer :=
  Nat.lt_of_sub_pos (avail_stream_pos (s := new) (by decide) ps)

/-- A stream holds whole pieces, in order. -/
theorem stream_sublist (s : LogStream) (ps : List Piece) :
    ∃ kept : List Piece, kept.Sublist ps ∧
      (s.stream ps).buffer_.data = s.buffer_.data ++ kept.flatMap Piece.text := by
  induction ps generalizing s with
  | nil => exact ⟨[], List.Sublist.slnil, (List.append_nil _).symm⟩
  | cons p ps ih =>
    obtain ⟨kept, hkept, hdata⟩ := ih (s.put p)
    rw [data_put] at hdata
    by_cases hfits : p.fits s.buffer_.avail = true
    · refine ⟨p :: kept, hkept.cons_cons p, ?_⟩
      rw [if_pos hfits, List.append_assoc] at hdata
      exact hdata
    · refine ⟨kept, hkept.cons p, ?_⟩
      rw [if_neg hfits, List.append_nil] at hdata
      exact hdata

/-- Pieces that leave `kMaxNumericSize` bytes of room together are all kept. -/
theorem stream_whole {s : LogStream} {ps : List Piece}
    (h : (ps.flatMap Piece.text).length + kMaxNumericSize ≤ s.buffer_.avail) :
    (s.stream ps).buffer_.data = s.buffer_.data ++ ps.flatMap Piece.text := by
  induction ps generalizing s with
  | nil => exact (List.append_nil _).symm
  | cons p ps ih =>
    rw [List.flatMap_cons, List.length_append] at h
    have hnumeric : kMaxNumericSize ≤ s.buffer_.avail := (Nat.le_add_left _ _).trans h
    have hshorter : p.text.length < s.buffer_.avail := by
      refine lt_of_lt_of_le ?_ h
      rw [Nat.add_assoc]
      exact Nat.lt_add_of_pos_right (Nat.lt_of_lt_of_le (by decide) (Nat.le_add_left _ _))
    have hfits : p.fits s.buffer_.avail = true := by
      unfold Piece.fits
      split
      · exact decide_eq_true hnumeric
      · exact decide_eq_true hshorter
    have hrest : (ps.flatMap Piece.text).length + kMaxNumericSize ≤ (s.put p).buffer_.avail := by
      rw [avail_put, Piece.room, if_pos hfits]
      exact Nat.le_sub_of_add_le' (by rwa [← Nat.add_assoc])
    have hdata := ih hrest
    rw [data_put, if_pos hfits, List.append_assoc] at hdata
    exact hdata

end LogStream

end Mymuduo
