import Mymuduo.Net.TypedInts

/-!
# `net/Buffer` as the machine runs it

`RawBuffer` is the three members of `Buffer` with nothing known about them. Indices are `size_t`,
whose arithmetic wraps around, memory is copied byte by byte, and an operation returns `none` when
an assertion in it fails, when it touches memory outside the vector, or when the vector would have
to grow beyond `max_size()`.

A `Buffer`, whose indices are in order, is one of them (`Buffer.raw`), and as long as sizes stay
below `2 ^ 62` each operation does to it what it does to the `Buffer` (`raw_append` and so on).
-/

namespace Mymuduo

open CString ByteOrder

/-- `a + b` in `size_t`. -/
def sizeAdd (a b : Nat) : Nat := (a + b) % 2 ^ 64

/-- `a - b` in `size_t`. -/
def sizeSub (a b : Nat) : Nat := (a + (2 ^ 64 - b)) % 2 ^ 64

theorem sizeAdd_eq {a b : Nat} (h : a + b < 2 ^ 64) : sizeAdd a b = a + b := Nat.mod_eq_of_lt h

theorem sizeSub_eq {a b : Nat} (h : b ≤ a) (ha : a < 2 ^ 64) : sizeSub a b = a - b := by
  unfold sizeSub
  omega

/-- An assertion that holds. -/
theorem guard_of {p : Prop} [Decidable p] (h : p) : (guard p : Option Unit) = some () := if_pos h

/-! ## Memory -/

/-- The `len` bytes from index `i` on. -/
def load (l : Bytes) (i len : Nat) : Option Bytes :=
  if i + len ≤ l.length then some ((l.drop i).take len) else none

/-- `std::copy` of bytes from elsewhere to index `dst` on. -/
def copyTo (l : Bytes) (dst : Nat) : Bytes → Option Bytes
  | [] => some l
  | x :: xs => if dst < l.length then copyTo (l.set dst x) (dst + 1) xs else none

/-- `std::copy` of `n` bytes from index `src` to index `dst` on. -/
def copyWithin (l : Bytes) (src dst : Nat) : Nat → Option Bytes
  | 0 => some l
  | n + 1 =>
    if h : src < l.length then
      if dst < l.length then copyWithin (l.set dst l[src]) (src + 1) (dst + 1) n else none
    else none

/-- `max_size()` of a `std::vector<char>`. -/
def maxSize : Nat := 2 ^ 63 - 1

/-- `resize` of a vector. -/
def resize (l : Bytes) (n : Nat) : Option Bytes :=
  if n ≤ maxSize then some (l.take n ++ List.replicate (n - l.length) 0) else none

theorem overwrite_cons {l : Bytes} {i : Nat} (x : UInt8) (xs : Bytes) (h : i < l.length) :
    overwrite l i (x :: xs) = overwrite (l.set i x) (i + 1) xs := by
  have htake : (l.set i x).take (i + 1) = l.take i ++ [x] := by
    rw [List.set_eq_take_append_cons_drop, if_pos h, List.take_append,
      List.take_of_length_le (Nat.le_succ_of_le (List.length_take_le i l))]
    simp [Nat.le_of_lt h]
  have hdrop : (l.set i x).drop (i + 1 + xs.length) = l.drop (i + (x :: xs).length) := by
    rw [List.drop_set, if_pos (by omega), List.length_cons, Nat.add_right_comm, Nat.add_assoc]
  rw [overwrite, overwrite, htake, hdrop]
  simp

theorem copyTo_eq (data : Bytes) {l : Bytes} {dst : Nat} (h : dst + data.length ≤ l.length) :
    copyTo l dst data = some (overwrite l dst data) := by
  induction data generalizing l dst with
  | nil => simp [copyTo, overwrite]
  | cons x xs ih =>
    rw [List.length_cons] at h
    rw [copyTo, if_pos (by omega), ih (by rw [List.length_set]; omega),
      ← overwrite_cons x xs (by omega)]

/-- Moving bytes to the front reads each before it is overwritten. -/
theorem copyWithin_eq (n : Nat) {l : Bytes} {src dst : Nat} (hle : dst ≤ src)
    (h : src + n ≤ l.length) :
    copyWithin l src dst n = some (overwrite l dst ((l.drop src).take n)) := by
  induction n generalizing l src dst with
  | zero => simp [copyWithin, overwrite]
  | succ n ih =>
    have hsrc : src < l.length := by omega
    have hdrop : (l.drop src).take (n + 1) = l[src] :: (l.drop (src + 1)).take n := by
      rw [List.drop_eq_getElem_cons hsrc, List.take_succ_cons]
    have hdst : dst < l.length := Nat.lt_of_le_of_lt hle hsrc
    have hfit : src + 1 + n ≤ (l.set dst l[src]).length := by
      rw [List.length_set]
      omega
    rw [copyWithin, dif_pos hsrc, if_pos hdst, ih (Nat.succ_le_succ hle) hfit, hdrop,
      overwrite_cons _ _ hdst, List.drop_set, if_pos (by omega)]

theorem load_eq {l : Bytes} {i len : Nat} (h : i + len ≤ l.length) :
    load l i len = some ((l.drop i).take len) := if_pos h

/-! ## The operations -/

/-- The members of a `Buffer`. -/
structure RawBuffer where
  buffer_ : Bytes
  readerIndex_ : Nat
  writerIndex_ : Nat
  deriving DecidableEq, Repr

namespace RawBuffer

/-- The constructor. -/
def new (initialSize : Nat) : RawBuffer where
  buffer_ := List.replicate (sizeAdd kCheapPrepend initialSize) 0
  readerIndex_ := kCheapPrepend
  writerIndex_ := kCheapPrepend

def readableBytes (b : RawBuffer) : Nat := sizeSub b.writerIndex_ b.readerIndex_
def writableBytes (b : RawBuffer) : Nat := sizeSub b.buffer_.length b.writerIndex_
def prependableBytes (b : RawBuffer) : Nat := b.readerIndex_

/-- The bytes between the indices. -/
def readable (b : RawBuffer) : Bytes :=
  (b.buffer_.drop b.readerIndex_).take (b.writerIndex_ - b.readerIndex_)

def retrieveAll (b : RawBuffer) : RawBuffer :=
  { b with readerIndex_ := kCheapPrepend, writerIndex_ := kCheapPrepend }

def retrieve (b : RawBuffer) (len : Nat) : Option RawBuffer := do
  guard (len ≤ b.readableBytes)
  if len < b.readableBytes then
    return { b with readerIndex_ := sizeAdd b.readerIndex_ len }
  else
    return b.retrieveAll

/-- `retrieveUntil`, with the pointer `end` as its distance from `begin()`. -/
def retrieveUntil (b : RawBuffer) (end_ : Nat) : Option RawBuffer := do
  guard (b.readerIndex_ ≤ end_)
  guard (end_ ≤ b.writerIndex_)
  b.retrieve (sizeSub end_ b.readerIndex_)

def makeSpace (b : RawBuffer) (len : Nat) : Option RawBuffer := do
  if sizeAdd b.writableBytes b.prependableBytes < sizeAdd len kCheapPrepend then
    return { b with buffer_ := ← resize b.buffer_ (sizeAdd b.writerIndex_ len) }
  else
    guard (kCheapPrepend < b.readerIndex_)
    let readable := b.readableBytes
    let moved ← copyWithin b.buffer_ b.readerIndex_ kCheapPrepend readable
    let b : RawBuffer := ⟨moved, kCheapPrepend, sizeAdd kCheapPrepend readable⟩
    guard (readable = b.readableBytes)
    return b

def ensureWritableBytes (b : RawBuffer) (len : Nat) : Option RawBuffer := do
  let b ← if b.writableBytes < len then b.makeSpace len else pure b
  guard (len ≤ b.writableBytes)
  return b

def hasWritten (b : RawBuffer) (len : Nat) : Option RawBuffer := do
  guard (len ≤ b.writableBytes)
  return { b with writerIndex_ := sizeAdd b.writerIndex_ len }

def unwrite (b : RawBuffer) (len : Nat) : Option RawBuffer := do
  guard (len ≤ b.readableBytes)
  return { b with writerIndex_ := sizeSub b.writerIndex_ len }

/-- Writing through `beginWrite()`. -/
def writeDirect (b : RawBuffer) (data : Bytes) : Option RawBuffer := do
  return { b with buffer_ := ← copyTo b.buffer_ b.writerIndex_ data }

def append (b : RawBuffer) (data : Bytes) : Option RawBuffer := do
  let b ← b.ensureWritableBytes data.length
  let b ← b.writeDirect data
  b.hasWritten data.length

def prepend (b : RawBuffer) (data : Bytes) : Option RawBuffer := do
  guard (data.length ≤ b.prependableBytes)
  let readerIndex_ := sizeSub b.readerIndex_ data.length
  return ⟨← copyTo b.buffer_ readerIndex_ data, readerIndex_, b.writerIndex_⟩

/-- `shrink`: the other buffer, which it is swapped with. The length of the `StringPiece` is an
`int` in between. -/
def shrink (b : RawBuffer) (reserve : Nat) : Option RawBuffer := do
  let other := new kInitialSize
  let other ← other.ensureWritableBytes (sizeAdd b.readableBytes reserve)
  let str ← load b.buffer_ b.readerIndex_ (castSize (castInt b.readableBytes))
  other.append str

/-- `readFd`, by what `readv(2)` delivers into the writable bytes and then `extrabuf`; `none` when
it fails. -/
def readFd (b : RawBuffer) (result : Option Bytes) : Option RawBuffer := do
  match result with
  | none => return b
  | some data =>
    let writable := b.writableBytes
    let b ← b.writeDirect (data.take writable)
    let extrabuf := data.drop writable
    if data.length ≤ writable then
      return { b with writerIndex_ := sizeAdd b.writerIndex_ data.length }
    else
      let b := { b with writerIndex_ := b.buffer_.length }
      b.append (extrabuf.take (sizeSub data.length writable))

/-- `appendInt8` to `appendInt64`. -/
def appendInt (host : Order) (b : RawBuffer) (v : TypedInt) : Option RawBuffer :=
  b.append (converted host v)

/-- `readInt8` to `readInt64`. -/
def readInt (host : Order) (b : RawBuffer) (t : IntType) : Option (t.Value × RawBuffer) := do
  guard (t.size ≤ b.readableBytes)
  let result := fromNetwork host t (← load b.buffer_ b.readerIndex_ t.size)
  return (result, ← b.retrieve t.size)

end RawBuffer

/-! ## A buffer with its bounds -/

namespace Buffer

open RawBuffer

def raw (b : Buffer) : RawBuffer := ⟨b.buffer_, b.readerIndex_, b.writerIndex_⟩

variable {b : Buffer}

/-- The vector and `len` bytes more are not beyond `max_size()`. -/
def Fits (b : Buffer) (len : Nat) : Prop := b.buffer_.length + len ≤ maxSize

/-- The zones of a vector are below its size. -/
theorem Fits.zones {len : Nat} (hb : b.Fits len) :
    b.prependableBytes + b.readableBytes + b.writableBytes + len < 2 ^ 63 := by
  rw [length_zones]
  exact Nat.lt_of_le_of_lt hb (by decide)

theorem Fits.length_lt {len : Nat} (hb : b.Fits len) : b.buffer_.length < 2 ^ 64 := by
  have := hb.zones
  rw [length_zones] at this
  omega

theorem Fits.zero {len : Nat} (hb : b.Fits len) : b.Fits 0 :=
  Nat.le_trans (Nat.le_add_right _ len) hb

theorem raw_readableBytes (hb : b.Fits 0) : b.raw.readableBytes = b.readableBytes :=
  sizeSub_eq b.reader_le (Nat.lt_of_le_of_lt b.writer_le hb.length_lt)

theorem raw_writableBytes (hb : b.Fits 0) : b.raw.writableBytes = b.writableBytes :=
  sizeSub_eq b.writer_le hb.length_lt

theorem raw_retrieve (hb : b.Fits 0) {len : Nat} (h : len ≤ b.readableBytes) :
    b.raw.retrieve len = some (b.retrieve len).raw := by
  have hz := hb.zones
  have hadd : sizeAdd b.raw.readerIndex_ len = b.readerIndex_ + len :=
    sizeAdd_eq (by show b.prependableBytes + len < _; omega)
  unfold RawBuffer.retrieve retrieve
  rw [raw_readableBytes hb, guard_of h, hadd]
  show (if len < b.readableBytes then _ else _ : Option RawBuffer) = _
  split
  · rfl
  · rfl

theorem raw_retrieveUntil (hb : b.Fits 0) {end_ : Nat} (h : b.readerIndex_ ≤ end_)
    (h' : end_ ≤ b.writerIndex_) :
    b.raw.retrieveUntil end_ = some (b.retrieve (end_ - b.readerIndex_)).raw := by
  have hlt : end_ < 2 ^ 64 := Nat.lt_of_le_of_lt (Nat.le_trans h' b.writer_le) hb.length_lt
  have hsub : sizeSub end_ b.raw.readerIndex_ = end_ - b.readerIndex_ := sizeSub_eq h hlt
  have hstart : b.raw.readerIndex_ ≤ end_ := h
  have hend : end_ ≤ b.raw.writerIndex_ := h'
  unfold RawBuffer.retrieveUntil
  rw [guard_of hstart, guard_of hend, hsub]
  exact raw_retrieve hb (Nat.sub_le_sub_right h' _)

/-- Both ways of making space, and the assertions on the second. -/
theorem raw_makeSpace {len : Nat} (hb : b.Fits len) (h : b.writableBytes < len) :
    b.raw.makeSpace len = some (b.makeSpace len h).raw := by
  have hz := hb.zones
  have hw : b.writerIndex_ = b.prependableBytes + b.readableBytes :=
    (Nat.add_sub_of_le b.reader_le).symm
  have hleft : sizeAdd b.raw.writableBytes b.raw.prependableBytes =
      b.writableBytes + b.prependableBytes := by
    rw [raw_writableBytes hb.zero]
    exact sizeAdd_eq (by show _ + b.prependableBytes < _; omega)
  have hright : sizeAdd len kCheapPrepend = len + kCheapPrepend :=
    sizeAdd_eq (by unfold kCheapPrepend; omega)
  unfold RawBuffer.makeSpace makeSpace
  rw [hleft, hright]
  split
  · have hadd : sizeAdd b.raw.writerIndex_ len = b.writerIndex_ + len :=
      sizeAdd_eq (by show b.writerIndex_ + len < _; omega)
    have hlonger : b.buffer_.length ≤ b.writerIndex_ + len := by
      rw [← length_zones]
      omega
    rw [hadd, resize, if_pos (by unfold maxSize; omega)]
    show some (RawBuffer.mk (b.buffer_.take _ ++ _) _ _) = _
    rw [List.take_of_length_le hlonger]
    rfl
  · rename_i hroom
    have hreader : kCheapPrepend < b.raw.readerIndex_ := by
      show kCheapPrepend < b.prependableBytes
      omega
    have hmove : copyWithin b.raw.buffer_ b.raw.readerIndex_ kCheapPrepend b.readableBytes =
        some (overwrite b.buffer_ kCheapPrepend b.readable) :=
      copyWithin_eq b.readableBytes hreader.le (by
        show b.prependableBytes + b.readableBytes ≤ b.buffer_.length
        rw [← hw]
        exact b.writer_le)
    have hadd : sizeAdd kCheapPrepend b.readableBytes = kCheapPrepend + b.readableBytes :=
      sizeAdd_eq (by unfold kCheapPrepend; omega)
    have hsame : b.readableBytes = sizeSub (kCheapPrepend + b.readableBytes) kCheapPrepend := by
      rw [sizeSub_eq (Nat.le_add_right _ _) (by unfold kCheapPrepend; omega),
        Nat.add_sub_cancel_left]
    simp only [guard_of hreader, raw_readableBytes hb.zero, hmove, hadd, Option.bind_eq_bind,
      Option.bind_some]
    exact congrArg (Option.bind · _) (guard_of hsame)

/-- Making space adds at most what is asked for. -/
theorem length_ensureWritableBytes (b : Buffer) (len : Nat) :
    (b.ensureWritableBytes len).buffer_.length ≤ b.buffer_.length + len := by
  have hz := b.length_zones
  have hw := b.writer_le
  unfold ensureWritableBytes
  split
  · rename_i h
    unfold makeSpace
    split
    · simp only [List.length_append, List.length_replicate]
      omega
    · rename_i hroom
      have hfit : kCheapPrepend + b.readable.length ≤ b.buffer_.length := by
        rw [length_readable]
        omega
      show (overwrite b.buffer_ kCheapPrepend b.readable).length ≤ _
      rw [length_overwrite hfit]
      exact Nat.le_add_right _ _
  · exact Nat.le_add_right _ _

theorem Fits.ensure {len : Nat} (hb : b.Fits len) : (b.ensureWritableBytes len).Fits 0 :=
  Nat.le_trans (length_ensureWritableBytes b len) hb

theorem raw_ensureWritableBytes {len : Nat} (hb : b.Fits len) :
    b.raw.ensureWritableBytes len = some (b.ensureWritableBytes len).raw := by
  have henough : len ≤ (b.ensureWritableBytes len).raw.writableBytes := by
    rw [raw_writableBytes hb.ensure]
    exact le_writableBytes_ensureWritableBytes b len
  unfold RawBuffer.ensureWritableBytes
  by_cases h : b.writableBytes < len
  · have hspace : b.raw.makeSpace len = some (b.ensureWritableBytes len).raw := by
      rw [raw_makeSpace hb h, ensureWritableBytes, dif_pos h]
    simp only [raw_writableBytes hb.zero, if_pos h, hspace, Option.bind_eq_bind, Option.bind_some,
      guard_of henough]
    rfl
  · have hsame : b.ensureWritableBytes len = b := dif_neg h
    rw [hsame] at henough ⊢
    rw [raw_writableBytes hb.zero] at henough
    simp only [raw_writableBytes hb.zero, if_neg h, guard_of henough, Option.bind_eq_bind,
      Option.bind_some, Option.pure_def]

theorem raw_writeDirect {data : Bytes} (h : data.length ≤ b.writableBytes) :
    b.raw.writeDirect data = some (b.writeDirect data h).raw := by
  have hw := b.writer_le
  have hcopy : copyTo b.raw.buffer_ b.raw.writerIndex_ data =
      some (overwrite b.buffer_ b.writerIndex_ data) :=
    copyTo_eq data (by
      show b.writerIndex_ + data.length ≤ b.buffer_.length
      unfold writableBytes at h
      omega)
  unfold RawBuffer.writeDirect
  rw [hcopy]
  rfl

theorem raw_hasWritten (hb : b.Fits 0) {len : Nat} (h : len ≤ b.writableBytes) :
    b.raw.hasWritten len = some (b.hasWritten len h).raw := by
  have hz := hb.zones
  have hw : b.writerIndex_ = b.prependableBytes + b.readableBytes :=
    (Nat.add_sub_of_le b.reader_le).symm
  have hadd : sizeAdd b.raw.writerIndex_ len = b.writerIndex_ + len :=
    sizeAdd_eq (by show b.writerIndex_ + len < _; omega)
  unfold RawBuffer.hasWritten
  rw [raw_writableBytes hb, guard_of h, hadd]
  rfl

theorem writableBytes_writeDirect (data : Bytes) (h : data.length ≤ b.writableBytes) :
    (b.writeDirect data h).writableBytes = b.writableBytes := by
  have hw := b.writer_le
  show (overwrite b.buffer_ b.writerIndex_ data).length - b.writerIndex_ = _
  rw [length_overwrite (by unfold writableBytes at h; omega)]
  rfl

theorem Fits.writeDirect {len : Nat} (hb : b.Fits len) (data : Bytes)
    (h : data.length ≤ b.writableBytes) : (b.writeDirect data h).Fits len := by
  have hw := b.writer_le
  show (overwrite b.buffer_ b.writerIndex_ data).length + len ≤ _
  rw [length_overwrite (by unfold writableBytes at h; omega)]
  exact hb

theorem raw_append {data : Bytes} (hb : b.Fits data.length) :
    b.raw.append data = some (b.append data).raw := by
  have hroom := le_writableBytes_ensureWritableBytes b data.length
  unfold RawBuffer.append
  rw [raw_ensureWritableBytes hb]
  show ((b.ensureWritableBytes data.length).raw.writeDirect data).bind _ = _
  rw [raw_writeDirect hroom]
  exact raw_hasWritten (hb.ensure.writeDirect data hroom)
    (by rw [writableBytes_writeDirect]; exact hroom)

theorem raw_unwrite (hb : b.Fits 0) {len : Nat} (h : len ≤ b.readableBytes) :
    b.raw.unwrite len = some (b.unwrite len h).raw := by
  have hle : len ≤ b.writerIndex_ := Nat.le_trans h (Nat.sub_le _ _)
  have hsub : sizeSub b.raw.writerIndex_ len = b.writerIndex_ - len :=
    sizeSub_eq hle (Nat.lt_of_le_of_lt b.writer_le hb.length_lt)
  unfold RawBuffer.unwrite
  rw [raw_readableBytes hb, guard_of h, hsub]
  rfl

theorem raw_prepend (hb : b.Fits 0) {data : Bytes} (h : data.length ≤ b.prependableBytes) :
    b.raw.prepend data = some (b.prepend data h).raw := by
  have hr := Nat.le_trans b.reader_le b.writer_le
  have hsub : sizeSub b.raw.readerIndex_ data.length = b.readerIndex_ - data.length :=
    sizeSub_eq h (Nat.lt_of_le_of_lt hr hb.length_lt)
  have hcopy : copyTo b.raw.buffer_ (b.readerIndex_ - data.length) data =
      some (overwrite b.buffer_ (b.readerIndex_ - data.length) data) :=
    copyTo_eq data (Nat.le_trans (Nat.sub_add_cancel h).le hr)
  have hguard : data.length ≤ b.raw.prependableBytes := h
  unfold RawBuffer.prepend
  rw [guard_of hguard, hsub]
  show (copyTo b.raw.buffer_ (b.readerIndex_ - data.length) data).bind _ = _
  rw [hcopy]
  rfl

theorem raw_new {n : Nat} (h : n < 2 ^ 62) : RawBuffer.new n = (new n).raw := by
  unfold RawBuffer.new
  rw [sizeAdd_eq (by unfold kCheapPrepend; omega)]
  rfl

/-- The `StringPiece` carries all of fewer than `2 ^ 31` bytes. -/
theorem raw_shrink (hb : b.Fits 0) {reserve : Nat} (h : b.readableBytes < 2 ^ 31)
    (hreserve : reserve < 2 ^ 62) :
    ∃ b', b.shrink reserve = some b' ∧ b.raw.shrink reserve = some b'.raw := by
  have hw : b.readerIndex_ + b.readableBytes = b.writerIndex_ := Nat.add_sub_of_le b.reader_le
  have hinit : (new kInitialSize).buffer_.length = 1032 := List.length_replicate ..
  have hfits : (new kInitialSize).Fits (b.readableBytes + reserve) := by
    unfold Fits maxSize
    rw [hinit]
    omega
  have hgrown := length_ensureWritableBytes (new kInitialSize) (b.readableBytes + reserve)
  have hfits' : ((new kInitialSize).ensureWritableBytes (b.readableBytes + reserve)).Fits
      b.readable.length := by
    unfold Fits maxSize
    rw [length_readable]
    omega
  have hcast : castSize (castInt b.readableBytes) = b.readableBytes := by
    rw [castInt_eq (by omega) (by omega)]
    exact castSize_natCast (by omega)
  have hpiece : load b.raw.buffer_ b.raw.readerIndex_ b.readableBytes = some b.readable :=
    load_eq (Nat.le_trans hw.le b.writer_le)
  have hlen : b.readable.length < 2 ^ 31 := Nat.lt_of_le_of_lt (length_readable b).le h
  refine ⟨_, appendPiece_of_lt _ hlen, ?_⟩
  unfold RawBuffer.shrink
  simp only [raw_new (by unfold kInitialSize; omega : kInitialSize < 2 ^ 62), raw_readableBytes hb,
    sizeAdd_eq (by omega : b.readableBytes + reserve < 2 ^ 64), raw_ensureWritableBytes hfits,
    hcast, hpiece, raw_append hfits', Option.bind_eq_bind, Option.bind_some]

/-- The bytes that did not fit come back from `extrabuf`. -/
theorem raw_readFd {data : Bytes} (hb : b.Fits (data.length - b.writableBytes)) :
    b.raw.readFd (some data) = some (b.readFd data).raw := by
  have hw := b.writer_le
  have hz := hb.zones
  have htake : (data.take b.writableBytes).length ≤ b.writableBytes := List.length_take_le _ _
  unfold RawBuffer.readFd readFd
  simp only [raw_writableBytes hb.zero, raw_writeDirect htake, Option.bind_eq_bind,
    Option.bind_some]
  split
  · rename_i h
    have hall : data.take b.writableBytes = data := List.take_of_length_le h
    have hadd : sizeAdd b.writerIndex_ data.length = b.writerIndex_ + data.length :=
      sizeAdd_eq (by have := hb.length_lt; unfold writableBytes at h; omega)
    show some (RawBuffer.mk (overwrite _ _ _) b.readerIndex_ (sizeAdd b.writerIndex_ data.length)) =
      _
    rw [hadd, hall]
    rfl
  · rename_i h
    have hsub : sizeSub data.length b.writableBytes = data.length - b.writableBytes :=
      sizeSub_eq (Nat.le_of_not_le h) (by omega)
    have hrest : (data.drop b.writableBytes).take (data.length - b.writableBytes) =
        data.drop b.writableBytes := List.take_of_length_le (List.length_drop ▸ Nat.le_refl _)
    have hfull : b.writerIndex_ + (data.take b.writableBytes).length = b.buffer_.length := by
      rw [List.length_take_of_le (Nat.le_of_not_le h)]
      exact Nat.add_sub_of_le hw
    have hlen : (overwrite b.buffer_ b.writerIndex_ (data.take b.writableBytes)).length =
        b.buffer_.length := length_overwrite hfull.le
    have hcopied : (RawBuffer.mk (overwrite b.buffer_ b.writerIndex_ (data.take b.writableBytes))
        b.readerIndex_ (overwrite b.buffer_ b.writerIndex_ (data.take b.writableBytes)).length) =
        (b.copyIn (data.take b.writableBytes) htake).raw := by
      show _ = RawBuffer.mk _ _ (b.writerIndex_ + (data.take b.writableBytes).length)
      rw [hlen, hfull]
      rfl
    have hfits : (b.copyIn (data.take b.writableBytes) htake).Fits
        (data.drop b.writableBytes).length := by
      show (overwrite b.buffer_ b.writerIndex_ (data.take b.writableBytes)).length + _ ≤ _
      rw [hlen, List.length_drop]
      exact hb
    rw [hsub, hrest]
    exact (congrArg (RawBuffer.append · _) hcopied).trans (raw_append hfits)

end Buffer

end Mymuduo
