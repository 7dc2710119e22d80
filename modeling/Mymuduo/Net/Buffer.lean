import Mymuduo.Lib.Lines

/-!
# `net/Buffer`

The byte buffer of `Buffer.h`: a vector with a reader and a writer index,

    0 <= readerIndex_ <= writerIndex_ <= buffer_.size()

and the fields carry these bounds, so that an operation that would break them cannot be written.
What the buffer is for is `readable`, the bytes between the indices: `readable_append`,
`readable_retrieve` and `readable_readFd` say what each operation does to them, whatever room had
to be made in the vector.
-/

namespace Mymuduo

open CString

def kCheapPrepend : Nat := 8
def kInitialSize : Nat := 1024

/-- `std::copy` of `d` onto `l` from index `i` on. -/
def overwrite {α : Type} (l : List α) (i : Nat) (d : List α) : List α :=
  l.take i ++ d ++ l.drop (i + d.length)

theorem length_overwrite {α : Type} {l d : List α} {i : Nat} (h : i + d.length ≤ l.length) :
    (overwrite l i d).length = l.length := by
  simp only [overwrite, List.length_append, List.length_take, List.length_drop]
  omega

/-- The elements from `j` to the end of what was copied in. -/
theorem drop_take_overwrite {α : Type} {l d : List α} {i j : Nat} (hj : j ≤ i)
    (h : i + d.length ≤ l.length) :
    ((overwrite l i d).drop j).take (i + d.length - j) = (l.drop j).take (i - j) ++ d := by
  have hlen : (l.take i).length = i := by simp; omega
  have htake : (overwrite l i d).take (i + d.length) = l.take i ++ d := by
    rw [overwrite, List.take_append_of_le_length (by rw [List.length_append, hlen])]
    exact List.take_of_length_le (by rw [List.length_append, hlen])
  rw [List.take_drop, show j + (i + d.length - j) = i + d.length by omega, htake,
    List.drop_append_of_le_length (by omega), List.take_drop, show j + (i - j) = i by omega]

/-- `Buffer`, with the bounds its comment draws. -/
structure Buffer where
  buffer_ : Bytes
  readerIndex_ : Nat
  writerIndex_ : Nat
  prepend_le : kCheapPrepend ≤ buffer_.length
  reader_le : readerIndex_ ≤ writerIndex_
  writer_le : writerIndex_ ≤ buffer_.length
  deriving DecidableEq, Repr

namespace Buffer

/-- The constructor, with `initialSize` writable bytes. -/
def new (initialSize : Nat) : Buffer where
  buffer_ := List.replicate (kCheapPrepend + initialSize) 0
  readerIndex_ := kCheapPrepend
  writerIndex_ := kCheapPrepend
  prepend_le := by simp
  reader_le := Nat.le_refl _
  writer_le := by simp

def readableBytes (b : Buffer) : Nat := b.writerIndex_ - b.readerIndex_
def writableBytes (b : Buffer) : Nat := b.buffer_.length - b.writerIndex_
def prependableBytes (b : Buffer) : Nat := b.readerIndex_

/-- The bytes from `peek()` to `beginWrite()`. -/
def readable (b : Buffer) : Bytes :=
  (b.buffer_.drop b.readerIndex_).take b.readableBytes

/-- `findCRLF()`, as an offset from `peek()`. -/
def findCRLF (b : Buffer) : Option Nat := Lines.findCRLF b.readable

/-- The `len` bytes of memory from `peek()` on; `none` when they run over the end of the vector. -/
def peekRange (b : Buffer) (len : Nat) : Option Bytes :=
  if b.readerIndex_ + len ≤ b.buffer_.length then some ((b.buffer_.drop b.readerIndex_).take len)
  else none

def retrieveAll (b : Buffer) : Buffer :=
  { b with
    readerIndex_ := kCheapPrepend
    writerIndex_ := kCheapPrepend
    reader_le := Nat.le_refl _
    writer_le := b.prepend_le }

def retrieve (b : Buffer) (len : Nat) : Buffer :=
  if h : len < b.readableBytes then
    { b with
      readerIndex_ := b.readerIndex_ + len
      reader_le := by unfold readableBytes at h; omega }
  else b.retrieveAll

@[simp] theorem length_readable (b : Buffer) : b.readable.length = b.readableBytes := by
  have h := b.writer_le
  simp only [readable, readableBytes, List.length_take, List.length_drop]
  omega

/-- The vector is the three zones of the picture. -/
theorem length_zones (b : Buffer) :
    b.prependableBytes + b.readableBytes + b.writableBytes = b.buffer_.length := by
  have hr := b.reader_le
  have hw := b.writer_le
  unfold prependableBytes readableBytes writableBytes
  omega

/-- `makeSpace`, called only when the writable bytes do not suffice. -/
def makeSpace (b : Buffer) (len : Nat) (_hlen : b.writableBytes < len) : Buffer :=
  if h : b.writableBytes + b.prependableBytes < len + kCheapPrepend then
    { b with
      buffer_ := b.buffer_ ++ List.replicate (b.writerIndex_ + len - b.buffer_.length) 0
      prepend_le := by have := b.prepend_le; simp; omega
      writer_le := by have := b.writer_le; simp; omega }
  else
    -- move readable data to the front, make space inside buffer
    have hroom : kCheapPrepend + b.readable.length ≤ b.buffer_.length := by
      have := b.length_zones
      rw [length_readable]
      omega
    { buffer_ := overwrite b.buffer_ kCheapPrepend b.readable
      readerIndex_ := kCheapPrepend
      writerIndex_ := kCheapPrepend + b.readableBytes
      prepend_le := by rw [length_overwrite hroom]; exact b.prepend_le
      reader_le := Nat.le_add_right _ _
      writer_le := by rw [length_overwrite hroom, ← length_readable]; exact hroom }

def ensureWritableBytes (b : Buffer) (len : Nat) : Buffer :=
  if h : b.writableBytes < len then b.makeSpace len h else b

theorem le_writableBytes_makeSpace (b : Buffer) (len : Nat) (h : b.writableBytes < len) :
    len ≤ (b.makeSpace len h).writableBytes := by
  have hz := b.length_zones
  unfold makeSpace
  split
  · simp only [writableBytes, List.length_append, List.length_replicate]
    omega
  · next hroom =>
    have hfit : kCheapPrepend + b.readable.length ≤ b.buffer_.length := by
      rw [length_readable]; omega
    simp only [writableBytes, length_overwrite hfit]
    unfold writableBytes at hroom hz
    omega

/-- The assertion at the end of `ensureWritableBytes`. -/
theorem le_writableBytes_ensureWritableBytes (b : Buffer) (len : Nat) :
    len ≤ (b.ensureWritableBytes len).writableBytes := by
  unfold ensureWritableBytes
  split
  · next h => exact le_writableBytes_makeSpace b len h
  · next h => exact Nat.le_of_not_lt h

/-- `std::copy(data, data + len, beginWrite()); hasWritten(len);` -/
def copyIn (b : Buffer) (data : Bytes) (h : data.length ≤ b.writableBytes) : Buffer :=
  have hfit : b.writerIndex_ + data.length ≤ b.buffer_.length := by
    have := b.writer_le
    unfold writableBytes at h
    omega
  { buffer_ := overwrite b.buffer_ b.writerIndex_ data
    readerIndex_ := b.readerIndex_
    writerIndex_ := b.writerIndex_ + data.length
    prepend_le := by rw [length_overwrite hfit]; exact b.prepend_le
    reader_le := Nat.le_trans b.reader_le (Nat.le_add_right _ _)
    writer_le := by rw [length_overwrite hfit]; exact hfit }

def append (b : Buffer) (data : Bytes) : Buffer :=
  (b.ensureWritableBytes data.length).copyIn data
    (le_writableBytes_ensureWritableBytes b data.length)

/-- The stack space that `readFd` reads into behind the writable bytes. -/
def kExtrabuf : Nat := 65536

/-- What `readv(2)` can return at most: `extrabuf` is used only when the buffer has less room. -/
def readLimit (b : Buffer) : Nat :=
  if b.writableBytes < kExtrabuf then b.writableBytes + kExtrabuf else b.writableBytes

/-- `readFd` when `readv(2)` delivers `data`. -/
def readFd (b : Buffer) (data : Bytes) : Buffer :=
  if h : data.length ≤ b.writableBytes then b.copyIn data h
  else
    (b.copyIn (data.take b.writableBytes) (List.length_take_le _ _)).append
      (data.drop b.writableBytes)

/-- `append` of a `StringPiece`, which keeps the length of a string in an `int`; `none` when that
comes out negative, and the copy then has no end. -/
def appendPiece (b : Buffer) (s : Bytes) : Option Buffer :=
  if castInt s.length < 0 then none else some (b.append (s.take (castInt s.length).toNat))

/-- Writing through `beginWrite()`, which tells the buffer nothing. -/
def writeDirect (b : Buffer) (data : Bytes) (h : data.length ≤ b.writableBytes) : Buffer :=
  have hfit : b.writerIndex_ + data.length ≤ b.buffer_.length := by
    have := b.writer_le
    unfold writableBytes at h
    omega
  { b with
    buffer_ := overwrite b.buffer_ b.writerIndex_ data
    prepend_le := by rw [length_overwrite hfit]; exact b.prepend_le
    writer_le := by rw [length_overwrite hfit]; exact b.writer_le }

def hasWritten (b : Buffer) (len : Nat) (h : len ≤ b.writableBytes) : Buffer :=
  { b with
    writerIndex_ := b.writerIndex_ + len
    reader_le := Nat.le_trans b.reader_le (Nat.le_add_right _ _)
    writer_le := by
      have := b.writer_le
      unfold writableBytes at h
      omega }

def unwrite (b : Buffer) (len : Nat) (h : len ≤ b.readableBytes) : Buffer :=
  { b with
    writerIndex_ := b.writerIndex_ - len
    reader_le := by
      have := b.reader_le
      unfold readableBytes at h
      omega
    writer_le := Nat.le_trans (Nat.sub_le _ _) b.writer_le }

def prepend (b : Buffer) (data : Bytes) (h : data.length ≤ b.prependableBytes) : Buffer :=
  have hfit : b.readerIndex_ - data.length + data.length ≤ b.buffer_.length := by
    have := b.reader_le
    have := b.writer_le
    unfold prependableBytes at h
    omega
  { buffer_ := overwrite b.buffer_ (b.readerIndex_ - data.length) data
    readerIndex_ := b.readerIndex_ - data.length
    writerIndex_ := b.writerIndex_
    prepend_le := by rw [length_overwrite hfit]; exact b.prepend_le
    reader_le := Nat.le_trans (Nat.sub_le _ _) b.reader_le
    writer_le := by rw [length_overwrite hfit]; exact b.writer_le }

/-- The buffer that `shrink` swaps with: the readable bytes go there as a `StringPiece`. -/
def shrink (b : Buffer) (reserve : Nat) : Option Buffer :=
  ((new kInitialSize).ensureWritableBytes (b.readableBytes + reserve)).appendPiece b.readable

/-! ## What the operations do to the readable bytes -/

@[simp] theorem readable_new (n : Nat) : (new n).readable = [] := by
  simp [readable, readableBytes, new]

@[simp] theorem readable_retrieveAll (b : Buffer) : b.retrieveAll.readable = [] := by
  simp [readable, readableBytes, retrieveAll]

@[simp] theorem readable_retrieve (b : Buffer) (len : Nat) :
    (b.retrieve len).readable = b.readable.drop len := by
  unfold retrieve
  split
  · next h =>
    unfold readableBytes at h
    simp only [readable, readableBytes, List.drop_take, List.drop_drop]
    congr 1
    omega
  · next h =>
    rw [readable_retrieveAll, List.drop_eq_nil_of_le]
    rw [length_readable]
    omega

theorem readable_makeSpace (b : Buffer) (len : Nat) (h : b.writableBytes < len) :
    (b.makeSpace len h).readable = b.readable := by
  have hr := b.reader_le
  have hw := b.writer_le
  unfold makeSpace
  split
  · simp only [readable, readableBytes]
    rw [List.drop_append_of_le_length (by omega), List.take_append_of_le_length]
    simp only [List.length_drop]
    omega
  · next hroom =>
    have hz := b.length_zones
    have hfit : kCheapPrepend + b.readable.length ≤ b.buffer_.length := by
      rw [length_readable]; omega
    have hcopy := drop_take_overwrite (Nat.le_refl kCheapPrepend) hfit
    rw [length_readable, Nat.sub_self, List.take_zero, List.nil_append] at hcopy
    exact hcopy

@[simp] theorem readable_ensureWritableBytes (b : Buffer) (len : Nat) :
    (b.ensureWritableBytes len).readable = b.readable := by
  unfold ensureWritableBytes
  split
  · next h => exact readable_makeSpace b len h
  · rfl

@[simp] theorem readable_copyIn (b : Buffer) (data : Bytes) (h : data.length ≤ b.writableBytes) :
    (b.copyIn data h).readable = b.readable ++ data := by
  have hw := b.writer_le
  have hfit : b.writerIndex_ + data.length ≤ b.buffer_.length := by
    unfold writableBytes at h; omega
  exact drop_take_overwrite b.reader_le hfit

@[simp] theorem readable_append (b : Buffer) (data : Bytes) :
    (b.append data).readable = b.readable ++ data := by
  simp [append]

@[simp] theorem readable_readFd (b : Buffer) (data : Bytes) :
    (b.readFd data).readable = b.readable ++ data := by
  unfold readFd
  split
  · simp
  · simp

theorem appendPiece_of_lt (b : Buffer) {s : Bytes} (h : s.length < 2 ^ 31) :
    b.appendPiece s = some (b.append s) := by
  have hcast : castInt s.length = s.length := castInt_eq (by omega) (by omega)
  rw [appendPiece, hcast, if_neg (by omega), Int.toNat_natCast, List.take_length]

theorem readableBytes_eq_zero {b : Buffer} : b.readableBytes = 0 ↔ b.readable = [] := by
  rw [← length_readable, List.length_eq_zero_iff]

/-- What was written through `beginWrite()` becomes readable as far as `hasWritten` says. -/
theorem readable_hasWritten (b : Buffer) {data : Bytes} {len : Nat} (hlen : len ≤ data.length)
    (h : data.length ≤ b.writableBytes) (h' : len ≤ (b.writeDirect data h).writableBytes) :
    ((b.writeDirect data h).hasWritten len h').readable = b.readable ++ data.take len := by
  have hfit : b.writerIndex_ + data.length ≤ b.buffer_.length :=
    Nat.add_le_of_le_sub' b.writer_le h
  have hspan (n : Nat) : b.writerIndex_ + n - b.readerIndex_ = b.readableBytes + n :=
    Nat.sub_add_comm b.reader_le
  have hcopy : ((overwrite b.buffer_ b.writerIndex_ data).drop b.readerIndex_).take
      (b.readableBytes + data.length) = b.readable ++ data := by
    rw [← hspan]
    exact drop_take_overwrite b.reader_le hfit
  show ((overwrite b.buffer_ b.writerIndex_ data).drop b.readerIndex_).take
    (b.writerIndex_ + len - b.readerIndex_) = _
  -- no more of the copy than `hasWritten` says
  rw [hspan, ← Nat.min_eq_left (Nat.add_le_add_left hlen b.readableBytes), ← List.take_take, hcopy,
    ← length_readable, List.take_length_add_append]

@[simp] theorem readable_unwrite (b : Buffer) (len : Nat) (h : len ≤ b.readableBytes) :
    (b.unwrite len h).readable = b.readable.take (b.readableBytes - len) := by
  unfold readableBytes at h
  show (b.buffer_.drop b.readerIndex_).take (b.writerIndex_ - len - b.readerIndex_) =
    ((b.buffer_.drop b.readerIndex_).take b.readableBytes).take (b.readableBytes - len)
  rw [List.take_take]
  congr 1
  unfold readableBytes
  omega

@[simp] theorem readable_prepend (b : Buffer) (data : Bytes)
    (h : data.length ≤ b.prependableBytes) : (b.prepend data h).readable = data ++ b.readable := by
  have hr := b.reader_le
  have hw := b.writer_le
  unfold prependableBytes at h
  have hlen : (b.buffer_.take (b.readerIndex_ - data.length)).length =
      b.readerIndex_ - data.length := by
    rw [List.length_take]
    omega
  show ((overwrite b.buffer_ (b.readerIndex_ - data.length) data).drop
    (b.readerIndex_ - data.length)).take (b.writerIndex_ - (b.readerIndex_ - data.length)) = _
  rw [overwrite, List.append_assoc, List.drop_left' hlen, Nat.sub_add_cancel h, List.take_append,
    List.take_of_length_le (by omega)]
  congr 2
  unfold readableBytes
  omega

theorem shrink_of_lt (b : Buffer) (reserve : Nat) (h : b.readableBytes < 2 ^ 31) :
    ∃ b', b.shrink reserve = some b' ∧ b'.readable = b.readable := by
  refine ⟨_, appendPiece_of_lt _ (by rwa [length_readable]), ?_⟩
  simp

/-- Inside the readable bytes, memory is what the buffer holds. -/
theorem peekRange_of_le {b : Buffer} {len : Nat} (h : len ≤ b.readableBytes) :
    b.peekRange len = some (b.readable.take len) := by
  have hw := b.writer_le
  have hr := b.reader_le
  unfold readableBytes at h
  rw [peekRange, if_pos (by omega), readable, List.take_take]
  congr 2
  unfold readableBytes
  omega

theorem length_of_peekRange {b : Buffer} {len : Nat} {d : Bytes} (h : b.peekRange len = some d) :
    d.length = len := by
  unfold peekRange at h
  split at h
  · next hle =>
    cases h
    rw [List.length_take, List.length_drop]
    omega
  · cases h

end Buffer

end Mymuduo
