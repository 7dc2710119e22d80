import Mymuduo.Lib.Transition
import Mymuduo.Net.RawBuffer

/-!
# Buffers are byte deques

Any number of buffers, any calls on them in any order, also `swap` between two. `BufferCall.bytes`
is what a call means: on a sequence of bytes, without indices or storage. `byte_deque`: as long as
the calls meet their preconditions and sizes stay below `2 ^ 62`, no assertion fails, no memory
outside a vector is touched, the indices stay in order, and what is readable is that sequence.
-/

namespace Mymuduo

open CString ByteOrder Transition

/-- A call on one buffer. -/
inductive BufferCall
  | append (data : Bytes)
  | appendInt (v : TypedInt)
  | prepend (data : Bytes)
  | retrieve (len : Nat)
  /-- With the pointer `peek() + len`. -/
  | retrieveUntil (len : Nat)
  | retrieveAll
  | readInt (t : IntType)
  | unwrite (len : Nat)
  | ensureWritableBytes (len : Nat)
  /-- After `data` was written through `beginWrite()`. -/
  | hasWritten (data : Bytes) (len : Nat)
  | shrink (reserve : Nat)
  /-- With what `readv(2)` delivers, if it does not fail. -/
  | readFd (result : Option Bytes)
  deriving DecidableEq

namespace RawBuffer

def call (host : Order) (b : RawBuffer) : BufferCall → Option RawBuffer
  | .append data => b.append data
  | .appendInt v => b.appendInt host v
  | .prepend data => b.prepend data
  | .retrieve len => b.retrieve len
  | .retrieveUntil len => b.retrieveUntil (b.readerIndex_ + len)
  | .retrieveAll => some b.retrieveAll
  | .readInt t => (b.readInt host t).map (·.2)
  | .unwrite len => b.unwrite len
  | .ensureWritableBytes len => b.ensureWritableBytes len
  | .hasWritten data len => (b.writeDirect data).bind (·.hasWritten len)
  | .shrink reserve => b.shrink reserve
  | .readFd result => b.readFd result

/-- The total length of the blocks that `readFd` passes to `readv(2)`. -/
def iovTotal (b : RawBuffer) : Nat :=
  if b.writableBytes < Buffer.kExtrabuf then b.writableBytes + Buffer.kExtrabuf
  else b.writableBytes

/-- The precondition of a call, and sizes below `2 ^ 62`. -/
def Legal (b : RawBuffer) : BufferCall → Prop
  | .append data => data.length < 2 ^ 62
  | .appendInt _ => True
  | .prepend data => data.length ≤ b.prependableBytes
  | .retrieve len => len ≤ b.readableBytes
  | .retrieveUntil len => len ≤ b.readableBytes
  | .retrieveAll => True
  | .readInt t => t.size ≤ b.readableBytes
  | .unwrite len => len ≤ b.readableBytes
  | .ensureWritableBytes len => len < 2 ^ 62
  | .hasWritten data len => len ≤ data.length ∧ data.length ≤ b.writableBytes
  | .shrink reserve => b.readableBytes ≤ 2 ^ 31 - 1 ∧ reserve < 2 ^ 62
  | .readFd result => ∀ data, result = some data → data.length ≤ b.iovTotal

instance decidableLegal (b : RawBuffer) : (c : BufferCall) → Decidable (b.Legal c)
  | .append data => inferInstanceAs (Decidable (data.length < 2 ^ 62))
  | .appendInt _ => instDecidableTrue
  | .prepend data => inferInstanceAs (Decidable (data.length ≤ b.prependableBytes))
  | .retrieve len => inferInstanceAs (Decidable (len ≤ b.readableBytes))
  | .retrieveUntil len => inferInstanceAs (Decidable (len ≤ b.readableBytes))
  | .retrieveAll => instDecidableTrue
  | .readInt t => inferInstanceAs (Decidable (t.size ≤ b.readableBytes))
  | .unwrite len => inferInstanceAs (Decidable (len ≤ b.readableBytes))
  | .ensureWritableBytes len => inferInstanceAs (Decidable (len < 2 ^ 62))
  | .hasWritten data len =>
    inferInstanceAs (Decidable (len ≤ data.length ∧ data.length ≤ b.writableBytes))
  | .shrink reserve => inferInstanceAs (Decidable (b.readableBytes ≤ 2 ^ 31 - 1 ∧ reserve < 2 ^ 62))
  | .readFd none => isTrue nofun
  | .readFd (some data) =>
    decidable_of_iff (data.length ≤ b.iovTotal)
      ⟨fun h _ heq => Option.some.inj heq ▸ h, fun h => h data rfl⟩

end RawBuffer

/-- What a call does to the bytes. -/
def BufferCall.bytes : BufferCall → Bytes → Bytes
  | .append data, s => s ++ data
  | .appendInt v, s => s ++ encoding v
  | .prepend data, s => data ++ s
  | .retrieve len, s => s.drop len
  | .retrieveUntil len, s => s.drop len
  | .retrieveAll, _ => []
  | .readInt t, s => s.drop t.size
  | .unwrite len, s => s.take (s.length - len)
  | .ensureWritableBytes _, s => s
  | .hasWritten data len, s => s ++ data.take len
  | .shrink _, s => s
  | .readFd none, s => s
  | .readFd (some data), s => s ++ data

/-! ## Many buffers -/

section
variable {ι : Type} [DecidableEq ι]

/-- A call on the buffer `i`, or `swap` of the buffer `i` with the buffer `j`. -/
inductive BufferOp (ι : Type)
  | on (i : ι) (c : BufferCall)
  | swap (i j : ι)

namespace BufferOp

/-- The exchange of two members of a family. -/
def exchange {α : Type} (f : ι → α) (i j : ι) : ι → α :=
  Function.update (Function.update f i (f j)) j (f i)

/-- The buffers after an operation. -/
def act (host : Order) (s : ι → RawBuffer) : BufferOp ι → Option (ι → RawBuffer)
  | on i c => ((s i).call host c).map (Function.update s i)
  | swap i j => some (exchange s i j)

/-- Once an operation has failed nothing follows. -/
def step (host : Order) (s : Option (ι → RawBuffer)) (e : BufferOp ι) : Option (ι → RawBuffer) :=
  s.bind fun s => e.act host s

/-- The operation may be called, on buffers of less than `2 ^ 62` bytes. -/
def Legal (s : Option (ι → RawBuffer)) : BufferOp ι → Prop
  | on i c => ∀ s', s = some s' → (s' i).buffer_.length < 2 ^ 62 ∧ (s' i).Legal c
  | swap _ _ => True

instance decidableLegal : (s : Option (ι → RawBuffer)) → (e : BufferOp ι) → Decidable (Legal s e)
  | none, on _ _ => isTrue nofun
  | some s, on i c =>
    decidable_of_iff ((s i).buffer_.length < 2 ^ 62 ∧ (s i).Legal c)
      ⟨fun h _ heq => Option.some.inj heq ▸ h, fun h => h s rfl⟩
  | _, swap _ _ => instDecidableTrue

/-- The sequences after an operation. -/
def bytes (f : ι → Bytes) : BufferOp ι → ι → Bytes
  | on i c => Function.update f i (c.bytes (f i))
  | swap i j => exchange f i j

end BufferOp

end

/-! ## The simulation -/

/-- The buffer has its indices in order and `bytes` between them. -/
def RawBuffer.Holds (b : RawBuffer) (bytes : Bytes) : Prop :=
  ∃ b' : Buffer, b'.raw = b ∧ b'.readable = bytes

theorem RawBuffer.Holds.bounds {b : RawBuffer} {bytes : Bytes} (h : b.Holds bytes) :
    b.readerIndex_ ≤ b.writerIndex_ ∧ b.writerIndex_ ≤ b.buffer_.length ∧ b.readable = bytes := by
  obtain ⟨b', rfl, hread⟩ := h
  exact ⟨b'.reader_le, b'.writer_le, hread⟩

theorem Buffer.fits_of_lt {b : Buffer} (hb : b.buffer_.length < 2 ^ 62) {len : Nat}
    (h : len < 2 ^ 62) : b.Fits len := by
  unfold Buffer.Fits maxSize
  omega

theorem Buffer.raw_readInt (host : Order) {b : Buffer} (hb : b.Fits 0) {t : IntType}
    (h : t.size ≤ b.readableBytes) :
    (b.raw.readInt host t).map (·.2) = some (b.retrieve t.size).raw := by
  have hw : b.readerIndex_ + b.readableBytes = b.writerIndex_ := Nat.add_sub_of_le b.reader_le
  have hload : load b.raw.buffer_ b.raw.readerIndex_ t.size = some _ :=
    load_eq (Nat.le_trans (Nat.le_trans (Nat.add_le_add_left h _) hw.le) b.writer_le)
  unfold RawBuffer.readInt
  simp only [raw_readableBytes hb, guard_of h, hload, raw_retrieve hb h, Option.bind_eq_bind,
    Option.bind_some]
  rfl

/-- One call does to the buffer what it means for the bytes, and nothing in it fails. -/
theorem RawBuffer.Holds.call {b : RawBuffer} {bytes : Bytes} (h : b.Holds bytes) (host : Order)
    {c : BufferCall} (hsize : b.buffer_.length < 2 ^ 62) (hlegal : b.Legal c) :
    ∃ b', b.call host c = some b' ∧ b'.Holds (c.bytes bytes) := by
  obtain ⟨b, rfl, rfl⟩ := h
  have hb : b.Fits 0 := Buffer.fits_of_lt hsize (by decide)
  have hreadable := Buffer.raw_readableBytes hb
  cases c with
  | append data =>
    exact ⟨_, Buffer.raw_append (Buffer.fits_of_lt hsize hlegal), _, rfl,
      b.readable_append data⟩
  | appendInt v =>
    have hlen : (converted host v).length < 2 ^ 62 := by
      rw [converted_eq, length_encoding]
      cases v.1 <;> decide
    refine ⟨_, Buffer.raw_append (Buffer.fits_of_lt hsize hlen), _, rfl, ?_⟩
    rw [Buffer.readable_append, converted_eq]
    rfl
  | prepend data =>
    exact ⟨_, Buffer.raw_prepend hb hlegal, _, rfl, b.readable_prepend data hlegal⟩
  | retrieve len =>
    exact ⟨_, Buffer.raw_retrieve hb (hreadable ▸ hlegal), _, rfl, b.readable_retrieve len⟩
  | retrieveUntil len =>
    have hlen : len ≤ b.readableBytes := hreadable ▸ hlegal
    have hend : b.readerIndex_ + len ≤ b.writerIndex_ :=
      Nat.add_sub_of_le b.reader_le ▸ Nat.add_le_add_left hlen _
    have huntil := Buffer.raw_retrieveUntil hb (Nat.le_add_right _ len) hend
    rw [Nat.add_sub_cancel_left] at huntil
    exact ⟨_, huntil, _, rfl, b.readable_retrieve len⟩
  | retrieveAll => exact ⟨_, rfl, b.retrieveAll, rfl, b.readable_retrieveAll⟩
  | readInt t =>
    exact ⟨_, Buffer.raw_readInt host hb (hreadable ▸ hlegal), _, rfl, b.readable_retrieve t.size⟩
  | unwrite len =>
    have hlen : len ≤ b.readableBytes := hreadable ▸ hlegal
    refine ⟨_, Buffer.raw_unwrite hb hlen, _, rfl, ?_⟩
    rw [Buffer.readable_unwrite, ← Buffer.length_readable]
    rfl
  | ensureWritableBytes len =>
    exact ⟨_, Buffer.raw_ensureWritableBytes (Buffer.fits_of_lt hsize hlegal), _,
      rfl, b.readable_ensureWritableBytes len⟩
  | hasWritten data len =>
    obtain ⟨hlen, hdata⟩ := hlegal
    rw [Buffer.raw_writableBytes hb] at hdata
    have hroom : len ≤ (b.writeDirect data hdata).writableBytes := by
      rw [Buffer.writableBytes_writeDirect]
      exact Nat.le_trans hlen hdata
    refine ⟨((b.writeDirect data hdata).hasWritten len hroom).raw, ?_, _, rfl,
      b.readable_hasWritten hlen hdata hroom⟩
    show (b.raw.writeDirect data).bind _ = _
    rw [Buffer.raw_writeDirect hdata]
    exact Buffer.raw_hasWritten (hb.writeDirect data hdata) hroom
  | shrink reserve =>
    obtain ⟨hlt, hreserve⟩ := hlegal
    rw [hreadable] at hlt
    have hlt' : b.readableBytes < 2 ^ 31 := Nat.lt_of_le_of_lt hlt (by decide)
    obtain ⟨b', hshrink, hraw⟩ := Buffer.raw_shrink hb hlt' hreserve
    obtain ⟨b'', hshrink', hread⟩ := b.shrink_of_lt reserve hlt'
    rw [hshrink, Option.some.injEq] at hshrink'
    exact ⟨_, hraw, b', rfl, hshrink' ▸ hread⟩
  | readFd result =>
    cases result with
    | none => exact ⟨_, rfl, b, rfl, rfl⟩
    | some data =>
      have htotal := hlegal data rfl
      unfold RawBuffer.iovTotal Buffer.kExtrabuf at htotal
      rw [Buffer.raw_writableBytes hb] at htotal
      have hextra : data.length - b.writableBytes < 2 ^ 62 := by
        split at htotal <;> omega
      exact ⟨_, Buffer.raw_readFd (Buffer.fits_of_lt hsize hextra), _, rfl, b.readable_readFd data⟩

section
variable {ι : Type} [DecidableEq ι]

/-- Every buffer of the family holds its sequence. -/
def AllHold (s : Option (ι → RawBuffer)) (f : ι → Bytes) : Prop :=
  ∃ s', s = some s' ∧ ∀ i, (s' i).Holds (f i)

theorem AllHold.step (host : Order) {s : Option (ι → RawBuffer)} {f : ι → Bytes}
    {e : BufferOp ι} (h : AllHold s f) (hlegal : e.Legal s) :
    AllHold (BufferOp.step host s e) (e.bytes f) := by
  obtain ⟨s, rfl, hall⟩ := h
  cases e with
  | on i c =>
    obtain ⟨hsize, hc⟩ := hlegal s rfl
    obtain ⟨b', hcall, hholds⟩ := (hall i).call host hsize hc
    refine ⟨Function.update s i b', congrArg (Option.map _) hcall, fun k => ?_⟩
    show (Function.update s i b' k).Holds (Function.update f i (c.bytes (f i)) k)
    by_cases hk : k = i
    · subst hk
      rwa [Function.update_self, Function.update_self]
    · rw [Function.update_of_ne hk, Function.update_of_ne hk]
      exact hall k
  | swap i j =>
    refine ⟨_, rfl, fun k => ?_⟩
    show (Function.update (Function.update s i (s j)) j (s i) k).Holds
      (Function.update (Function.update f i (f j)) j (f i) k)
    by_cases hj : k = j
    · subst hj
      rw [Function.update_self, Function.update_self]
      exact hall i
    · rw [Function.update_of_ne hj, Function.update_of_ne hj]
      by_cases hi : k = i
      · subst hi
        rw [Function.update_self, Function.update_self]
        exact hall j
      · rw [Function.update_of_ne hi, Function.update_of_ne hi]
        exact hall k

/-- Over any sequence of legal operations on any number of buffers no assertion fails, the indices
of every buffer stay in order, and its readable bytes are those of the sequence it stands for. -/
theorem byte_deque (host : Order) (initialSize : ι → Nat) (hinit : ∀ i, initialSize i < 2 ^ 62)
    (es : List (BufferOp ι))
    (hlegal : Meets BufferOp.Legal (BufferOp.step host)
      (some fun i => RawBuffer.new (initialSize i)) es) :
    ∀ pre, pre <+: es → ∃ s, run (BufferOp.step host)
        (some fun i => RawBuffer.new (initialSize i)) pre = some s ∧
      ∀ i, (s i).readerIndex_ ≤ (s i).writerIndex_ ∧
        (s i).writerIndex_ ≤ (s i).buffer_.length ∧
        (s i).readable = run BufferOp.bytes (fun _ => []) pre i := by
  rintro pre ⟨post, rfl⟩
  have hstart : AllHold (some fun i => RawBuffer.new (initialSize i)) fun _ => [] :=
    ⟨_, rfl, fun i => ⟨_, (Buffer.raw_new (hinit i)).symm, Buffer.readable_new _⟩⟩
  have hend : AllHold (run (BufferOp.step host) _ pre) (run BufferOp.bytes _ pre) :=
    run_simulation (fun s f e h hok => h.step host hok) hstart (meets_append.mp hlegal).1
  obtain ⟨s, hrun, hall⟩ := hend
  exact ⟨s, hrun, fun i => (hall i).bounds⟩

end

/-- Two buffers of four bytes, through every way of finding room. -/
theorem byte_deque_pair :
    let es : List (BufferOp Bool) :=
      [.on false (.append [1, 2, 3]), .on false (.prepend [9]), .on true (.appendInt ⟨.int16, -2⟩),
        .swap false true, .on false (.readInt .int16), .on true (.unwrite 1),
        .on true (.retrieveUntil 2), .on true (.ensureWritableBytes 6),
        .on true (.readFd (some [5, 6, 7])), .on true (.hasWritten [8, 8] 1)]
    ∃ s, run (BufferOp.step .little) (some fun _ => RawBuffer.new 4) es = some s ∧
      ∀ i, (s i).readerIndex_ ≤ (s i).writerIndex_ ∧
        (s i).writerIndex_ ≤ (s i).buffer_.length ∧
        (s i).readable = run BufferOp.bytes (fun _ => []) es i :=
  byte_deque .little (fun _ => 4) (fun _ => by decide) _ (by decide) _ List.prefix_rfl

end Mymuduo
