import Mymuduo.Net.TcpConnection

/-!
# `send(Buffer*)`

In the loop thread `send` passes the readable bytes of the buffer straight to `sendInLoop`. In any
other thread they become a `std::string`, which a functor keeps, and when the functor runs they are
passed on as a `StringPiece`, whose length is an `int`.

* `sendBuffer_agree_iff`: the two pass the same to `sendInLoop` exactly for buffers of fewer than
  `2 ^ 31` readable bytes.
* `sendBuffer_agree_fails`: a buffer that is longer.
-/

namespace Mymuduo

open CString

/-- The arguments of `sendInLoop(const char *data, const size_t len)`: the memory that belongs to
the caller from `data` on, and `len`. -/
structure SendArgs where
  data : Bytes
  len : Nat
  deriving DecidableEq, Repr

/-- `StringPiece`: the memory behind its pointer, and its length. -/
structure StringPiece where
  ptr_ : Bytes
  length_ : Int
  deriving DecidableEq, Repr

/-- The constructor from a `std::string`. -/
def StringPiece.ofString (str : Bytes) : StringPiece := ⟨str, castInt str.length⟩

/-- The constructor of a `std::string` from `str`; what `max_size()` returns is up to the library. -/
def newString (max_size : Nat) (str : Bytes) : Except StdException Bytes :=
  if str.length ≤ max_size then .ok str else .error .length_error

/-- `retrieveAllAsString()`: the string, and the buffer afterwards. -/
def Buffer.retrieveAllAsString (buf : Buffer) (max_size : Nat) :
    Except StdException (Bytes × Buffer) := do
  let result ← newString max_size buf.readable
  return (result, buf.retrieve buf.readableBytes)

namespace TcpConnection

/-- `sendInLoop(const char *data, const size_t len)`; `none` when it reads beyond the memory. -/
def sendInLoopArgs (c : TcpConnection) (args : SendArgs) (r : SysRet) : Option TcpConnection :=
  if args.len ≤ args.data.length then some (c.sendInLoop (args.data.take args.len) r) else none

/-- What `sendInLoop(const StringPiece &message)` passes on. -/
def pieceArgs (message : StringPiece) : SendArgs := ⟨message.ptr_, castSize message.length_⟩

/-- `send(Buffer*)` in the loop thread: what it passes to `sendInLoop`, and the buffer afterwards. -/
def sendBuffer (c : TcpConnection) (buf : Buffer) : Option SendArgs × Buffer :=
  if c.state_ = .kConnected then (some ⟨buf.readable, buf.readableBytes⟩, buf.retrieveAll)
  else (none, buf)

/-- `send(Buffer*)` in another thread. -/
def sendBufferFromThread (c : TcpConnection) (max_size : Nat) (buf : Buffer) :
    Except StdException (TcpConnection × Buffer) :=
  if c.state_ = .kConnected then do
    let (message, buf) ← buf.retrieveAllAsString max_size
    return (c.queueInLoop (.sendInLoop message), buf)
  else .ok (c, buf)

/-- The functor of `send(Buffer*)`, which keeps `message`. -/
def runSendInLoop (message : Bytes) : SendArgs := pieceArgs (.ofString message)

/-- Both ways of sending the buffer pass the same to `sendInLoop` and leave the buffer empty. -/
def SendsAlike (max_size : Nat) (c : TcpConnection) (buf : Buffer) : Prop :=
  ∃ message c' buf', c.sendBufferFromThread max_size buf = .ok (c', buf') ∧
    c'.pendingFunctors_ = c.pendingFunctors_ ++ [.sendInLoop message] ∧
    (c.sendBuffer buf).1 = some (runSendInLoop message) ∧
    buf'.readable = [] ∧ (c.sendBuffer buf).2.readable = []

variable {max_size : Nat} {c : TcpConnection} {buf : Buffer}

/-- A length survives the `int` of a `StringPiece` exactly when it fits there: the lengths so near
the top of `size_t` that they come back from a negative `int` are those of no string. -/
theorem castSize_castInt_iff {n : Nat} (h : n < 2 ^ 63) :
    castSize (castInt n) = n ↔ n < 2 ^ 31 := by
  constructor
  · intro heq
    by_contra hlarge
    have hwrap := castInt_lt (Nat.le_of_not_lt hlarge)
    rcases Int.lt_or_le (castInt n) 0 with hneg | hnonneg
    · have hlow : -2 ^ 63 ≤ castInt n :=
        Int.le_trans (by decide) (Int.le_bmod (x := n) (m := 2 ^ 32) (by decide))
      have hhuge := castSize_negative hlow hneg
      rw [heq] at hhuge
      exact absurd h (Nat.not_lt.mpr hhuge)
    · obtain ⟨k, hk⟩ := Int.eq_ofNat_of_zero_le hnonneg
      rw [hk] at hwrap heq
      have hsmall : k + 2 ^ 32 ≤ n := hwrap.resolve_left (Int.not_lt.mpr (Int.natCast_nonneg k))
      rw [castSize_natCast (by omega)] at heq
      omega
  · intro hlt
    rw [castInt_eq (by omega) (by omega)]
    exact castSize_natCast (Nat.lt_trans h (by decide))

/-- In another thread the message is the content of the buffer, if a string can hold it. -/
theorem sendBufferFromThread_eq (hc : c.state_ = .kConnected) :
    c.sendBufferFromThread max_size buf =
      if buf.readableBytes ≤ max_size then
        .ok (c.queueInLoop (.sendInLoop buf.readable), buf.retrieve buf.readableBytes)
      else .error .length_error := by
  unfold sendBufferFromThread Buffer.retrieveAllAsString newString
  rw [if_pos hc, Buffer.length_readable]
  split
  · rfl
  · rfl

/-- The message that the rest of the model sends is the content of the buffer. -/
theorem sendInLoopArgs_sendBuffer (hc : c.state_ = .kConnected) (r : SysRet) :
    (c.sendBuffer buf).1.bind (c.sendInLoopArgs · r) = some (c.send buf.readable r) := by
  have hlen : buf.readableBytes ≤ buf.readable.length := buf.length_readable.ge
  unfold sendBuffer send
  rw [if_pos hc, if_pos hc]
  show (if buf.readableBytes ≤ buf.readable.length then _ else _ : Option TcpConnection) = _
  rw [if_pos hlen, List.take_of_length_le buf.length_readable.le]

/-- What the two ways pass on differs in the length alone. -/
theorem sendsAlike_iff (hc : c.state_ = .kConnected) : SendsAlike max_size c buf ↔
    buf.readableBytes ≤ max_size ∧ castSize (castInt buf.readableBytes) = buf.readableBytes := by
  have hin : c.sendBuffer buf = (some ⟨buf.readable, buf.readableBytes⟩, buf.retrieveAll) :=
    if_pos hc
  have hrun : runSendInLoop buf.readable =
      ⟨buf.readable, castSize (castInt buf.readableBytes)⟩ := by
    unfold runSendInLoop pieceArgs StringPiece.ofString
    rw [Buffer.length_readable]
  unfold SendsAlike
  rw [sendBufferFromThread_eq hc, hin]
  constructor
  · rintro ⟨message, c', buf', hthread, hqueue, hargs, -, -⟩
    split at hthread
    · rename_i hle
      obtain ⟨rfl, rfl⟩ := Prod.mk.inj (Except.ok.inj hthread)
      obtain rfl : buf.readable = message := by simpa using hqueue
      rw [hrun] at hargs
      exact ⟨hle, (SendArgs.mk.inj (Option.some.inj hargs)).2.symm⟩
    · cases hthread
  · rintro ⟨hle, hlen⟩
    refine ⟨buf.readable, _, _, if_pos hle, rfl, ?_, ?_, buf.readable_retrieveAll⟩
    · rw [hrun, hlen]
    · rw [Buffer.readable_retrieve, ← Buffer.length_readable, List.drop_length]

/-- The two ways of `send` agree exactly on the buffers whose length an `int` can hold. -/
theorem sendBuffer_agree_iff (hmax : 2 ^ 31 - 1 ≤ max_size ∧ max_size < 2 ^ 63)
    (hc : c.state_ = .kConnected) : SendsAlike max_size c buf ↔ buf.readableBytes < 2 ^ 31 := by
  rw [sendsAlike_iff hc]
  constructor
  · rintro ⟨hle, hlen⟩
    exact (castSize_castInt_iff (Nat.lt_of_le_of_lt hle hmax.2)).mp hlen
  · intro hlt
    have hle : buf.readableBytes ≤ max_size := Nat.le_trans (Nat.le_sub_one_of_lt hlt) hmax.1
    exact ⟨hle, (castSize_castInt_iff (Nat.lt_of_le_of_lt hle hmax.2)).mpr hlt⟩

/-- A connection in the state `kConnected`. -/
def freshConnection : TcpConnection := (new 0 false false fun _ => []).connectEstablished

theorem sendBuffer_agree_short :
    SendsAlike (2 ^ 62 - 1) freshConnection ((Buffer.new 8).append (ascii "hello")) ↔
      ((Buffer.new 8).append (ascii "hello")).readableBytes < 2 ^ 31 :=
  sendBuffer_agree_iff (by decide) rfl

/-- A buffer one byte longer than the largest `int`. -/
def longBuffer : Buffer := (Buffer.new 0).append (List.replicate (2 ^ 31) 0)

theorem readableBytes_longBuffer : longBuffer.readableBytes = 2 ^ 31 := by
  rw [← Buffer.length_readable, longBuffer, Buffer.readable_append, Buffer.readable_new,
    List.nil_append, List.length_replicate]

/-- The length of `longBuffer` reaches `sendInLoop` as `2 ^ 64 - 2 ^ 31` through the queue. -/
theorem sendBuffer_agree_fails : freshConnection.state_ = .kConnected ∧
    longBuffer.readableBytes < 2 ^ 64 ∧ ¬ SendsAlike (2 ^ 62 - 1) freshConnection longBuffer := by
  refine ⟨rfl, ?_, ?_⟩
  · rw [readableBytes_longBuffer]
    decide
  · rw [sendsAlike_iff rfl, readableBytes_longBuffer]
    decide

end TcpConnection

end Mymuduo
