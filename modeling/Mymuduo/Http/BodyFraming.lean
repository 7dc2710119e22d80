import Mymuduo.Http.HttpContext

/-!
# The body of a message

What `parseRequest` makes of a `Content-Length` header that is the decimal text of `n`, on a buffer
with `u` unread bytes. The comparison in the code asks whether `n` is *at least* the number of
unread bytes, so that the three regimes of a stream are not told apart as they should be:

* `parseRequest_short`: with too few bytes the body is taken at once, from memory behind the unread
  bytes;
* `parseRequest_exact`: with exactly `n` bytes the body is taken as it should be;
* `parseRequest_long`: with more than `n` bytes the loop never leaves.

`bodyFramed_iff` is the sum of it.
-/

namespace Mymuduo.HttpContext

open CString Iteration

/-- A body of `n` bytes is framed: too few unread bytes are left alone, and otherwise the first `n`
are the body and the others stay. -/
def BodyFramed (t : Timestamp) (ctx : HttpContext) (buf : Buffer) (n : Nat) : Prop :=
  ∃ r, parseRequest t ctx buf = some r ∧ r.outcome = .returned true ∧
    if buf.readable.length < n then
      r.context.state_ = .kExpectBody ∧ r.buffer.readable = buf.readable
    else
      r.context.gotAll = true ∧ r.context.request_.body_ = buf.readable.take n ∧
        r.buffer.readable = buf.readable.drop n

/-- In `kExpectBody` a call does what `stoll` makes of the value of `Content-Length`. -/
theorem parseRequest_length (t : Timestamp) {ctx : HttpContext} (buf : Buffer)
    (hstate : ctx.state_ = .kExpectBody) (hne : ctx.request_.getHeader kContentLength ≠ []) :
    parseRequest t ctx buf =
      match stoll (ctx.request_.getHeader kContentLength) with
      | .error e => some ⟨.threw e, ctx, buf⟩
      | .ok v =>
        if buf.readableBytes ≤ castSize v then some (ctx.takeBody buf (castSize v)) else none := by
  cases hv : stoll (ctx.request_.getHeader kContentLength) with
  | error e =>
    refine parseRequest_eq_some.mpr (.of_exit ?_)
    simp only [parseRound, hstate, hv, ne_eq, hne, not_false_eq_true, if_true]
  | ok v =>
    have hround : parseRound t (ctx, buf) =
        if buf.readableBytes ≤ castSize v then .exit (ctx.takeBody buf (castSize v))
        else .again (ctx, buf) := by
      simp only [parseRound, hstate, hv, ne_eq, hne, not_false_eq_true, if_true]
    dsimp only
    split
    · next hle => exact parseRequest_eq_some.mpr (.of_exit (hround.trans (if_pos hle)))
    · next hgt => exact parseRequest_eq_none.mpr (diverges_of_fixed (hround.trans (if_neg hgt)))

section Regimes

variable {t : Timestamp} {ctx : HttpContext} {buf : Buffer} {n : Nat}
  (hstate : ctx.state_ = .kExpectBody)
  (hlen : IsDecimal (ctx.request_.getHeader kContentLength) n)

include hstate hlen

/-- A number that `stoll` cannot hold leaves the parser as an exception. -/
theorem parseRequest_huge (hn : 2 ^ 63 ≤ n) :
    parseRequest t ctx buf = some ⟨.threw .out_of_range, ctx, buf⟩ := by
  rw [parseRequest_length t buf hstate hlen.ne_nil, hlen.stoll_eq, if_neg (Nat.not_lt.mpr hn)]

/-- Any other number is compared with what is in the buffer. -/
theorem parseRequest_number (hn : n < 2 ^ 63) :
    parseRequest t ctx buf =
      if buf.readableBytes ≤ n then some (ctx.takeBody buf n) else none := by
  have hsize : castSize (n : Int) = n := castSize_natCast (by omega)
  rw [parseRequest_length t buf hstate hlen.ne_nil, hlen.stoll_eq, if_pos hn]
  simp only [hsize]

/-- More bytes than the body has: the loop never leaves. -/
theorem parseRequest_long (hn : n < 2 ^ 63) (hlong : n < buf.readableBytes) :
    parseRequest t ctx buf = none := by
  rw [parseRequest_number hstate hlen hn, if_neg (Nat.not_le.mpr hlong)]

/-- At most as many bytes as the body has: the body is taken, whatever there is. -/
theorem parseRequest_taken (hn : n < 2 ^ 63) (hle : buf.readableBytes ≤ n) :
    parseRequest t ctx buf = some (ctx.takeBody buf n) := by
  rw [parseRequest_number hstate hlen hn, if_pos hle]

/-- Too few bytes: the call reads on behind the unread bytes, or behind the vector. -/
theorem parseRequest_short (hn : n < 2 ^ 63) (hshort : buf.readableBytes < n) :
    ∃ r, parseRequest t ctx buf = some r ∧
      (r.outcome = .overread ∨ r.context.gotAll = true ∧ r.context.request_.body_.length = n) := by
  refine ⟨_, parseRequest_taken hstate hlen hn (by omega), ?_⟩
  rw [takeBody, if_neg (by omega)]
  cases hp : buf.peekRange n with
  | none => exact .inl rfl
  | some body => exact .inr ⟨rfl, Buffer.length_of_peekRange hp⟩

/-- Exactly the bytes of the body. -/
theorem parseRequest_exact (hn : n < 2 ^ 63) (hexact : buf.readableBytes = n) :
    parseRequest t ctx buf =
      some ⟨.returned true, ⟨.kGotAll, ctx.request_.setBody buf.readable⟩, buf.retrieve n⟩ := by
  have hall : buf.readable.take n = buf.readable :=
    List.take_of_length_le (by rw [Buffer.length_readable]; omega)
  rw [parseRequest_taken hstate hlen hn (by omega), takeBody, if_neg (by omega),
    Buffer.peekRange_of_le (by omega), hall]

theorem bodyFramed_exact (hn : n < 2 ^ 63) (hexact : buf.readableBytes = n) :
    BodyFramed t ctx buf n := by
  refine ⟨_, parseRequest_exact hstate hlen hn hexact, rfl, ?_⟩
  have hge : ¬ buf.readable.length < n := by
    rw [Buffer.length_readable]
    omega
  have hall : buf.readable = buf.readable.take n :=
    (List.take_of_length_le (by rw [Buffer.length_readable]; omega)).symm
  rw [if_neg hge]
  exact ⟨rfl, hall, Buffer.readable_retrieve buf n⟩

theorem not_bodyFramed_huge (hn : 2 ^ 63 ≤ n) : ¬ BodyFramed t ctx buf n := by
  rintro ⟨r, hr, hret, -⟩
  rw [parseRequest_huge hstate hlen hn] at hr
  cases hr
  cases hret

theorem not_bodyFramed_long (hn : n < 2 ^ 63) (hlong : n < buf.readableBytes) :
    ¬ BodyFramed t ctx buf n := by
  rintro ⟨r, hr, -⟩
  rw [parseRequest_long hstate hlen hn hlong] at hr
  cases hr

theorem not_bodyFramed_short (hn : n < 2 ^ 63) (hshort : buf.readableBytes < n) :
    ¬ BodyFramed t ctx buf n := by
  rintro ⟨r, hr, hret, hcase⟩
  obtain ⟨r', hr', hwrong⟩ := parseRequest_short hstate hlen hn hshort
  obtain rfl : r = r' := Option.some.inj (hr.symm.trans hr')
  rw [Buffer.length_readable, if_pos hshort] at hcase
  rcases hwrong with hover | ⟨hgot, -⟩
  · rw [hret] at hover
    cases hover
  · simp [gotAll, hcase.1] at hgot

end Regimes

/-- A body is framed as it should be exactly when the unread bytes are the body. -/
theorem bodyFramed_iff (t : Timestamp) (ctx : HttpContext) (buf : Buffer) (n : Nat)
    (hstate : ctx.state_ = .kExpectBody)
    (hlen : IsDecimal (ctx.request_.getHeader kContentLength) n) :
    BodyFramed t ctx buf n ↔ buf.readable.length = n ∧ n < 2 ^ 63 := by
  rw [Buffer.length_readable]
  constructor
  · intro h
    have hn : n < 2 ^ 63 := Nat.lt_of_not_le fun hn => not_bodyFramed_huge hstate hlen hn h
    refine ⟨?_, hn⟩
    rcases Nat.lt_trichotomy buf.readableBytes n with hlt | heq | hgt
    · exact absurd h (not_bodyFramed_short hstate hlen hn hlt)
    · exact heq
    · exact absurd h (not_bodyFramed_long hstate hlen hn hgt)
  · exact fun h => bodyFramed_exact hstate hlen h.2 h.1

/-- A context whose head is parsed and asks for a body of `length` bytes. -/
def expectingBody (length : Bytes) : HttpContext where
  state_ := .kExpectBody
  request_ := HttpRequest.new.addHeader kContentLength length

/-- A body that arrived alone and in one piece is framed. -/
theorem bodyFramed_hello :
    BodyFramed 0 (expectingBody (ascii " 5"))
      ((Buffer.new kInitialSize).append (ascii "hello")) 5 :=
  (bodyFramed_iff 0 _ _ 5 rfl (isDecimal_of_all (by decide) (by decide) (by decide))).mpr
    ⟨by rw [Buffer.readable_append, Buffer.readable_new]; decide, by decide⟩

/-- Two of the five bytes have arrived; and five have, with the start of the next request. -/
theorem bodyFramed_fails :
    ¬ BodyFramed 0 (expectingBody (ascii " 5")) ((Buffer.new kInitialSize).append (ascii "he")) 5 ∧
      ¬ BodyFramed 0 (expectingBody (ascii " 5"))
        ((Buffer.new kInitialSize).append (ascii "helloGET ")) 5 := by
  have hlen : IsDecimal ((expectingBody (ascii " 5")).request_.getHeader kContentLength) 5 :=
    isDecimal_of_all (by decide) (by decide) (by decide)
  have hbytes : ∀ data, ((Buffer.new kInitialSize).append data).readableBytes = data.length := by
    intro data
    rw [← Buffer.length_readable, Buffer.readable_append, Buffer.readable_new, List.nil_append]
  refine ⟨not_bodyFramed_short rfl hlen (by decide) ?_, not_bodyFramed_long rfl hlen (by decide) ?_⟩
  · rw [hbytes]
    decide
  · rw [hbytes]
    decide

end Mymuduo.HttpContext
