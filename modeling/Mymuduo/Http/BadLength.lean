import Mymuduo.Http.BodyFraming

/-!
# A `Content-Length` that is no length

The handler around `stoll` is for the library's own `Exception`, and what `stoll` and `assign` throw
is not one of these. `stoll` also reads what begins like a number, and the cast makes a huge length
of a negative one. So no branch of `kExpectBody` returns `false`: a bad value escapes as an
exception, is taken for the number it begins with, or keeps the loop going.

* `parseRequest_length`: what a call in `kExpectBody` does with any value.
* `badLength_never`: a bad value is never rejected.
* `badLength_escapes`: three bad values and what becomes of them.
-/

namespace Mymuduo.HttpContext

open CString Iteration

/-- The call ends with a parse error: no exception, `false`, an empty buffer and no body. -/
def Rejected (t : Timestamp) (ctx : HttpContext) (buf : Buffer) : Prop :=
  ∃ r, parseRequest t ctx buf = some r ∧ r.outcome = .returned false ∧ r.buffer.readable = [] ∧
    r.context.gotAll = false

/-- What a bad value comes to instead. -/
inductive Mistaken (t : Timestamp) (ctx : HttpContext) (buf : Buffer) (value : Bytes) : Prop
  | escapes (e : StdException) (h : parseRequest t ctx buf = some ⟨.threw e, ctx, buf⟩)
  | stuck (h : parseRequest t ctx buf = none)
  | taken (n : Nat) (hread : stoll value = .ok (n : Int)) (hother : value ≠ natText n)
    (hle : buf.readableBytes ≤ n) (h : parseRequest t ctx buf = some (ctx.takeBody buf n))

/-- A negative length is too long for any string. -/
theorem takeBody_negative (ctx : HttpContext) (buf : Buffer) {v : Int} (hlo : -2 ^ 63 ≤ v)
    (hneg : v < 0) : ctx.takeBody buf (castSize v) = ⟨.threw .length_error, ctx, buf⟩ :=
  if_pos (castSize_negative hlo hneg)

/-- A bad value escapes, keeps the loop going or is taken for the number it begins with. -/
theorem mistaken (t : Timestamp) {ctx : HttpContext} (buf : Buffer)
    (hstate : ctx.state_ = .kExpectBody) (hne : ctx.request_.getHeader kContentLength ≠ [])
    (hbad : ∀ n, n < 2 ^ 63 → ctx.request_.getHeader kContentLength ≠ natText n) :
    Mistaken t ctx buf (ctx.request_.getHeader kContentLength) := by
  have hcall := parseRequest_length t buf hstate hne
  cases hv : stoll (ctx.request_.getHeader kContentLength) with
  | error e =>
    rw [hv] at hcall
    exact .escapes e hcall
  | ok v =>
    rw [hv] at hcall
    dsimp only at hcall
    obtain ⟨hlo, hhi⟩ := stoll_bounds hv
    split at hcall
    · next hle =>
      rcases Int.lt_or_le v 0 with hneg | hpos
      · rw [takeBody_negative ctx buf hlo hneg] at hcall
        exact .escapes .length_error hcall
      · obtain ⟨n, rfl⟩ := Int.eq_ofNat_of_zero_le hpos
        have hsize : castSize (n : Int) = n := castSize_natCast (by omega)
        rw [hsize] at hcall hle
        exact .taken n hv (hbad n (by omega)) hle hcall
    · exact .stuck hcall

/-- None of these is a parse error. -/
theorem Mistaken.not_rejected {t : Timestamp} {ctx : HttpContext} {buf : Buffer} {value : Bytes}
    (h : Mistaken t ctx buf value) : ¬ Rejected t ctx buf := by
  rintro ⟨r, hr, hout, -⟩
  cases h with
  | escapes e h =>
    rw [h] at hr
    cases hr
    cases hout
  | stuck h =>
    rw [h] at hr
    cases hr
  | taken n hread hother hle h =>
    rw [h] at hr
    cases hr
    exact outcome_takeBody ctx buf n hout

/-- A value of `Content-Length` that is not the decimal text of a number that `stoll` can hold is
never rejected. -/
theorem badLength_never (t : Timestamp) (ctx : HttpContext) (buf : Buffer) (value : Bytes)
    (hstate : ctx.state_ = .kExpectBody) (hvalue : ctx.request_.getHeader kContentLength = value)
    (hne : value ≠ []) (hbad : ∀ n, n < 2 ^ 63 → value ≠ natText n) :
    Mistaken t ctx buf value ∧ ¬ Rejected t ctx buf := by
  subst hvalue
  have h := mistaken t buf hstate hne hbad
  exact ⟨h, h.not_rejected⟩

theorem word_ne_natText (n : Nat) : ascii "five" ≠ natText n := by
  intro heq
  have hdigit := (isDecimal_natText n).digits 102 (heq ▸ by decide)
  cases hdigit

/-- A word where the number should be, with a body behind it. -/
theorem badLength_never_word :
    Mistaken 0 (expectingBody (ascii "five")) ((Buffer.new kInitialSize).append (ascii "hello"))
        (ascii "five") ∧
      ¬ Rejected 0 (expectingBody (ascii "five"))
        ((Buffer.new kInitialSize).append (ascii "hello")) := by
  exact badLength_never 0 _ _ (ascii "five") rfl (by decide +kernel) (by decide) fun n _ =>
    word_ne_natText n

/-- A word and a negative number leave the parser as exceptions, and of a number with a unit the
unit is forgotten. -/
theorem badLength_escapes :
    let hello := (Buffer.new kInitialSize).append (ascii "hello")
    let five := expectingBody (ascii "five")
    let negative := expectingBody (ascii "-5")
    parseRequest 0 five hello = some ⟨.threw .invalid_argument, five, hello⟩ ∧
      parseRequest 0 negative hello = some ⟨.threw .length_error, negative, hello⟩ ∧
      (∃ r, parseRequest 0 (expectingBody (ascii "5kB")) hello = some r ∧
        r.outcome = .returned true ∧ r.context.request_.body_ = ascii "hello") ∧
      ¬ (∀ ctx buf value, ctx.state_ = .kExpectBody →
        ctx.request_.getHeader kContentLength = value → value ≠ [] →
        (∀ n, n < 2 ^ 63 → value ≠ natText n) → Rejected 0 ctx buf) := by
  intro hello five negative
  have hread : hello.readable = ascii "hello" := by
    rw [Buffer.readable_append, Buffer.readable_new, List.nil_append]
  have hbytes : hello.readableBytes = 5 := by rw [← Buffer.length_readable, hread]; decide
  have hfive : parseRequest 0 five hello = some ⟨.threw .invalid_argument, five, hello⟩ := by
    have hlen : stoll (five.request_.getHeader kContentLength) = .error .invalid_argument := by
      decide +kernel
    rw [parseRequest_length 0 hello rfl (by decide +kernel), hlen]
  have hnegative : parseRequest 0 negative hello =
      some ⟨.threw .length_error, negative, hello⟩ := by
    have hlen : stoll (negative.request_.getHeader kContentLength) = .ok (-5) := by
      decide +kernel
    rw [parseRequest_length 0 hello rfl (by decide +kernel), hlen]
    dsimp only
    rw [if_pos (by rw [hbytes]; decide), takeBody_negative negative hello (by decide) (by decide)]
  refine ⟨hfive, hnegative, ?_, fun hall => ?_⟩
  · have hlen : stoll ((expectingBody (ascii "5kB")).request_.getHeader kContentLength) = .ok 5 := by
      decide +kernel
    have hsize : castSize 5 = 5 := by decide
    have hall : hello.peekRange 5 = some (ascii "hello") := by
      rw [Buffer.peekRange_of_le (by omega), hread]
      decide
    rw [parseRequest_length 0 hello rfl (by decide +kernel), hlen]
    dsimp only
    rw [hsize, if_pos (by omega), takeBody, if_neg (by decide), hall]
    exact ⟨_, rfl, rfl, rfl⟩
  · obtain ⟨r, hr, hout, -⟩ := hall five hello (ascii "five") rfl (by decide +kernel) (by decide)
      fun n _ => word_ne_natText n
    rw [hfive] at hr
    cases hr
    cases hout

end Mymuduo.HttpContext
