import Mymuduo.Http.HeadLines
import Mymuduo.Http.HttpServer

/-!
# When `parseRequest` comes to an end

The loop of `parseRequest` is left by a flag. Every round takes a line out of the buffer or leaves,
but for one: a body that is announced as shorter than what is in the buffer sends the parser round
with nothing changed. `Ahead` is the rest of the head that the unread bytes hold, `BodyFits` says
that what follows it is not longer than the announced body.

* `Reached.open_`: between two calls the context never waits in `kGotAll`.
* `BodyFits.round`: a round that goes on takes a line and leaves the rest of the head.
* `parseRequest_terminates_iff`: the loop ends exactly where the body fits.
* `parseRequest_diverges`: a body with the next request behind it freezes the thread.
-/

namespace Mymuduo

open CString Lines Iteration

namespace HttpContext

/-- The contexts that `onMessage` passes to `parseRequest`. -/
inductive Reached : HttpContext → Prop
  | new : Reached .new
  | call {ctx : HttpContext} {buf : Buffer} {t : Timestamp} {r : ParseResult} {ok : Bool}
    (h : Reached ctx) (hcall : parseRequest t ctx buf = some r) (hret : r.outcome = .returned ok) :
    Reached (if r.context.gotAll then r.context.reset else r.context)

/-- The rest of the head in front of the unread bytes: the header lines to come and what stands
behind the line that ends them. -/
inductive Ahead (ctx : HttpContext) (u : Bytes) : List Bytes → Bytes → Prop
  | requestLine {line v last rest : Bytes} {ls : List Bytes}
    (hstate : ctx.state_ = .kExpectRequestLine) (hcut : cutLine u = some (line, v))
    (hline : (ctx.request_.processRequestLine line).1 = true) (h : HeadersEnd v ls last rest) :
    Ahead ctx u ls rest
  | headers {last rest : Bytes} {ls : List Bytes} (hstate : ctx.state_ = .kExpectHeaders)
    (h : HeadersEnd u ls last rest) : Ahead ctx u ls rest
  | body (hstate : ctx.state_ = .kExpectBody) : Ahead ctx u [] u

/-- If the head ends within the unread bytes and announces a body, no more follows than the body. -/
def BodyFits (ctx : HttpContext) (u : Bytes) : Prop :=
  ∀ ls rest, Ahead ctx u ls rest →
    ∀ v, stoll (announced (ctx.request_.getHeader kContentLength) ls) = .ok v →
      rest.length ≤ castSize v

/-! ## The contexts between two calls -/

/-- A context that got all is reset. -/
theorem Reached.open_ {ctx : HttpContext} (h : Reached ctx) : ctx.state_ ≠ .kGotAll := by
  cases h with
  | new => exact nofun
  | call h hcall hret =>
    split
    · exact nofun
    · next hno => simpa [gotAll] using hno

end HttpContext

/-- What the server keeps in a connection's `context_` is such a context. -/
theorem HttpConnection.reached_onMessage {s s' : HttpConnection} (h : s.context.Reached)
    {onRequest : TcpConnection → HttpRequest → Option TcpConnection} {t : Timestamp} {r : SysRet}
    (hcall : s.onMessage onRequest t r = some s') : s'.context.Reached := by
  obtain ⟨ok, ctx, buf, hparse, heq⟩ := HttpConnection.context_onMessage hcall
  rw [heq]
  exact h.call hparse rfl

namespace HttpContext

/-! ## Rounds -/

/-- What stands ahead after a line was taken stood ahead before, and announces the same body. -/
theorem Ahead.of_continues {t : Timestamp} {ctx ctx' : HttpContext} {buf buf' : Buffer}
    (hcont : Continues t ctx buf ctx' buf') (hbody : ctx.state_ ≠ .kExpectBody)
    {ls : List Bytes} {rest : Bytes} (h : Ahead ctx' buf'.readable ls rest) :
    ∃ ls', Ahead ctx buf.readable ls' rest ∧
      announced (ctx'.request_.getHeader kContentLength) ls =
        announced (ctx.request_.getHeader kContentLength) ls' := by
  cases hcont with
  | @requestLine crlf r hstate hfind hline =>
    cases h with
    | headers _ hends =>
      refine ⟨ls, .requestLine hstate (cutLine_of_findCRLF hfind) (by rw [hline]) hends, ?_⟩
      have hvalue := HttpRequest.getHeader_processRequestLine ctx.request_
        (buf.readable.take crlf) kContentLength
      rw [hline] at hvalue
      have htime : (r.setReceiveTime t).getHeader kContentLength =
          ctx.request_.getHeader kContentLength := hvalue
      rw [htime]
    | requestLine hstate' | body hstate' => cases hstate'
  | @header crlf field value hstate hfind hfield =>
    cases h with
    | headers _ hends =>
      have hcolon : hasColon (buf.readable.take crlf) = true := by simp [hasColon, hfield]
      refine ⟨_, .headers hstate (hends.cons (cutLine_of_findCRLF hfind) hcolon), ?_⟩
      rw [HttpRequest.getHeader_addHeader]
      simp only [announced, List.foldl_cons, hfield]
    | requestLine hstate' | body hstate' => simp [hstate] at hstate'
  | @lastLine crlf hstate hfind hnone =>
    cases h with
    | body _ =>
      have hends : HeadersEnd buf.readable [] (buf.readable.take crlf)
          (buf.retrieve (crlf + 2)).readable :=
        ⟨⟨_, .nil _, cutLine_of_findCRLF hfind⟩, by simp [hasColon, hnone]⟩
      exact ⟨[], .headers hstate hends, rfl⟩
    | requestLine hstate' | headers hstate' => cases hstate'
  | stuck hstate => exact absurd hstate hbody
  | gotAll hstate => exact ⟨ls, h, rfl⟩

/-- Where no more bytes are there than the body has, a round that goes on takes a line, and what it
leaves is the rest of the same head. -/
theorem BodyFits.round {t : Timestamp} {ctx ctx' : HttpContext} {buf buf' : Buffer}
    (h : BodyFits ctx buf.readable) (hopen : ctx.state_ ≠ .kGotAll)
    (hround : parseRound t (ctx, buf) = .again (ctx', buf')) :
    (BodyFits ctx' buf'.readable ∧ ctx'.state_ ≠ .kGotAll) ∧
      buf'.readableBytes < buf.readableBytes := by
  have hcont := parseRound_continues hround
  have hfits (hbody : ctx.state_ ≠ .kExpectBody) : BodyFits ctx' buf'.readable := by
    intro ls rest hahead v hv
    obtain ⟨ls', hahead', heq⟩ := Ahead.of_continues hcont hbody hahead
    exact h ls' rest hahead' v (heq ▸ hv)
  cases hcont with
  | requestLine hstate hfind =>
    exact ⟨⟨hfits (by simp [hstate]), nofun⟩, readableBytes_retrieve_lt hfind⟩
  | header hstate hfind =>
    exact ⟨⟨hfits (by simp [hstate]), by simp [hstate]⟩, readableBytes_retrieve_lt hfind⟩
  | lastLine hstate hfind =>
    exact ⟨⟨hfits (by simp [hstate]), nofun⟩, readableBytes_retrieve_lt hfind⟩
  | stuck hstate hv hmore =>
    -- the round that changes nothing is the one for which the body does not fit
    have hle := h [] _ (.body hstate) _ hv
    rw [Buffer.length_readable] at hle
    exact absurd hle (Nat.not_le_of_lt hmore)
  | gotAll hstate => exact absurd hstate hopen

/-- Behind a head whose body does not fit the parser goes round for ever. -/
theorem diverges_of_ahead (t : Timestamp) {ctx : HttpContext} {buf : Buffer} {ls : List Bytes}
    {rest : Bytes} (h : Ahead ctx buf.readable ls rest) {v : Int}
    (hv : stoll (announced (ctx.request_.getHeader kContentLength) ls) = .ok v)
    (hlong : castSize v < rest.length) : Diverges (parseRound t) (ctx, buf) := by
  have hstuck : ∀ (r : HttpRequest) (buf' : Buffer), buf'.readable = rest →
      r.getHeader kContentLength = announced (ctx.request_.getHeader kContentLength) ls →
      Diverges (parseRound t) (⟨.kExpectBody, r⟩, buf') := by
    intro r buf' hread hget
    refine diverges_of_fixed ?_
    rw [← hget] at hv
    have hne : r.getHeader kContentLength ≠ [] := by
      intro hnil
      rw [hnil] at hv
      cases hv
    have hmore : ¬ buf'.readableBytes ≤ castSize v := by
      rw [← Buffer.length_readable, hread]
      omega
    simp only [parseRound, hv, ne_eq, hne, not_false_eq_true, if_true, hmore, if_false]
  obtain ⟨state, r⟩ := ctx
  cases h with
  | requestLine hstate hcut hline hends =>
    cases hstate
    have hget := fun line => HttpRequest.getHeader_processRequestLine r line kContentLength
    cases hr : r.processRequestLine _ with
    | mk ok r₁ =>
      rw [hr] at hline
      cases hline
      obtain ⟨buf₁, hgo, hread₁⟩ := goes_requestLine t hcut hr
      obtain ⟨buf', hgo', hread'⟩ := goes_headersEnd t hends (r₁.setReceiveTime t) hread₁
      refine (hgo.trans hgo').diverges (hstuck _ buf' hread' ?_)
      rw [getHeader_addLines, ← hget, hr]
      rfl
  | headers hstate hends =>
    cases hstate
    obtain ⟨buf', hgo, hread'⟩ := goes_headersEnd t hends r rfl
    exact hgo.diverges (hstuck _ buf' hread' (getHeader_addLines r ls))
  | body hstate =>
    cases hstate
    exact hstuck r buf rfl rfl

/-- In every context that the server can have, and on every buffer, a call of `parseRequest` comes
to an end exactly if the head in front of the unread bytes is not complete, announces no body or is
followed by no more bytes than the announced body has. -/
theorem parseRequest_terminates_iff (t : Timestamp) {ctx : HttpContext} (h : Reached ctx)
    (buf : Buffer) : parseRequest t ctx buf ≠ none ↔ BodyFits ctx buf.readable := by
  constructor
  · intro hsome ls rest hahead v hv
    by_contra hlong
    exact hsome (parseRequest_eq_none.mpr (diverges_of_ahead t hahead hv (Nat.not_le.mp hlong)))
  · intro hfits
    have hreturns : ∃ r, Returns (parseRound t) (ctx, buf) r :=
      returns_of_invariant (I := fun s => BodyFits s.1 s.2.readable ∧ s.1.state_ ≠ .kGotAll)
        (fun _ _ hs hround => hs.1.round hs.2 hround) ⟨hfits, h.open_⟩
    obtain ⟨r, hr⟩ := hreturns
    rw [parseRequest_eq_some.mpr hr]
    exact nofun

/-- A request with a body, and what the parser has to tell apart in it. -/
theorem headersEnd_hello (rest : Bytes) :
    HeadersEnd (ascii "Content-Length: 5" ++ crlf ++ (crlf ++ rest)) [ascii "Content-Length: 5"] []
      rest := by
  have hlast : cutLine (crlf ++ rest) = some ([], rest) := cutLine_line (l := []) (by simp) rest
  exact ⟨⟨crlf ++ rest, .cons (cutLine_line (by decide) _) (by decide) (.nil _), hlast⟩, rfl⟩

theorem cutLine_hello (rest : Bytes) :
    cutLine (ascii "GET / HTTP/1.1" ++ crlf ++ rest) = some (ascii "GET / HTTP/1.1", rest) :=
  cutLine_line (by decide) rest

/-- The body arrives with its head, and nothing behind it. -/
theorem parseRequest_terminates_hello :
    let text := ascii "GET / HTTP/1.1" ++ crlf ++ (ascii "Content-Length: 5" ++ crlf ++
      (crlf ++ ascii "hello"))
    parseRequest 0 .new ((Buffer.new kInitialSize).append text) ≠ none := by
  intro text
  refine (parseRequest_terminates_iff 0 .new _).mpr ?_
  rw [Buffer.readable_append, Buffer.readable_new, List.nil_append]
  rintro ls rest hahead v hv
  cases hahead with
  | requestLine _ hcut _ hends =>
    obtain ⟨-, rfl⟩ := Prod.mk.inj (Option.some.inj ((cutLine_hello _).symm.trans hcut))
    obtain ⟨rfl, -, rfl⟩ := (headersEnd_hello (ascii "hello")).unique hends
    obtain rfl : v = 5 := by
      have hfive : stoll (announced (new.request_.getHeader kContentLength)
          [ascii "Content-Length: 5"]) = .ok 5 := by
        rw [show new.request_ = HttpRequest.new from rfl, HttpRequest.getHeader_new]
        decide +kernel
      exact Except.ok.inj (hv.symm.trans hfive)
    decide
  | headers hstate => cases hstate
  | body hstate => cases hstate

/-- The body arrives with the start of the next request behind it. -/
theorem parseRequest_diverges :
    let text := ascii "GET / HTTP/1.1" ++ crlf ++ (ascii "Content-Length: 5" ++ crlf ++
      (crlf ++ ascii "helloGET "))
    parseRequest 0 .new ((Buffer.new kInitialSize).append text) = none ∧
      ¬ (∀ ctx, Reached ctx → ∀ t buf, parseRequest t ctx buf ≠ none) := by
  intro text
  have hread : ((Buffer.new kInitialSize).append text).readable = text := by
    rw [Buffer.readable_append, Buffer.readable_new, List.nil_append]
  have hahead : Ahead .new ((Buffer.new kInitialSize).append text).readable
      [ascii "Content-Length: 5"] (ascii "helloGET ") := by
    rw [hread]
    exact .requestLine rfl (cutLine_hello _) (by decide +kernel) (headersEnd_hello _)
  have hnone : parseRequest 0 .new ((Buffer.new kInitialSize).append text) = none := by
    refine parseRequest_eq_none.mpr (diverges_of_ahead 0 hahead (v := 5) ?_ (by decide))
    rw [show new.request_ = HttpRequest.new from rfl, HttpRequest.getHeader_new]
    decide +kernel
  exact ⟨hnone, fun hall => hall .new .new 0 _ hnone⟩

end HttpContext

end Mymuduo
