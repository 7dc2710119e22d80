import Mymuduo.Http.HttpRequest
import Mymuduo.Lib.Iteration
import Mymuduo.Net.Buffer

/-!
# `http/HttpContext`

The request parser. `parseRound` is the body of the loop in `parseRequest`: it goes round again or
returns. The loop leaves with `ok`, or with an exception that nothing catches, or reads behind the
end of the buffer's vector; and it may not leave at all, which `parseRequest` answers with `none`
(`parseRequest_eq_none`).
-/

namespace Mymuduo

open CString Lines Iteration

inductive HttpRequestParseState
  | kExpectRequestLine
  | kExpectHeaders
  | kExpectBody
  | kGotAll
  deriving DecidableEq, Repr

structure HttpContext where
  state_ : HttpRequestParseState
  request_ : HttpRequest
  deriving DecidableEq

/-- How a call of `parseRequest` ends. `overread` is a read behind the end of the vector. -/
inductive ParseEnd
  | returned (ok : Bool)
  | threw (e : StdException)
  | overread
  deriving DecidableEq, Repr

/-- The end of a call, with the context and the buffer as it leaves them. -/
structure ParseResult where
  outcome : ParseEnd
  context : HttpContext
  buffer : Buffer
  deriving DecidableEq

def SP : UInt8 := 32
def COLON : UInt8 := 58
def QUESTION : UInt8 := 63

namespace HttpRequest

/-- The URL of a request line; the query keeps its question mark. -/
def setTarget (r : HttpRequest) (target : Bytes) : HttpRequest :=
  match cutByte QUESTION target with
  | some (path, query) => (r.setPath path).setQuery (QUESTION :: query)
  | none => r.setPath target

/-- The last word of a request line. -/
def setProtocol (r : HttpRequest) (word : Bytes) : Bool × HttpRequest :=
  if word.length = 8 ∧ word.take 7 = ascii "HTTP/1." then
    if word.drop 7 = ascii "1" then (true, r.setVersion .kHttp11)
    else if word.drop 7 = ascii "0" then (true, r.setVersion .kHttp10)
    else (false, r)
  else (false, r)

/-- `processRequestLine` on the request of the context. -/
def processRequestLine (r : HttpRequest) (line : Bytes) : Bool × HttpRequest :=
  match cutByte SP line with
  | none => (false, r)
  | some (m, rest) =>
    match r.setMethod m with
    | (false, r) => (false, r)
    | (true, r) =>
      match cutByte SP rest with
      | none => (false, r)
      | some (target, word) => (r.setTarget target).setProtocol word

/-- `f` changes nothing that a request line sets. -/
structure OffLine (f : HttpRequest → HttpRequest) : Prop where
  setMethod : ∀ r m, (f r).setMethod m = ((r.setMethod m).1, f (r.setMethod m).2)
  setVersion : ∀ r v, (f r).setVersion v = f (r.setVersion v)
  setPath : ∀ r path, (f r).setPath path = f (r.setPath path)
  setQuery : ∀ r query, (f r).setQuery query = f (r.setQuery query)

theorem offLine_setReceiveTime (t : Timestamp) : OffLine fun r => r.setReceiveTime t :=
  ⟨fun _ _ => rfl, fun _ _ => rfl, fun _ _ => rfl, fun _ _ => rfl⟩

theorem offLine_setBody (body : Bytes) : OffLine fun r => r.setBody body :=
  ⟨fun _ _ => rfl, fun _ _ => rfl, fun _ _ => rfl, fun _ _ => rfl⟩

theorem OffLine.setTarget {f : HttpRequest → HttpRequest} (hf : OffLine f) (r : HttpRequest)
    (target : Bytes) : (f r).setTarget target = f (r.setTarget target) := by
  unfold HttpRequest.setTarget
  split
  · rw [hf.setPath, hf.setQuery]
  · exact hf.setPath r target

theorem OffLine.setProtocol {f : HttpRequest → HttpRequest} (hf : OffLine f) (r : HttpRequest)
    (word : Bytes) :
    (f r).setProtocol word = ((r.setProtocol word).1, f (r.setProtocol word).2) := by
  unfold HttpRequest.setProtocol
  split
  · split
    · rw [hf.setVersion]
    · split
      · rw [hf.setVersion]
      · rfl
  · rfl

/-- The request line and `f` do not meet. -/
theorem OffLine.processRequestLine {f : HttpRequest → HttpRequest} (hf : OffLine f)
    (r : HttpRequest) (line : Bytes) :
    (f r).processRequestLine line =
      ((r.processRequestLine line).1, f (r.processRequestLine line).2) := by
  unfold HttpRequest.processRequestLine
  split
  · rfl
  · next m rest _ =>
    rw [hf.setMethod]
    rcases r.setMethod m with ⟨ok, r'⟩
    cases ok with
    | false => rfl
    | true =>
      dsimp only
      split
      · rfl
      · rw [hf.setTarget, hf.setProtocol]

/-- What a request line leaves alone. -/
def SameRest (r r' : HttpRequest) : Prop := r'.headers_ = r.headers_ ∧ r'.body_ = r.body_

theorem sameRest_setTarget (r : HttpRequest) (target : Bytes) :
    SameRest r (r.setTarget target) := by
  unfold setTarget
  split <;> exact ⟨rfl, rfl⟩

theorem sameRest_setProtocol (r : HttpRequest) (word : Bytes) :
    SameRest r (r.setProtocol word).2 := by
  unfold setProtocol
  split
  · split
    · exact ⟨rfl, rfl⟩
    · split <;> exact ⟨rfl, rfl⟩
  · exact ⟨rfl, rfl⟩

theorem sameRest_processRequestLine (r : HttpRequest) (line : Bytes) :
    SameRest r (r.processRequestLine line).2 := by
  unfold processRequestLine
  split
  · exact ⟨rfl, rfl⟩
  · next m rest _ =>
    have hm : SameRest r (r.setMethod m).2 := ⟨rfl, rfl⟩
    generalize r.setMethod m = p at hm ⊢
    obtain ⟨ok, r'⟩ := p
    cases ok with
    | false => exact hm
    | true =>
      dsimp only
      split
      · exact hm
      · next target word _ =>
        have ht := sameRest_setTarget r' target
        have hp := sameRest_setProtocol (r'.setTarget target) word
        exact ⟨hp.1.trans (ht.1.trans hm.1), hp.2.trans (ht.2.trans hm.2)⟩

theorem getHeader_processRequestLine (r : HttpRequest) (line field : Bytes) :
    (r.processRequestLine line).2.getHeader field = r.getHeader field := by
  rw [getHeader, (sameRest_processRequestLine r line).1, getHeader]

end HttpRequest

namespace HttpContext

def new : HttpContext where
  state_ := .kExpectRequestLine
  request_ := .new

def gotAll (ctx : HttpContext) : Bool := ctx.state_ == .kGotAll

def reset (ctx : HttpContext) : HttpContext where
  state_ := .kExpectRequestLine
  request_ := ctx.request_.swapNew

def kContentLength : Bytes := ascii "Content-Length"

/-- The branch of `parseRequest` for a body of `len` bytes. A `std::string` cannot hold `2 ^ 63`
bytes, so that `assign` throws before it reads anything. -/
def takeBody (ctx : HttpContext) (buf : Buffer) (len : Nat) : ParseResult :=
  if 2 ^ 63 ≤ len then ⟨.threw .length_error, ctx, buf⟩
  else
    match buf.peekRange len with
    | none => ⟨.overread, ctx, buf⟩
    | some body => ⟨.returned true, ⟨.kGotAll, ctx.request_.setBody body⟩, buf.retrieve len⟩

/-- A body is taken, or an error that is no parse error. -/
theorem outcome_takeBody (ctx : HttpContext) (buf : Buffer) (len : Nat) :
    (ctx.takeBody buf len).outcome ≠ .returned false := by
  unfold takeBody
  split
  · exact nofun
  · split <;> exact nofun

/-- One round of the loop in `parseRequest`. -/
def parseRound (receiveTime : Timestamp) :
    HttpContext × Buffer → Next (HttpContext × Buffer) ParseResult
  | (ctx, buf) =>
    match ctx.state_ with
    | .kExpectRequestLine =>
      match buf.findCRLF with
      | some crlf =>
        match ctx.request_.processRequestLine (buf.readable.take crlf) with
        | (true, r) =>
          .again (⟨.kExpectHeaders, r.setReceiveTime receiveTime⟩, buf.retrieve (crlf + 2))
        | (false, r) => .exit ⟨.returned false, { ctx with request_ := r }, buf⟩
      | none => .exit ⟨.returned true, ctx, buf⟩
    | .kExpectHeaders =>
      match buf.findCRLF with
      | some crlf =>
        match cutByte COLON (buf.readable.take crlf) with
        | some (field, rest) =>
          .again ({ ctx with request_ := ctx.request_.addHeader field rest },
            buf.retrieve (crlf + 2))
        | none => .again ({ ctx with state_ := .kExpectBody }, buf.retrieve (crlf + 2))
      | none => .exit ⟨.returned true, ctx, buf⟩
    | .kExpectBody =>
      let lenstr := ctx.request_.getHeader kContentLength
      if lenstr ≠ [] then
        match stoll lenstr with
        | .ok v =>
          -- too few bytes asked for: nothing changes and the loop goes on
          if buf.readableBytes ≤ castSize v then .exit (ctx.takeBody buf (castSize v))
          else .again (ctx, buf)
        -- the handler is for the library's own `Exception`, which nothing here throws
        | .error e => .exit ⟨.threw e, ctx, buf⟩
      else .exit ⟨.returned true, { ctx with state_ := .kGotAll }, buf⟩
    | .kGotAll => .again (ctx, buf)

/-- `parseRequest`; `none` when the loop never leaves. Every round that goes on takes a line out of
the buffer or changes nothing, so that more rounds than readable bytes tell. -/
def parseRequest (receiveTime : Timestamp) (ctx : HttpContext) (buf : Buffer) :
    Option ParseResult :=
  run (parseRound receiveTime) (buf.readableBytes + 1) (ctx, buf)

/-! ## The bound on the rounds -/

theorem readableBytes_retrieve_lt {buf : Buffer} {crlf : Nat} (h : buf.findCRLF = some crlf) :
    (buf.retrieve (crlf + 2)).readableBytes < buf.readableBytes := by
  obtain ⟨-, hle⟩ := findCRLF_eq_some h
  rw [← Buffer.length_readable, ← Buffer.length_readable, Buffer.readable_retrieve,
    List.length_drop]
  omega

/-- The ways to go on. -/
inductive Continues (t : Timestamp) (ctx : HttpContext) (buf : Buffer) : HttpContext → Buffer → Prop
  | requestLine {crlf : Nat} {r : HttpRequest} (hstate : ctx.state_ = .kExpectRequestLine)
    (hfind : buf.findCRLF = some crlf)
    (hline : ctx.request_.processRequestLine (buf.readable.take crlf) = (true, r)) :
    Continues t ctx buf ⟨.kExpectHeaders, r.setReceiveTime t⟩ (buf.retrieve (crlf + 2))
  | header {crlf : Nat} {field value : Bytes} (hstate : ctx.state_ = .kExpectHeaders)
    (hfind : buf.findCRLF = some crlf)
    (hfield : cutByte COLON (buf.readable.take crlf) = some (field, value)) :
    Continues t ctx buf { ctx with request_ := ctx.request_.addHeader field value }
      (buf.retrieve (crlf + 2))
  | lastLine {crlf : Nat} (hstate : ctx.state_ = .kExpectHeaders)
    (hfind : buf.findCRLF = some crlf) (hnone : cutByte COLON (buf.readable.take crlf) = none) :
    Continues t ctx buf { ctx with state_ := .kExpectBody } (buf.retrieve (crlf + 2))
  | stuck {v : Int} (hstate : ctx.state_ = .kExpectBody)
    (hv : stoll (ctx.request_.getHeader kContentLength) = .ok v)
    (hmore : castSize v < buf.readableBytes) : Continues t ctx buf ctx buf
  | gotAll (hstate : ctx.state_ = .kGotAll) : Continues t ctx buf ctx buf

theorem parseRound_continues {t : Timestamp} {ctx ctx' : HttpContext} {buf buf' : Buffer}
    (h : parseRound t (ctx, buf) = .again (ctx', buf')) : Continues t ctx buf ctx' buf' := by
  simp only [parseRound] at h
  split at h
  · next hstate =>
    split at h
    · next hfind =>
      split at h <;> cases h
      next hline => exact .requestLine hstate hfind hline
    · cases h
  · next hstate =>
    split at h
    · next hfind =>
      split at h
      · next hfield =>
        cases h
        exact .header hstate hfind hfield
      · next hnone =>
        cases h
        exact .lastLine hstate hfind hnone
    · cases h
  · next hstate =>
    split at h
    · split at h
      · next hv =>
        split at h <;> cases h
        next hmore => exact .stuck hstate hv (Nat.lt_of_not_le hmore)
      · cases h
    · cases h
  · next hstate =>
    cases h
    exact .gotAll hstate

/-- A round that goes on takes a line out of the buffer or will go on for ever. -/
theorem parseRound_again {t : Timestamp} {s s' : HttpContext × Buffer}
    (h : parseRound t s = .again s') :
    s'.2.readableBytes < s.2.readableBytes ∨ Diverges (parseRound t) s' := by
  obtain ⟨ctx', buf'⟩ := s'
  cases parseRound_continues h with
  | requestLine _ hfind | header _ hfind | lastLine _ hfind =>
    exact .inl (readableBytes_retrieve_lt hfind)
  | stuck | gotAll => exact .inr (diverges_of_fixed h)

/-- The ways out of the loop. -/
inductive Exits (ctx : HttpContext) (buf : Buffer) : ParseResult → Prop
  | waits (hstate : ctx.state_ = .kExpectRequestLine ∨ ctx.state_ = .kExpectHeaders) :
    Exits ctx buf ⟨.returned true, ctx, buf⟩
  | badLine {crlf : Nat} {r : HttpRequest} (hstate : ctx.state_ = .kExpectRequestLine)
    (hfind : buf.findCRLF = some crlf)
    (hline : ctx.request_.processRequestLine (buf.readable.take crlf) = (false, r)) :
    Exits ctx buf ⟨.returned false, { ctx with request_ := r }, buf⟩
  | noBody (hstate : ctx.state_ = .kExpectBody)
    (hnone : ctx.request_.getHeader kContentLength = []) :
    Exits ctx buf ⟨.returned true, { ctx with state_ := .kGotAll }, buf⟩
  | body (len : Nat) (hstate : ctx.state_ = .kExpectBody) : Exits ctx buf (ctx.takeBody buf len)
  | threw (e : StdException) (hstate : ctx.state_ = .kExpectBody) :
    Exits ctx buf ⟨.threw e, ctx, buf⟩

theorem parseRound_exit {t : Timestamp} {ctx : HttpContext} {buf : Buffer} {r : ParseResult}
    (h : parseRound t (ctx, buf) = .exit r) : Exits ctx buf r := by
  simp only [parseRound] at h
  split at h
  · next hstate =>
    split at h
    · next hfind =>
      split at h <;> cases h
      next hline => exact .badLine hstate hfind hline
    · cases h
      exact .waits (.inl hstate)
  · next hstate =>
    split at h
    · split at h <;> cases h
    · cases h
      exact .waits (.inr hstate)
  · next hstate =>
    split at h
    · split at h
      · split at h
        · cases h
          exact .body _ hstate
        · cases h
      · cases h
        exact .threw _ hstate
    · next hnone =>
      cases h
      exact .noBody hstate (not_not.mp hnone)
  · cases h

/-- `none` is the answer for a loop that never leaves, and for no other. -/
theorem parseRequest_eq_none {t : Timestamp} {ctx : HttpContext} {buf : Buffer} :
    parseRequest t ctx buf = none ↔ Diverges (parseRound t) (ctx, buf) :=
  ⟨diverges_of_run_eq_none (μ := fun s => s.2.readableBytes) (fun _ _ h => parseRound_again h)
    (Nat.lt_succ_self _), fun h => h _⟩

theorem parseRequest_eq_some {t : Timestamp} {ctx : HttpContext} {buf : Buffer} {r : ParseResult} :
    parseRequest t ctx buf = some r ↔ Returns (parseRound t) (ctx, buf) r := by
  refine ⟨fun h => ⟨_, h⟩, ?_⟩
  intro h
  cases hp : parseRequest t ctx buf with
  | none =>
    obtain ⟨n, hn⟩ := h
    rw [parseRequest_eq_none.mp hp n] at hn
    cases hn
  | some r' => rw [Returns.unique ⟨_, hp⟩ h]

/-! ## Request lines -/

/-- The request line is behind after every round that goes on. -/
theorem state_of_again {t : Timestamp} {p p' : HttpContext × Buffer}
    (h : parseRound t p = .again p') : p'.1.state_ ≠ .kExpectRequestLine := by
  obtain ⟨ctx', buf'⟩ := p'
  cases parseRound_continues h with
  | requestLine | lastLine => exact nofun
  | header hstate | stuck hstate | gotAll hstate => simp [hstate]

/-- Only the first round of a call can be at a request line. -/
theorem eq_of_goes {t : Timestamp} {p p' : HttpContext × Buffer} (hgo : Goes (parseRound t) p p')
    (hstate : p'.1.state_ = .kExpectRequestLine) : p' = p := by
  cases hgo with
  | refl => rfl
  | again hround hgo =>
    exact absurd hstate (hgo.invariant (I := fun p => p.1.state_ ≠ .kExpectRequestLine)
      (fun _ _ _ h => state_of_again h) (state_of_again hround))

/-- A call that returns `false` has rejected the line at the front and left it there. -/
theorem rejected_of_false {t : Timestamp} {ctx : HttpContext} {buf : Buffer} {r : ParseResult}
    (h : parseRequest t ctx buf = some r) (hfalse : r.outcome = .returned false) :
    ctx.state_ = .kExpectRequestLine ∧ ∃ crlf, buf.findCRLF = some crlf ∧
      ctx.request_.processRequestLine (buf.readable.take crlf) = (false, r.context.request_) ∧
      r.context.state_ = ctx.state_ ∧ r.buffer = buf := by
  obtain ⟨⟨ctx', buf'⟩, hgo, hexit⟩ := (parseRequest_eq_some.mp h).goes
  cases parseRound_exit hexit with
  | badLine hstate hfind hline =>
    obtain ⟨rfl, rfl⟩ := Prod.mk.inj (eq_of_goes hgo hstate)
    exact ⟨hstate, _, hfind, hline, rfl, rfl⟩
  | body len => exact absurd hfalse (outcome_takeBody ctx' buf' len)
  | waits | noBody | threw => cases hfalse

theorem parseRequest_of_rejected (t : Timestamp) {ctx : HttpContext} {buf : Buffer} {crlf : Nat}
    {r : HttpRequest} (hstate : ctx.state_ = .kExpectRequestLine)
    (hfind : buf.findCRLF = some crlf)
    (hline : ctx.request_.processRequestLine (buf.readable.take crlf) = (false, r)) :
    parseRequest t ctx buf = some ⟨.returned false, { ctx with request_ := r }, buf⟩ := by
  refine parseRequest_eq_some.mpr (.of_exit ?_)
  simp only [parseRound, hstate, hfind, hline]

end HttpContext

end Mymuduo
