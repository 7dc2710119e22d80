import Mymuduo.Http.Segmentation

/-!
# What a request leaves to the next one

`HttpContext::reset` swaps the request for a new one, and `HttpRequest::swap` exchanges every member
but `body_`. So a context that has handled a request differs from a new one in the body only, which
is that of the last request. No round of the parser looks at it, and it is still there in the next
request unless that has a body of its own.

* `parseRequest_withBody`, `feedAll_withBody`: a body that is left over, call by call and over a
  stream.
* `requests_isolated_iff`: after which histories every stream is parsed as by a new context.
* `requests_isolated_fails`: a `GET` that is handed over with the body of the `POST` before it.
-/

namespace Mymuduo.HttpContext

open CString Lines Iteration

def withBody (ctx : HttpContext) (body : Bytes) : HttpContext :=
  { ctx with request_ := ctx.request_.setBody body }

/-- The call got all, and the request has a `Content-Length`. -/
def TookBody (r : ParseResult) : Prop :=
  r.context.state_ = .kGotAll ∧ r.context.request_.getHeader kContentLength ≠ []

instance (r : ParseResult) : Decidable (TookBody r) := inferInstanceAs (Decidable (_ ∧ _))

/-- The end of a call that found `body` in the context, and of the same call without. -/
structure EndsWithBody (body : Bytes) (r r' : ParseResult) : Prop where
  outcome : r.outcome = r'.outcome
  buffer : r.buffer = r'.buffer
  context : r.context = if TookBody r' then r'.context else r'.context.withBody body

theorem endsWithBody_of_state {body : Bytes} {outcome : ParseEnd} {buf : Buffer}
    {state : HttpRequestParseState} {r : HttpRequest}
    (h : state = .kGotAll → r.getHeader kContentLength = []) :
    EndsWithBody body ⟨outcome, ⟨state, r.setBody body⟩, buf⟩ ⟨outcome, ⟨state, r⟩, buf⟩ :=
  ⟨rfl, rfl, (if_neg fun hb => hb.2 (h hb.1)).symm⟩

theorem EndsWithBody.gotAll {body : Bytes} {r r' : ParseResult} (h : EndsWithBody body r r') :
    r.context.gotAll = r'.context.gotAll := by
  rw [h.context]
  split <;> rfl

/-- A call that is to wait for more has taken no body, so that the old one is still there. -/
theorem EndsWithBody.context_of_waits {body : Bytes} {r r' : ParseResult}
    (h : EndsWithBody body r r') (hwaits : r'.context.gotAll = false) :
    r.context = r'.context.withBody body := by
  have htook : ¬ TookBody r' := by
    rintro ⟨hstate, -⟩
    simp [HttpContext.gotAll, hstate] at hwaits
  rw [h.context, if_neg htook]

theorem endsWithBody_takeBody (body : Bytes) (r : HttpRequest) (buf : Buffer) (len : Nat)
    (h : r.getHeader kContentLength ≠ []) :
    EndsWithBody body (takeBody ⟨.kExpectBody, r.setBody body⟩ buf len)
      (takeBody ⟨.kExpectBody, r⟩ buf len) := by
  rw [takeBody, takeBody]
  split
  · exact endsWithBody_of_state nofun
  · split
    · exact endsWithBody_of_state nofun
    · exact ⟨rfl, rfl, (if_pos ⟨rfl, h⟩).symm⟩

/-- The parser does not look at the body. -/
theorem inStep_withBody (t : Timestamp) (body : Bytes) (s s' : HttpContext × Buffer)
    (h : s = (s'.1.withBody body, s'.2)) :
    InStep (fun s s' => s = (s'.1.withBody body, s'.2)) (EndsWithBody body) (parseRound t s)
      (parseRound t s') := by
  obtain ⟨⟨state, r⟩, buf⟩ := s'
  subst h
  cases state with
  | kExpectRequestLine =>
    have hline := (HttpRequest.offLine_setBody body).processRequestLine r
    simp only [parseRound, withBody]
    cases hfind : buf.findCRLF with
    | none => exact .exit (endsWithBody_of_state (by simp))
    | some crlf =>
      dsimp only
      rw [hline]
      rcases r.processRequestLine (buf.readable.take crlf) with ⟨ok, r'⟩
      cases ok with
      | true => exact .again rfl
      | false => exact .exit (endsWithBody_of_state (by simp))
  | kExpectHeaders =>
    simp only [parseRound, withBody]
    cases hfind : buf.findCRLF with
    | none => exact .exit (endsWithBody_of_state (by simp))
    | some crlf =>
      dsimp only
      cases hcolon : cutByte COLON (buf.readable.take crlf) with
      | none => exact .again rfl
      | some p => exact .again rfl
  | kExpectBody =>
    have hheader : (r.setBody body).getHeader kContentLength = r.getHeader kContentLength := rfl
    simp only [parseRound, withBody, hheader]
    split
    · next hne =>
      cases hlen : stoll (r.getHeader kContentLength) with
      | error e => exact .exit (endsWithBody_of_state (by simp))
      | ok v =>
        dsimp only
        split
        · exact .exit (endsWithBody_takeBody body r buf _ hne)
        · exact .again rfl
    · next hnone => exact .exit (endsWithBody_of_state fun _ => not_not.mp hnone)
  | kGotAll => exact .again rfl

/-- A call that finds a body in the context ends as it does without one, and leaves it there unless
it takes another. -/
theorem parseRequest_withBody (t : Timestamp) (body : Bytes) (ctx : HttpContext) (buf : Buffer) :
    Option.Rel (EndsWithBody body) (parseRequest t (ctx.withBody body) buf)
      (parseRequest t ctx buf) :=
  run_inStep (inStep_withBody t body) _ rfl

/-! ## Streams -/

/-- Chunks are fed to a context until a call does not wait for more: how the last call ended. -/
def feedAll (ctx : HttpContext) (buf : Buffer) : List (Timestamp × Bytes) → Option ParseResult
  | [] => some ⟨.returned true, ctx, buf⟩
  | (t, c) :: chunks =>
    match parseRequest t ctx (buf.append c) with
    | some ⟨.returned true, ctx₁, buf₁⟩ =>
      if ctx₁.gotAll then some ⟨.returned true, ctx₁, buf₁⟩ else feedAll ctx₁ buf₁ chunks
    | r => r

theorem feedAll_withBody (body : Bytes) (ctx : HttpContext) (buf : Buffer)
    (chunks : List (Timestamp × Bytes)) (hopen : ctx.gotAll = false) :
    Option.Rel (EndsWithBody body) (feedAll (ctx.withBody body) buf chunks)
      (feedAll ctx buf chunks) := by
  induction chunks generalizing ctx buf with
  | nil =>
    refine .some (endsWithBody_of_state fun hstate => ?_)
    simp [gotAll, hstate] at hopen
  | cons p chunks ih =>
    obtain ⟨t, c⟩ := p
    have hcall := parseRequest_withBody t body ctx (buf.append c)
    simp only [feedAll]
    generalize parseRequest t (ctx.withBody body) (buf.append c) = r at hcall ⊢
    generalize parseRequest t ctx (buf.append c) = r' at hcall ⊢
    cases hcall with
    | none => exact .none
    | @some r r' hend =>
      have hgot := hend.gotAll
      have hwaits := hend.context_of_waits
      obtain ⟨outcome, ctx₀, buf₀⟩ := r
      obtain ⟨outcome', ctx₁, buf₁⟩ := r'
      obtain rfl : outcome = outcome' := hend.outcome
      obtain rfl : buf₀ = buf₁ := hend.buffer
      cases outcome with
      | threw e => exact .some hend
      | overread => exact .some hend
      | returned ok =>
        cases ok with
        | false => exact .some hend
        | true =>
          dsimp only at hgot hwaits ⊢
          rw [hgot]
          split
          · exact .some hend
          · next hall =>
            have hall' : ctx₁.gotAll = false := by simpa using hall
            rw [hwaits hall']
            exact ih ctx₁ buf₀ hall'

/-! ## Histories -/

/-- `ctx` and `buf` are what is left of a context and a buffer that started anew and have handled
`requests` since. -/
inductive History : HttpContext → Buffer → List HttpRequest → Prop
  | new (buf : Buffer) : History .new buf []
  | request {ctx : HttpContext} {buf : Buffer} {requests : List HttpRequest}
    {chunks : List (Timestamp × Bytes)} {r : ParseResult} (h : History ctx buf requests)
    (hfeed : ctx.feedAll buf chunks = some r) (hall : r.context.gotAll = true) :
    History r.context.reset r.buffer (requests ++ [r.context.request_])

/-- The body of the last request that was handled. -/
def lastBody (requests : List HttpRequest) : Bytes :=
  (requests.getLast?.map HttpRequest.body_).getD []

/-- A context that has handled requests is a new one but for the body of the last of them. -/
theorem History.context {ctx : HttpContext} {buf : Buffer} {requests : List HttpRequest}
    (h : History ctx buf requests) : ctx = HttpContext.new.withBody (lastBody requests) := by
  cases h with
  | new => rfl
  | request h hfeed hall =>
    rw [Mymuduo.HttpContext.lastBody, List.getLast?_concat]
    rfl

/-- The two ends hand over the same request. -/
def SameRequest (r r' : Option ParseResult) : Prop :=
  r.map (fun r => r.context.request_) = r'.map (fun r => r.context.request_)

instance (r r' : Option ParseResult) : Decidable (SameRequest r r') :=
  inferInstanceAs (Decidable (_ = _))

/-- A new context has no body before it takes one. -/
theorem body_of_not_tookBody {buf : Buffer} {chunks : List (Timestamp × Bytes)} {r : ParseResult}
    (hr : new.feedAll buf chunks = some r) (hnot : ¬ TookBody r) :
    r.context.request_.body_ = [] := by
  have hrel := feedAll_withBody [] new buf chunks rfl
  have hnew : new.withBody [] = new := rfl
  rw [hnew, hr] at hrel
  cases hrel with
  | some hend =>
    have hctx := hend.context
    rw [if_neg hnot] at hctx
    exact congrArg (fun ctx => ctx.request_.body_) hctx

/-- A stream shows the body that was left over, unless the parser takes one or never leaves its
loop. -/
theorem sameRequest_iff (body : Bytes) (buf : Buffer) (chunks : List (Timestamp × Bytes)) :
    SameRequest ((new.withBody body).feedAll buf chunks) (new.feedAll buf chunks) ↔
      body = [] ∨ ∀ r, new.feedAll buf chunks = some r → TookBody r := by
  have hrel := feedAll_withBody body new buf chunks rfl
  have hempty : ∀ r, new.feedAll buf chunks = some r → ¬ TookBody r →
      r.context.request_.body_ = [] := fun _ => body_of_not_tookBody
  generalize (new.withBody body).feedAll buf chunks = r at hrel ⊢
  generalize new.feedAll buf chunks = r' at hrel hempty ⊢
  cases hrel with
  | none => exact iff_of_true rfl (.inr fun _ hr => nomatch hr)
  | @some r r' hend =>
    simp only [SameRequest, Option.map_some, Option.some.injEq, hend.context, forall_eq']
    split
    · next htook => exact iff_of_true rfl (.inr htook)
    · next htook =>
      have hbody := hempty r' rfl htook
      constructor
      · intro hsame
        have hleft : body = r'.context.request_.body_ := congrArg HttpRequest.body_ hsame
        exact .inl (hleft.trans hbody)
      · rintro (rfl | htaken)
        · rw [← hbody]
          rfl
        · exact absurd htaken htook

/-- After a history every stream is parsed as by a new context, whatever the division into chunks,
if and only if the last request of the history has no body. -/
theorem requests_isolated_iff {ctx : HttpContext} {buf : Buffer} {requests : List HttpRequest}
    (h : History ctx buf requests) :
    (∀ chunks, SameRequest (ctx.feedAll buf chunks) (new.feedAll buf chunks)) ↔
      lastBody requests = [] := by
  rw [h.context]
  constructor
  · intro hsame
    rcases (sameRequest_iff _ buf []).mp (hsame []) with hnone | htook
    · exact hnone
    · exact absurd (htook _ rfl).1 nofun
  · exact fun hnone chunks => (sameRequest_iff _ buf chunks).mpr (.inl hnone)

/-! ## A request with a body and one without -/

def postSecret : Bytes :=
  ascii "POST / HTTP/1.1" ++ crlf ++ ascii "Content-Length: 6" ++ crlf ++ crlf ++ ascii "secret"

def getRoot : Bytes := ascii "GET / HTTP/1.1" ++ crlf ++ crlf

/-- One call of `parseRequest` after the first request, and `reset`. -/
def afterFirst (first : Bytes) : Option (HttpContext × Buffer) :=
  (new.feedAll (Buffer.new kInitialSize) [(1, first)]).map fun r => (r.context.reset, r.buffer)

/-- A first request that got all is a history. -/
theorem history_first {first : Bytes} {r : ParseResult}
    (hr : new.feedAll (Buffer.new kInitialSize) [(1, first)] = some r)
    (hall : r.context.gotAll = true) :
    History r.context.reset r.buffer [r.context.request_] :=
  .request (.new _) hr hall

theorem feedAll_get (first : Bytes)
    (h : (new.feedAll (Buffer.new kInitialSize) [(1, first)]).isSome = true) :
    new.feedAll (Buffer.new kInitialSize) [(1, first)] =
      some ((new.feedAll (Buffer.new kInitialSize) [(1, first)]).get h) :=
  (Option.some_get h).symm

/-- After a request without a body nothing is left. -/
theorem requests_isolated_getRoot :
    ∃ r, new.feedAll (Buffer.new kInitialSize) [(1, getRoot)] = some r ∧
      ∀ chunks, SameRequest (r.context.reset.feedAll r.buffer chunks)
        (new.feedAll r.buffer chunks) := by
  have hr := feedAll_get getRoot (by decide +kernel)
  exact ⟨_, hr, (requests_isolated_iff (history_first hr (by decide +kernel))).mpr
    (by decide +kernel)⟩

/-- A `GET` after a `POST` on the same connection is handed over with the body of the `POST`. -/
theorem requests_isolated_fails :
    ¬ (∀ ctx buf requests, History ctx buf requests → ∀ chunks,
        SameRequest (ctx.feedAll buf chunks) (new.feedAll buf chunks)) ∧
      ((afterFirst postSecret).bind fun s => s.1.feedAll s.2 [(2, getRoot)]).map
        (fun r => (r.context.gotAll, r.context.request_.body_)) = some (true, ascii "secret") := by
  refine ⟨fun hall => ?_, by decide +kernel⟩
  have hr := feedAll_get postSecret (by decide +kernel)
  have hsame := hall _ _ _ (history_first hr (by decide +kernel)) [(2, getRoot)]
  revert hsame
  decide +kernel

end Mymuduo.HttpContext
