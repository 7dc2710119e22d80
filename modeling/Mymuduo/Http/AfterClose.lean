import Mymuduo.Http.Pipelining

/-!
# Deliveries after a `shutdown`

`onMessage` shuts the connection down after a bad request and after a response that closes.
`shutdown` ends the write side only: the peer may still send, and every delivery is parsed as
before. What comes of it depends on the reason. A bad request line is never taken out of the input
buffer, so that it is found again by every later call (`AtBadLine`). After a response the context is
reset, and a request that is completed later is passed on like any other; only what is sent in
answer to it is dropped, because the connection is no longer `kConnected`.

* `after_bad_request`: nothing is passed on after a bad request.
* `after_close`: both reasons, and what is left of the connection.
* `after_close_passes_on`: a request that is passed on after a response that closes.
-/

namespace Mymuduo

open CString Lines Iteration

namespace HttpRequest

/-- Whether a request line is accepted does not depend on the request it is read into. -/
theorem processRequestLine_fst (r r' : HttpRequest) (line : Bytes) :
    (r.processRequestLine line).1 = (r'.processRequestLine line).1 := by
  unfold processRequestLine
  cases cutByte SP line with
  | none => rfl
  | some p =>
    obtain ⟨m, rest⟩ := p
    simp only [setMethod]
    cases hm : (str2int m).getD .kInvalid != .kInvalid with
    | false => rfl
    | true =>
      dsimp only
      cases cutByte SP rest with
      | none => rfl
      | some q =>
        simp only [setProtocol]
        split
        · split
          · rfl
          · split <;> rfl
        · rfl

end HttpRequest

namespace HttpContext

/-- The parser is at a request line that it does not accept. -/
structure AtBadLine (ctx : HttpContext) (u : Bytes) : Prop where
  state_ : ctx.state_ = .kExpectRequestLine
  line : ∃ crlf, findCRLF u = some crlf ∧ (ctx.request_.processRequestLine (u.take crlf)).1 = false

theorem AtBadLine.append {ctx : HttpContext} {u : Bytes} (h : AtBadLine ctx u) (v : Bytes) :
    AtBadLine ctx (u ++ v) := by
  obtain ⟨crlf, hfind, hbad⟩ := h.line
  obtain ⟨-, hle⟩ := findCRLF_eq_some hfind
  refine ⟨h.state_, crlf, findCRLF_append hfind v, ?_⟩
  rwa [List.take_append_of_le_length (by omega)]

/-- Only a bad request line makes a call return `false`, and the line stays in the buffer. -/
theorem atBadLine_of_false {t : Timestamp} {ctx ctx' : HttpContext} {buf buf' : Buffer}
    (h : ctx.parseRequest t buf = some ⟨.returned false, ctx', buf'⟩) :
    AtBadLine ctx' buf'.readable := by
  obtain ⟨hstate, crlf, hfind, hline, hsame, hbuf⟩ := rejected_of_false h rfl
  obtain rfl : buf' = buf := hbuf
  refine ⟨hsame.trans hstate, crlf, hfind, ?_⟩
  rw [HttpRequest.processRequestLine_fst _ ctx.request_, hline]

/-- And it is found again. -/
theorem parse_of_atBadLine (t : Timestamp) {ctx : HttpContext} {buf : Buffer}
    (h : AtBadLine ctx buf.readable) :
    ∃ r, ctx.parseRequest t buf = some ⟨.returned false, { ctx with request_ := r }, buf⟩ := by
  obtain ⟨crlf, hfind, hbad⟩ := h.line
  cases hline : ctx.request_.processRequestLine (buf.readable.take crlf) with
  | mk ok r =>
    rw [hline] at hbad
    dsimp only at hbad
    subst hbad
    exact ⟨r, parseRequest_of_rejected t h.state_ hfind hline⟩

end HttpContext

namespace HttpServer

open HttpConnection HttpContext

/-! ## After a bad request -/

/-- The delivery is answered with `400 Bad Request`. -/
def Rejects (s : HttpConnection) (d : Delivery) : Prop :=
  (s.context.parseRequest d.time (s.read d.data).conn.inputBuffer_).map ParseResult.outcome =
    some (.returned false)

/-- What `onMessage` does after the parser returned `false`: the context is not at its end. -/
theorem onMessage_of_false {server : HttpServer} {s s' : HttpConnection} {t : Timestamp}
    {r : SysRet} {ctx : HttpContext} {buf : Buffer}
    (h : s.context.parseRequest t s.conn.inputBuffer_ = some ⟨.returned false, ctx, buf⟩)
    (hs' : server.onMessage s t r = some s') :
    s'.requests = s.requests ∧ AtBadLine s'.context s'.conn.inputBuffer_.readable := by
  have hbad := atBadLine_of_false h
  have hopen : ctx.gotAll = false := by rw [gotAll, hbad.state_]; rfl
  simp only [onMessage, HttpConnection.onMessage, h, hopen, Bool.false_eq_true, if_false,
    Option.some.injEq] at hs'
  subst hs'
  exact ⟨rfl, by simpa using hbad⟩

theorem deliver_of_rejects {server : HttpServer} {s s' : HttpConnection} {d : Delivery}
    (h : Rejects s d) (hs' : server.deliver s d = some s') :
    s'.requests = s.requests ∧ AtBadLine s'.context s'.conn.inputBuffer_.readable := by
  obtain ⟨⟨outcome, ctx, buf⟩, hparse, hout⟩ := Option.map_eq_some_iff.mp h
  obtain rfl : outcome = .returned false := hout
  exact onMessage_of_false (s := s.read d.data) hparse hs'

theorem rejects_of_atBadLine {s : HttpConnection}
    (h : AtBadLine s.context s.conn.inputBuffer_.readable) (d : Delivery) : Rejects s d := by
  have hread : AtBadLine s.context (s.read d.data).conn.inputBuffer_.readable := by
    simpa [HttpConnection.read] using h.append d.data
  obtain ⟨r, hparse⟩ := parse_of_atBadLine d.time hread
  rw [Rejects, hparse]
  rfl

/-- A connection with a bad request line passes nothing on. -/
theorem serve_of_atBadLine {server : HttpServer} {s s' : HttpConnection} {ds : List Delivery}
    (h : AtBadLine s.context s.conn.inputBuffer_.readable) (hs' : server.serve s ds = some s') :
    s'.requests = s.requests := by
  induction ds generalizing s with
  | nil =>
    cases hs'
    rfl
  | cons d ds ih =>
    rw [serve, List.foldlM_cons] at hs'
    obtain ⟨s₁, hs₁, hrest⟩ := Option.bind_eq_some_iff.mp hs'
    obtain ⟨hsame, hbad⟩ := deliver_of_rejects (rejects_of_atBadLine h d) hs₁
    exact (ih hbad hrest).trans hsame

theorem after_bad_request {server : HttpServer} {s s₁ s' : HttpConnection} {d : Delivery}
    {later : List Delivery} (hrejects : Rejects s d) (hs₁ : server.deliver s d = some s₁)
    (hs' : server.serve s₁ later = some s') : s'.requests = s₁.requests :=
  serve_of_atBadLine (deliver_of_rejects hrejects hs₁).2 hs'

/-! ## After a `shutdown` -/

/-- The delivery makes `onMessage` call `shutdown`. -/
def Closes (server : HttpServer) (s : HttpConnection) (d : Delivery) : Prop :=
  Rejects s d ∨ ∃ ctx buf,
    s.context.parseRequest d.time (s.read d.data).conn.inputBuffer_ =
        some ⟨.returned true, ctx, buf⟩ ∧
      ctx.gotAll = true ∧
      (server.httpCallback_ ctx.request_ (HttpResponse.new ctx.request_.close)).closeConnection_ =
        true

theorem state_shutdown_ne (c : TcpConnection) : c.shutdown.state_ ≠ .kConnected := by
  unfold TcpConnection.shutdown TcpConnection.shutdownInLoop
  split
  · split <;> simp
  · assumption

theorem send_of_closed {c : TcpConnection} (h : c.state_ ≠ .kConnected) (message : Bytes)
    (r : SysRet) : c.send message r = c :=
  if_neg h

theorem shutdown_of_closed {c : TcpConnection} (h : c.state_ ≠ .kConnected) : c.shutdown = c :=
  if_neg h

theorem deliver_closes {server : HttpServer} {s s' : HttpConnection} {d : Delivery}
    (h : Closes server s d) (hs' : server.deliver s d = some s') :
    s'.conn.state_ ≠ .kConnected := by
  rcases h with hrejects | ⟨ctx, buf, hparse, hall, hclose⟩
  · obtain ⟨⟨outcome, ctx, buf⟩, hparse, hout⟩ := Option.map_eq_some_iff.mp hrejects
    obtain rfl : outcome = .returned false := hout
    have hopen : ctx.gotAll = false := by rw [gotAll, (atBadLine_of_false hparse).state_]; rfl
    have hparse' : (s.read d.data).context.parseRequest d.time (s.read d.data).conn.inputBuffer_ =
        some ⟨.returned false, ctx, buf⟩ := hparse
    simp only [deliver, onMessage, HttpConnection.onMessage, hparse', hopen, Bool.false_eq_true,
      if_false, Option.some.injEq] at hs'
    subst hs'
    exact state_shutdown_ne _
  · rw [deliver, onMessage, onMessage_of_parse (s := s.read d.data) hparse, if_pos hall] at hs'
    obtain ⟨c, hc, rfl⟩ := Option.map_eq_some_iff.mp hs'
    simp only [onRequest] at hc
    obtain ⟨out, -, rfl⟩ := Option.map_eq_some_iff.mp hc
    rw [if_pos hclose]
    exact state_shutdown_ne _

/-- Of a connection that is not `kConnected` a delivery changes the input buffer only. -/
theorem deliver_of_closed {server : HttpServer} {s s' : HttpConnection} {d : Delivery}
    (h : s.conn.state_ ≠ .kConnected) (hs' : server.deliver s d = some s') :
    s'.conn = s.conn.setInput s'.conn.inputBuffer_ := by
  have hsame : ∀ (buf : Buffer) message r,
      ((s.read d.data).conn.setInput buf).send message r = (s.read d.data).conn.setInput buf :=
    fun buf message r => send_of_closed (by exact h) message r
  have hstay : ∀ buf : Buffer,
      ((s.read d.data).conn.setInput buf).shutdown = (s.read d.data).conn.setInput buf :=
    fun buf => shutdown_of_closed (by exact h)
  unfold deliver onMessage HttpConnection.onMessage at hs'
  split at hs'
  · next ok ctx buf hparse =>
    simp only [onRequest, hsame, hstay, ite_self] at hs'
    split at hs'
    · obtain ⟨c, hc, rfl⟩ := Option.map_eq_some_iff.mp hs'
      obtain ⟨out, -, rfl⟩ := Option.map_eq_some_iff.mp hc
      rfl
    · cases hs'
      rfl
  · cases hs'

theorem serve_of_closed {server : HttpServer} {s s' : HttpConnection} {ds : List Delivery}
    (h : s.conn.state_ ≠ .kConnected) (hs' : server.serve s ds = some s') :
    s'.conn = s.conn.setInput s'.conn.inputBuffer_ := by
  induction ds generalizing s with
  | nil =>
    cases hs'
    rfl
  | cons d ds ih =>
    rw [serve, List.foldlM_cons] at hs'
    obtain ⟨s₁, hs₁, hrest⟩ := Option.bind_eq_some_iff.mp hs'
    have hfirst := deliver_of_closed h hs₁
    have hclosed : s₁.conn.state_ ≠ .kConnected := by
      rw [hfirst]
      exact h
    rw [ih hclosed hrest, hfirst]
    rfl

/-! ## What is passed on -/

/-- The two connections have received and passed on the same. -/
structure SameInput (s s' : HttpConnection) : Prop where
  context : s.context = s'.context
  requests : s.requests = s'.requests
  input : s.conn.inputBuffer_ = s'.conn.inputBuffer_

theorem inputBuffer_onRequest (server : HttpServer) (c c' : TcpConnection) (req : HttpRequest)
    (r : SysRet) (h : c.inputBuffer_ = c'.inputBuffer_) :
    Option.Rel (fun c c' => c.inputBuffer_ = c'.inputBuffer_) (server.onRequest c req r)
      (server.onRequest c' req r) := by
  simp only [onRequest]
  generalize (server.httpCallback_ req (HttpResponse.new req.close)) = response
  cases response.appendToBuffer (Buffer.new kInitialSize) with
  | none => exact .none
  | some out =>
    refine .some ?_
    dsimp only
    split <;> simpa using h

theorem SameInput.deliver {s s' : HttpConnection} (h : SameInput s s') (server : HttpServer)
    (d : Delivery) : Option.Rel SameInput (server.deliver s d) (server.deliver s' d) := by
  obtain ⟨hctx, hreq, hin⟩ := h
  have hread : (s.read d.data).conn.inputBuffer_ = (s'.read d.data).conn.inputBuffer_ :=
    congrArg (fun buf : Buffer => buf.readFd d.data) hin
  have hparse : (s.read d.data).context.parseRequest d.time (s.read d.data).conn.inputBuffer_ =
      (s'.read d.data).context.parseRequest d.time (s'.read d.data).conn.inputBuffer_ := by
    rw [hread]
    exact congrArg (fun ctx : HttpContext => ctx.parseRequest d.time _) hctx
  have hrequests : (s.read d.data).requests = (s'.read d.data).requests := hreq
  simp only [HttpServer.deliver, onMessage, HttpConnection.onMessage, hparse, hrequests]
  cases (s'.read d.data).context.parseRequest d.time (s'.read d.data).conn.inputBuffer_ with
  | none => exact .none
  | some res =>
    obtain ⟨outcome, ctx, buf⟩ := res
    cases outcome with
    | threw e => exact .none
    | overread => exact .none
    | returned ok =>
      dsimp only
      generalize hc : (if ok = true then (s.read d.data).conn.setInput buf
        else (((s.read d.data).conn.setInput buf).send badRequest d.answer).shutdown) = c
      generalize hc' : (if ok = true then (s'.read d.data).conn.setInput buf
        else (((s'.read d.data).conn.setInput buf).send badRequest d.answer).shutdown) = c'
      have hbuf : c.inputBuffer_ = c'.inputBuffer_ := by
        subst hc hc'
        cases ok <;> simp
      split
      · have hrel := inputBuffer_onRequest server c c' ctx.request_ d.answer hbuf
        generalize server.onRequest c ctx.request_ d.answer = a at hrel ⊢
        generalize server.onRequest c' ctx.request_ d.answer = a' at hrel ⊢
        cases hrel with
        | none => exact .none
        | some hin => exact .some ⟨rfl, rfl, hin⟩
      · exact .some ⟨rfl, rfl, hbuf⟩

theorem SameInput.serve {s s' : HttpConnection} (h : SameInput s s') (server : HttpServer)
    (ds : List Delivery) : Option.Rel SameInput (server.serve s ds) (server.serve s' ds) := by
  induction ds generalizing s s' with
  | nil => exact .some h
  | cons d ds ih =>
    rw [HttpServer.serve, HttpServer.serve, List.foldlM_cons, List.foldlM_cons]
    have hrel := h.deliver server d
    generalize server.deliver s d = a at hrel ⊢
    generalize server.deliver s' d = a' at hrel ⊢
    cases hrel with
    | none => exact .none
    | some hsame => exact ih hsame

/-- As if `shutdown` had not been called. -/
def reopened (s : HttpConnection) : HttpConnection :=
  { s with conn := s.conn.setState .kConnected }

/-- Once a delivery has made `onMessage` call `shutdown`, later deliveries change nothing of the
connection but its input buffer: nothing is sent. After a bad request nothing is passed on any more.
After a response that closes, the same requests are passed on as if `shutdown` had not been
called. -/
theorem after_close {server : HttpServer} {s s₁ s' : HttpConnection} {d : Delivery}
    {later : List Delivery} (hcloses : Closes server s d) (hs₁ : server.deliver s d = some s₁)
    (hs' : server.serve s₁ later = some s') :
    s'.conn = s₁.conn.setInput s'.conn.inputBuffer_ ∧
      (Rejects s d → s'.requests = s₁.requests) ∧
      ∃ s'', server.serve (reopened s₁) later = some s'' ∧ s'.requests = s''.requests := by
  refine ⟨serve_of_closed (deliver_closes hcloses hs₁) hs',
    fun hrejects => after_bad_request hrejects hs₁ hs', ?_⟩
  have hsame : SameInput s₁ (reopened s₁) := ⟨rfl, rfl, rfl⟩
  have hrel := hsame.serve server later
  rw [hs'] at hrel
  generalize server.serve (reopened s₁) later = a at hrel
  cases hrel with
  | some h => exact ⟨_, rfl, h.requests⟩

/-! ## A request after a response that closes -/

theorem closes_of_map {server : HttpServer} {s : HttpConnection} {d : Delivery}
    (h : (s.context.parseRequest d.time (s.read d.data).conn.inputBuffer_).map (fun res =>
      (res.outcome, res.context.gotAll, (server.httpCallback_ res.context.request_
        (HttpResponse.new res.context.request_.close)).closeConnection_)) =
      some (.returned true, true, true)) : Closes server s d := by
  obtain ⟨⟨outcome, ctx, buf⟩, hparse, hout⟩ := Option.map_eq_some_iff.mp h
  simp only [Prod.mk.injEq] at hout
  obtain ⟨rfl, hall, hclose⟩ := hout
  exact .inr ⟨ctx, buf, hparse, hall, hclose⟩

/-- A connection that is up. -/
def up : HttpConnection := onConnection fresh.connectEstablished

/-- `GET /` of an old client, who expects the server to close. -/
def oldGet : Delivery := ⟨1, ascii "GET / HTTP/1.0" ++ crlf ++ crlf, .ok 100⟩

theorem closes_oldGet : Closes hello up oldGet := closes_of_map (by decide +kernel)

theorem deliver_oldGet : ∃ s₁ s', hello.deliver up oldGet = some s₁ ∧
    hello.serve s₁ [oldGet] = some s' ∧ s₁.requests.length = 1 ∧ s'.requests.length = 2 := by
  have hboth : ((hello.deliver up oldGet).bind fun s₁ => (hello.serve s₁ [oldGet]).map fun s' =>
      (s₁.requests.length, s'.requests.length)) = some (1, 2) := by decide +kernel
  obtain ⟨s₁, hs₁, hrest⟩ := Option.bind_eq_some_iff.mp hboth
  obtain ⟨s', hs', hlengths⟩ := Option.map_eq_some_iff.mp hrest
  obtain ⟨hone, htwo⟩ := Prod.mk.inj hlengths
  exact ⟨s₁, s', hs₁, hs', hone, htwo⟩

/-- The second `GET` is passed on, and nothing is sent for it. -/
theorem after_close_oldGet : ∃ s₁ s', hello.deliver up oldGet = some s₁ ∧
    hello.serve s₁ [oldGet] = some s' ∧ s'.conn = s₁.conn.setInput s'.conn.inputBuffer_ ∧
      ∃ s'', hello.serve (reopened s₁) [oldGet] = some s'' ∧ s'.requests = s''.requests := by
  obtain ⟨s₁, s', hs₁, hs', -⟩ := deliver_oldGet
  obtain ⟨hconn, -, hpassed⟩ := after_close closes_oldGet hs₁ hs'
  exact ⟨s₁, s', hs₁, hs', hconn, hpassed⟩

/-- The response to a request of HTTP/1.0 closes, and the request after it is passed on. -/
theorem after_close_passes_on :
    ¬ ∀ (server : HttpServer) (conn : TcpConnection) (before later : List Delivery) (d : Delivery)
      (s s₁ s' : HttpConnection), conn.state_ = .kConnected →
        server.serve (onConnection conn) before = some s → Closes server s d →
        server.deliver s d = some s₁ → server.serve s₁ later = some s' →
        s'.requests = s₁.requests := by
  intro hall
  obtain ⟨s₁, s', hs₁, hs', hone, htwo⟩ := deliver_oldGet
  have hsame := hall hello fresh.connectEstablished [] [oldGet] oldGet up s₁ s' rfl rfl
    closes_oldGet hs₁ hs'
  rw [hsame, hone] at htwo
  cases htwo

end HttpServer

end Mymuduo
