import Mymuduo.Http.HttpServer
import Mymuduo.Http.RequestText
import Mymuduo.Http.ResponseDecoding
import Mymuduo.Lib.Backlog
import Mymuduo.Net.Sending

/-!
# Several requests on one connection

A stream of requests without bodies, divided into deliveries. Between two deliveries the context is
on its way through what has come of the first request that was not passed on (`OnTheWay`), and one
delivery passes on that request or nothing (`deliver_complete`, `deliver_incomplete`). The rest is a
backlog with one service per arrival:

* `serve_spec`: what a whole run passes on, and what it leaves;
* `servesAll_iff`: every request is passed on exactly when the deliveries keep up with the requests;
* `MethodsKnown.serve`: no run, on whatever stream, passes on a request with an unknown method.
-/

namespace Mymuduo

open CString Lines Iteration Backlog

/-! ## One message -/

@[simp] theorem inputBuffer_send (c : TcpConnection) (message : Bytes) (r : SysRet) :
    (c.send message r).inputBuffer_ = c.inputBuffer_ := by
  unfold TcpConnection.send
  split
  · next hs =>
    have hup : c.state_ ≠ .kDisconnected := by simp [hs]
    obtain ⟨sent, rest, -, hspec⟩ := TcpConnection.sendInLoop_spec hup message r
    exact hspec.control.inputBuffer_
  · rfl

@[simp] theorem inputBuffer_shutdown (c : TcpConnection) :
    c.shutdown.inputBuffer_ = c.inputBuffer_ := by
  unfold TcpConnection.shutdown TcpConnection.shutdownInLoop
  split
  · split <;> rfl
  · rfl

namespace HttpConnection

/-- What `onMessage` does after the parser returned `true`. -/
theorem onMessage_of_parse {s : HttpConnection} {t : Timestamp} {ctx : HttpContext} {buf : Buffer}
    (h : s.context.parseRequest t s.conn.inputBuffer_ = some ⟨.returned true, ctx, buf⟩)
    (onRequest : TcpConnection → HttpRequest → Option TcpConnection) (r : SysRet) :
    s.onMessage onRequest t r =
      if ctx.gotAll then
        (onRequest (s.conn.setInput buf) ctx.request_).map fun conn =>
          ⟨conn, ctx.reset, s.requests ++ [ctx.request_]⟩
      else some ⟨s.conn.setInput buf, ctx, s.requests⟩ := by
  simp only [onMessage, h, if_true]

/-- The context and the input buffer have come through `p`, the part of the first request that is
there. -/
def OnTheWay (s : HttpConnection) (p : Bytes) : Prop :=
  Goes HttpContext.headRound (HttpContext.new, p)
    (s.context.timeless, s.conn.inputBuffer_.readable)

/-- At the start of a request nothing has been read. -/
theorem OnTheWay.readable_of_nil {s : HttpConnection} (h : s.OnTheWay []) :
    s.conn.inputBuffer_.readable = [] :=
  congrArg Prod.snd (h.eq_of_exit rfl)

/-- With more bytes there, the context has come just as far. -/
theorem OnTheWay.read {s : HttpConnection} {p : Bytes} (h : s.OnTheWay p) (data : Bytes) :
    (s.read data).OnTheWay (p ++ data) := by
  unfold OnTheWay at h
  have happend : ∀ a b : HeadState, Goes HttpContext.headRound a b →
      Goes HttpContext.headRound (a.1, a.2 ++ data) (b.1, b.2 ++ data) := by
    intro a b hgo
    induction hgo with
    | refl => exact .refl _
    | again hb _ ih => exact .again (HttpContext.headRound_append hb data) ih
  simpa [OnTheWay, HttpConnection.read] using happend _ _ h

end HttpConnection

namespace HttpServer

open HttpConnection

/-- Whatever it is asked, the callback makes a response that can be written. -/
def Answers (server : HttpServer) : Prop :=
  ∀ req close, (server.httpCallback_ req (HttpResponse.new close)).Fits

theorem onRequest_returns {server : HttpServer} (hanswers : server.Answers) (c : TcpConnection)
    (req : HttpRequest) (r : SysRet) :
    ∃ c', server.onRequest c req r = some c' ∧ c'.inputBuffer_ = c.inputBuffer_ := by
  obtain ⟨buf, hwrite, -⟩ := (hanswers req req.close).appendToBuffer (Buffer.new kInitialSize)
  simp only [onRequest, hwrite, Option.map_some]
  refine ⟨_, rfl, ?_⟩
  split
  · simp
  · simp

/-- What the parser makes of a delivery is what the head parser makes of all that has come of the
first request. -/
theorem parse_of_returns {s : HttpConnection} {p : Bytes} {t : Timestamp} {e : HeadResult}
    (hway : s.OnTheWay p) (hok : HttpContext.HeadOk (HttpContext.new, p))
    (he : Returns HttpContext.headRound (HttpContext.new, p) e) :
    ∃ res, s.context.parseRequest t s.conn.inputBuffer_ = some res ∧ HttpContext.HeadEnd res e ∧
      Returns HttpContext.headRound (s.context.timeless, s.conn.inputBuffer_.readable) e := by
  obtain ⟨e', he'⟩ := HttpContext.head_returns
    (s.context.timeless, s.conn.inputBuffer_.readable)
  obtain rfl : e = e' := he.unique (hway.returns he')
  obtain ⟨res, hres, hend⟩ := HttpContext.parseRequest_head t
    (hway.invariant (fun _ _ h hb => h.again hb) hok) he'
  exact ⟨res, hres, hend, he'⟩

/-- A delivery that completes the first request passes it on, and nothing else. -/
theorem deliver_complete {server : HttpServer} (hanswers : server.Answers) {s : HttpConnection}
    {p v : Bytes} {q : RequestText} (hq : q.WellFormed) (hknown : q.Known) (hway : s.OnTheWay p)
    {d : Delivery} (hsplit : p ++ d.data = q.render ++ v) :
    ∃ s' req, server.deliver s d = some s' ∧ s'.OnTheWay v ∧ s'.requests = s.requests ++ [req] ∧
      req.setReceiveTime 0 = q.parsed := by
  have hway' := hway.read d.data
  rw [hsplit] at hway'
  obtain ⟨⟨outcome, ctx, buf⟩, hparse, ⟨rfl, hctx, hbuf⟩, -⟩ :=
    parse_of_returns (t := d.time) hway' (RequestText.headOk_render hq v)
      (RequestText.returns_render hq hknown v)
  have hstate : ctx.state_ = .kGotAll := congrArg HttpContext.state_ hctx
  have hreq : ctx.request_.setReceiveTime 0 = q.parsed := congrArg HttpContext.request_ hctx
  have hbody : ctx.request_.body_ = [] := congrArg HttpRequest.body_ hreq
  obtain ⟨c', hc', hinput⟩ := onRequest_returns hanswers ((s.read d.data).conn.setInput buf)
    ctx.request_ d.answer
  refine ⟨⟨c', ctx.reset, s.requests ++ [ctx.request_]⟩, ctx.request_, ?_, ?_, rfl, hreq⟩
  · rw [deliver, onMessage, onMessage_of_parse hparse]
    simp only [HttpContext.gotAll, hstate, hc', Option.map_some]
    rfl
  · have hreset : ctx.reset = HttpContext.new := by
      simp [HttpContext.reset, HttpContext.new, HttpRequest.swapNew, hbody, HttpRequest.new]
    have hread : c'.inputBuffer_.readable = v := by
      rw [hinput]
      exact hbuf
    simp only [OnTheWay, hreset, hread]
    exact .refl _

/-- A delivery after which the parser waits passes nothing on. -/
theorem deliver_waits {server : HttpServer} {s : HttpConnection} {p : Bytes}
    (hway : s.OnTheWay p) {d : Delivery} {e : HeadResult}
    (hok : HttpContext.HeadOk (HttpContext.new, p ++ d.data))
    (he : Returns HttpContext.headRound (HttpContext.new, p ++ d.data) e) (htrue : e.ok = true)
    (hmore : e.context.gotAll = false) :
    ∃ s', server.deliver s d = some s' ∧ s'.OnTheWay (p ++ d.data) ∧ s'.requests = s.requests := by
  have hway' := hway.read d.data
  obtain ⟨⟨outcome, ctx, buf⟩, hparse, ⟨houtcome, hctx, hbuf⟩, he'⟩ :=
    parse_of_returns (t := d.time) hway' hok he
  rw [htrue] at houtcome
  dsimp only at houtcome hctx hbuf
  subst houtcome
  have hgot : ctx.gotAll = false := by
    rw [← hctx] at hmore
    exact hmore
  refine ⟨⟨(s.read d.data).conn.setInput buf, ctx, s.requests⟩, ?_, ?_, rfl⟩
  · rw [deliver, onMessage, onMessage_of_parse hparse]
    simp [hgot, HttpConnection.read]
  · have hextend := HttpContext.head_extend he' htrue hmore []
    simp only [List.append_nil] at hextend
    unfold OnTheWay
    rw [hctx, TcpConnection.setInput_inputBuffer_, hbuf]
    exact hway'.trans hextend

/-- A delivery that does not complete the first request passes nothing on. -/
theorem deliver_incomplete {server : HttpServer} {s : HttpConnection} {p missing : Bytes}
    {q : RequestText} (hq : q.WellFormed) (hknown : q.Known) (hway : s.OnTheWay p) {d : Delivery}
    (hsplit : p ++ d.data ++ missing = q.render) (hne : missing ≠ []) :
    ∃ s', server.deliver s d = some s' ∧ s'.OnTheWay (p ++ d.data) ∧ s'.requests = s.requests := by
  obtain ⟨e, he, htrue, hmore⟩ := RequestText.waits_of_incomplete hq hknown hsplit.symm hne
  have hok : HttpContext.HeadOk (HttpContext.new, p ++ d.data) := by
    have hwhole := RequestText.headOk_render hq []
    rw [List.append_nil, ← hsplit] at hwhole
    exact hwhole.of_append
  exact deliver_waits hway hok he htrue hmore

/-! ## A run -/

/-- The bytes of the deliveries. -/
def stream (ds : List Delivery) : Bytes := ds.flatMap Delivery.data

/-- The sizes of the deliveries. -/
def sizes (ds : List Delivery) : List Nat := ds.map fun d => d.data.length

/-- The sizes of the requests. -/
def requestSizes (qs : List RequestText) : List Nat := qs.map fun q => q.render.length

theorem deliver_nothing {server : HttpServer} {s : HttpConnection} (hway : s.OnTheWay [])
    {d : Delivery} (hd : d.data = []) :
    ∃ s', server.deliver s d = some s' ∧ s'.OnTheWay [] ∧ s'.requests = s.requests := by
  have hok : HttpContext.HeadOk (HttpContext.new, [] ++ d.data) := by
    rw [hd]
    refine ⟨rfl, HttpRequest.getHeader_new _, ?_⟩
    intro line hline
    simp [HttpContext.comingHeaders, HttpContext.new, HttpContext.headerLines,
      lines_of_none (u := []) rfl] at hline
  have he : Returns HttpContext.headRound (HttpContext.new, [] ++ d.data)
      ⟨true, HttpContext.new, []⟩ := by
    rw [hd]
    exact .of_exit rfl
  obtain ⟨s', hs', hway', hreq⟩ := deliver_waits hway hok he rfl rfl
  rw [hd] at hway'
  exact ⟨s', hs', hway', hreq⟩

/-- A run that starts when `p` has come of the requests `qs` passes on the first of them, and what
it leaves is the backlog of the deliveries. -/
def Serves (server : HttpServer) (s : HttpConnection) (p : Bytes) (qs : List RequestText)
    (ds : List Delivery) : Prop :=
  ∃ s' served rest, server.serve s ds = some s' ∧ qs = served ++ rest ∧
    s'.requests.map (fun r => r.setReceiveTime 0) =
      s.requests.map (fun r => r.setReceiveTime 0) ++ served.map RequestText.parsed ∧
    requestSizes rest = backlog (requestSizes qs) p.length (sizes ds) ∧
    (rest = [] → s'.conn.inputBuffer_.readable = [])

/-- A delivery that passes nothing on, in front of a run. -/
theorem Serves.wait {server : HttpServer} {s s₁ : HttpConnection} {p p₁ : Bytes}
    {qs : List RequestText} {d : Delivery} {ds : List Delivery} (h : server.Serves s₁ p₁ qs ds)
    (hs₁ : server.deliver s d = some s₁) (hreq₁ : s₁.requests = s.requests)
    (hsize : backlog (requestSizes qs) p.length (sizes (d :: ds)) =
      backlog (requestSizes qs) p₁.length (sizes ds)) : server.Serves s p qs (d :: ds) := by
  obtain ⟨s', served, rest, hserve, hqs, hreq, hrest, hend⟩ := h
  refine ⟨s', served, rest, ?_, hqs, by rw [hreq, hreq₁], hrest.trans hsize.symm, hend⟩
  rw [serve, List.foldlM_cons, hs₁]
  exact hserve

/-- A delivery that passes on the first request, in front of a run on the others. -/
theorem Serves.pass {server : HttpServer} {s s₁ : HttpConnection} {p p₁ : Bytes} {q : RequestText}
    {qs : List RequestText} {d : Delivery} {ds : List Delivery} (h : server.Serves s₁ p₁ qs ds)
    (hs₁ : server.deliver s d = some s₁) {req : HttpRequest}
    (hreq₁ : s₁.requests = s.requests ++ [req]) (hparsed : req.setReceiveTime 0 = q.parsed)
    (hsize : backlog (requestSizes (q :: qs)) p.length (sizes (d :: ds)) =
      backlog (requestSizes qs) p₁.length (sizes ds)) : server.Serves s p (q :: qs) (d :: ds) := by
  obtain ⟨s', served, rest, hserve, hqs, hreq, hrest, hend⟩ := h
  refine ⟨s', q :: served, rest, ?_, by rw [hqs]; rfl, ?_, hrest.trans hsize.symm, hend⟩
  · rw [serve, List.foldlM_cons, hs₁]
    exact hserve
  · rw [hreq, hreq₁]
    simp [hparsed]

/-- A run on requests with known methods. The induction is on the deliveries. -/
theorem serve_spec {server : HttpServer} (hanswers : server.Answers) {qs : List RequestText}
    (hqs : ∀ q ∈ qs, q.WellFormed ∧ q.Known) {s : HttpConnection} {p : Bytes}
    (hway : s.OnTheWay p) {ds : List Delivery}
    (hstream : p ++ stream ds = qs.flatMap RequestText.render) : server.Serves s p qs ds := by
  induction ds generalizing qs s p with
  | nil =>
    refine ⟨s, [], qs, rfl, rfl, by simp, by simp [sizes, backlog], ?_⟩
    rintro rfl
    obtain rfl : p = [] := by simpa [stream] using hstream
    exact hway.readable_of_nil
  | cons d ds ih =>
    have hstream : (p ++ d.data) ++ stream ds = qs.flatMap RequestText.render := by
      simpa [stream] using hstream
    cases qs with
    | nil =>
      obtain ⟨hempty, hrest⟩ := List.append_eq_nil_iff.mp hstream
      obtain ⟨rfl, hd⟩ := List.append_eq_nil_iff.mp hempty
      obtain ⟨s₁, hs₁, hway₁, hreq₁⟩ := deliver_nothing hway hd
      refine (ih hqs hway₁ hrest).wait hs₁ hreq₁ ?_
      simp [requestSizes]
    | cons q qs =>
      obtain ⟨hq, hknown⟩ := hqs q List.mem_cons_self
      have hqs₁ : ∀ q ∈ qs, q.WellFormed ∧ q.Known := fun q' hm =>
        hqs q' (List.mem_cons_of_mem _ hm)
      rw [List.flatMap_cons] at hstream
      by_cases hsize : q.render.length ≤ p.length + d.data.length
      · -- the delivery completes the first request
        obtain ⟨v, hv⟩ : q.render <+: p ++ d.data :=
          List.prefix_of_prefix_length_le ⟨_, rfl⟩ ⟨_, hstream⟩ (by simpa using hsize)
        have hrest : v ++ stream ds = qs.flatMap RequestText.render := by
          rw [← hv, List.append_assoc] at hstream
          exact List.append_cancel_left hstream
        have hlen : p.length + d.data.length - q.render.length = v.length := by
          have hboth := congrArg List.length hv
          simp only [List.length_append] at hboth
          omega
        obtain ⟨s₁, req, hs₁, hway₁, hreq₁, hparsed⟩ :=
          deliver_complete hanswers hq hknown hway hv.symm
        refine (ih hqs₁ hway₁ hrest).pass hs₁ hreq₁ hparsed ?_
        rw [← hlen]
        simp only [requestSizes, sizes, List.map_cons, backlog, if_pos hsize]
      · -- a part of the first request is still missing
        obtain ⟨missing, hmissing⟩ : p ++ d.data <+: q.render :=
          List.prefix_of_prefix_length_le ⟨_, hstream⟩ ⟨_, rfl⟩ (by simp; omega)
        have hne : missing ≠ [] := by
          rintro rfl
          have hboth := congrArg List.length hmissing
          simp only [List.length_append, List.length_nil] at hboth
          omega
        obtain ⟨s₁, hs₁, hway₁, hreq₁⟩ :=
          deliver_incomplete hq hknown hway hmissing hne
        refine (ih hqs hway₁ (by rw [hstream, List.flatMap_cons])).wait hs₁ hreq₁ ?_
        rw [List.length_append]
        simp only [requestSizes, sizes, List.map_cons, backlog, if_neg hsize]

/-! ## Unknown methods -/

/-- Once the request line is read, the method is known. -/
def MethodRead (ctx : HttpContext) : Prop :=
  ctx.state_ ≠ .kExpectRequestLine → ctx.request_.method_ ≠ .kInvalid

theorem method_processRequestLine {req : HttpRequest} {line : Bytes}
    (h : (req.processRequestLine line).1 = true) :
    (req.processRequestLine line).2.method_ ≠ .kInvalid := by
  have htarget : ∀ (r : HttpRequest) target, (r.setTarget target).method_ = r.method_ := by
    intro r target
    unfold HttpRequest.setTarget
    split <;> rfl
  have hprotocol : ∀ (r : HttpRequest) word, (r.setProtocol word).2.method_ = r.method_ := by
    intro r word
    unfold HttpRequest.setProtocol
    split_ifs <;> rfl
  unfold HttpRequest.processRequestLine at h ⊢
  split at h
  · cases h
  · split at h
    · cases h
    · next hset =>
      split at h
      · cases h
      · rw [hprotocol, htarget]
        have hfst := congrArg Prod.fst hset
        have hsnd := congrArg Prod.snd hset
        dsimp only at hsnd
        rw [← hsnd]
        simpa [HttpRequest.setMethod] using hfst

theorem MethodRead.again {t : Timestamp} {s s' : HttpContext × Buffer} (h : MethodRead s.1)
    (hb : HttpContext.parseRound t s = .again s') : MethodRead s'.1 := by
  obtain ⟨ctx', buf'⟩ := s'
  cases HttpContext.parseRound_continues hb with
  | requestLine _ _ hline =>
    intro _
    have hknown := method_processRequestLine (congrArg Prod.fst hline)
    rw [hline] at hknown
    exact hknown
  | header hstate | lastLine hstate => exact fun _ => h (by simp [hstate])
  | stuck | gotAll => exact h

theorem MethodRead.exit {t : Timestamp} {s : HttpContext × Buffer} {r : ParseResult}
    (h : MethodRead s.1) (hb : HttpContext.parseRound t s = .exit r) : MethodRead r.context := by
  cases HttpContext.parseRound_exit hb with
  | waits => exact h
  | badLine hstate => exact fun hne => absurd hstate hne
  | noBody hstate => exact fun _ => h (by simp [hstate])
  | threw => exact h
  | body len hstate =>
    unfold HttpContext.takeBody
    split
    · exact h
    · split
      · exact h
      · exact fun _ => h (by simp [hstate])

/-- On whatever stream: a request with an unknown method is never passed on. -/
structure MethodsKnown (s : HttpConnection) : Prop where
  context : MethodRead s.context
  requests : ∀ req ∈ s.requests, req.method_ ≠ .kInvalid

theorem MethodsKnown.onMessage {s s' : HttpConnection} (h : MethodsKnown s)
    {onRequest : TcpConnection → HttpRequest → Option TcpConnection} {t : Timestamp} {r : SysRet}
    (hs' : s.onMessage onRequest t r = some s') : MethodsKnown s' := by
  unfold HttpConnection.onMessage at hs'
  split at hs'
  · next ok ctx buf hparse =>
    have hctx : MethodRead ctx :=
      (HttpContext.parseRequest_eq_some.mp hparse).invariant (I := fun s => MethodRead s.1)
        (Q := fun r => MethodRead r.context) (fun _ _ h hb => h.again hb)
        (fun _ _ h hb => h.exit hb)
        h.context
    dsimp only at hs'
    split at hs'
    · next hgot =>
      obtain ⟨conn, -, rfl⟩ := Option.map_eq_some_iff.mp hs'
      have hstate : ctx.state_ = .kGotAll := by simpa [HttpContext.gotAll] using hgot
      refine ⟨fun hne => absurd rfl hne, ?_⟩
      intro req hreq
      rcases List.mem_append.mp hreq with hreq | hreq
      · exact h.requests req hreq
      · rw [List.mem_singleton.mp hreq]
        exact hctx (by simp [hstate])
    · cases hs'
      exact ⟨hctx, h.requests⟩
  · cases hs'

theorem MethodsKnown.serve {server : HttpServer} {s s' : HttpConnection} (h : MethodsKnown s)
    {ds : List Delivery} (hs' : server.serve s ds = some s') : MethodsKnown s' := by
  induction ds generalizing s with
  | nil =>
    cases hs'
    exact h
  | cons d ds ih =>
    rw [HttpServer.serve, List.foldlM_cons] at hs'
    obtain ⟨s₁, hs₁, hrest⟩ := Option.bind_eq_some_iff.mp hs'
    rw [deliver, HttpServer.onMessage] at hs₁
    have hread : MethodsKnown (s.read d.data) := ⟨h.context, h.requests⟩
    exact ih (hread.onMessage hs₁) hrest

/-! ## Every request -/

/-- After the deliveries every request was passed on, in order and with its own fields, and the
input buffer is empty. -/
def ServesAll (server : HttpServer) (conn : TcpConnection) (qs : List RequestText)
    (ds : List Delivery) : Prop :=
  ∃ s', server.serve (onConnection conn) ds = some s' ∧
    s'.requests.map (fun r => r.setReceiveTime 0) = qs.map RequestText.parsed ∧
    s'.conn.inputBuffer_.readable = []

theorem methodsKnown_onConnection (conn : TcpConnection) : MethodsKnown (onConnection conn) :=
  ⟨fun h => absurd rfl h, by simp [onConnection]⟩

/-- What is passed on has a known method. -/
theorem known_of_servesAll {server : HttpServer} {conn : TcpConnection} {qs : List RequestText}
    {ds : List Delivery} (h : server.ServesAll conn qs ds) : ∀ q ∈ qs, q.Known := by
  obtain ⟨s', hserve, hreq, -⟩ := h
  have hknown := ((methodsKnown_onConnection conn).serve hserve).requests
  intro q hq
  have hm : q.parsed ∈ s'.requests.map fun r => r.setReceiveTime 0 := by
    rw [hreq]
    exact List.mem_map_of_mem hq
  obtain ⟨req, hreq', heq⟩ := List.mem_map.mp hm
  have hmethod := hknown req hreq'
  have hsame : req.method_ = q.parsed.method_ := by
    rw [← heq]
    rfl
  rw [hsame] at hmethod
  unfold RequestText.Known
  by_contra hnone
  rw [Bool.not_eq_true, Option.isSome_eq_false_iff, Option.isNone_iff_eq_none] at hnone
  simp [RequestText.parsed, hnone] at hmethod

/-- Every request of a stream is passed on exactly when all methods are known and the backlog of the
deliveries ends empty. -/
theorem servesAll_iff_keepsUp {server : HttpServer} (hanswers : server.Answers)
    {conn : TcpConnection} (hconn : conn.inputBuffer_.readable = []) {qs : List RequestText}
    (hqs : ∀ q ∈ qs, q.WellFormed) {ds : List Delivery}
    (hstream : stream ds = qs.flatMap RequestText.render) :
    server.ServesAll conn qs ds ↔
      (∀ q ∈ qs, q.Known) ∧ KeepsUp (requestSizes qs) 0 (sizes ds) := by
  have hway : (onConnection conn).OnTheWay [] := by
    simp only [OnTheWay, onConnection, hconn]
    exact .refl _
  constructor
  · intro hall
    have hknown := known_of_servesAll hall
    obtain ⟨s', hserve, hreq, -⟩ := hall
    obtain ⟨s₁, served, rest, hserve₁, rfl, hreq₁, hrest, -⟩ :=
      serve_spec hanswers (fun q hq => ⟨hqs q hq, hknown q hq⟩) hway hstream
    obtain rfl : s' = s₁ := Option.some.inj (hserve.symm.trans hserve₁)
    have hlen := congrArg List.length (hreq.symm.trans hreq₁)
    have hnil : rest = [] := by
      simpa [onConnection] using hlen
    exact ⟨hknown, (backlog_eq_nil_iff _ _ _).mp (hrest.symm.trans (congrArg requestSizes hnil))⟩
  · rintro ⟨hknown, hkeeps⟩
    obtain ⟨s₁, served, rest, hserve₁, rfl, hreq₁, hrest, hend⟩ :=
      serve_spec hanswers (fun q hq => ⟨hqs q hq, hknown q hq⟩) hway hstream
    have hnil : rest = [] := by
      rw [List.length_nil, (backlog_eq_nil_iff _ _ _).mpr hkeeps] at hrest
      exact List.map_eq_nil_iff.mp hrest
    exact ⟨s₁, hserve₁, by simpa [onConnection, hnil] using hreq₁, hend hnil⟩

/-- Keeping up, in terms of the requests and the deliveries themselves: at no point are more
requests left, of which every delivery takes the first only, than deliveries are to come. -/
theorem keepsUp_iff_splits (qs : List RequestText) (ds : List Delivery) :
    KeepsUp (requestSizes qs) 0 (sizes ds) ↔ ∀ pre post, ds = pre ++ post →
      qs.length ≤ completed (requestSizes qs) (stream pre).length + post.length := by
  have hpos : ∀ size ∈ requestSizes qs, 0 < size := by
    intro size hsize
    obtain ⟨q, -, rfl⟩ := List.mem_map.mp hsize
    exact q.length_render_pos
  have hsum : ∀ pre : List Delivery, (sizes pre).sum = (stream pre).length := fun pre => by
    rw [stream, List.length_flatMap]
    rfl
  rw [keepsUp_zero_iff hpos]
  constructor
  · intro h pre post heq
    have hsize := h (sizes pre) (sizes post) (by rw [heq]; exact List.map_append)
    rw [hsum] at hsize
    simpa [requestSizes, sizes] using hsize
  · intro h pre post heq
    obtain ⟨pre', post', rfl, rfl, rfl⟩ := List.map_eq_append_iff.mp heq
    have hsize := h pre' post' rfl
    rw [← hsum] at hsize
    simpa [requestSizes, sizes] using hsize

/-- However a stream of requests is divided into deliveries, every request is passed on exactly when
all methods are known and, wherever the division is looked at, the requests that are not complete
there are at most as many as the deliveries still to come. -/
theorem servesAll_iff {server : HttpServer} (hanswers : server.Answers) {conn : TcpConnection}
    (hconn : conn.inputBuffer_.readable = []) {qs : List RequestText}
    (hqs : ∀ q ∈ qs, q.WellFormed) {ds : List Delivery}
    (hstream : stream ds = qs.flatMap RequestText.render) :
    server.ServesAll conn qs ds ↔
      (∀ q ∈ qs, q.Known) ∧ ∀ pre post, ds = pre ++ post →
        qs.length ≤ completed (requestSizes qs) (stream pre).length + post.length := by
  rw [servesAll_iff_keepsUp hanswers hconn hqs hstream, keepsUp_iff_splits]

/-! ## Two requests -/

/-- A server that says hello and leaves the connection as it is. -/
def hello : HttpServer :=
  ⟨fun _ resp => (resp.setStatusCode k200Ok).setBody (ascii "hello")⟩

theorem answers_hello : hello.Answers := by
  intro req close
  refine ⟨⟨?_, ?_⟩, ?_⟩ <;> simp [hello, HttpResponse.new, HttpResponse.setStatusCode,
    HttpResponse.setBody, ascii]

/-- `GET /` and a host. -/
def getRoot : RequestText where
  method := ascii "GET"
  path := ascii "/"
  query := none
  headers := [⟨ascii "Host", [SP], ascii "a", []⟩]

theorem wellFormed_getRoot : getRoot.WellFormed where
  method := by decide
  path := by decide
  query t ht := by cases ht
  headers h hm := by
    rw [List.mem_singleton.mp hm]
    exact ⟨by decide, by decide, List.forall_mem_singleton.mpr (by decide), by simp, by decide,
      fun b hb => by cases hb; decide, fun b hb => by cases hb; decide⟩

/-- A connection on which nothing has happened. -/
def fresh : TcpConnection := TcpConnection.new 0 false false fun _ => []

/-- Two requests in two deliveries, the second one cut in its request line. -/
theorem servesAll_getRoot_cut :
    hello.ServesAll fresh [getRoot, getRoot]
      [⟨1, getRoot.render ++ ascii "GET", .ok 0⟩, ⟨2, getRoot.render.drop 3, .ok 0⟩] :=
  (servesAll_iff answers_hello (Buffer.readable_new _) (by simpa using wellFormed_getRoot)
    (by decide)).mpr
    ⟨by decide, (keepsUp_iff_splits _ _).mp ((backlog_eq_nil_iff _ _ _).mp (by decide))⟩

/-- Two requests in one delivery: the second one is left waiting. -/
theorem not_servesAll_getRoot_twice :
    ¬ hello.ServesAll fresh [getRoot, getRoot]
      [⟨1, getRoot.render ++ getRoot.render, .ok 0⟩] := by
  intro h
  have hkeeps := ((servesAll_iff_keepsUp answers_hello (Buffer.readable_new _)
    (by simpa using wellFormed_getRoot) (by decide)).mp h).2
  have hlen : 2 ≤ 1 := hkeeps.1
  exact absurd hlen (by decide)

end HttpServer

end Mymuduo
