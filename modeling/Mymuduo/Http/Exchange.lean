import Mymuduo.Http.Pipelining
import Mymuduo.Http.ResponseDecoding
import Mymuduo.Lib.ResponseStream
import Mymuduo.Net.BufferedOutput

/-!
# From the requests on the wire to the responses on the wire

A client sends the texts of requests one behind the other, the connection is kept, and the client
reads the bytes that the server's connection has written. Between them are the parser, the callback,
`appendToBuffer`, and the output buffer, with deliveries cut anywhere and `write(2)` taking what it
likes.

* `Follows.step`: the requests that were passed on are the first of the stream, and everything the
  callback answered to them is on the wire or in the output buffer.
* `exchange`: what the client reads are the responses to its requests, each to its own.
-/

namespace Mymuduo

open CString Lines Iteration Backlog Transition ResponseMessage TcpConnection

/-- What happens to the connection of a client: some of its bytes arrive, or its socket is
writable. -/
inductive ConnectionEvent
  | deliver (d : Delivery)
  | handleWrite (r : SysRet)

namespace ConnectionEvent

/-- A direct write does not find the peer gone. -/
def PeerThere : ConnectionEvent → Prop
  | deliver d => d.answer.isFault = false
  | handleWrite _ => True

instance : (e : ConnectionEvent) → Decidable e.PeerThere
  | deliver d => inferInstanceAs (Decidable (d.answer.isFault = false))
  | handleWrite _ => instDecidableTrue

/-- The deliveries of a run. -/
def deliveries (es : List ConnectionEvent) : List Delivery :=
  es.filterMap fun
    | deliver d => some d
    | handleWrite _ => none

end ConnectionEvent

namespace HttpServer

open HttpConnection ConnectionEvent

/-- A delivery that ends the server puts nothing on the socket any more. -/
def step (server : HttpServer) (s : HttpConnection) : ConnectionEvent → HttpConnection
  | .deliver d => (server.deliver s d).getD s
  | .handleWrite r => { s with conn := s.conn.handleWrite r }

/-- What the callback makes of a request that keeps the connection. -/
def response (server : HttpServer) (req : HttpRequest) : HttpResponse :=
  server.httpCallback_ req (HttpResponse.new false)

/-- The callback makes pages, and keeps the connection. -/
structure Keeps (server : HttpServer) (req : HttpRequest) : Prop where
  plain : (server.response req).Plain
  noFile : (server.response req).needSendFile = false
  keep : (server.response req).closeConnection_ = false
  /-- It leaves the length to `appendToBuffer`. -/
  noLength : ∀ h ∈ (server.response req).headers_.toList, h.1 ≠ lengthField

/-! ## One response -/

variable {server : HttpServer}

theorem fits_response (hanswers : server.Answers) (req : HttpRequest) :
    (server.response req).Fits := hanswers req false

/-- The text of a response is that of its message. -/
theorem text_response (hanswers : server.Answers) {req : HttpRequest} (h : server.Keeps req) :
    (server.response req).text = encode (server.response req).message := by
  have hfits := fits_response hanswers req
  have hbody : (server.response req).body_.length < 10 ^ 13 := by
    have := hfits.2
    omega
  rw [HttpResponse.text_eq, HttpResponse.encode_message, HttpResponse.lengthLine_eq h.noFile hbody]
  simp only [HttpResponse.textWith, h.keep, h.noFile, Bool.false_eq_true, if_false]

theorem framed_response {req : HttpRequest} (h : server.Keeps req) :
    Framed (server.response req).message := by
  have hadded : (server.response req).addedHeaders =
      [(lengthField, natText (server.response req).body_.length),
        (ascii "Connection", ascii "Keep-Alive")] := by
    simp only [HttpResponse.addedHeaders, h.keep, h.noFile, Bool.false_eq_true, if_false]
    rfl
  have hown : ((server.response req).headers_.toList.filter fun f => f.1 = lengthField) = [] := by
    simpa using h.noLength
  have hconnection : ascii "Connection" ≠ lengthField := by decide
  simp only [Framed, bodyLength, HttpResponse.message, hadded, List.filter_append, hown,
    List.append_nil]
  simp [hconnection, strto_natText]

/-! ## One step -/

/-- Everything that was answered is on the wire or in the output buffer. -/
structure Answered (server : HttpServer) (s : HttpConnection) : Prop where
  connected : s.conn.state_ = .kConnected
  lossless : Lossless s.conn (s.requests.flatMap fun req => (server.response req).text)

/-- While nothing but messages is sent, a writable socket only takes from the output buffer. -/
theorem sameControl_handleWrite {c : TcpConnection} {all : Bytes} (h : Lossless c all)
    (r : SysRet) : SameControl c (c.handleWrite r) := by
  unfold TcpConnection.handleWrite
  split
  · next hw =>
    have hup : c.state_ ≠ .kDisconnected := fun hd => by simp [h.unwatched hd] at hw
    have hout := (h.watching hup).mp hw
    rw [if_pos fun h0 => hout (Buffer.readableBytes_eq_zero.mp h0)]
    obtain ⟨sent, hspec⟩ := writeBuffer_spec hw hout r
    exact hspec.control
  · exact .refl c

theorem Answered.handleWrite {s : HttpConnection} (h : Answered server s) (r : SysRet) :
    Answered server { s with conn := s.conn.handleWrite r } :=
  ⟨(sameControl_handleWrite h.lossless r).state_.trans h.connected, h.lossless.handleWrite r⟩

theorem lossless_setInput {c : TcpConnection} {all : Bytes} (h : Lossless c all) (buf : Buffer) :
    Lossless (c.setInput buf) all := by
  refine ⟨h.noFile, h.queue, h.output, h.watching, h.unwatched, ?_⟩
  exact h.writeSide.quiet_step [] (List.append_nil _).symm (by simp) rfl rfl fun hs => hs

/-- The response to a request goes behind everything that was answered before. -/
theorem onRequest_keeps (hanswers : server.Answers) {c : TcpConnection} {all : Bytes}
    (hconnected : c.state_ = .kConnected) (hlossless : Lossless c all) {req : HttpRequest}
    (hkeeps : server.Keeps req) (hclose : req.close = false) {r : SysRet}
    (hr : r.isFault = false) :
    ∃ c', server.onRequest c req r = some c' ∧ c'.state_ = .kConnected ∧
      Lossless c' (all ++ (server.response req).text) := by
  obtain ⟨buf, hwrite, hread⟩ :=
    (fits_response hanswers req).appendToBuffer (Buffer.new kInitialSize)
  have htext : buf.readable = (server.response req).text := by simpa using hread
  have hkeep : (server.httpCallback_ req (HttpResponse.new false)).closeConnection_ = false :=
    hkeeps.keep
  have hwrite' : (server.httpCallback_ req (HttpResponse.new false)).appendToBuffer
      (Buffer.new kInitialSize) = some buf := hwrite
  have hsend : c.send buf.readable r = c.sendInLoop (server.response req).text r := by
    rw [TcpConnection.send, if_pos hconnected, htext]
  refine ⟨c.send buf.readable r, ?_, ?_, ?_⟩
  · simp only [onRequest, hclose, hwrite', Option.map_some, hkeep, Bool.false_eq_true, if_false]
  · have hup : c.state_ ≠ .kDisconnected := by simp [hconnected]
    obtain ⟨sent, rest, -, hspec⟩ := sendInLoop_spec hup (server.response req).text r
    rw [hsend]
    exact hspec.control.state_.trans hconnected
  · rw [hsend]
    exact hlossless.send hconnected hr

/-- A delivery on which the parser returns `true`. -/
theorem Answered.deliver (hanswers : server.Answers) {s : HttpConnection} (h : Answered server s)
    {d : Delivery} (hr : d.answer.isFault = false) {ctx : HttpContext} {buf : Buffer}
    (hparse : (s.read d.data).context.parseRequest d.time (s.read d.data).conn.inputBuffer_ =
      some ⟨.returned true, ctx, buf⟩)
    (hreq : ctx.gotAll = true → server.Keeps ctx.request_ ∧ ctx.request_.close = false)
    {s' : HttpConnection} (hdeliver : server.deliver s d = some s') : Answered server s' := by
  have hinput : Lossless ((s.read d.data).conn.setInput buf)
      (s.requests.flatMap fun req => (server.response req).text) :=
    lossless_setInput (lossless_setInput h.lossless _) buf
  rw [HttpServer.deliver, onMessage, onMessage_of_parse hparse] at hdeliver
  split at hdeliver
  · next hgot =>
    obtain ⟨hkeeps, hclose⟩ := hreq hgot
    obtain ⟨c', hc', hconnected, hlossless⟩ := onRequest_keeps hanswers
      (c := (s.read d.data).conn.setInput buf) h.connected hinput hkeeps hclose hr
    rw [hc'] at hdeliver
    cases hdeliver
    refine ⟨hconnected, ?_⟩
    rw [List.flatMap_append, List.flatMap_singleton]
    exact hlossless
  · cases hdeliver
    exact ⟨h.connected, hinput⟩

/-- The same in terms of the head parser, which sees what has come of the first request. -/
theorem Answered.deliver_returns (hanswers : server.Answers) (hkeeps : ∀ req, server.Keeps req)
    {s s' : HttpConnection} (h : Answered server s) {p : Bytes} (hway : s.OnTheWay p)
    {d : Delivery} (hr : d.answer.isFault = false) {e : HeadResult}
    (hok : HttpContext.HeadOk (HttpContext.new, p ++ d.data))
    (he : Returns HttpContext.headRound (HttpContext.new, p ++ d.data) e) (htrue : e.ok = true)
    (hclose : e.context.gotAll = true → e.context.request_.close = false)
    (hdeliver : server.deliver s d = some s') : Answered server s' := by
  obtain ⟨⟨outcome, ctx, buf⟩, hparse, ⟨houtcome, hctx, -⟩, -⟩ :=
    parse_of_returns (t := d.time) (hway.read d.data) hok he
  rw [htrue] at houtcome
  dsimp only at houtcome hctx
  subst houtcome
  refine h.deliver hanswers hr hparse (fun hgot => ⟨hkeeps ctx.request_, ?_⟩) hdeliver
  rw [← hctx] at hclose
  exact hclose hgot

/-! ## The run -/

/-- The requests that a client sends, all of which keep the connection. -/
structure Kept (qs : List RequestText) : Prop where
  wellFormed : ∀ q ∈ qs, q.WellFormed ∧ q.Known
  close : ∀ q ∈ qs, q.parsed.close = false

/-- What is known when the deliveries `ds`, and `w` after them, are still to come: `served` are the
requests that were passed on, and `left` will be the sizes of those that are not. -/
structure Follows (server : HttpServer) (qs : List RequestText) (w : Bytes) (left : List Nat)
    (s : HttpConnection) (ds : List Delivery) : Prop where
  answered : Answered server s
  passed : ∃ served rest p, qs = served ++ rest ∧ s.OnTheWay p ∧
    p ++ HttpServer.stream ds ++ w = rest.flatMap RequestText.render ∧
    s.requests.map (fun req => req.setReceiveTime 0) = served.map RequestText.parsed ∧
    backlog (requestSizes rest) p.length (sizes ds) = left

theorem Follows.deliver (hanswers : server.Answers) (hkeeps : ∀ req, server.Keeps req)
    {qs : List RequestText} (hqs : Kept qs) {w : Bytes} {left : List Nat} {s : HttpConnection}
    {d : Delivery} {ds : List Delivery} (h : Follows server qs w left s (d :: ds))
    (hr : d.answer.isFault = false) :
    Follows server qs w left (server.step s (.deliver d)) ds := by
  obtain ⟨hanswered, served, rest, p, rfl, hway, hstream, hreq, hleft⟩ := h
  have hstream : p ++ d.data ++ (stream ds ++ w) = rest.flatMap RequestText.render := by
    simpa [stream] using hstream
  have hstep : ∀ s', server.deliver s d = some s' → server.step s (.deliver d) = s' :=
    fun s' hs' => by rw [step, hs', Option.getD_some]
  cases rest with
  | nil =>
    obtain ⟨hempty, hafter⟩ := List.append_eq_nil_iff.mp hstream
    obtain ⟨rfl, hd⟩ := List.append_eq_nil_iff.mp hempty
    obtain ⟨s₁, hs₁, hway₁, hreq₁⟩ := deliver_nothing hway hd
    have hok : HttpContext.HeadOk (HttpContext.new, [] ++ d.data) := by
      rw [hd]
      exact HttpContext.HeadOk.of_append (v := getRoot.render)
        (by simpa using RequestText.headOk_render wellFormed_getRoot [])
    have he : Returns HttpContext.headRound (HttpContext.new, [] ++ d.data)
        ⟨true, HttpContext.new, []⟩ := by
      rw [hd]
      exact .of_exit rfl
    rw [hstep s₁ hs₁]
    have hmore : HttpContext.new.gotAll = false := rfl
    refine ⟨hanswered.deliver_returns hanswers hkeeps hway hr hok he rfl (fun hgot => by
      rw [hmore] at hgot; cases hgot) hs₁, served, [], [], rfl, hway₁, by simpa using hafter,
      by rw [hreq₁, hreq], ?_⟩
    rw [← hleft]
    simp [requestSizes]
  | cons q rest =>
    obtain ⟨hq, hknown⟩ := hqs.wellFormed q (List.mem_append_right _ List.mem_cons_self)
    have hclose := hqs.close q (List.mem_append_right _ List.mem_cons_self)
    rw [List.flatMap_cons] at hstream
    by_cases hsize : q.render.length ≤ p.length + d.data.length
    · -- the delivery completes the first request
      obtain ⟨v, hv⟩ : q.render <+: p ++ d.data :=
        List.prefix_of_prefix_length_le ⟨_, rfl⟩ ⟨_, hstream⟩ (by simpa using hsize)
      have hrest : v ++ (stream ds ++ w) = rest.flatMap RequestText.render := by
        rw [← hv, List.append_assoc] at hstream
        exact List.append_cancel_left hstream
      have hlen : p.length + d.data.length - q.render.length = v.length := by
        have hboth := congrArg List.length hv
        simp only [List.length_append] at hboth
        omega
      obtain ⟨s₁, req, hs₁, hway₁, hreq₁, hparsed⟩ :=
        deliver_complete hanswers hq hknown hway hv.symm
      have hok := RequestText.headOk_render hq v
      have he := RequestText.returns_render hq hknown v
      rw [hv] at hok he
      rw [hstep s₁ hs₁]
      refine ⟨hanswered.deliver_returns hanswers hkeeps hway hr hok he rfl (fun _ => hclose) hs₁,
        served ++ [q], rest, v, by simp, hway₁, by rw [List.append_assoc, hrest], ?_, ?_⟩
      · rw [hreq₁, List.map_append, hreq, List.map_append]
        simp [hparsed]
      · rw [← hleft, ← hlen]
        simp only [requestSizes, sizes, List.map_cons, backlog, if_pos hsize]
    · -- a part of the first request is still missing
      obtain ⟨missing, hmissing⟩ : p ++ d.data <+: q.render :=
        List.prefix_of_prefix_length_le ⟨_, hstream⟩ ⟨_, rfl⟩ (by simp; omega)
      have hne : missing ≠ [] := by
        rintro rfl
        have hboth := congrArg List.length hmissing
        simp only [List.length_append, List.length_nil] at hboth
        omega
      obtain ⟨s₁, hs₁, hway₁, hreq₁⟩ :=
        deliver_incomplete hq hknown hway hmissing hne
      obtain ⟨e, he, htrue, hmore⟩ := RequestText.waits_of_incomplete hq hknown hmissing.symm hne
      have hok : HttpContext.HeadOk (HttpContext.new, p ++ d.data) := by
        have hwhole := RequestText.headOk_render hq []
        rw [List.append_nil, ← hmissing] at hwhole
        exact hwhole.of_append
      rw [hstep s₁ hs₁]
      refine ⟨hanswered.deliver_returns hanswers hkeeps hway hr hok he htrue (fun hgot => by
        rw [hmore] at hgot; cases hgot) hs₁, served, q :: rest, p ++ d.data, rfl, hway₁, ?_,
        by rw [hreq₁, hreq], ?_⟩
      · rw [List.append_assoc, hstream, List.flatMap_cons]
      · rw [← hleft, List.length_append]
        simp only [requestSizes, sizes, List.map_cons, backlog, if_neg hsize]

theorem Follows.handleWrite {qs : List RequestText} {w : Bytes} {left : List Nat}
    {s : HttpConnection} {ds : List Delivery} (h : Follows server qs w left s ds) (r : SysRet) :
    Follows server qs w left (server.step s (.handleWrite r)) ds := by
  obtain ⟨hanswered, served, rest, p, hqs, hway, hstream, hreq, hleft⟩ := h
  refine ⟨hanswered.handleWrite r, served, rest, p, hqs, ?_, hstream, hreq, hleft⟩
  unfold OnTheWay at hway ⊢
  rwa [step, (sameControl_handleWrite hanswered.lossless r).inputBuffer_]

theorem Follows.run (hanswers : server.Answers) (hkeeps : ∀ req, server.Keeps req)
    {qs : List RequestText} (hqs : Kept qs) {w : Bytes} {left : List Nat} {s : HttpConnection}
    {es : List ConnectionEvent} (h : Follows server qs w left s (deliveries es))
    (hes : ∀ e ∈ es, e.PeerThere) : Follows server qs w left (run server.step s es) [] := by
  induction es generalizing s with
  | nil => exact h
  | cons e es ih =>
    rw [run_cons]
    refine ih ?_ fun e' he' => hes e' (List.mem_cons_of_mem e he')
    cases e with
    | deliver d => exact Follows.deliver hanswers hkeeps hqs h (hes (.deliver d) List.mem_cons_self)
    | handleWrite r => exact Follows.handleWrite h r

theorem follows_onConnection {c : TcpConnection} (hconnected : c.state_ = .kConnected)
    (hlossless : Lossless c []) (hinput : c.inputBuffer_.readable = []) {qs : List RequestText}
    {ds : List Delivery} {w : Bytes} (hstream : stream ds ++ w = qs.flatMap RequestText.render) :
    Follows server qs w (backlog (requestSizes qs) 0 (sizes ds)) (onConnection c) ds := by
  refine ⟨⟨hconnected, hlossless⟩, [], qs, [], rfl, ?_, hstream, rfl, rfl⟩
  simp only [OnTheWay, onConnection, hinput]
  exact .refl _

/-- The responses to the requests that were passed on, as messages. -/
def answers (server : HttpServer) (s : HttpConnection) : List Message :=
  s.requests.map fun req => (server.response req).message

/-- What was answered is the text of messages that a client can tell apart. -/
theorem Answered.output (hanswers : server.Answers) (hkeeps : ∀ req, server.Keeps req)
    {s : HttpConnection} (h : Answered server s) :
    wire s.conn.trace ++ s.conn.outputBuffer_.readable = (server.answers s).flatMap encode := by
  rw [h.lossless.output (by simp [h.connected]), answers, List.flatMap_map]
  exact List.flatMap_congr fun req _ => text_response hanswers (hkeeps req)

theorem answers_readable (hkeeps : ∀ req, server.Keeps req) (s : HttpConnection) :
    ∀ m ∈ server.answers s, WellFormed m ∧ Framed m := by
  intro m hm
  obtain ⟨req, -, rfl⟩ := List.mem_map.mp hm
  exact ⟨HttpResponse.wellFormed_message (hkeeps req).plain, framed_response (hkeeps req)⟩

/-- For a callback whose responses can be written whatever it is asked (`Answers`), and are pages that
keep the connection and leave their length to `appendToBuffer` (`Keeps`), and for requests that keep
it too (`Kept`): a client has sent a part of their stream, and no direct write finds it gone. The
requests that were passed on are the first of the stream, all of it if the deliveries keep up with
it. What the client reads from the wire are the responses to them in order, as many as have arrived
whole, and all of them once the output buffer is empty; until then the connection waits for its
socket to become writable. -/
theorem exchange (server : HttpServer) (hanswers : server.Answers)
    (hkeeps : ∀ req, server.Keeps req) (highWaterMark : Nat) (hcb wcb : Bool)
    (files : Int → Bytes) (qs : List RequestText) (hqs : Kept qs) (es : List ConnectionEvent)
    (hes : ∀ e ∈ es, e.PeerThere) (w : Bytes)
    (hstream : stream (deliveries es) ++ w = qs.flatMap RequestText.render) :
    let s := run server.step (onConnection (established highWaterMark hcb wcb files)) es
    ∃ served rest read unread v, qs = served ++ rest ∧
      s.requests.map (fun req => req.setReceiveTime 0) = served.map RequestText.parsed ∧
      (rest = [] ↔ KeepsUp (requestSizes qs) 0 (sizes (deliveries es))) ∧
      server.answers s = read ++ unread ∧ readMessages (wire s.conn.trace) = (read, v) ∧
      (s.conn.outputBuffer_.readable = [] → unread = [] ∧ v = []) ∧
      (s.conn.outputBuffer_.readable ≠ [] → s.conn.isWriting = true) := by
  intro s
  have hstart : Follows server qs w (backlog (requestSizes qs) 0 (sizes (deliveries es)))
      (onConnection (established highWaterMark hcb wcb files)) (deliveries es) :=
    follows_onConnection rfl (lossless_established highWaterMark hcb wcb files)
      (Buffer.readable_new _) hstream
  obtain ⟨hanswered, served, rest, p, hsplit, -, -, hreq, hleft⟩ :=
    hstart.run hanswers hkeeps hqs hes
  have houtput := hanswered.output hanswers hkeeps
  have hreadable := answers_readable hkeeps s
  obtain ⟨read, unread, v, hanswersEq, hread, hwire, hnext⟩ :=
    readMessages_of_prefix hreadable ⟨_, houtput⟩
  refine ⟨served, rest, read, unread, v, hsplit, hreq, ?_, hanswersEq, hread, fun hempty => ?_,
    fun hne => (hanswered.lossless.watching (by simp [hanswered.connected])).mpr hne⟩
  · rw [← backlog_eq_nil_iff, ← hleft]
    simp [sizes, backlog, requestSizes]
  · rw [hempty, List.append_nil, hwire, hanswersEq, List.flatMap_append] at houtput
    have hv : v = unread.flatMap encode := List.append_cancel_left houtput
    cases unread with
    | nil => exact ⟨rfl, hv⟩
    | cons m unread =>
      have hlt := hnext m rfl
      rw [hv, List.flatMap_cons, List.length_append] at hlt
      omega

theorem keeps_hello (req : HttpRequest) : hello.Keeps req := by
  have hheaders : (hello.response req).headers_.toList = [] := rfl
  refine ⟨⟨List.not_mem_nil, ?_, ?_⟩, rfl, rfl, ?_⟩ <;> simp [hheaders]

/-- Two requests, the second one cut in its request line, and responses that go out in parts. -/
theorem exchange_hello :
    let s := run hello.step (onConnection (established 64 false false fun _ => []))
      [.deliver ⟨1, getRoot.render ++ ascii "GET", .ok 5⟩, .handleWrite (.ok 10),
        .deliver ⟨2, getRoot.render.drop 3, .ok 0⟩, .handleWrite (.fail .EWOULDBLOCK),
        .handleWrite (.ok 1000)]
    readMessages (wire s.conn.trace) = (hello.answers s, []) ∧
      s.requests.map (fun req => req.setReceiveTime 0) = [getRoot.parsed, getRoot.parsed] := by
  intro s
  obtain ⟨served, rest, read, unread, v, hsplit, hreq, hkeepsUp, hanswers, hread, hempty, -⟩ :=
    exchange hello answers_hello keeps_hello 64 false false (fun _ => []) [getRoot, getRoot]
      ⟨by simpa using ⟨wellFormed_getRoot, by decide⟩, by decide +kernel⟩
      [.deliver ⟨1, getRoot.render ++ ascii "GET", .ok 5⟩, .handleWrite (.ok 10),
        .deliver ⟨2, getRoot.render.drop 3, .ok 0⟩, .handleWrite (.fail .EWOULDBLOCK),
        .handleWrite (.ok 1000)] (by simp [PeerThere, SysRet.isFault]) [] (by decide +kernel)
  obtain rfl := hkeepsUp.mpr ((backlog_eq_nil_iff _ _ _).mp (by decide))
  obtain ⟨rfl, rfl⟩ := hempty (by decide +kernel)
  rw [List.append_nil] at hsplit hanswers
  exact ⟨hread.trans (by rw [hanswers]), by rw [hreq, ← hsplit]; rfl⟩

end HttpServer

end Mymuduo
