import Mymuduo.Http.AfterClose
import Mymuduo.Http.HeadGrammar
import Mymuduo.Lib.Transition

/-!
# After a rejected request line

`processRequestLine` writes into the request as it reads: `setMethod` stores a method that it knows
before the rest of the line is looked at. A line that is rejected further on leaves the method
behind, and as the line stays in the input buffer, the next delivery calls `setMethod` again, whose
assertion wants a request without a method.

* `request_of_unknown`, `method_of_known`: what a rejected line leaves in the request.
* `kept_iff`: one call of the parser on a request without a method.
* `rejected_line_kept_iff`: the runs in which every call keeps the request and meets the assertion.
* `rejected_line_fails`: a request of HTTP/2.0, delivered in two parts.
-/

namespace Mymuduo

open CString Lines Iteration Transition

/-- The line begins with a method that the parser knows, and a blank. -/
def BeginsWithMethod (line : Bytes) : Prop :=
  ∃ m : Method, m ≠ .kInvalid ∧ m.word ++ [SP] <+: line

namespace HttpRequest

/-- A line that does not begin with a method is rejected before anything is written. -/
theorem request_of_unknown {r : HttpRequest} {line : Bytes} (hr : r.method_ = .kInvalid)
    (h : ¬ BeginsWithMethod line) : r.processRequestLine line = (false, r) := by
  unfold processRequestLine
  split
  · rfl
  · next w rest hcut =>
    have hunknown : str2int w = none := by
      by_contra hsome
      obtain ⟨m, hm⟩ := Option.ne_none_iff_exists'.mp hsome
      obtain ⟨hne, rfl⟩ := str2int_eq_some hm
      refine h ⟨m, hne, rest, ?_⟩
      rw [(cutByte_eq_some hcut).1, List.append_assoc, List.singleton_append]
    have hset : r.setMethod w = (false, r) := by
      simp only [setMethod, hunknown, Option.getD_none, ← hr, bne_self_eq_false]
    rw [hset]

theorem method_setTarget (r : HttpRequest) (target : Bytes) :
    (r.setTarget target).method_ = r.method_ := by
  unfold setTarget
  split <;> rfl

theorem method_setProtocol (r : HttpRequest) (word : Bytes) :
    (r.setProtocol word).2.method_ = r.method_ := by
  unfold setProtocol
  split
  · split
    · rfl
    · split <;> rfl
  · rfl

/-- The method at the beginning of a line is stored, whatever follows. -/
theorem method_of_known (r : HttpRequest) {line : Bytes} (h : BeginsWithMethod line) :
    (r.processRequestLine line).2.method_ ≠ .kInvalid := by
  obtain ⟨m, hne, rest, rfl⟩ := h
  have hcut : cutByte SP (m.word ++ [SP] ++ rest) = some (m.word, rest) := by
    rw [List.append_assoc, List.singleton_append, cutByte_append (HeadText.notMem_word m).1]
  have hset : r.setMethod m.word = (true, { r with method_ := m }) := by
    simp [setMethod, HeadText.str2int_word hne, hne]
  simp only [processRequestLine, hcut, hset]
  split
  · exact hne
  · rw [method_setProtocol, method_setTarget]
    exact hne

end HttpRequest

namespace HttpContext

/-! ## One call -/

/-- The round at `p` calls `setMethod`. -/
def CallsSetMethod (p : HttpContext × Buffer) : Prop :=
  p.1.state_ = .kExpectRequestLine ∧
    ∃ line rest, cutLine p.2.readable = some (line, rest) ∧ SP ∈ line

/-- The call of `parseRequest` meets the assertion in `setMethod` whenever it gets there, and if it
returns `false`, it leaves the request as it was, which is one without a method. -/
structure Kept (t : Timestamp) (ctx : HttpContext) (buf : Buffer) : Prop where
  asserted : ∀ p, Goes (parseRound t) (ctx, buf) p → CallsSetMethod p →
    p.1.request_.method_ = .kInvalid
  request : ∀ r, parseRequest t ctx buf = some r → r.outcome = .returned false →
    r.context.request_ = ctx.request_ ∧ r.context.request_.method_ = .kInvalid

/-- A complete line where a request line is expected is a whole request line, if it begins with a
method. -/
def LineOk (ctx : HttpContext) (buf : Buffer) : Prop :=
  ctx.state_ = .kExpectRequestLine → ∀ line rest, cutLine buf.readable = some (line, rest) →
    BeginsWithMethod line → IsRequestLine line

/-- A request without a method is expected to get one. -/
def Ready (ctx : HttpContext) : Prop :=
  ctx.state_ = .kExpectRequestLine → ctx.request_.method_ = .kInvalid

/-- On a request without a method a call is as it should be exactly if the line is. -/
theorem kept_iff {t : Timestamp} {ctx : HttpContext} {buf : Buffer} (h : ctx.Ready) :
    Kept t ctx buf ↔ LineOk ctx buf := by
  constructor
  · intro hkept hstate line rest hcut hknown
    by_contra hnot
    have hrejected : (ctx.request_.processRequestLine line).1 = false :=
      Bool.eq_false_iff.mpr (mt (accepted_iff _ _).mp hnot)
    have hmethod := HttpRequest.method_of_known ctx.request_ hknown
    cases hline : ctx.request_.processRequestLine line with
    | mk ok r =>
      rw [hline] at hrejected hmethod
      obtain rfl : ok = false := hrejected
      obtain ⟨crlf, hfind, htake, -⟩ := findCRLF_of_cutLine hcut
      have hcall := parseRequest_of_rejected t hstate hfind (htake.symm ▸ hline)
      exact hmethod (hkept.request _ hcall rfl).2
  · intro hok
    refine ⟨fun p hgo hcalls => ?_, fun r hr hfalse => ?_⟩
    · obtain rfl := eq_of_goes hgo hcalls.1
      exact h hcalls.1
    · obtain ⟨hstate, crlf, hfind, hline, -, -⟩ := rejected_of_false hr hfalse
      have hcut := cutLine_of_findCRLF hfind
      have hunknown : ¬ BeginsWithMethod (buf.readable.take crlf) := by
        intro hknown
        have haccepted := (accepted_iff ctx.request_ _).mpr (hok hstate _ _ hcut hknown)
        rw [hline] at haccepted
        cases haccepted
      rw [HttpRequest.request_of_unknown (h hstate) hunknown] at hline
      obtain ⟨-, hsame⟩ := Prod.mk.inj hline
      exact ⟨hsame.symm, hsame ▸ h hstate⟩

/-- A call on such a request and such a line leaves one. -/
theorem Ready.parseRequest {t : Timestamp} {ctx : HttpContext} {buf : Buffer} {r : ParseResult}
    (h : ctx.Ready) (hok : LineOk ctx buf) (hr : parseRequest t ctx buf = some r) :
    r.context.Ready := by
  intro hstate
  obtain ⟨⟨ctx', buf'⟩, hgo, hexit⟩ := (parseRequest_eq_some.mp hr).goes
  cases parseRound_exit hexit with
  | waits =>
    obtain ⟨rfl, rfl⟩ := Prod.mk.inj (eq_of_goes hgo hstate)
    exact h hstate
  | badLine => exact (((kept_iff h).mpr hok).request _ hr rfl).2
  | noBody => cases hstate
  | body len hbody =>
    unfold takeBody at hstate
    split at hstate
    · simp [hbody] at hstate
    · split at hstate
      · simp [hbody] at hstate
      · cases hstate
  | threw _ hbody => simp [hbody] at hstate

end HttpContext

namespace HttpServer

open HttpConnection HttpContext

/-! ## Every delivery -/

/-- A delivery to a connection that is still served. -/
def next (server : HttpServer) (s : Option HttpConnection) (d : Delivery) :
    Option HttpConnection :=
  s.bind fun s => server.deliver s d

theorem run_next_none (server : HttpServer) (ds : List Delivery) :
    run server.next none ds = none := by
  induction ds with
  | nil => rfl
  | cons d ds ih => exact ih

/-- Such deliveries, one after the other, are what the connection is served with. -/
theorem run_next (server : HttpServer) (s : HttpConnection) (ds : List Delivery) :
    run server.next (some s) ds = server.serve s ds := by
  induction ds generalizing s with
  | nil => rfl
  | cons d ds ih =>
    rw [run_cons, serve, List.foldlM_cons, next, Option.bind_some]
    cases server.deliver s d with
    | none => exact run_next_none server ds
    | some s' => exact ih s'

/-- The parser's call at the delivery keeps the request and meets the assertion. -/
def KeptAt (s : Option HttpConnection) (d : Delivery) : Prop :=
  ∀ s₁, s = some s₁ → Kept d.time s₁.context (s₁.read d.data).conn.inputBuffer_

/-- The line at the front is as it should be once the data is there. -/
def LineOkAt (s : Option HttpConnection) (d : Delivery) : Prop :=
  ∀ s₁, s = some s₁ → LineOk s₁.context (s₁.read d.data).conn.inputBuffer_

def ReadyAt (s : Option HttpConnection) : Prop :=
  ∀ s₁, s = some s₁ → s₁.context.Ready

theorem keptAt_iff {s : Option HttpConnection} (h : ReadyAt s) (d : Delivery) :
    KeptAt s d ↔ LineOkAt s d :=
  forall₂_congr fun s₁ hs₁ => kept_iff (h s₁ hs₁)

/-- After a request the context is a new one in this respect, too. -/
theorem readyAt_next {server : HttpServer} {s : Option HttpConnection} {d : Delivery}
    (h : ReadyAt s) (hok : LineOkAt s d) : ReadyAt (server.next s d) := by
  intro s₂ hs₂
  obtain ⟨s₁, rfl, hdeliver⟩ := Option.bind_eq_some_iff.mp hs₂
  have hcall : (s₁.read d.data).onMessage (fun c req => server.onRequest c req d.answer) d.time
      d.answer = some s₂ := hdeliver
  obtain ⟨ok, ctx, buf, hparse, heq⟩ := context_onMessage hcall
  rw [heq]
  split
  · exact fun _ => rfl
  · exact (h s₁ rfl).parseRequest (hok s₁ rfl) hparse

/-- In a run of deliveries every call of the parser meets the assertion in `setMethod` and, where it
rejects a request line, keeps the request, exactly if each line that it finds where a request line
is expected and that begins with a method is a whole request line. -/
theorem rejected_line_kept_iff (server : HttpServer) (conn : TcpConnection)
    (ds : List Delivery) :
    Meets KeptAt server.next (some (onConnection conn)) ds ↔
      Meets LineOkAt server.next (some (onConnection conn)) ds := by
  have hnew : ReadyAt (some (onConnection conn)) := by
    rintro _ ⟨⟩ _
    rfl
  exact meets_iff (I := ReadyAt) (p := fun _ => True) (fun _ d h _ => keptAt_iff h d)
    (fun _ _ h _ hok => readyAt_next h hok) hnew fun _ _ => trivial

/-- The request line of a version that the parser does not speak, and the rest of the head. -/
def newerGet : List Delivery :=
  [⟨1, ascii "GET / HTTP/2.0" ++ crlf, .ok 100⟩, ⟨2, crlf, .ok 100⟩]

/-- The rejected line leaves its method behind, and the next delivery calls `setMethod` again. -/
theorem rejected_line_fails :
    ((hello.serve up (newerGet.take 1)).map fun s => s.context.request_.method_) = some .kGet ∧
      ¬ Meets KeptAt hello.next (some up) newerGet ∧
      ¬ ∀ (server : HttpServer) (conn : TcpConnection) (ds : List Delivery),
        Meets KeptAt server.next (some (onConnection conn)) ds := by
  have hafter : ((hello.serve up (newerGet.take 1)).map fun s => s.context.request_.method_) =
      some .kGet := by decide +kernel
  have hnot : ¬ Meets KeptAt hello.next (some up) newerGet := by
    rintro ⟨hfirst, -⟩
    have hcall : (parseRequest 1 up.context
        (up.read (ascii "GET / HTTP/2.0" ++ crlf)).conn.inputBuffer_).map (fun r =>
          (r.outcome, r.context.request_.method_)) = some (.returned false, .kGet) := by
      decide +kernel
    obtain ⟨r, hr, hends⟩ := Option.map_eq_some_iff.mp hcall
    obtain ⟨hout, hget⟩ := Prod.mk.inj hends
    have hmethod := ((hfirst up rfl).request r hr hout).2
    rw [hget] at hmethod
    cases hmethod
  exact ⟨hafter, hnot, fun hall => hnot (hall hello fresh.connectEstablished newerGet)⟩

end HttpServer

end Mymuduo
