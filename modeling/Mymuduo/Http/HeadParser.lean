import Mymuduo.Http.HttpContext

/-!
# The request head as a machine on bytes

`headRound` is what the parser is for while it reads a request line and header lines: a machine on
a context and the unread bytes, without a buffer, without a clock and without a body. It always
leaves (`head_returns`), and more bytes only take it further (`head_extend`).

`parseRequest` is this machine on a buffer (`parseRequest_head`) as long as no header line of the
stream is named `Content-Length` (`HeadOk`); only the receive time tells two contexts apart that
are in step, so they are compared by `timeless`.
-/

namespace Mymuduo

open CString Lines Iteration

/-- A context and the bytes it has not read. -/
abbrev HeadState := HttpContext × Bytes

structure HeadResult where
  ok : Bool
  context : HttpContext
  unread : Bytes
  deriving DecidableEq

namespace HttpContext

/-- The context but for the time at which the request line came. -/
def timeless (ctx : HttpContext) : HttpContext :=
  { ctx with request_ := ctx.request_.setReceiveTime 0 }

/-- One round of the head parser. -/
def headRound : HeadState → Next HeadState HeadResult
  | (ctx, u) =>
    match ctx.state_ with
    | .kExpectRequestLine =>
      match cutLine u with
      | some (line, rest) =>
        match ctx.request_.processRequestLine line with
        | (true, r) => .again (⟨.kExpectHeaders, r⟩, rest)
        | (false, r) => .exit ⟨false, { ctx with request_ := r }, u⟩
      | none => .exit ⟨true, ctx, u⟩
    | .kExpectHeaders =>
      match cutLine u with
      | some (line, rest) =>
        match cutByte COLON line with
        | some (field, value) =>
          .again ({ ctx with request_ := ctx.request_.addHeader field value }, rest)
        | none => .again ({ ctx with state_ := .kExpectBody }, rest)
      | none => .exit ⟨true, ctx, u⟩
    | _ => .exit ⟨true, { ctx with state_ := .kGotAll }, u⟩

/-- Every round that goes on takes a line. -/
theorem headRound_again {s s' : HeadState} (h : headRound s = .again s') :
    s'.2.length < s.2.length := by
  obtain ⟨ctx, u⟩ := s
  simp only [headRound] at h
  split at h
  · split at h
    · next hcut =>
      split at h <;> cases h
      exact length_lt_of_cutLine hcut
    · cases h
  · split at h
    · next hcut => split at h <;> cases h <;> exact length_lt_of_cutLine hcut
    · cases h
  · cases h

theorem head_returns (s : HeadState) : ∃ r, Returns headRound s r :=
  returns_of_measure (μ := fun s => s.2.length) (fun _ _ h => headRound_again h) s

/-! ## More bytes -/

/-- With more bytes behind, a round that goes on goes on the same way. -/
theorem headRound_append {ctx ctx' : HttpContext} {u u' : Bytes}
    (h : headRound (ctx, u) = .again (ctx', u')) (v : Bytes) :
    headRound (ctx, u ++ v) = .again (ctx', u' ++ v) := by
  simp only [headRound] at h ⊢
  split at h
  · split at h
    · next hcut =>
      rw [cutLine_append hcut]
      split at h <;> cases h
      next hline => simp only [hline]
    · cases h
  · split at h
    · next hcut =>
      rw [cutLine_append hcut]
      split at h <;> cases h
      · next hcolon => simp only [hcolon]
      · next hcolon => simp only [hcolon]
    · cases h
  · cases h

/-- A round that waits for more leaves everything as it is. -/
theorem headRound_waits {ctx : HttpContext} {u : Bytes} {r : HeadResult}
    (h : headRound (ctx, u) = .exit r) (hok : r.ok = true) (hmore : r.context.gotAll = false) :
    r.context = ctx ∧ r.unread = u := by
  simp only [headRound] at h
  split at h
  · split at h
    · split at h <;> cases h
      cases hok
    · cases h
      exact ⟨rfl, rfl⟩
  · split at h
    · split at h <;> cases h
    · cases h
      exact ⟨rfl, rfl⟩
  · cases h
    cases hmore

/-- A round that ends the head, well or badly, ends it the same way with more bytes behind. -/
theorem headRound_stops {ctx : HttpContext} {u : Bytes} {r : HeadResult}
    (h : headRound (ctx, u) = .exit r) (hstop : r.ok = false ∨ r.context.gotAll = true)
    (v : Bytes) :
    headRound (ctx, u ++ v) = .exit { r with unread := r.unread ++ v } := by
  simp only [headRound] at h ⊢
  split at h
  · next hstate =>
    split at h
    · next hcut =>
      rw [cutLine_append hcut]
      split at h <;> cases h
      next hline => simp only [hline]
    · cases h
      simp [gotAll, hstate] at hstop
  · next hstate =>
    split at h
    · split at h <;> cases h
    · cases h
      simp [gotAll, hstate] at hstop
  · cases h
    rfl

/-- A head that ends within the first bytes ends there whatever follows. -/
theorem head_final {ctx : HttpContext} {u : Bytes} {r : HeadResult}
    (h : Returns headRound (ctx, u) r) (hstop : r.ok = false ∨ r.context.gotAll = true)
    (v : Bytes) :
    Returns headRound (ctx, u ++ v) { r with unread := r.unread ++ v } := by
  obtain ⟨n, hn⟩ := h
  induction n generalizing ctx u with
  | zero => cases hn
  | succ n ih =>
    cases hb : headRound (ctx, u) with
    | again s =>
      rw [run_again hb] at hn
      exact .of_again (headRound_append hb v) (ih hn)
    | exit r' =>
      rw [run_exit hb] at hn
      cases hn
      exact .of_exit (headRound_stops hb hstop v)

/-- A parser that waits has come as far as it would have with more bytes there. -/
theorem head_extend {ctx : HttpContext} {u : Bytes} {r : HeadResult}
    (h : Returns headRound (ctx, u) r) (hok : r.ok = true) (hmore : r.context.gotAll = false)
    (v : Bytes) : Goes headRound (ctx, u ++ v) (r.context, r.unread ++ v) := by
  obtain ⟨n, hn⟩ := h
  induction n generalizing ctx u with
  | zero => cases hn
  | succ n ih =>
    cases hb : headRound (ctx, u) with
    | again s =>
      rw [run_again hb] at hn
      exact .again (headRound_append hb v) (ih hn)
    | exit r' =>
      rw [run_exit hb] at hn
      cases hn
      obtain ⟨hctx, hu⟩ := headRound_waits hb hok hmore
      rw [hctx, hu]
      exact .refl _

/-! ## Streams without a Content-Length -/

def hasColon (line : Bytes) : Bool := (cutByte COLON line).isSome

theorem hasColon_iff {line : Bytes} : hasColon line = true ↔ COLON ∈ line := by
  rw [hasColon, Option.isSome_iff_ne_none, Ne, cutByte_eq_none, not_not]

/-- The header lines of a head: the lines after the first, up to one without a colon. -/
def headerLines (s : Bytes) : List Bytes := (lines s).tail.takeWhile hasColon

/-- The field name of the line is not `Content-Length`. -/
def NotContentLength (line : Bytes) : Prop :=
  ∀ field rest, cutByte COLON line = some (field, rest) → field ≠ kContentLength

/-- The header lines that a context still has before it. -/
def comingHeaders (ctx : HttpContext) (u : Bytes) : List Bytes :=
  match ctx.state_ with
  | .kExpectRequestLine => headerLines u
  | .kExpectHeaders => (lines u).takeWhile hasColon
  | _ => []

/-- No `Content-Length` has come and none is coming. -/
structure HeadOk (s : HeadState) : Prop where
  open_ : s.1.gotAll = false
  none : s.1.request_.getHeader kContentLength = []
  coming : ∀ line ∈ s.1.comingHeaders s.2, NotContentLength line

theorem mem_takeWhile_append {α : Type} {p : α → Bool} {l : List α} {a : α}
    (h : a ∈ l.takeWhile p) (l' : List α) : a ∈ (l ++ l').takeWhile p := by
  induction l with
  | nil => cases h
  | cons b t ih =>
    cases hb : p b with
    | false => simp [hb] at h
    | true =>
      rw [List.takeWhile_cons_of_pos hb, List.mem_cons] at h
      rw [List.cons_append, List.takeWhile_cons_of_pos hb, List.mem_cons]
      exact h.imp_right ih

theorem comingHeaders_append (ctx : HttpContext) (u v : Bytes) {line : Bytes}
    (h : line ∈ ctx.comingHeaders u) : line ∈ ctx.comingHeaders (u ++ v) := by
  obtain ⟨ls, hls⟩ := lines_append u v
  unfold comingHeaders headerLines at h ⊢
  rw [hls]
  split at h
  · cases hl : lines u with
    | nil => simp [hl] at h
    | cons first rest =>
      rw [hl, List.tail_cons] at h
      simp only [List.cons_append, List.tail_cons]
      exact mem_takeWhile_append h ls
  · exact mem_takeWhile_append h ls
  · cases h

/-- A stream of which nothing more is known than a first part. -/
theorem HeadOk.of_append {ctx : HttpContext} {u v : Bytes} (h : HeadOk (ctx, u ++ v)) :
    HeadOk (ctx, u) :=
  ⟨h.open_, h.none, fun line hm => h.coming line (comingHeaders_append ctx u v hm)⟩

/-- A round keeps a stream free of `Content-Length`. -/
theorem HeadOk.again {s s' : HeadState} (h : HeadOk s) (hb : headRound s = .again s') :
    HeadOk s' := by
  obtain ⟨ctx, u⟩ := s
  obtain ⟨hopen, hnone, hcoming⟩ := h
  simp only [headRound] at hb
  split at hb
  · next hstate =>
    split at hb
    · next line rest hcut =>
      have hget := HttpRequest.getHeader_processRequestLine ctx.request_ line kContentLength
      split at hb <;> cases hb
      next r hline =>
      rw [hline] at hget
      refine ⟨rfl, hget.trans hnone, fun l hl => hcoming l ?_⟩
      simpa [comingHeaders, hstate, headerLines, lines_of_some hcut] using hl
    · cases hb
  · next hstate =>
    split at hb
    · next line rest hcut =>
      simp only [comingHeaders, hstate, lines_of_some hcut] at hcoming
      split at hb <;> cases hb
      · next field value hcolon =>
        have hhas : hasColon line = true := by simp [hasColon, hcolon]
        rw [List.takeWhile_cons_of_pos hhas] at hcoming
        have hne := hcoming line List.mem_cons_self field value hcolon
        refine ⟨by simp [gotAll, hstate], ?_, fun l hl => hcoming l ?_⟩
        · exact (HttpRequest.getHeader_addHeader ..).trans ((if_neg hne).trans hnone)
        · refine List.mem_cons_of_mem _ ?_
          simpa [comingHeaders, hstate] using hl
      · exact ⟨rfl, hnone, fun l hl => (by cases hl)⟩
    · cases hb
  · cases hb

/-! ## The parser on a buffer -/

/-- A context and a buffer in step with the head parser. -/
def InHead (s : HttpContext × Buffer) (s' : HeadState) : Prop :=
  s.1.timeless = s'.1 ∧ s.2.readable = s'.2 ∧ HeadOk s'

/-- The end of a call in step with that of the head parser. -/
def HeadEnd (r : ParseResult) (r' : HeadResult) : Prop :=
  r.outcome = .returned r'.ok ∧ r.context.timeless = r'.context ∧ r.buffer.readable = r'.unread

theorem findCRLF_eq (buf : Buffer) :
    cutLine buf.readable = buf.findCRLF.map fun crlf =>
      (buf.readable.take crlf, (buf.retrieve (crlf + 2)).readable) := by
  simp only [cutLine, Buffer.findCRLF, Buffer.readable_retrieve]

/-- The line that the buffer finds. -/
theorem cutLine_of_findCRLF {buf : Buffer} {crlf : Nat} (h : buf.findCRLF = some crlf) :
    cutLine buf.readable = some (buf.readable.take crlf, (buf.retrieve (crlf + 2)).readable) := by
  rw [findCRLF_eq, h, Option.map_some]

theorem inStep_of_again {s₁ : HttpContext × Buffer} {s' s₁' : HeadState}
    {next : Next (HttpContext × Buffer) ParseResult} (hok : HeadOk s')
    (hnext : next = .again s₁) (hb : headRound s' = .again s₁')
    (hctx : s₁.1.timeless = s₁'.1) (hbuf : s₁.2.readable = s₁'.2) :
    InStep InHead HeadEnd next (headRound s') := by
  rw [hnext, hb]
  exact .again ⟨hctx, hbuf, hok.again hb⟩

/-- While no `Content-Length` is about, the parser on a buffer is the head parser. -/
theorem inStep_parseRound (t : Timestamp) {s : HttpContext × Buffer} {s' : HeadState}
    (h : InHead s s') : InStep InHead HeadEnd (parseRound t s) (headRound s') := by
  obtain ⟨ctx, buf⟩ := s
  obtain ⟨ctx', u⟩ := s'
  obtain ⟨rfl, rfl, hok⟩ := h
  have hcut := findCRLF_eq buf
  cases hstate : ctx.state_ with
  | kExpectRequestLine =>
    cases hfind : buf.findCRLF with
    | none =>
      rw [hfind, Option.map_none] at hcut
      simp only [parseRound, headRound, timeless, hstate, hfind, hcut]
      exact .exit ⟨rfl, by simp only [timeless, hstate], rfl⟩
    | some crlf =>
      rw [hfind, Option.map_some] at hcut
      have hline := (HttpRequest.offLine_setReceiveTime 0).processRequestLine ctx.request_
        (buf.readable.take crlf)
      cases hr : ctx.request_.processRequestLine (buf.readable.take crlf) with
      | mk ok r =>
        rw [hr] at hline
        cases ok with
        | true =>
          have hround : parseRound t (ctx, buf) =
              .again (⟨.kExpectHeaders, r.setReceiveTime t⟩, buf.retrieve (crlf + 2)) := by
            simp only [parseRound, hstate, hfind, hr]
          have hhead : headRound (ctx.timeless, buf.readable) =
              .again (⟨.kExpectHeaders, r.setReceiveTime 0⟩,
                (buf.retrieve (crlf + 2)).readable) := by
            simp only [headRound, timeless, hstate, hcut, hline]
          exact inStep_of_again hok hround hhead rfl rfl
        | false =>
          simp only [parseRound, headRound, timeless, hstate, hfind, hcut, hr, hline]
          exact .exit ⟨rfl, by simp only [timeless], rfl⟩
  | kExpectHeaders =>
    cases hfind : buf.findCRLF with
    | none =>
      rw [hfind, Option.map_none] at hcut
      simp only [parseRound, headRound, timeless, hstate, hfind, hcut]
      exact .exit ⟨rfl, by simp only [timeless, hstate], rfl⟩
    | some crlf =>
      rw [hfind, Option.map_some] at hcut
      cases hcolon : cutByte COLON (buf.readable.take crlf) with
      | none =>
        have hround : parseRound t (ctx, buf) =
            .again ({ ctx with state_ := .kExpectBody }, buf.retrieve (crlf + 2)) := by
          simp only [parseRound, hstate, hfind, hcolon]
        have hhead : headRound (ctx.timeless, buf.readable) =
            .again ({ ctx.timeless with state_ := .kExpectBody },
              (buf.retrieve (crlf + 2)).readable) := by
          simp only [headRound, timeless, hstate, hcut, hcolon]
        exact inStep_of_again hok hround hhead rfl rfl
      | some p =>
        have hround : parseRound t (ctx, buf) =
            .again ({ ctx with request_ := ctx.request_.addHeader p.1 p.2 },
              buf.retrieve (crlf + 2)) := by
          simp only [parseRound, hstate, hfind, hcolon]
        have hhead : headRound (ctx.timeless, buf.readable) =
            .again ({ ctx.timeless with request_ := ctx.timeless.request_.addHeader p.1 p.2 },
              (buf.retrieve (crlf + 2)).readable) := by
          simp only [headRound, timeless, hstate, hcut, hcolon]
        exact inStep_of_again hok hround hhead rfl rfl
  | kExpectBody =>
    -- the branch in which the two would differ needs a `Content-Length`
    have hnone : ctx.request_.getHeader kContentLength = [] := hok.none
    simp only [parseRound, headRound, timeless, hstate, hnone, ne_eq, not_true_eq_false, if_false]
    exact .exit ⟨rfl, rfl, rfl⟩
  | kGotAll =>
    have hopen := hok.open_
    simp [gotAll, timeless, hstate] at hopen

/-- A call of `parseRequest` on a stream without `Content-Length` returns what the head parser
returns. -/
theorem parseRequest_head (t : Timestamp) {ctx : HttpContext} {buf : Buffer} {r' : HeadResult}
    (hok : HeadOk (ctx.timeless, buf.readable))
    (h : Returns headRound (ctx.timeless, buf.readable) r') :
    ∃ r, parseRequest t ctx buf = some r ∧ HeadEnd r r' := by
  obtain ⟨r, hr, hend⟩ := h.simulate (fun _ _ hin => inStep_parseRound t hin)
    (⟨rfl, rfl, hok⟩ : InHead (ctx, buf) (ctx.timeless, buf.readable))
  exact ⟨r, parseRequest_eq_some.mpr hr, hend⟩

end HttpContext

end Mymuduo
