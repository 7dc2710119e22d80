import Mymuduo.Http.HeadParser

/-!
# The request head does not depend on how it arrives

`feed` gives a context a stream in chunks, one call of `parseRequest` after each, as long as it
waits for more. `segmentation_independent` says that the call after one more chunk ends as the only
call does when the whole stream is there at once. The argument follows the head parser: waiting
after a chunk is a place on the way through the whole stream (`feed_goes`).
-/

namespace Mymuduo.HttpContext

open CString Lines Iteration

/-- The bytes of a division into chunks; each chunk comes with the time of its arrival. -/
def chunkBytes (chunks : List (Timestamp × Bytes)) : Bytes := chunks.flatMap Prod.snd

/-- Where the chunks before the last one lead. -/
inductive FeedEnd
  /-- Every call waits for more. -/
  | waiting (ctx : HttpContext) (buf : Buffer)
  /-- A call returned `false` or got all. -/
  | stopped
  /-- A call did not return. -/
  | lost
  deriving DecidableEq

/-- A call of `parseRequest` after each chunk, until one does not wait for more. -/
def feed (ctx : HttpContext) (buf : Buffer) : List (Timestamp × Bytes) → FeedEnd
  | [] => .waiting ctx buf
  | (t, c) :: chunks =>
    match parseRequest t ctx (buf.append c) with
    | some ⟨.returned ok, ctx₁, buf₁⟩ =>
      if ok && !ctx₁.gotAll then feed ctx₁ buf₁ chunks else .stopped
    | _ => .lost

/-- No header line of the stream has the field name `Content-Length`. -/
def NoContentLength (s : Bytes) : Prop := ∀ line ∈ headerLines s, NotContentLength line

theorem headOk_new {s : Bytes} (hs : NoContentLength s) : HeadOk (new.timeless, s) :=
  ⟨rfl, HttpRequest.getHeader_new kContentLength, hs⟩

/-- A context that waits after some chunks is on the way through the whole stream. -/
theorem feed_goes {ctx : HttpContext} {buf : Buffer} {chunks : List (Timestamp × Bytes)}
    (h : feed ctx buf chunks ≠ .stopped) {v : Bytes}
    (hok : HeadOk (ctx.timeless, buf.readable ++ (chunkBytes chunks ++ v))) :
    ∃ ctx' buf', feed ctx buf chunks = .waiting ctx' buf' ∧
      Goes headRound (ctx.timeless, buf.readable ++ (chunkBytes chunks ++ v))
        (ctx'.timeless, buf'.readable ++ v) := by
  induction chunks generalizing ctx buf with
  | nil => exact ⟨ctx, buf, rfl, .refl _⟩
  | cons p chunks ih =>
    obtain ⟨t, c⟩ := p
    have hsplit : buf.readable ++ (chunkBytes ((t, c) :: chunks) ++ v) =
        (buf.append c).readable ++ (chunkBytes chunks ++ v) := by
      simp [chunkBytes]
    rw [hsplit] at hok ⊢
    obtain ⟨r', hr'⟩ := head_returns (ctx.timeless, (buf.append c).readable)
    obtain ⟨⟨outcome, ctx₁, buf₁⟩, hcall, houtcome, hctx, hbuf⟩ :=
      parseRequest_head t hok.of_append hr'
    dsimp only at houtcome hctx hbuf
    subst houtcome
    simp only [feed, hcall] at h ⊢
    cases hwait : r'.ok && !ctx₁.gotAll with
    | false =>
      rw [hwait] at h
      exact absurd rfl h
    | true =>
      simp only [hwait, if_true] at h ⊢
      simp only [Bool.and_eq_true, Bool.not_eq_true'] at hwait
      -- where the call stopped waiting is where the rest of the stream goes on
      have hgo := head_extend hr' hwait.1 (hctx ▸ hwait.2) (chunkBytes chunks ++ v)
      rw [← hctx, ← hbuf] at hgo
      obtain ⟨ctx₂, buf₂, hfeed, hrest⟩ := ih h (hgo.invariant (fun _ _ h hb => h.again hb) hok)
      exact ⟨ctx₂, buf₂, hfeed, hgo.trans hrest⟩

/-- However a head without `Content-Length` is divided into chunks, the call after the last one
ends as a single call on the whole does: with the same return value, the same context but for the
receive time, and the same unread bytes. -/
theorem segmentation_independent {buf₀ buf₁ : Buffer} (h₀ : buf₀.readable = [])
    (h₁ : buf₁.readable = []) (chunks : List (Timestamp × Bytes))
    (hmore : feed new buf₀ chunks ≠ .stopped) (t t' : Timestamp) (c : Bytes)
    (hs : NoContentLength (chunkBytes chunks ++ c)) :
    ∃ ctx buf r r' ok, feed new buf₀ chunks = .waiting ctx buf ∧
      parseRequest t ctx (Buffer.append buf c) = some r ∧
      parseRequest t' new (buf₁.append (chunkBytes chunks ++ c)) = some r' ∧
      r.outcome = .returned ok ∧ r'.outcome = .returned ok ∧
      r.context.timeless = r'.context.timeless ∧ r.buffer.readable = r'.buffer.readable := by
  have hok : HeadOk (new.timeless, buf₀.readable ++ (chunkBytes chunks ++ c)) := by
    rw [h₀]
    exact headOk_new hs
  obtain ⟨ctx, buf, hfeed, hgo⟩ := feed_goes hmore hok
  have hok' := hgo.invariant (fun _ _ h hb => h.again hb) hok
  obtain ⟨e, he⟩ := head_returns (ctx.timeless, buf.readable ++ c)
  have hwhole := hgo.returns he
  rw [← Buffer.readable_append] at he hok'
  obtain ⟨r, hr, hout, hctx, hbuf⟩ := parseRequest_head t hok' he
  have hsame : buf₀.readable ++ (chunkBytes chunks ++ c) =
      (buf₁.append (chunkBytes chunks ++ c)).readable := by
    rw [Buffer.readable_append, h₀, h₁]
  rw [hsame] at hwhole hok
  obtain ⟨r', hr', hout', hctx', hbuf'⟩ := parseRequest_head t' hok hwhole
  exact ⟨ctx, buf, r, r', e.ok, hfeed, hr, hr', hout, hout', hctx.trans hctx'.symm,
    hbuf.trans hbuf'.symm⟩

/-- A head cut inside a field name and inside a line's end. -/
theorem segmentation_independent_get :
    let s₁ := ascii "GET / HTTP/1.1" ++ [13, 10] ++ ascii "Ho"
    let s₂ := ascii "st: a" ++ [13]
    let s₃ := [10, 13, 10]
    ∃ ctx buf r r' ok,
      feed new (Buffer.new kInitialSize) [(1, s₁), (2, s₂)] = .waiting ctx buf ∧
      parseRequest 3 ctx (Buffer.append buf s₃) = some r ∧
      parseRequest 0 new ((Buffer.new kInitialSize).append (s₁ ++ s₂ ++ s₃)) = some r' ∧
      r.outcome = .returned ok ∧ r'.outcome = .returned ok ∧
      r.context.timeless = r'.context.timeless ∧ r.buffer.readable = r'.buffer.readable := by
  intro s₁ s₂ s₃
  have hs : NoContentLength (chunkBytes [(1, s₁), (2, s₂)] ++ s₃) := by
    have hlines : lines (chunkBytes [(1, s₁), (2, s₂)] ++ s₃) =
        [ascii "GET / HTTP/1.1", ascii "Host: a", []] := by
      rw [lines_of_some (l := ascii "GET / HTTP/1.1")
          (r := ascii "Host: a" ++ [13, 10, 13, 10]) rfl,
        lines_of_some (l := ascii "Host: a") (r := [13, 10]) rfl,
        lines_of_some (l := []) (r := []) rfl, lines_of_none rfl]
    have hheaders : headerLines (chunkBytes [(1, s₁), (2, s₂)] ++ s₃) = [ascii "Host: a"] := by
      rw [headerLines, hlines]
      decide
    intro line hline field rest hcut
    rw [hheaders, List.mem_singleton] at hline
    have hhost : cutByte COLON line = some (ascii "Host", ascii " a") := by
      rw [hline]
      decide
    cases hcut.symm.trans hhost
    decide
  exact segmentation_independent (Buffer.readable_new _) (Buffer.readable_new kInitialSize)
    [(1, s₁), (2, s₂)] (by decide +kernel) 3 0 s₃ hs

end Mymuduo.HttpContext
