import Mymuduo.Http.HeadDecoding

/-!
# Nothing but a head is taken for one

The grammar of a request head (`IsHead`) against what the parser lets through. The parser is fed any
bytes in any pieces (`Fed`, which passes through every state of the loop), and what it has consumed
is kept beside it (`Consumed`). The request line is checked word by word (`accepted_iff`); the end of
the headers is the first line without a colon, whether it is empty or not, so that a head is sound
exactly if that line is (`EmptyEnds`).

* `Consumed.fed`: what the parser has consumed, in every state.
* `sound_iff`: the streams on which the parser accepts nothing else.
* `sound_fails`: a line without a colon hides the headers behind it.
-/

namespace Mymuduo

open CString Lines Iteration

/-! ## The grammar -/

/-- A method, a target and a version between single blanks. -/
def IsRequestLine (line : Bytes) : Prop :=
  ∃ (m : Method) (target : Bytes) (v : Version), m ≠ .kInvalid ∧ v ≠ .kUnknown ∧ SP ∉ target ∧
    line = m.word ++ SP :: (target ++ SP :: v.word)

/-- A line that is not empty, has a colon and ends with its CR LF only. -/
structure IsHeaderLine (line : Bytes) : Prop where
  ne_nil : line ≠ []
  colon : COLON ∈ line
  whole : findCRLF line = none

/-- A request line, header lines and an empty line. -/
def IsHead (head : Bytes) : Prop :=
  ∃ (line : Bytes) (ls : List Bytes), IsRequestLine line ∧ findCRLF line = none ∧
    (∀ l ∈ ls, IsHeaderLine l) ∧ head = line ++ crlf ++ ls.flatMap (· ++ crlf) ++ crlf

theorem isHeaderLine_of_cut {u line v : Bytes} (hcut : cutLine u = some (line, v))
    (hcolon : HttpContext.hasColon line = true) : IsHeaderLine line := by
  have hmem := HttpContext.hasColon_iff.mp hcolon
  exact ⟨List.ne_nil_of_mem hmem, hmem, findCRLF_cutLine hcut⟩

theorem HeaderLines.text {u v : Bytes} {ls : List Bytes} (h : HeaderLines u ls v) :
    u = ls.flatMap (· ++ crlf) ++ v ∧ ∀ l ∈ ls, IsHeaderLine l := by
  induction h with
  | nil u => exact ⟨rfl, nofun⟩
  | @cons u line v w ls hcut hcolon _ ih =>
    obtain ⟨hv, hls⟩ := ih
    refine ⟨by rw [cutLine_eq_some hcut, List.flatMap_cons, List.append_assoc _ _ w, ← hv], ?_⟩
    intro l hl
    rcases List.mem_cons.mp hl with rfl | hl
    · exact isHeaderLine_of_cut hcut hcolon
    · exact hls l hl

/-- A head that ends with an empty line stands in front of what follows. -/
theorem HeadersEnd.isHead {s line u rest : Bytes} {ls : List Bytes}
    (hcut : cutLine s = some (line, u)) (hline : IsRequestLine line)
    (h : HeadersEnd u ls [] rest) : ∃ head, IsHead head ∧ s = head ++ rest := by
  obtain ⟨⟨v, hlines, hlast⟩, -⟩ := h
  obtain ⟨hu, hls⟩ := hlines.text
  refine ⟨line ++ crlf ++ ls.flatMap (· ++ crlf) ++ crlf,
    ⟨line, ls, hline, findCRLF_cutLine hcut, hls, rfl⟩, ?_⟩
  rw [cutLine_eq_some hcut, hu, cutLine_eq_some hlast]
  simp

/-! ## The request line -/

theorem str2int_eq_some {w : Bytes} {m : Method} (h : str2int w = some m) :
    m ≠ .kInvalid ∧ w = m.word := by
  unfold str2int at h
  split_ifs at h with h₁ h₂ h₃ h₄ h₅
  all_goals
    cases h
    exact ⟨by decide, ‹_›⟩

theorem setProtocol_eq_true {r : HttpRequest} {word : Bytes} (h : (r.setProtocol word).1 = true) :
    ∃ v : Version, v ≠ .kUnknown ∧ word = v.word := by
  unfold HttpRequest.setProtocol at h
  split at h
  · next hword =>
    have hsplit := List.take_append_drop 7 word
    rw [hword.2] at hsplit
    split at h
    · next hone =>
      rw [hone] at hsplit
      exact ⟨.kHttp11, by decide, hsplit.symm⟩
    · split at h
      · next hzero =>
        rw [hzero] at hsplit
        exact ⟨.kHttp10, by decide, hsplit.symm⟩
      · cases h
  · cases h

/-- A request line is accepted exactly if it is one, whatever the request holds already. -/
theorem accepted_iff (r : HttpRequest) (line : Bytes) :
    (r.processRequestLine line).1 = true ↔ IsRequestLine line := by
  constructor
  · intro h
    unfold HttpRequest.processRequestLine at h
    split at h
    · cases h
    · next w rest hcut =>
      obtain ⟨rfl, hw⟩ := cutByte_eq_some hcut
      cases hm : str2int w with
      | none => simp [HttpRequest.setMethod, hm] at h
      | some m =>
        obtain ⟨hknown, rfl⟩ := str2int_eq_some hm
        have hset : r.setMethod m.word = (true, { r with method_ := m }) := by
          simp [HttpRequest.setMethod, hm, hknown]
        rw [hset] at h
        dsimp only at h
        split at h
        · cases h
        · next target word hcut' =>
          obtain ⟨rfl, htarget⟩ := cutByte_eq_some hcut'
          obtain ⟨v, hspoken, rfl⟩ := setProtocol_eq_true h
          exact ⟨m, target, v, hknown, hspoken, htarget, rfl⟩
  · rintro ⟨m, target, v, hknown, hspoken, htarget, rfl⟩
    rw [RequestText.processRequestLine_words (HeadText.notMem_word m).1 htarget
      (HeadText.str2int_word hknown), HeadText.setProtocol_word hspoken]

namespace HttpContext

/-! ## Feeding the parser -/

/-- The parser as it can be once the bytes `s` have arrived in any pieces, between two rounds or two
calls. -/
inductive Fed : Bytes → HttpContext → Buffer → Prop
  | fresh {buf : Buffer} (hempty : buf.readable = []) : Fed [] .new buf
  | bytes {s data : Bytes} {ctx : HttpContext} {buf buf' : Buffer} (h : Fed s ctx buf)
    (hread : buf'.readable = buf.readable ++ data) : Fed (s ++ data) ctx buf'
  | round {s : Bytes} {t : Timestamp} {ctx ctx' : HttpContext} {buf buf' : Buffer}
    (h : Fed s ctx buf) (hround : parseRound t (ctx, buf) = .again (ctx', buf')) : Fed s ctx' buf'
  | returned {s : Bytes} {t : Timestamp} {ctx ctx' : HttpContext} {buf buf' : Buffer} {ok : Bool}
    (h : Fed s ctx buf) (hexit : parseRound t (ctx, buf) = .exit ⟨.returned ok, ctx', buf'⟩) :
    Fed s ctx' buf'

/-- The headers are behind the parser. -/
abbrev PastHeaders (ctx : HttpContext) : Prop :=
  ctx.state_ = .kExpectBody ∨ ctx.state_ = .kGotAll

/-- On the stream `s` the parser takes nothing but a head for a head: the header state is left only
behind one, and a line that is neither a header line nor empty is an error. -/
structure Sound (s : Bytes) : Prop where
  head : ∀ ctx buf, Fed s ctx buf → ctx.PastHeaders →
    ∃ head rest, IsHead head ∧ s = head ++ rest ∧ buf.readable <:+ rest
  strict : ∀ ctx buf t line rest, Fed s ctx buf → ctx.state_ = .kExpectHeaders →
    cutLine buf.readable = some (line, rest) → line ≠ [] → COLON ∉ line →
    ∃ r, parseRequest t ctx buf = some r ∧ r.outcome = .returned false

/-- The first line without a colon behind the request line is empty, if there is one. -/
def EmptyEnds (s : Bytes) : Prop :=
  ∀ line u ls last rest, cutLine s = some (line, u) → IsRequestLine line →
    HeadersEnd u ls last rest → last = []

/-- What of the stream `s` the parser has consumed. -/
inductive Consumed (s : Bytes) (ctx : HttpContext) (buf : Buffer) : Prop
  | nothing (hstate : ctx.state_ = .kExpectRequestLine) (hread : buf.readable = s)
  | lines {line u : Bytes} {ls : List Bytes} (hstate : ctx.state_ = .kExpectHeaders)
    (hcut : cutLine s = some (line, u)) (hline : IsRequestLine line)
    (hlines : HeaderLines u ls buf.readable)
  | headers {line u last rest : Bytes} {ls : List Bytes} (hpast : ctx.PastHeaders)
    (hcut : cutLine s = some (line, u)) (hline : IsRequestLine line)
    (hends : HeadersEnd u ls last rest) (hrest : buf.readable <:+ rest)

/-- New bytes arrive behind. -/
theorem Consumed.bytes {s data : Bytes} {ctx : HttpContext} {buf buf' : Buffer}
    (h : Consumed s ctx buf) (hread : buf'.readable = buf.readable ++ data) :
    Consumed (s ++ data) ctx buf' := by
  cases h with
  | nothing hstate heq => exact .nothing hstate (by rw [hread, heq])
  | lines hstate hcut hline hlines =>
    exact .lines hstate (cutLine_append hcut data) hline (hread ▸ hlines.append data)
  | headers hpast hcut hline hends hrest =>
    refine .headers hpast (cutLine_append hcut data) hline (hends.append data) ?_
    obtain ⟨pre, rfl⟩ := hrest
    exact ⟨pre, by rw [hread, List.append_assoc]⟩

/-- A round that goes on takes the next line, if any. -/
theorem Consumed.round {s : Bytes} {t : Timestamp} {ctx ctx' : HttpContext} {buf buf' : Buffer}
    (h : Consumed s ctx buf) (hcont : Continues t ctx buf ctx' buf') : Consumed s ctx' buf' := by
  cases hcont with
  | requestLine hstate hfind hline =>
    cases h with
    | nothing _ heq =>
      have hcut := cutLine_of_findCRLF hfind
      rw [heq] at hcut hline
      exact .lines rfl hcut ((accepted_iff ctx.request_ _).mp (by rw [hline])) (.nil _)
    | lines hstate' => simp [hstate] at hstate'
    | headers hpast => simp [PastHeaders, hstate] at hpast
  | header hstate hfind hfield =>
    cases h with
    | nothing hstate' => simp [hstate] at hstate'
    | headers hpast => simp [PastHeaders, hstate] at hpast
    | lines _ hcut hline hlines =>
      exact .lines hstate hcut hline
        (hlines.snoc (cutLine_of_findCRLF hfind) (by simp [hasColon, hfield]))
  | lastLine hstate hfind hnone =>
    cases h with
    | nothing hstate' => simp [hstate] at hstate'
    | headers hpast => simp [PastHeaders, hstate] at hpast
    | lines _ hcut hline hlines =>
      have hends : HeadersEnd _ _ _ _ :=
        ⟨⟨_, hlines, cutLine_of_findCRLF hfind⟩, by simp [hasColon, hnone]⟩
      exact .headers (.inl rfl) hcut hline hends List.suffix_rfl
  | stuck | gotAll => exact h

/-- A call that returns consumes the body at most. -/
theorem Consumed.returned {s : Bytes} {ctx : HttpContext} {buf : Buffer} {r : ParseResult}
    (h : Consumed s ctx buf) (hexit : Exits ctx buf r) : Consumed s r.context r.buffer := by
  cases hexit with
  | waits => exact h
  | badLine hstate hfind hline =>
    cases h with
    | nothing _ heq => exact .nothing hstate heq
    | lines hstate' => simp [hstate] at hstate'
    | headers hpast => simp [PastHeaders, hstate] at hpast
  | noBody hstate hnone =>
    cases h with
    | nothing hstate' => simp [hstate] at hstate'
    | lines hstate' => simp [hstate] at hstate'
    | headers _ hcut hline hends hrest => exact .headers (.inr rfl) hcut hline hends hrest
  | body len hstate =>
    cases h with
    | nothing hstate' => simp [hstate] at hstate'
    | lines hstate' => simp [hstate] at hstate'
    | headers hpast hcut hline hends hrest =>
      unfold takeBody
      split
      · exact .headers hpast hcut hline hends hrest
      · split
        · exact .headers hpast hcut hline hends hrest
        · refine .headers (.inr rfl) hcut hline hends ?_
          rw [Buffer.readable_retrieve]
          exact (List.drop_suffix _ _).trans hrest
  | threw => exact h

theorem Consumed.fed {s : Bytes} {ctx : HttpContext} {buf : Buffer} (h : Fed s ctx buf) :
    Consumed s ctx buf := by
  induction h with
  | fresh hempty => exact .nothing rfl hempty
  | bytes _ hread ih => exact ih.bytes hread
  | round _ hround ih => exact ih.round (parseRound_continues hround)
  | returned _ hexit ih => exact ih.returned (parseRound_exit hexit)

/-! ## Which streams are sound -/

theorem sound_of_emptyEnds {s : Bytes} (h : EmptyEnds s) : Sound s := by
  constructor
  · intro ctx buf hfed hpast
    cases Consumed.fed hfed with
    | nothing hstate => simp [PastHeaders, hstate] at hpast
    | lines hstate => simp [PastHeaders, hstate] at hpast
    | headers _ hcut hline hends hrest =>
      obtain rfl := h _ _ _ _ _ hcut hline hends
      obtain ⟨head, hhead, hs⟩ := hends.isHead hcut hline
      exact ⟨head, _, hhead, hs, hrest⟩
  · intro ctx buf t line rest hfed hstate hcut' hne hcolon
    cases Consumed.fed hfed with
    | nothing hstate' => simp [hstate] at hstate'
    | headers hpast => simp [PastHeaders, hstate] at hpast
    | lines _ hcut hline hlines =>
      have hno : hasColon line = false := Bool.eq_false_iff.mpr (mt hasColon_iff.mp hcolon)
      exact absurd (h _ _ _ _ _ hcut hline ⟨⟨_, hlines, hcut'⟩, hno⟩) hne

theorem Fed.goes {s : Bytes} {t : Timestamp} {p p' : HttpContext × Buffer}
    (hgo : Goes (parseRound t) p p') (h : Fed s p.1 p.2) : Fed s p'.1 p'.2 := by
  induction hgo with
  | refl => exact h
  | again hround _ ih => exact ih (h.round hround)

/-- A call that begins in the headers does not return `false`, so that any other line without a
colon ends them, too. -/
theorem emptyEnds_of_sound {s : Bytes} (h : Sound s) : EmptyEnds s := by
  intro line u ls last rest hcut hline hends
  by_contra hne
  obtain ⟨⟨v, hlines, hlast⟩, hno⟩ := hends
  have hcolon : COLON ∉ last := mt hasColon_iff.mpr (Bool.eq_false_iff.mp hno)
  have hread : ((Buffer.new kInitialSize).append s).readable = s := by
    rw [Buffer.readable_append, Buffer.readable_new, List.nil_append]
  have hfed : Fed s .new ((Buffer.new kInitialSize).append s) := by
    have hfresh : Fed [] .new (Buffer.new kInitialSize) := .fresh (Buffer.readable_new _)
    exact hfresh.bytes (Buffer.readable_append ..)
  have haccepted := (accepted_iff HttpRequest.new line).mpr hline
  cases hr : HttpRequest.new.processRequestLine line with
  | mk ok r =>
    rw [hr] at haccepted
    cases haccepted
    obtain ⟨buf₁, hgo₁, hread₁⟩ := goes_requestLine 0 (hread.symm ▸ hcut) hr
    obtain ⟨buf₂, hgo₂, hread₂⟩ := goes_headerLines 0 hlines (r.setReceiveTime 0) hread₁
    have hfed₂ := hfed.goes (hgo₁.trans hgo₂)
    obtain ⟨e, he, hfalse⟩ := h.strict _ _ 0 last rest hfed₂ rfl (hread₂ ▸ hlast) hne hcolon
    cases (rejected_of_false he hfalse).1

/-- The parser takes nothing but a head for one on exactly the streams in which the first line
without a colon behind the request line is empty, if there is one. -/
theorem sound_iff (s : Bytes) : Sound s ↔ EmptyEnds s :=
  ⟨emptyEnds_of_sound, sound_of_emptyEnds⟩

/-- A request with a line that has no colon, and another request behind that line. -/
def smuggled : Bytes :=
  ascii "GET / HTTP/1.1" ++ crlf ++ ascii "Host" ++ crlf ++ ascii "GET /admin HTTP/1.1" ++ crlf ++
    crlf

/-- A line without a colon hides the headers behind it: the first request is complete and the next
one begins there. -/
theorem sound_fails :
    ((parseRequest 0 .new ((Buffer.new kInitialSize).append smuggled)).map fun r =>
        (r.outcome, r.context.gotAll, r.buffer.readable)) =
      some (.returned true, true, ascii "GET /admin HTTP/1.1" ++ crlf ++ crlf) ∧
    ¬ Sound smuggled ∧ ¬ ∀ s, Sound s := by
  have hnot : ¬ Sound smuggled := by
    intro h
    have hline : IsRequestLine (ascii "GET / HTTP/1.1") :=
      ⟨.kGet, ascii "/", .kHttp11, by decide, by decide, by decide, by decide⟩
    have hends : HeadersEnd (ascii "Host" ++ crlf ++ ascii "GET /admin HTTP/1.1" ++ crlf ++ crlf) []
        (ascii "Host") (ascii "GET /admin HTTP/1.1" ++ crlf ++ crlf) :=
      ⟨⟨_, .nil _, by decide +kernel⟩, by decide⟩
    exact absurd (emptyEnds_of_sound h _ _ _ _ _ (by decide +kernel) hline hends) (by decide)
  exact ⟨by decide +kernel, hnot, fun hall => hnot (hall smuggled)⟩

end HttpContext

end Mymuduo
