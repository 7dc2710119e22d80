import Mymuduo.Http.HeadParser

/-!
# The lines of a head

What the unread bytes say about the head in front of them, as text. `HeaderLines u ls v` takes the
lines `ls`, each with a colon, off the front of `u`. `HeadersEnd u ls last rest` goes on to the first
line without one. The parser takes these lines and no others (`goes_headerLines`,
`goes_headersEnd`), and of two Content-Length headers the later one counts (`announced`).
-/

namespace Mymuduo

open CString Lines Iteration

/-- The lines `ls`, all of them with a colon, stand in front of `v`. -/
inductive HeaderLines : Bytes → List Bytes → Bytes → Prop
  | nil (u : Bytes) : HeaderLines u [] u
  | cons {u line v w : Bytes} {ls : List Bytes} (hcut : cutLine u = some (line, v))
    (hcolon : HttpContext.hasColon line = true) (h : HeaderLines v ls w) :
    HeaderLines u (line :: ls) w

/-- Behind the lines `ls` stands `last`, the first line without a colon. -/
structure HeadersEnd (u : Bytes) (ls : List Bytes) (last rest : Bytes) : Prop where
  split : ∃ v, HeaderLines u ls v ∧ cutLine v = some (last, rest)
  noColon : HttpContext.hasColon last = false

theorem HeaderLines.snoc {u v w line : Bytes} {ls : List Bytes} (h : HeaderLines u ls v)
    (hcut : cutLine v = some (line, w)) (hcolon : HttpContext.hasColon line = true) :
    HeaderLines u (ls ++ [line]) w := by
  induction h with
  | nil u => exact .cons hcut hcolon (.nil w)
  | cons hcut' hcolon' _ ih => exact .cons hcut' hcolon' (ih hcut)

/-- More bytes behind leave the lines that are there. -/
theorem HeaderLines.append {u v : Bytes} {ls : List Bytes} (h : HeaderLines u ls v) (x : Bytes) :
    HeaderLines (u ++ x) ls (v ++ x) := by
  induction h with
  | nil u => exact .nil _
  | cons hcut hcolon _ ih => exact .cons (cutLine_append hcut x) hcolon ih

theorem HeadersEnd.append {u last rest : Bytes} {ls : List Bytes} (h : HeadersEnd u ls last rest)
    (x : Bytes) : HeadersEnd (u ++ x) ls last (rest ++ x) := by
  obtain ⟨⟨v, hlines, hcut⟩, hno⟩ := h
  exact ⟨⟨v ++ x, hlines.append x, cutLine_append hcut x⟩, hno⟩

theorem HeadersEnd.cons {u line v last rest : Bytes} {ls : List Bytes}
    (hcut : cutLine u = some (line, v)) (hcolon : HttpContext.hasColon line = true)
    (h : HeadersEnd v ls last rest) : HeadersEnd u (line :: ls) last rest := by
  obtain ⟨⟨w, hlines, hlast⟩, hno⟩ := h
  exact ⟨⟨w, .cons hcut hcolon hlines, hlast⟩, hno⟩

/-- The lines of a head can be told apart in one way only. -/
theorem HeadersEnd.unique {u last last' rest rest' : Bytes} {ls ls' : List Bytes}
    (h : HeadersEnd u ls last rest) (h' : HeadersEnd u ls' last' rest') :
    ls = ls' ∧ last = last' ∧ rest = rest' := by
  obtain ⟨⟨v, hlines, hcut⟩, hno⟩ := h
  obtain ⟨⟨v', hlines', hcut'⟩, hno'⟩ := h'
  induction hlines generalizing ls' with
  | nil u =>
    cases hlines' with
    | nil =>
      obtain ⟨rfl, rfl⟩ := Prod.mk.inj (Option.some.inj (hcut.symm.trans hcut'))
      exact ⟨rfl, rfl, rfl⟩
    | cons hcut₁ hcolon₁ =>
      obtain ⟨rfl, -⟩ := Prod.mk.inj (Option.some.inj (hcut.symm.trans hcut₁))
      exact absurd (hno.symm.trans hcolon₁) (by decide)
  | cons hcut₁ hcolon₁ _ ih =>
    cases hlines' with
    | nil =>
      obtain ⟨rfl, -⟩ := Prod.mk.inj (Option.some.inj (hcut₁.symm.trans hcut'))
      exact absurd (hno'.symm.trans hcolon₁) (by decide)
    | cons hcut₂ hcolon₂ hrest =>
      obtain ⟨rfl, rfl⟩ := Prod.mk.inj (Option.some.inj (hcut₁.symm.trans hcut₂))
      obtain ⟨rfl, rfl, rfl⟩ := ih hcut hrest
      exact ⟨rfl, rfl, rfl⟩

namespace HttpContext

/-- What a header line adds to the request. -/
def addLine (r : HttpRequest) (line : Bytes) : HttpRequest :=
  match cutByte COLON line with
  | some (field, rest) => r.addHeader field rest
  | none => r

/-- The value that `Content-Length` has after the header lines `ls`. -/
def announced (value : Bytes) (ls : List Bytes) : Bytes :=
  ls.foldl (fun value line =>
    match cutByte COLON line with
    | some (field, rest) =>
      if field = kContentLength then trimEnd (rest.dropWhile isspace) else value
    | none => value) value

theorem getHeader_addLines (r : HttpRequest) (ls : List Bytes) :
    (ls.foldl addLine r).getHeader kContentLength = announced (r.getHeader kContentLength) ls := by
  induction ls generalizing r with
  | nil => rfl
  | cons line ls ih =>
    rw [List.foldl_cons, ih, announced, announced, List.foldl_cons]
    congr 1
    unfold addLine
    split
    · rw [HttpRequest.getHeader_addHeader]
    · rfl

/-- A line that the buffer finds. -/
theorem findCRLF_of_cutLine {buf : Buffer} {line rest : Bytes}
    (h : cutLine buf.readable = some (line, rest)) :
    ∃ crlf, buf.findCRLF = some crlf ∧ buf.readable.take crlf = line ∧
      (buf.retrieve (crlf + 2)).readable = rest := by
  rw [findCRLF_eq] at h
  obtain ⟨crlf, hfind, heq⟩ := Option.map_eq_some_iff.mp h
  obtain ⟨hline, hrest⟩ := Prod.mk.inj heq
  exact ⟨crlf, hfind, hline, hrest⟩

/-- The parser takes a request line that is accepted. -/
theorem goes_requestLine (t : Timestamp) {r r' : HttpRequest} {buf : Buffer} {line rest : Bytes}
    (hcut : cutLine buf.readable = some (line, rest))
    (hline : r.processRequestLine line = (true, r')) :
    ∃ buf', Goes (parseRound t) (⟨.kExpectRequestLine, r⟩, buf)
      (⟨.kExpectHeaders, r'.setReceiveTime t⟩, buf') ∧ buf'.readable = rest := by
  obtain ⟨crlf, hfind, htake, hrest⟩ := findCRLF_of_cutLine hcut
  have hround : parseRound t (⟨.kExpectRequestLine, r⟩, buf) =
      .again (⟨.kExpectHeaders, r'.setReceiveTime t⟩, buf.retrieve (crlf + 2)) := by
    simp only [parseRound, hfind, htake, hline]
  exact ⟨_, .again hround (.refl _), hrest⟩

/-- The parser takes header lines up to any point. -/
theorem goes_headerLines (t : Timestamp) {u v : Bytes} {ls : List Bytes} (h : HeaderLines u ls v)
    (r : HttpRequest) {buf : Buffer} (hread : buf.readable = u) :
    ∃ buf', Goes (parseRound t) (⟨.kExpectHeaders, r⟩, buf)
      (⟨.kExpectHeaders, ls.foldl addLine r⟩, buf') ∧ buf'.readable = v := by
  induction h generalizing r buf with
  | nil u => exact ⟨buf, .refl _, hread⟩
  | @cons u line v w ls hcut hcolon _ ih =>
    have hcut' : cutLine buf.readable = some (line, v) := hread ▸ hcut
    obtain ⟨crlf, hfind, hline, hrest⟩ := findCRLF_of_cutLine hcut'
    obtain ⟨⟨field, value⟩, hfield⟩ := Option.isSome_iff_exists.mp hcolon
    have hadd : addLine r line = r.addHeader field value := by simp only [addLine, hfield]
    have hround : parseRound t (⟨.kExpectHeaders, r⟩, buf) =
        .again (⟨.kExpectHeaders, addLine r line⟩, buf.retrieve (crlf + 2)) := by
      simp only [parseRound, hfind, hline, hfield, hadd]
    obtain ⟨buf', hgo, hread'⟩ := ih (addLine r line) hrest
    exact ⟨buf', .again hround hgo, hread'⟩

/-- And then the line that ends them. -/
theorem goes_headersEnd (t : Timestamp) {u last rest : Bytes} {ls : List Bytes}
    (h : HeadersEnd u ls last rest) (r : HttpRequest) {buf : Buffer} (hread : buf.readable = u) :
    ∃ buf', Goes (parseRound t) (⟨.kExpectHeaders, r⟩, buf)
      (⟨.kExpectBody, ls.foldl addLine r⟩, buf') ∧ buf'.readable = rest := by
  obtain ⟨⟨v, hlines, hcut⟩, hno⟩ := h
  obtain ⟨buf', hgo, hread'⟩ := goes_headerLines t hlines r hread
  have hcut' : cutLine buf'.readable = some (last, rest) := hread' ▸ hcut
  obtain ⟨crlf, hfind, hline, hrest⟩ := findCRLF_of_cutLine hcut'
  have hnone : cutByte COLON last = none := by simpa [hasColon] using hno
  have hround : parseRound t (⟨.kExpectHeaders, ls.foldl addLine r⟩, buf') =
      .again (⟨.kExpectBody, ls.foldl addLine r⟩, buf'.retrieve (crlf + 2)) := by
    simp only [parseRound, hfind, hline, hnone]
  exact ⟨_, hgo.trans (.again hround (.refl _)), hrest⟩

end HttpContext

end Mymuduo
