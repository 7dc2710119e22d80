import Mymuduo.Http.HeadParser

/-!
# Request texts

A request without a body, as a client writes it (`RequestText.render`), and what it says
(`RequestText.parsed`). The head parser takes such a text off the front of any stream and returns
what it says (`returns_render`), unless the method is unknown to it.
-/

namespace Mymuduo

open CString Lines Iteration

/-- A header line: the name, a colon, and the value between blanks. -/
structure HeaderLine where
  name : Bytes
  leading : Bytes
  value : Bytes
  trailing : Bytes
  deriving DecidableEq

/-- A request without a body. -/
structure RequestText where
  method : Bytes
  path : Bytes
  query : Option Bytes
  headers : List HeaderLine
  deriving DecidableEq

namespace HeaderLine

def line (h : HeaderLine) : Bytes := h.name ++ COLON :: (h.leading ++ h.value ++ h.trailing)

/-- The line can be told from others, does not announce a body, and blanks stand outside the value
only. -/
structure WellFormed (h : HeaderLine) : Prop where
  name : COLON ∉ h.name ∧ LF ∉ h.name
  noBody : h.name ≠ HttpContext.kContentLength
  leading : ∀ b ∈ h.leading, isspace b = true ∧ b ≠ LF
  trailing : ∀ b ∈ h.trailing, isspace b = true ∧ b ≠ LF
  value : LF ∉ h.value
  first : ∀ b ∈ h.value.head?, isspace b = false
  last : ∀ b ∈ h.value.getLast?, isspace b = false

end HeaderLine

namespace RequestText

def target (q : RequestText) : Bytes :=
  match q.query with
  | none => q.path
  | some query => q.path ++ QUESTION :: query

def requestLine (q : RequestText) : Bytes :=
  q.method ++ SP :: (q.target ++ SP :: ascii "HTTP/1.1")

/-- Header lines and the empty line. -/
def renderHeaders (hs : List HeaderLine) : Bytes :=
  hs.flatMap (fun h => h.line ++ crlf) ++ crlf

/-- The text of the request. -/
def render (q : RequestText) : Bytes := q.requestLine ++ crlf ++ renderHeaders q.headers

/-- Any method without a blank, any target without a blank, any headers. -/
structure WellFormed (q : RequestText) : Prop where
  method : SP ∉ q.method ∧ LF ∉ q.method
  path : SP ∉ q.path ∧ LF ∉ q.path ∧ QUESTION ∉ q.path
  query : ∀ t ∈ q.query, SP ∉ t ∧ LF ∉ t
  headers : ∀ h ∈ q.headers, h.WellFormed

/-- The method is one of those that `HttpRequest` has. -/
def Known (q : RequestText) : Prop := (str2int q.method).isSome

instance (q : RequestText) : Decidable q.Known := inferInstanceAs (Decidable (_ = true))

/-- The fields; of two headers with one name the later one counts. -/
def fields (m : StringMap) (hs : List HeaderLine) : StringMap :=
  hs.foldl (fun m h => m.insert h.name h.value) m

/-- What the request says. -/
def parsed (q : RequestText) : HttpRequest where
  method_ := (str2int q.method).getD .kInvalid
  version_ := .kHttp11
  path_ := q.path
  query_ := q.query.elim [] fun t => QUESTION :: t
  body_ := []
  receiveTime_ := 0
  headers_ := fields ∅ q.headers

/-! ## The request line -/

theorem setTarget_target {q : RequestText} (hq : q.WellFormed) (r : HttpRequest)
    (hquery : r.query_ = []) :
    r.setTarget q.target =
      (r.setPath q.path).setQuery (q.query.elim [] fun t => QUESTION :: t) := by
  unfold HttpRequest.setTarget target
  cases q.query with
  | none =>
    rw [cutByte_eq_none.mpr hq.path.2.2]
    simp [HttpRequest.setPath, HttpRequest.setQuery, hquery]
  | some query =>
    rw [cutByte_append hq.path.2.2]
    rfl

/-- A request line of three words. -/
theorem processRequestLine_words {m target : Bytes} {method : Method} (hm : SP ∉ m)
    (htarget : SP ∉ target) (hmethod : str2int m = some method) (r : HttpRequest) (word : Bytes) :
    r.processRequestLine (m ++ SP :: (target ++ SP :: word)) =
      ({ r with method_ := method }.setTarget target).setProtocol word := by
  have hne : method ≠ .kInvalid := by
    rintro rfl
    exact str2int_ne _ hmethod
  have hset : r.setMethod m = (true, { r with method_ := method }) := by
    simp [HttpRequest.setMethod, hmethod, hne]
  simp only [HttpRequest.processRequestLine, cutByte_append hm, hset, cutByte_append htarget]

/-- The request line of a known method sets what it says. -/
theorem processRequestLine_requestLine {q : RequestText} (hq : q.WellFormed) (hknown : q.Known) :
    HttpRequest.new.processRequestLine q.requestLine =
      (true, { q.parsed with headers_ := ∅ }) := by
  obtain ⟨m, hm⟩ := Option.isSome_iff_exists.mp hknown
  have htarget : SP ∉ q.target := by
    unfold target
    cases hquery : q.query with
    | none => exact hq.path.1
    | some query =>
      simp only [List.mem_append, List.mem_cons, not_or]
      exact ⟨hq.path.1, by decide, (hq.query query hquery).1⟩
  have hprotocol : ∀ r : HttpRequest,
      r.setProtocol (ascii "HTTP/1.1") = (true, r.setVersion .kHttp11) := fun r => by
    simp only [HttpRequest.setProtocol]
    rw [if_pos (by decide), if_pos (by decide)]
  rw [requestLine, processRequestLine_words hq.method.1 htarget hm, hprotocol,
    setTarget_target hq { HttpRequest.new with method_ := m } rfl]
  simp [HttpRequest.setVersion, HttpRequest.setQuery, HttpRequest.setPath, HttpRequest.new, parsed,
    hm]

theorem notMem_requestLine {q : RequestText} (hq : q.WellFormed) : LF ∉ q.requestLine := by
  have htarget : LF ∉ q.target := by
    unfold target
    cases hquery : q.query with
    | none => exact hq.path.2.1
    | some query =>
      simp only [List.mem_append, List.mem_cons, not_or]
      exact ⟨hq.path.2.1, by decide, (hq.query query hquery).2⟩
  simp only [requestLine, List.mem_append, List.mem_cons, not_or]
  exact ⟨hq.method.2, by decide, htarget, by decide, by decide⟩

/-! ## The header lines -/

theorem notMem_line {h : HeaderLine} (hh : h.WellFormed) : LF ∉ h.line := by
  have hleading : LF ∉ h.leading := fun hm => (hh.leading LF hm).2 rfl
  have htrailing : LF ∉ h.trailing := fun hm => (hh.trailing LF hm).2 rfl
  simp only [HeaderLine.line, List.mem_append, List.mem_cons, not_or]
  exact ⟨hh.name.2, by decide, ⟨hleading, hh.value⟩, htrailing⟩

theorem dropWhile_of_head {s : Bytes} (h : ∀ b ∈ s.head?, isspace b = false) :
    s.dropWhile isspace = s := by
  cases s with
  | nil => rfl
  | cons b s => rw [List.dropWhile_cons_of_neg (by simp [h b rfl])]

/-- The parser cuts the blanks off on both sides. -/
theorem trimEnd_value {h : HeaderLine} (hh : h.WellFormed) :
    trimEnd ((h.leading ++ h.value ++ h.trailing).dropWhile isspace) = h.value := by
  have hlead : ∀ b ∈ h.leading, isspace b = true := fun b hb => (hh.leading b hb).1
  have htrail : ∀ b ∈ h.trailing.reverse, isspace b = true := fun b hb =>
    (hh.trailing b (List.mem_reverse.mp hb)).1
  rw [List.append_assoc, List.dropWhile_append_of_pos hlead]
  rcases eq_or_ne h.value [] with hnil | hne
  · have hdrop : h.trailing.dropWhile isspace = [] :=
      List.dropWhile_eq_nil_iff.mpr fun b hb => (hh.trailing b hb).1
    rw [hnil, List.nil_append, hdrop]
    rfl
  · have hhead : (h.value ++ h.trailing).dropWhile isspace = h.value ++ h.trailing := by
      refine dropWhile_of_head fun b hb => hh.first b ?_
      rwa [List.head?_append_of_ne_nil _ hne] at hb
    have hlast : h.value.reverse.dropWhile isspace = h.value.reverse :=
      dropWhile_of_head fun b hb => hh.last b (by rwa [List.head?_reverse] at hb)
    rw [hhead, trimEnd, List.reverse_append, List.dropWhile_append_of_pos htrail, hlast,
      List.reverse_reverse]

theorem cutByte_line {h : HeaderLine} (hh : h.WellFormed) :
    cutByte COLON h.line = some (h.name, h.leading ++ h.value ++ h.trailing) :=
  cutByte_append hh.name.1 _

theorem addHeader_line {h : HeaderLine} (hh : h.WellFormed) (r : HttpRequest) :
    r.addHeader h.name (h.leading ++ h.value ++ h.trailing) =
      { r with headers_ := r.headers_.insert h.name h.value } := by
  rw [HttpRequest.addHeader, trimEnd_value hh]

theorem cutLine_renderHeaders_cons {h : HeaderLine} (hh : h.WellFormed) (hs : List HeaderLine)
    (v : Bytes) :
    cutLine (renderHeaders (h :: hs) ++ v) = some (h.line, renderHeaders hs ++ v) := by
  have hsplit : renderHeaders (h :: hs) ++ v = h.line ++ crlf ++ (renderHeaders hs ++ v) := by
    simp [renderHeaders]
  rw [hsplit, cutLine_line (notMem_line hh)]

theorem cutLine_renderHeaders_nil (v : Bytes) :
    cutLine (renderHeaders [] ++ v) = some ([], v) :=
  cutLine_line (by simp) v

/-- The head parser goes through the header lines and the empty line. -/
theorem goes_renderHeaders {hs : List HeaderLine} (hhs : ∀ h ∈ hs, h.WellFormed) (r : HttpRequest)
    (v : Bytes) :
    Goes HttpContext.headRound (⟨.kExpectHeaders, r⟩, renderHeaders hs ++ v)
      (⟨.kExpectBody, { r with headers_ := fields r.headers_ hs }⟩, v) := by
  induction hs generalizing r with
  | nil =>
    have hround : HttpContext.headRound (⟨.kExpectHeaders, r⟩, renderHeaders [] ++ v) =
        .again (⟨.kExpectBody, r⟩, v) := by
      simp only [HttpContext.headRound, cutLine_renderHeaders_nil]
      rfl
    exact .again hround (.refl _)
  | cons h hs ih =>
    have hh := hhs h List.mem_cons_self
    have hround : HttpContext.headRound (⟨.kExpectHeaders, r⟩, renderHeaders (h :: hs) ++ v) =
        .again (⟨.kExpectHeaders, { r with headers_ := r.headers_.insert h.name h.value }⟩,
          renderHeaders hs ++ v) := by
      simp only [HttpContext.headRound, cutLine_renderHeaders_cons hh, cutByte_line hh,
        addHeader_line hh]
    exact .again hround (ih (fun h' hm => hhs h' (List.mem_cons_of_mem _ hm)) _)

/-- The head parser takes a request off the front of a stream. -/
theorem returns_render {q : RequestText} (hq : q.WellFormed) (hknown : q.Known) (v : Bytes) :
    Returns HttpContext.headRound (HttpContext.new, q.render ++ v)
      ⟨true, ⟨.kGotAll, q.parsed⟩, v⟩ := by
  have hcut : cutLine (q.render ++ v) = some (q.requestLine, renderHeaders q.headers ++ v) := by
    rw [render, List.append_assoc, cutLine_line (notMem_requestLine hq)]
  have hround : HttpContext.headRound (HttpContext.new, q.render ++ v) =
      .again (⟨.kExpectHeaders, { q.parsed with headers_ := ∅ }⟩,
        renderHeaders q.headers ++ v) := by
    simp only [HttpContext.headRound, HttpContext.new, hcut,
      processRequestLine_requestLine hq hknown]
  exact .of_again hround ((goes_renderHeaders hq.headers _ v).returns (.of_exit rfl))

/-- As long as a part of the request is missing, the head parser waits. -/
theorem waits_of_incomplete {q : RequestText} (hq : q.WellFormed) (hknown : q.Known)
    {p missing : Bytes} (hsplit : q.render = p ++ missing) (hne : missing ≠ []) :
    ∃ e, Returns HttpContext.headRound (HttpContext.new, p) e ∧ e.ok = true ∧
      e.context.gotAll = false := by
  obtain ⟨e, he⟩ := HttpContext.head_returns (HttpContext.new, p)
  refine ⟨e, he, ?_⟩
  by_contra hwait
  have hstop : e.ok = false ∨ e.context.gotAll = true := by
    rw [not_and_or, Bool.not_eq_true, Bool.not_eq_false] at hwait
    exact hwait
  have hfinal := HttpContext.head_final he hstop missing
  have hwhole := returns_render hq hknown []
  rw [List.append_nil, hsplit] at hwhole
  have hunread : e.unread ++ missing = [] := congrArg HeadResult.unread (hfinal.unique hwhole)
  exact hne (List.append_eq_nil_iff.mp hunread).2

/-! ## No body is announced -/

theorem hasColon_line {h : HeaderLine} (hh : h.WellFormed) :
    HttpContext.hasColon h.line = true := by
  simp [HttpContext.hasColon, cutByte_line hh]

theorem takeWhile_renderHeaders {hs : List HeaderLine} (hhs : ∀ h ∈ hs, h.WellFormed) (v : Bytes) :
    (lines (renderHeaders hs ++ v)).takeWhile HttpContext.hasColon = hs.map HeaderLine.line := by
  induction hs with
  | nil =>
    rw [lines_of_some (cutLine_renderHeaders_nil v)]
    rfl
  | cons h hs ih =>
    have hh := hhs h List.mem_cons_self
    rw [lines_of_some (cutLine_renderHeaders_cons hh hs v),
      List.takeWhile_cons_of_pos (hasColon_line hh),
      ih fun h' hm => hhs h' (List.mem_cons_of_mem _ hm), List.map_cons]

/-- A stream that starts with such a request. -/
theorem headOk_render {q : RequestText} (hq : q.WellFormed) (v : Bytes) :
    HttpContext.HeadOk (HttpContext.new, q.render ++ v) := by
  refine ⟨rfl, HttpRequest.getHeader_new _, ?_⟩
  intro line hline field rest hcut
  have hlines : lines (q.render ++ v) =
      q.requestLine :: lines (renderHeaders q.headers ++ v) := by
    refine lines_of_some ?_
    rw [render, List.append_assoc, cutLine_line (notMem_requestLine hq)]
  have hcoming : HttpContext.comingHeaders HttpContext.new (q.render ++ v) =
      q.headers.map HeaderLine.line := by
    simp only [HttpContext.comingHeaders, HttpContext.new, HttpContext.headerLines, hlines,
      List.tail_cons, takeWhile_renderHeaders hq.headers v]
  rw [hcoming] at hline
  obtain ⟨h, hh, rfl⟩ := List.mem_map.mp hline
  rw [cutByte_line (hq.headers h hh)] at hcut
  cases hcut
  exact (hq.headers h hh).noBody

theorem length_render_pos (q : RequestText) : 0 < q.render.length := by
  simp [render, crlf]

end RequestText

end Mymuduo
