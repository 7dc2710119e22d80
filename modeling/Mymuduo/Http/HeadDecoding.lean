import Mymuduo.Http.HeadLines
import Mymuduo.Http.RequestText

/-!
# Decoding a request head

Any head that a client can write (`HeadText`) is read back as what it says (`HeadText.decoded`):
a method that the server knows, a target that may hold any bytes but blanks and line ends, one of
the two versions, and any map of headers, written in any order with any blanks before the values.

* `fields_eq`: header lines in any order are the map they were written from.
* `headersEnd_renderHeaders`: no byte of a name or a value is taken for the end of the head.
* `parseRequest_headText`: the parser returns exactly what was written and leaves what follows.
-/

namespace Mymuduo

open CString Lines Iteration

/-- The word for the method in a request line. -/
def Method.word : Method → Bytes
  | .kInvalid => []
  | .kGet => ascii "GET"
  | .kPost => ascii "POST"
  | .kHead => ascii "HEAD"
  | .kPut => ascii "PUT"
  | .kDelete => ascii "DELETE"

/-- The word for the version. -/
def Version.word : Version → Bytes
  | .kUnknown => []
  | .kHttp10 => ascii "HTTP/1.0"
  | .kHttp11 => ascii "HTTP/1.1"

/-- A request head: what it says, and the lines in which the headers were written down. -/
structure HeadText where
  method : Method
  known : method ≠ .kInvalid
  target : Bytes
  clean : SP ∉ target ∧ LF ∉ target
  version : Version
  spoken : version ≠ .kUnknown
  headers : StringMap
  headerLines : List HeaderLine
  wellFormed : ∀ h ∈ headerLines, h.WellFormed
  written : (headerLines.map fun h => (h.name, h.value)).Perm headers.toList

namespace HeadText

def requestLine (q : HeadText) : Bytes :=
  q.method.word ++ SP :: (q.target ++ SP :: q.version.word)

def render (q : HeadText) : Bytes :=
  q.requestLine ++ crlf ++ RequestText.renderHeaders q.headerLines

/-- The target up to its first question mark. -/
def path (q : HeadText) : Bytes := q.target.takeWhile (· != QUESTION)

/-- The rest of the target, from the question mark on. -/
def query (q : HeadText) : Bytes := q.target.dropWhile (· != QUESTION)

/-- What the head says, at the time it is read. -/
def decoded (q : HeadText) (receiveTime : Timestamp) : HttpRequest where
  method_ := q.method
  version_ := q.version
  path_ := q.path
  query_ := q.query
  body_ := []
  receiveTime_ := receiveTime
  headers_ := q.headers

/-! ## The request line -/

theorem str2int_word {m : Method} (h : m ≠ .kInvalid) : str2int m.word = some m := by
  cases m with
  | kInvalid => exact absurd rfl h
  | _ => decide

theorem notMem_word (m : Method) : SP ∉ m.word ∧ LF ∉ m.word := by
  cases m <;> decide

theorem notMem_version (v : Version) : LF ∉ v.word := by
  cases v <;> decide

theorem setProtocol_word {v : Version} (h : v ≠ .kUnknown) (r : HttpRequest) :
    r.setProtocol v.word = (true, r.setVersion v) := by
  unfold HttpRequest.setProtocol
  cases v with
  | kUnknown => exact absurd rfl h
  | kHttp10 => rw [if_pos (by decide), if_neg (by decide), if_pos (by decide)]
  | kHttp11 => rw [if_pos (by decide), if_pos (by decide)]

/-- The first question mark divides the target. -/
theorem setTarget_eq (r : HttpRequest) (target : Bytes) (hquery : r.query_ = []) :
    r.setTarget target = { r with
      path_ := target.takeWhile (· != QUESTION)
      query_ := target.dropWhile (· != QUESTION) } := by
  unfold HttpRequest.setTarget
  cases hcut : cutByte QUESTION target with
  | none =>
    have hall : ∀ b ∈ target, (b != QUESTION) = true := by
      rintro b hb
      rw [bne_iff_ne]
      rintro rfl
      exact cutByte_eq_none.mp hcut hb
    rw [List.takeWhile_eq_self_iff.mpr hall, List.dropWhile_eq_nil_iff.mpr hall, ← hquery]
    rfl
  | some p =>
    obtain ⟨path, query⟩ := p
    obtain ⟨rfl, hpath⟩ := cutByte_eq_some hcut
    have hall : ∀ b ∈ path, (b != QUESTION) = true := by
      rintro b hb
      rw [bne_iff_ne]
      rintro rfl
      exact hpath hb
    have htake : (QUESTION :: query).takeWhile (· != QUESTION) = [] := by simp
    have hdrop : (QUESTION :: query).dropWhile (· != QUESTION) = QUESTION :: query := by simp
    rw [List.takeWhile_append_of_pos hall, List.dropWhile_append_of_pos hall, htake, hdrop,
      List.append_nil]
    rfl

theorem processRequestLine_requestLine (q : HeadText) :
    HttpRequest.new.processRequestLine q.requestLine =
      (true, { q.decoded 0 with headers_ := ∅ }) := by
  rw [requestLine, RequestText.processRequestLine_words (notMem_word q.method).1 q.clean.1
    (str2int_word q.known), setProtocol_word q.spoken, setTarget_eq _ _ rfl]
  rfl

theorem notMem_requestLine (q : HeadText) : LF ∉ q.requestLine := by
  simp only [requestLine, List.mem_append, List.mem_cons, not_or]
  exact ⟨(notMem_word q.method).2, by decide, q.clean.2, by decide, notMem_version q.version⟩

/-! ## The header lines -/

/-- A map is what its entries make in any order. -/
theorem insertMany_eq {m : StringMap} {l : List (Bytes × Bytes)} (h : l.Perm m.toList) :
    (∅ : StringMap).insertMany l = m := by
  have hdistinct : l.Pairwise fun a b => ¬ compare a.1 b.1 = .eq :=
    (h.pairwise_iff fun hab hba => hab (Std.OrientedCmp.eq_symm hba)).mpr
      Std.ExtTreeMap.distinct_keys_toList
  refine Std.ExtTreeMap.ext_getElem? fun {k} => ?_
  cases hk : m[k]? with
  | some v =>
    have hmem : (k, v) ∈ l :=
      h.mem_iff.mpr (Std.ExtTreeMap.mem_toList_iff_getElem?_eq_some.mpr hk)
    exact Std.ExtTreeMap.getElem?_insertMany_list_of_mem Std.ReflCmp.compare_self hdistinct hmem
  | none =>
    have hno : (l.map Prod.fst).contains k = false := by
      rw [Bool.eq_false_iff]
      intro hin
      obtain ⟨⟨k', v⟩, hmem, rfl⟩ := List.mem_map.mp (List.contains_iff_mem.mp hin)
      rw [Std.ExtTreeMap.mem_toList_iff_getElem?_eq_some.mp (h.mem_iff.mp hmem)] at hk
      cases hk
    rw [Std.ExtTreeMap.getElem?_insertMany_list_of_contains_eq_false hno]
    exact Std.ExtTreeMap.getElem?_empty

theorem fields_eq_insertMany (m : StringMap) (hs : List HeaderLine) :
    RequestText.fields m hs = m.insertMany (hs.map fun h => (h.name, h.value)) := by
  induction hs generalizing m with
  | nil => rfl
  | cons h hs ih =>
    rw [List.map_cons, Std.ExtTreeMap.insertMany_cons, ← ih]
    rfl

theorem fields_eq (q : HeadText) : RequestText.fields ∅ q.headerLines = q.headers := by
  rw [fields_eq_insertMany, insertMany_eq q.written]

theorem addLines_eq {hs : List HeaderLine} (hhs : ∀ h ∈ hs, h.WellFormed) (r : HttpRequest) :
    (hs.map HeaderLine.line).foldl HttpContext.addLine r =
      { r with headers_ := RequestText.fields r.headers_ hs } := by
  induction hs generalizing r with
  | nil => rfl
  | cons h hs ih =>
    have hh := hhs h List.mem_cons_self
    have hadd : HttpContext.addLine r h.line =
        { r with headers_ := r.headers_.insert h.name h.value } := by
      simp only [HttpContext.addLine, RequestText.cutByte_line hh, RequestText.addHeader_line hh]
    rw [List.map_cons, List.foldl_cons, hadd, ih fun h' hm => hhs h' (List.mem_cons_of_mem _ hm)]
    rfl

/-- No byte of a name or a value is taken for the end of the head. -/
theorem headersEnd_renderHeaders {hs : List HeaderLine} (hhs : ∀ h ∈ hs, h.WellFormed)
    (x : Bytes) :
    HeadersEnd (RequestText.renderHeaders hs ++ x) (hs.map HeaderLine.line) [] x := by
  induction hs with
  | nil => exact ⟨⟨_, .nil _, RequestText.cutLine_renderHeaders_nil x⟩, rfl⟩
  | cons h hs ih =>
    have hh := hhs h List.mem_cons_self
    exact (ih fun h' hm => hhs h' (List.mem_cons_of_mem _ hm)).cons
      (RequestText.cutLine_renderHeaders_cons hh hs x) (RequestText.hasColon_line hh)

/-- No header announces a body. -/
theorem announced_lines {hs : List HeaderLine} (hhs : ∀ h ∈ hs, h.WellFormed) (value : Bytes) :
    HttpContext.announced value (hs.map HeaderLine.line) = value := by
  induction hs with
  | nil => rfl
  | cons h hs ih =>
    have hh := hhs h List.mem_cons_self
    simp only [HttpContext.announced, List.map_cons, List.foldl_cons, RequestText.cutByte_line hh,
      hh.noBody, if_false]
    exact ih fun h' hm => hhs h' (List.mem_cons_of_mem _ hm)

/-! ## The whole head -/

/-- The header lines add what the request line left out. -/
theorem addLines_requestLine (q : HeadText) (t : Timestamp) :
    (q.headerLines.map HeaderLine.line).foldl HttpContext.addLine
      (({ q.decoded 0 with headers_ := ∅ } : HttpRequest).setReceiveTime t) = q.decoded t := by
  have hfields := q.fields_eq
  rw [addLines_eq q.wellFormed]
  simp only [HttpRequest.setReceiveTime, hfields]
  rfl

theorem getHeader_decoded (q : HeadText) (t : Timestamp) :
    (q.decoded t).getHeader HttpContext.kContentLength = [] := by
  rw [← addLines_requestLine, HttpContext.getHeader_addLines, announced_lines q.wellFormed]
  exact HttpRequest.getHeader_new _

/-- A head with anything behind it is decoded exactly, and what stands behind it is left. -/
theorem parseRequest_headText (q : HeadText) (x : Bytes) (t : Timestamp) (buf : Buffer)
    (hread : buf.readable = q.render ++ x) :
    ∃ r, HttpContext.new.parseRequest t buf = some r ∧ r.outcome = .returned true ∧
      r.context.gotAll = true ∧ r.context.request_ = q.decoded t ∧ r.buffer.readable = x := by
  have hcut : cutLine buf.readable =
      some (q.requestLine, RequestText.renderHeaders q.headerLines ++ x) := by
    rw [hread, render, List.append_assoc, cutLine_line q.notMem_requestLine]
  obtain ⟨buf₁, hgo₁, hread₁⟩ :=
    HttpContext.goes_requestLine t hcut q.processRequestLine_requestLine
  obtain ⟨buf₂, hgo₂, hread₂⟩ := HttpContext.goes_headersEnd t
    (headersEnd_renderHeaders q.wellFormed x) _ hread₁
  rw [addLines_requestLine] at hgo₂
  have hend : HttpContext.parseRound t (⟨.kExpectBody, q.decoded t⟩, buf₂) =
      .exit ⟨.returned true, ⟨.kGotAll, q.decoded t⟩, buf₂⟩ := by
    simp only [HttpContext.parseRound, getHeader_decoded, ne_eq, not_true_eq_false, if_false]
  exact ⟨_, HttpContext.parseRequest_eq_some.mpr ((hgo₁.trans hgo₂).returns (.of_exit hend)), rfl,
    rfl, rfl, hread₂⟩

/-- A search with two headers, written down in the other order than the map keeps them. -/
def search : HeadText where
  method := .kGet
  known := nofun
  target := ascii "/find?q=a?b"
  clean := by decide
  version := .kHttp10
  spoken := nofun
  headers := ((∅ : StringMap).insert (ascii "Accept") (ascii "a: b")).insert (ascii "Host") []
  headerLines := [⟨ascii "Host", [], [], []⟩, ⟨ascii "Accept", ascii "  ", ascii "a: b", []⟩]
  wellFormed := by
    intro h hh
    rcases List.mem_cons.mp hh with rfl | hh
    · exact ⟨by decide, by decide, by decide +kernel, by decide +kernel, by decide,
        by decide +kernel, by decide +kernel⟩
    · obtain rfl := List.mem_singleton.mp hh
      exact ⟨by decide, by decide, by decide +kernel, by decide +kernel, by decide,
        by decide +kernel, by decide +kernel⟩
  written := by decide +kernel

/-- The search with the beginning of another request behind it. -/
theorem parseRequest_headText_search :
    ∃ r, HttpContext.new.parseRequest 7
        ((Buffer.new kInitialSize).append (search.render ++ ascii "GET /")) = some r ∧
      r.outcome = .returned true ∧ r.context.gotAll = true ∧
      r.context.request_ = search.decoded 7 ∧ r.buffer.readable = ascii "GET /" :=
  parseRequest_headText search (ascii "GET /") 7 _ (by
    rw [Buffer.readable_append, Buffer.readable_new, List.nil_append])

end HeadText

end Mymuduo
