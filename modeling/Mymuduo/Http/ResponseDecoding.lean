import Mymuduo.Http.HttpResponse
import Mymuduo.Lib.ResponseMessage

/-!
# What a peer reads of a response

`appendToBuffer` against the message it stands for (`HttpResponse.Decodes`). The text is that of
the message if every string fits a `StringPiece` (`Fits`), except that a response that keeps the
connection and comes with a file has the start of its status line in it a second time: the scratch
array is appended although nothing was printed into it. `decodes_iff` says so, and the length of
the text is the whole argument for the converse: reading determines the length of what was read,
a second status line makes the text longer and a string too long for its `int` far shorter.
-/

namespace Mymuduo

open CString Lines ResponseMessage

namespace HttpResponse

/-- The header fields that `appendToBuffer` adds. -/
def addedHeaders (r : HttpResponse) : List (Bytes × Bytes) :=
  if r.closeConnection_ then [(ascii "Connection", ascii "close")]
  else if r.needSendFile then [(ascii "Connection", ascii "Keep-Alive")]
  else [(ascii "Content-Length", natText r.body_.length), (ascii "Connection", ascii "Keep-Alive")]

/-- The message a response stands for. -/
def message (r : HttpResponse) : Message where
  status := r.statusCode_.toInt
  reason := r.statusMessage_
  headers := r.addedHeaders ++ r.headers_.toList
  body := r.body_

/-- The bytes that `appendToBuffer` writes decode to the status, the message, the body and the
header fields of the response, in some order, and to nothing else. -/
def Decodes (r : HttpResponse) (output : Buffer) : Prop :=
  ∃ output' u m, r.appendToBuffer output = some output' ∧
    output'.readable = output.readable ++ u ∧ decode u = some m ∧
    m.status = r.statusCode_.toInt ∧ m.reason = r.statusMessage_ ∧ m.body = r.body_ ∧
    m.headers.Perm (r.addedHeaders ++ r.headers_.toList)

/-- Every string in front of the body is short enough for a `StringPiece`. -/
def FrontFits (r : HttpResponse) : Prop :=
  r.statusMessage_.length < 2 ^ 31 ∧
    ∀ h ∈ r.headers_.toList, h.1.length < 2 ^ 31 ∧ h.2.length < 2 ^ 31

/-- Every string of the response is short enough for a `StringPiece`. -/
def Fits (r : HttpResponse) : Prop := r.FrontFits ∧ r.body_.length < 2 ^ 31

/-- What the response must be for its text to be well formed. -/
structure Plain (r : HttpResponse) : Prop where
  reason : LF ∉ r.statusMessage_
  names : ∀ h ∈ r.headers_.toList, colon ∉ h.1 ∧ LF ∉ h.1
  values : ∀ h ∈ r.headers_.toList, LF ∉ h.2

/-! ## The text -/

/-- What a `StringPiece` makes of a string whose length it can hold at all. -/
def pieceOf (s : Bytes) : Bytes := s.take (castInt s.length).toNat

/-- What is appended in front of the body. -/
def front (r : HttpResponse) : List Bytes :=
  [r.statusLine, r.statusMessage_, crlf] ++
  (if r.closeConnection_ then [ascii "Connection: close" ++ crlf]
    else [r.lengthLine, ascii "Connection: Keep-Alive" ++ crlf]) ++
  r.headers_.toList.flatMap (fun header => [header.1, ascii ": ", header.2, crlf]) ++ [crlf]

theorem pieces_eq (r : HttpResponse) : r.pieces = r.front ++ [r.body_] := by
  simp only [pieces, front, List.append_assoc, List.cons_append, List.nil_append]

/-- The text of a response, when every string is held in full. -/
def text (r : HttpResponse) : Bytes := r.pieces.flatten

theorem readable_foldlM {ps : List Bytes} {b b' : Buffer}
    (h : ps.foldlM Buffer.appendPiece b = some b') :
    b'.readable = b.readable ++ ps.flatMap pieceOf ∧ ∀ s ∈ ps, 0 ≤ castInt s.length := by
  induction ps generalizing b with
  | nil =>
    cases h
    exact ⟨by simp, by simp⟩
  | cons s ps ih =>
    rw [List.foldlM_cons] at h
    obtain ⟨b₁, hb₁, hrest⟩ := Option.bind_eq_some_iff.mp h
    obtain ⟨hread, hsize⟩ := ih hrest
    unfold Buffer.appendPiece at hb₁
    split at hb₁
    · cases hb₁
    · next hge =>
      obtain rfl := Option.some.inj hb₁
      refine ⟨by simp [hread, pieceOf], ?_⟩
      intro s' hs'
      rcases List.mem_cons.mp hs' with rfl | hs'
      · exact Int.not_lt.mp hge
      · exact hsize s' hs'

theorem foldlM_of_lt {ps : List Bytes} (b : Buffer) (h : ∀ s ∈ ps, s.length < 2 ^ 31) :
    ∃ b', ps.foldlM Buffer.appendPiece b = some b' ∧ b'.readable = b.readable ++ ps.flatten := by
  induction ps generalizing b with
  | nil => exact ⟨b, rfl, by simp⟩
  | cons s ps ih =>
    obtain ⟨b', hb', hread⟩ := ih (b.append s) fun s' hs' => h s' (List.mem_cons_of_mem _ hs')
    refine ⟨b', ?_, by simp [hread]⟩
    rw [List.foldlM_cons, Buffer.appendPiece_of_lt b (h s List.mem_cons_self)]
    exact hb'

theorem length_flatMap_pieceOf_le (ps : List Bytes) :
    (ps.flatMap pieceOf).length ≤ ps.flatten.length := by
  induction ps with
  | nil => simp
  | cons s ps ih =>
    simp only [List.flatMap_cons, List.length_append, List.flatten_cons, pieceOf, List.length_take]
    omega

/-- A string too long for its `int` takes at least `2 ^ 32` bytes with it. -/
theorem length_flatMap_pieceOf_add {ps : List Bytes} (hsize : ∀ s ∈ ps, 0 ≤ castInt s.length)
    {s : Bytes} (hs : s ∈ ps) (hlong : 2 ^ 31 ≤ s.length) :
    (ps.flatMap pieceOf).length + 2 ^ 32 ≤ ps.flatten.length := by
  obtain ⟨l, r, rfl⟩ := List.append_of_mem hs
  have hl := length_flatMap_pieceOf_le l
  have hr := length_flatMap_pieceOf_le r
  have hcut := (castInt_lt hlong).resolve_left (Int.not_lt.mpr (hsize s hs))
  simp only [List.flatMap_append, List.flatMap_cons, List.length_append, List.flatten_append,
    List.flatten_cons, pieceOf, List.length_take] at hl hr ⊢
  omega

/-- The status line fits the scratch array. -/
theorem statusLine_eq (r : HttpResponse) :
    r.statusLine = protocol ++ (intText r.statusCode_.toInt ++ [blank]) := by
  have hlen := length_intText_le r.statusCode_.le_toInt r.statusCode_.toInt_lt
  have hprotocol : protocol.length = 9 := by decide
  rw [statusLine, snprintf, List.append_assoc]
  refine List.take_of_length_le ?_
  show (protocol ++ (intText r.statusCode_.toInt ++ [blank])).length ≤ 31
  simp only [List.length_append, List.length_singleton]
  omega

/-- What the length line has to say. -/
def fullLengthLine (r : HttpResponse) : Bytes :=
  ascii "Content-Length: " ++ natText r.body_.length ++ crlf

/-- The length fits the scratch array up to thirteen digits. -/
theorem lengthLine_eq {r : HttpResponse} (hfile : r.needSendFile = false)
    (hbody : r.body_.length < 10 ^ 13) : r.lengthLine = r.fullLengthLine := by
  have hdigits := (natText_length_le_iff (k := 13) (by decide)).mpr hbody
  have hname : (ascii "Content-Length: ").length = 16 := by decide
  simp only [lengthLine, hfile, Bool.not_false, if_true, snprintf, fullLengthLine]
  refine List.take_of_length_le ?_
  simp only [List.length_append, hname, crlf, List.length_cons, List.length_nil]
  omega

/-- The text of a response with `l` as the line between the status line and the header fields that
keep the connection. -/
def textWith (r : HttpResponse) (l : Bytes) : Bytes :=
  (protocol ++ (intText r.statusCode_.toInt ++ blank :: r.statusMessage_)) ++ crlf ++
    ((if r.closeConnection_ then ascii "Connection: close" ++ crlf
      else l ++ (ascii "Connection: Keep-Alive" ++ crlf)) ++
    (encodeHeaders r.headers_.toList ++ ([] ++ crlf ++ r.body_)))

theorem flatten_headers (hs : List (Bytes × Bytes)) :
    (hs.flatMap fun header => [header.1, ascii ": ", header.2, crlf]).flatten =
      encodeHeaders hs := by
  have hsep : ascii ": " = [colon, blank] := by decide
  induction hs with
  | nil => rfl
  | cons h hs ih =>
    rw [List.flatMap_cons, List.flatten_append, ih]
    simp [encodeHeaders, encodeHeader, hsep]

theorem text_eq (r : HttpResponse) : r.text = r.textWith r.lengthLine := by
  rw [text, pieces, List.flatten_append, List.flatten_append, List.flatten_append,
    flatten_headers, textWith]
  cases r.closeConnection_ with
  | true => simp [statusLine_eq]
  | false => simp [statusLine_eq]

theorem encodeHeader_close : encodeHeader (ascii "Connection", ascii "close") =
    ascii "Connection: close" := by decide

theorem encodeHeader_keepAlive : encodeHeader (ascii "Connection", ascii "Keep-Alive") =
    ascii "Connection: Keep-Alive" := by decide

theorem encodeHeader_contentLength (value : Bytes) :
    encodeHeader (ascii "Content-Length", value) = ascii "Content-Length: " ++ value := by
  have hname : ascii "Content-Length: " = ascii "Content-Length" ++ [colon, blank] := by decide
  simp [encodeHeader, hname]

theorem encodeHeaders_addedHeaders (r : HttpResponse) : encodeHeaders r.addedHeaders =
    if r.closeConnection_ then ascii "Connection: close" ++ crlf
    else (if r.needSendFile then [] else r.fullLengthLine) ++
      (ascii "Connection: Keep-Alive" ++ crlf) := by
  unfold addedHeaders fullLengthLine
  cases r.closeConnection_ with
  | true => simp [encodeHeaders, encodeHeader_close]
  | false =>
    cases r.needSendFile with
    | true => simp [encodeHeaders, encodeHeader_keepAlive]
    | false => simp [encodeHeaders, encodeHeader_keepAlive, encodeHeader_contentLength]

theorem encode_message (r : HttpResponse) :
    encode r.message = r.textWith (if r.needSendFile then [] else r.fullLengthLine) := by
  have happend : encodeHeaders (r.addedHeaders ++ r.headers_.toList) =
      encodeHeaders r.addedHeaders ++ encodeHeaders r.headers_.toList := List.flatMap_append
  simp only [encode, message, happend, encodeHeaders_addedHeaders, textWith, List.append_assoc]

theorem length_textWith (r : HttpResponse) (l : Bytes) :
    (r.textWith l).length =
      (r.textWith []).length + if r.closeConnection_ then 0 else l.length := by
  unfold textWith
  cases r.closeConnection_ with
  | true => simp
  | false =>
    simp only [List.length_append, Bool.false_eq_true, if_false, List.nil_append]
    omega

/-! ## Both directions -/

theorem length_encode {m : Message} {r : HttpResponse} (hstatus : m.status = r.statusCode_.toInt)
    (hreason : m.reason = r.statusMessage_) (hbody : m.body = r.body_)
    (hheaders : m.headers.Perm (r.addedHeaders ++ r.headers_.toList)) :
    (encode m).length = (encode r.message).length := by
  have hperm : (encodeHeaders m.headers).length =
      (encodeHeaders (r.addedHeaders ++ r.headers_.toList)).length :=
    (hheaders.flatMap_right _).length_eq
  simp only [encode, message, List.length_append, hstatus, hreason, hbody, hperm]

theorem length_lengthLine_le (r : HttpResponse) : r.lengthLine.length ≤ 31 := by
  unfold lengthLine statusLine snprintf
  split <;> exact List.length_take_le _ _

/-- A response that decodes has no string too long, and no second status line. -/
theorem Decodes.fits {r : HttpResponse} {output : Buffer} (h : r.Decodes output) :
    (r.closeConnection_ = true ∨ r.needSendFile = false) ∧ ∀ s ∈ r.pieces, s.length < 2 ^ 31 := by
  obtain ⟨output', u, m, happend, hread, hdecode, hstatus, hreason, hbody, hheaders⟩ := h
  obtain ⟨hread', hsize⟩ := readable_foldlM happend
  have hu : u = r.pieces.flatMap pieceOf := List.append_cancel_left (hread.symm.trans hread')
  have hlen : u.length = (encode r.message).length := by
    rw [encode_of_decode hdecode, length_encode hstatus hreason hbody hheaders]
  have hline := length_lengthLine_le r
  have htext : r.text.length ≤ (encode r.message).length + 31 := by
    rw [text_eq, encode_message, length_textWith r r.lengthLine,
      length_textWith r (if r.needSendFile then [] else r.fullLengthLine)]
    split <;> omega
  have hfits : ∀ s ∈ r.pieces, s.length < 2 ^ 31 := by
    intro s hs
    by_contra hge
    -- the stray status line is far too short to make up for what a long string loses
    have hcut := length_flatMap_pieceOf_add hsize hs (by omega)
    rw [← hu, hlen] at hcut
    change _ ≤ r.text.length at hcut
    omega
  refine ⟨?_, hfits⟩
  -- with a file and the connection kept, the text is longer by a status line
  by_contra hcase
  rw [not_or, Bool.not_eq_true, Bool.not_eq_false] at hcase
  obtain ⟨hclose, hfile⟩ := hcase
  obtain ⟨b', hb', hread''⟩ := foldlM_of_lt output hfits
  obtain rfl : output' = b' := Option.some.inj (happend.symm.trans hb')
  have hall : u = r.text := List.append_cancel_left (hread.symm.trans hread'')
  have hstray : r.lengthLine = r.statusLine := by simp [lengthLine, hfile]
  rw [hall, text_eq, encode_message, length_textWith r r.lengthLine,
    length_textWith r (if r.needSendFile then [] else r.fullLengthLine), hstray,
    statusLine_eq] at hlen
  simp [hclose, hfile] at hlen

/-- The strings in front of the body are short exactly when everything appended there is. -/
theorem frontFits_iff (r : HttpResponse) : r.FrontFits ↔ ∀ s ∈ r.front, s.length < 2 ^ 31 := by
  have hline := length_lengthLine_le r
  have hstatus : r.statusLine.length ≤ 31 := List.length_take_le _ _
  have hfixed : ∀ s ∈ [crlf, ascii ": ", ascii "Connection: close" ++ crlf,
      ascii "Connection: Keep-Alive" ++ crlf], s.length < 2 ^ 31 := by decide
  simp only [List.forall_mem_cons] at hfixed
  obtain ⟨hcrlf, hcolon, hclose, halive, -⟩ := hfixed
  have hconnection : ∀ s ∈ (if r.closeConnection_ then [ascii "Connection: close" ++ crlf]
      else [r.lengthLine, ascii "Connection: Keep-Alive" ++ crlf]), s.length < 2 ^ 31 := by
    cases r.closeConnection_ with
    | true => simpa using hclose
    | false =>
      simp only [Bool.false_eq_true, if_false, List.forall_mem_cons]
      exact ⟨by omega, halive, by simp⟩
  simp only [FrontFits, front, List.forall_mem_append, List.forall_mem_cons,
    List.forall_mem_flatMap]
  constructor
  · rintro ⟨hmessage, hheaders⟩
    refine ⟨⟨⟨⟨by omega, hmessage, hcrlf, by simp⟩, hconnection⟩, ?_⟩, hcrlf, by simp⟩
    intro h hm
    exact ⟨(hheaders h hm).1, hcolon, (hheaders h hm).2, hcrlf, by simp⟩
  · rintro ⟨⟨⟨⟨-, hmessage, -⟩, -⟩, hheaders⟩, -⟩
    exact ⟨hmessage, fun h hm => ⟨(hheaders h hm).1, (hheaders h hm).2.2.1⟩⟩

/-- The strings of a response fit exactly when everything that is appended does. -/
theorem fits_iff (r : HttpResponse) : r.Fits ↔ ∀ s ∈ r.pieces, s.length < 2 ^ 31 := by
  rw [pieces_eq, List.forall_mem_append, ← frontFits_iff, Fits]
  simp

/-- A response with short strings is written in full. -/
theorem Fits.appendToBuffer {r : HttpResponse} (h : r.Fits) (output : Buffer) :
    ∃ output', r.appendToBuffer output = some output' ∧
      output'.readable = output.readable ++ r.text :=
  foldlM_of_lt output ((fits_iff r).mp h)

/-- No digit is a line feed. -/
theorem notMem_natText (n : Nat) : LF ∉ natText n := by
  intro hm
  have hdigit := (isDecimal_natText n).digits LF hm
  simp [isdigit, LF] at hdigit

/-- A message made of a plain response is well formed if the header fields that are put in front
are. -/
theorem Plain.wellFormed {r : HttpResponse} (h : r.Plain) {added : List (Bytes × Bytes)}
    (hadded : ∀ f ∈ added, (colon ∉ f.1 ∧ LF ∉ f.1) ∧ LF ∉ f.2) (body : Bytes) :
    WellFormed ⟨r.statusCode_.toInt, r.statusMessage_, added ++ r.headers_.toList, body⟩ := by
  refine ⟨h.reason, ?_, ?_⟩
  · intro f hf
    rcases List.mem_append.mp hf with hf | hf
    · exact (hadded f hf).1
    · exact h.names f hf
  · intro f hf
    rcases List.mem_append.mp hf with hf | hf
    · exact (hadded f hf).2
    · exact h.values f hf

theorem plain_connection : colon ∉ ascii "Connection" ∧ LF ∉ ascii "Connection" := by decide

theorem plain_contentLength : colon ∉ ascii "Content-Length" ∧ LF ∉ ascii "Content-Length" := by
  decide

theorem wellFormed_message {r : HttpResponse} (hplain : r.Plain) : WellFormed r.message := by
  refine hplain.wellFormed ?_ r.body_
  unfold addedHeaders
  split
  · simpa using ⟨plain_connection, by decide⟩
  · split
    · simpa using ⟨plain_connection, by decide⟩
    · simpa using ⟨⟨plain_contentLength, notMem_natText _⟩, plain_connection, by decide⟩

/-- The text of a response without a second status line and with no string too long. -/
theorem decodes_of_fits {r : HttpResponse} (hplain : r.Plain) (output : Buffer)
    (hfile : r.closeConnection_ = true ∨ r.needSendFile = false) (hfits : r.Fits) :
    r.Decodes output := by
  obtain ⟨output', happend, hread⟩ := hfits.appendToBuffer output
  have hbody : r.body_.length < 10 ^ 13 := by
    have := hfits.2
    omega
  have htext : r.text = encode r.message := by
    rw [text_eq, encode_message, textWith, textWith]
    rcases hfile with hclose | hfile
    · simp only [hclose, if_true]
    · simp only [hfile, Bool.false_eq_true, if_false, lengthLine_eq hfile hbody]
  refine ⟨output', r.text, r.message, happend, hread, ?_, rfl, rfl, rfl, .refl _⟩
  rw [htext, decode_encode (wellFormed_message hplain)]

/-- A response decodes exactly when it has no file or closes the connection, and every string of
it is short enough for a `StringPiece`. -/
theorem decodes_iff (r : HttpResponse) (hplain : r.Plain) (output : Buffer) :
    r.Decodes output ↔ (r.closeConnection_ = true ∨ r.needSendFile = false) ∧ r.Fits := by
  constructor
  · intro h
    obtain ⟨hfile, hpieces⟩ := h.fits
    exact ⟨hfile, (fits_iff r).mpr hpieces⟩
  · exact fun h => decodes_of_fits hplain output h.1 h.2

/-- A page that keeps the connection decodes. -/
theorem decodes_page : ((((HttpResponse.new false).setStatusCode k404NotFound).setStatusMessage
    (ascii "Not Found")).setBody (ascii "404")).Decodes (Buffer.new 1024) :=
  (decodes_iff _ ⟨by decide, by decide, by decide⟩ (Buffer.new 1024)).mpr
    ⟨.inr (by decide), ⟨by decide, by decide⟩, by decide⟩

/-- A file on a connection that is kept does not. -/
theorem not_decodes_file : ¬ (((HttpResponse.new false).setStatusCode k200Ok).setFd 5).Decodes
    (Buffer.new 1024) := by
  intro h
  exact absurd h.fits.1 (by decide)

end HttpResponse

end Mymuduo
