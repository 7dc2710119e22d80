import Mymuduo.Http.Ranges
import Mymuduo.Http.ResponseDecoding

/-!
# Whether a response says how long it is

A peer that keeps the connection takes the end of a response from its `Content-Length`
(`Reply.Honest`: there is one, and it counts the body and the bytes of the file). `written` is the
message that a peer reads out of what `appendToBuffer` writes, in every case, stray lines included.

The length is made in two places, `setResponseBody` and `appendToBuffer`. `honest_iff` says when
they agree: a file must have been opened, and a range or a page must be counted in an `int`.
-/

namespace Mymuduo

open CString Lines ResponseMessage

namespace HttpResponse

/-! ## The message that is read -/

/-- The header fields in front of those of `headers_`, as they are read. The scratch array of the
status line in front of `Connection`, and a length that does not fit the array, spoil a name and a
value. -/
def writtenHeaders (r : HttpResponse) : List (Bytes × Bytes) :=
  if r.closeConnection_ then [(ascii "Connection", ascii "close")]
  else if r.needSendFile then
    [(protocol ++ (intText r.statusCode_.toInt ++ blank :: ascii "Connection"),
      ascii "Keep-Alive")]
  else if r.body_.length < 10 ^ 13 then
    [(ascii "Content-Length", natText r.body_.length), (ascii "Connection", ascii "Keep-Alive")]
  else
    [(ascii "Content-Length",
      (natText r.body_.length ++ crlf).take 15 ++ ascii "Connection: Keep-Alive")]

/-- The message that is read when `body` is what was written of the body. -/
def written (r : HttpResponse) (body : Bytes) : Message where
  status := r.statusCode_.toInt
  reason := r.statusMessage_
  headers := r.writtenHeaders ++ r.headers_.toList
  body := body

@[simp] theorem written_body (r : HttpResponse) (body : Bytes) : (r.written body).body = body := rfl

theorem lengthLine_long {r : HttpResponse} (hfile : r.needSendFile = false) :
    r.lengthLine = ascii "Content-Length: " ++ (natText r.body_.length ++ crlf).take 15 := by
  have hname : (ascii "Content-Length: ").length = 16 := by decide
  simp only [lengthLine, hfile, Bool.not_false, if_true, snprintf, List.append_assoc]
  rw [List.take_append, hname, List.take_of_length_le (by rw [hname]; decide)]

theorem encodeHeaders_writtenHeaders (r : HttpResponse) : encodeHeaders r.writtenHeaders =
    if r.closeConnection_ then ascii "Connection: close" ++ crlf
    else r.lengthLine ++ (ascii "Connection: Keep-Alive" ++ crlf) := by
  have halive : ascii "Connection: Keep-Alive" =
      ascii "Connection" ++ [colon, blank] ++ ascii "Keep-Alive" := by decide
  unfold writtenHeaders
  cases r.closeConnection_ with
  | true => simp [encodeHeaders, encodeHeader_close]
  | false =>
    cases hfile : r.needSendFile with
    | true =>
      -- the scratch array still holds the status line
      have hline : r.lengthLine = r.statusLine := by simp [lengthLine, hfile]
      simp [encodeHeaders, encodeHeader, halive, hline, statusLine_eq]
    | false =>
      simp only [Bool.false_eq_true, if_false]
      split
      · next hbody =>
        rw [lengthLine_eq hfile hbody, fullLengthLine]
        simp [encodeHeaders, encodeHeader_keepAlive, encodeHeader_contentLength]
      · rw [lengthLine_long hfile]
        simp [encodeHeaders, encodeHeader_contentLength]

theorem encode_written (r : HttpResponse) : encode (r.written r.body_) = r.text := by
  have happend : encodeHeaders (r.writtenHeaders ++ r.headers_.toList) =
      encodeHeaders r.writtenHeaders ++ encodeHeaders r.headers_.toList := List.flatMap_append
  rw [text_eq]
  simp only [encode, written, happend, encodeHeaders_writtenHeaders, textWith, List.append_assoc]

/-- What is written is the message with as much of its body as a `StringPiece` holds. -/
theorem readable_appendToBuffer {r : HttpResponse} (hfront : r.FrontFits)
    {output output' : Buffer} (h : r.appendToBuffer output = some output') :
    output'.readable = output.readable ++ encode (r.written (pieceOf r.body_)) ∧
      0 ≤ castInt r.body_.length := by
  obtain ⟨hread, hsize⟩ := readable_foldlM h
  have hshort : r.front.flatMap pieceOf = r.front.flatten := by
    rw [← List.flatMap_id]
    refine List.flatMap_congr ?_
    intro s hs
    have hlen := (frontFits_iff r).mp hfront s hs
    rw [pieceOf, castInt_eq (by omega) (by omega), Int.toNat_natCast, List.take_length]
    rfl
  have hbody : ∀ body, encode (r.written body) = r.front.flatten ++ body := by
    have hwhole := encode_written r
    rw [text, pieces_eq, List.flatten_append] at hwhole
    simp only [encode, ← List.append_assoc, List.flatten_cons, List.flatten_nil,
      List.append_nil] at hwhole
    intro body
    simp only [encode, ← List.append_assoc, List.append_nil]
    exact congrArg (· ++ body) (List.append_cancel_right hwhole)
  refine ⟨?_, hsize _ ?_⟩
  · rw [hread, hbody, pieces_eq, List.flatMap_append, hshort]
    simp
  · rw [pieces_eq]
    simp

/-! ## Reading it -/

/-- A short text on one line. -/
structure TameText (s : Bytes) : Prop where
  short : s.length < 2 ^ 31
  line : LF ∉ s

/-- A response whose message and header fields are short and can be told from each other. -/
structure Tame (r : HttpResponse) : Prop where
  message : TameText r.statusMessage_
  fields : ∀ h ∈ r.headers_.toList, (TameText h.1 ∧ colon ∉ h.1) ∧ TameText h.2

theorem Tame.plain {r : HttpResponse} (h : r.Tame) : r.Plain :=
  ⟨h.message.line, fun f hf => ⟨(h.fields f hf).1.2, (h.fields f hf).1.1.line⟩,
    fun f hf => (h.fields f hf).2.line⟩

theorem Tame.frontFits {r : HttpResponse} (h : r.Tame) : r.FrontFits :=
  ⟨h.message.short, fun f hf => ⟨(h.fields f hf).1.1.short, (h.fields f hf).2.short⟩⟩

theorem tame_new (close : Bool) : (new close).Tame :=
  ⟨⟨by simp [new], by simp [new]⟩, by simp [new]⟩

theorem Tame.addHeader {r : HttpResponse} (h : r.Tame) {key value : Bytes} (hkey : TameText key)
    (hcolon : colon ∉ key) (hvalue : TameText value) : (r.addHeader key value).Tame := by
  refine ⟨h.message, ?_⟩
  intro f hf
  obtain ⟨k, v⟩ := f
  rw [HttpResponse.addHeader, Std.ExtTreeMap.mem_toList_iff_getElem?_eq_some,
    Std.ExtTreeMap.getElem?_insert] at hf
  split at hf
  · next heq =>
    rw [Std.compare_eq_iff_eq] at heq
    cases heq
    cases hf
    exact ⟨⟨hkey, hcolon⟩, hvalue⟩
  · exact h.fields (k, v) (Std.ExtTreeMap.mem_toList_iff_getElem?_eq_some.mpr hf)

/-- A length that does not fit the scratch array is cut off before its line ends. -/
theorem notMem_cutLength {n : Nat} (hlong : ¬ n < 10 ^ 13) :
    LF ∉ (natText n ++ crlf).take 15 := by
  intro hm
  have hdigits : 14 ≤ (natText n).length := by
    rw [← natText_length_le_iff (k := 13) (by decide)] at hlong
    omega
  rw [crlf, List.append_cons, List.take_append_of_le_length (by simp; omega)] at hm
  rcases List.mem_append.mp (List.mem_of_mem_take hm) with hm | hm
  · exact notMem_natText _ hm
  · exact absurd hm (by decide)

theorem wellFormed_written {r : HttpResponse} (h : r.Plain) (body : Bytes) :
    WellFormed (r.written body) := by
  refine h.wellFormed ?_ body
  unfold writtenHeaders
  split
  · simpa using ⟨plain_connection, by decide⟩
  · split
    · have hstatus : ∀ b, b ≠ 45 → isdigit b = false → b ∉ intText r.statusCode_.toInt :=
        fun b => notMem_intText
      rw [List.forall_mem_singleton]
      simp only [List.mem_append, List.mem_cons, not_or]
      exact ⟨⟨⟨by decide, hstatus _ (by decide) (by decide), by decide, by decide⟩, by decide,
        hstatus _ (by decide) (by decide), by decide, by decide⟩, by decide⟩
    · split
      · simpa using ⟨⟨plain_contentLength, notMem_natText _⟩, plain_connection, by decide⟩
      · next hlong =>
        rw [List.forall_mem_singleton, List.mem_append, not_or]
        exact ⟨plain_contentLength, notMem_cutLength hlong, by decide⟩

/-- A peer reads `written`. -/
theorem Tame.decode {r : HttpResponse} (h : r.Tame) {buf : Buffer}
    (hbuf : r.appendToBuffer (Buffer.new kInitialSize) = some buf) :
    ResponseMessage.decode buf.readable = some (r.written (pieceOf r.body_)) ∧
      0 ≤ castInt r.body_.length := by
  obtain ⟨hread, hsize⟩ := readable_appendToBuffer h.frontFits hbuf
  rw [hread, Buffer.readable_new, List.nil_append, decode_encode (wellFormed_written h.plain _)]
  exact ⟨rfl, hsize⟩

end HttpResponse

/-! ## Its length -/

def kContentLength : Bytes := ascii "Content-Length"

/-- There is one `Content-Length`, and it says `n`. -/
def HasLength (m : Message) (n : Nat) : Prop :=
  m.headers.filter (fun h => h.1 == kContentLength) = [(kContentLength, natText n)]

/-- A key of a map stands in one entry at most. -/
theorem filter_toList (m : StringMap) (k : Bytes) :
    m.toList.filter (fun h => h.1 == k) = (m[k]?).toList.map (Prod.mk k) := by
  have hkeys : ∀ l : List (Bytes × Bytes), l.Pairwise (fun a b => ¬ compare a.1 b.1 = .eq) →
      ∀ v, (k, v) ∈ l → l.filter (fun h => h.1 == k) = [(k, v)] := by
    intro l hl v hv
    induction l with
    | nil => cases hv
    | cons h l ih =>
      rw [List.pairwise_cons] at hl
      rcases List.mem_cons.mp hv with rfl | hv
      · rw [List.filter_cons_of_pos (by simp), List.filter_eq_nil_iff.mpr]
        intro h' hh' heq
        exact hl.1 h' hh' (by simpa using (beq_iff_eq.mp heq).symm)
      · -- the entry lies behind, and keys differ
        have hne : ¬ (h.1 == k) = true := fun heq =>
          hl.1 (k, v) hv (by simpa using beq_iff_eq.mp heq)
        rw [List.filter_cons, if_neg hne, ih hl.2 hv]
  cases hget : m[k]? with
  | none =>
    rw [Option.toList_none, List.map_nil, List.filter_eq_nil_iff]
    rintro ⟨k', v⟩ hmem heq
    obtain rfl : k' = k := beq_iff_eq.mp heq
    rw [Std.ExtTreeMap.mem_toList_iff_getElem?_eq_some, hget] at hmem
    cases hmem
  | some v =>
    exact hkeys m.toList Std.ExtTreeMap.distinct_keys_toList v
      (Std.ExtTreeMap.mem_toList_iff_getElem?_eq_some.mpr hget)

namespace Reply

/-- The bytes of the file that are handed to the connection. -/
def fileLength (reply : Reply) : Nat := reply.file.elim 0 fun f => f.2.1

/-- The text has one `Content-Length`, and it counts the body and the bytes of the file. -/
def Honest (reply : Reply) : Prop :=
  ∃ m, decode reply.text = some m ∧ HasLength m (m.body.length + reply.fileLength)

end Reply

open HttpResponse

/-- Of a tame response, honesty is about the message that is read. -/
theorem honest_iff_written {body : Body} (h : body.response.Tame) {reply : Reply}
    (hreply : FileServer.replyOf body = some reply) :
    0 ≤ castInt body.response.body_.length ∧ (reply.Honest ↔
      HasLength (body.response.written (pieceOf body.response.body_))
        ((pieceOf body.response.body_).length +
          if body.response.needSendFile then castSize body.response.len_ else 0)) := by
  obtain ⟨buf, hbuf, rfl⟩ := Option.map_eq_some_iff.mp hreply
  obtain ⟨hdecode, hsize⟩ := h.decode hbuf
  refine ⟨hsize, ?_⟩
  have hlen : Reply.fileLength
      { text := buf.readable
        file := if body.response.needSendFile then
            some (body.response.fd_, castSize body.response.len_, body.file.getD [])
          else none
        close := body.response.closeConnection_ } =
      if body.response.needSendFile then castSize body.response.len_ else 0 := by
    unfold Reply.fileLength
    split <;> rfl
  rw [Reply.Honest, hlen]
  simp only [hdecode, Option.some.injEq, exists_eq_left', written_body]

theorem hasLength_written {r : HttpResponse} {body : Bytes} {n : Nat} :
    HasLength (r.written body) n ↔
      r.writtenHeaders.filter (fun h => h.1 == kContentLength) ++
        (r.headers_[kContentLength]?).toList.map (Prod.mk kContentLength) =
          [(kContentLength, natText n)] := by
  rw [HasLength, written, List.filter_append, filter_toList]

/-- Without a file, `appendToBuffer` writes one `Content-Length`: of the body, or, from fourteen
digits on, one that is no number. -/
theorem filter_writtenHeaders_page {r : HttpResponse} (hkeep : r.closeConnection_ = false)
    (hfile : r.needSendFile = false) :
    ∃ value, r.writtenHeaders.filter (fun h => h.1 == kContentLength) =
        [(kContentLength, value)] ∧
      (value = natText r.body_.length ∨ 10 ^ 13 ≤ r.body_.length ∧ ∀ n, value ≠ natText n) := by
  have hcl : (ascii "Content-Length" == kContentLength) = true := by decide
  have hconn : (ascii "Connection" == kContentLength) = false := by decide
  rw [writtenHeaders, if_neg (by simp [hkeep]), if_neg (by simp [hfile])]
  by_cases hlong : r.body_.length < 10 ^ 13
  · rw [if_pos hlong]
    refine ⟨natText r.body_.length, ?_, .inl rfl⟩
    rw [List.filter_cons, if_pos hcl, List.filter_cons, if_neg (by simp [hconn])]
    rfl
  · rw [if_neg hlong]
    refine ⟨(natText r.body_.length ++ crlf).take 15 ++ ascii "Connection: Keep-Alive", ?_,
      .inr ⟨Nat.le_of_not_lt hlong, ?_⟩⟩
    · rw [List.filter_cons, if_pos hcl]
      rfl
    · intro n heq
      have hc : (67 : UInt8) ∈ natText n := by
        rw [← heq]
        exact List.mem_append_right _ (by decide)
      exact absurd ((isDecimal_natText n).digits _ hc) (by decide)

/-- A `StringPiece` holds a string exactly up to `2 ^ 31` bytes. -/
theorem length_pieceOf_iff {s : Bytes} (hsize : 0 ≤ castInt s.length) :
    (pieceOf s).length = s.length ↔ s.length < 2 ^ 31 := by
  rw [pieceOf, List.length_take]
  constructor
  · intro heq
    by_contra hlong
    have hcut := (castInt_lt (Nat.le_of_not_lt hlong)).resolve_left (Int.not_lt.mpr hsize)
    omega
  · intro hshort
    rw [castInt_eq (by omega) (by omega), Int.toNat_natCast, Nat.min_self]

/-- A page: the length is that of the body, and honest if a `StringPiece` holds the body. -/
theorem honest_page_iff {body : Body} (h : body.response.Tame)
    (hkeep : body.response.closeConnection_ = false) (hfile : body.response.needSendFile = false)
    (hnone : body.response.headers_[kContentLength]? = none) {reply : Reply}
    (hreply : FileServer.replyOf body = some reply) :
    reply.Honest ↔ body.response.body_.length < 2 ^ 31 := by
  obtain ⟨hsize, hiff⟩ := honest_iff_written h hreply
  obtain ⟨value, hfilter, hvalue⟩ := filter_writtenHeaders_page hkeep hfile
  have hone : ∀ n, HasLength (body.response.written (pieceOf body.response.body_)) n ↔
      value = natText n := by
    intro n
    rw [hasLength_written, hfilter, hnone]
    simp
  have hnoFile : (if body.response.needSendFile then castSize body.response.len_ else 0) = 0 :=
    if_neg (by simp [hfile])
  rw [hiff, hnoFile, Nat.add_zero, hone]
  rcases hvalue with rfl | ⟨hlong, hno⟩
  · constructor
    · exact fun heq => (length_pieceOf_iff hsize).mp (natText_injective heq).symm
    · exact fun hshort => congrArg natText ((length_pieceOf_iff hsize).mpr hshort).symm
  · constructor
    · exact fun heq => absurd heq (hno _)
    · intro hshort
      omega

/-- An opened file: the length is that of the field, and honest if it says what is handed over. -/
theorem honest_file_iff {body : Body} (h : body.response.Tame)
    (hkeep : body.response.closeConnection_ = false) (hfile : body.response.needSendFile = true)
    (hbody : body.response.body_ = []) {length : Bytes}
    (hlength : body.response.headers_[kContentLength]? = some length) {reply : Reply}
    (hreply : FileServer.replyOf body = some reply) :
    reply.Honest ↔ length = natText (castSize body.response.len_) := by
  obtain ⟨-, hiff⟩ := honest_iff_written h hreply
  have hspoilt : (protocol ++ (intText body.response.statusCode_.toInt ++
      blank :: ascii "Connection") == kContentLength) = false := by
    rw [beq_eq_false_iff_ne]
    intro heq
    exact absurd (congrArg List.head? heq) (by simp [protocol, ascii, kContentLength])
  rw [hiff, hasLength_written, hlength, hbody]
  simp [writtenHeaders, hkeep, hfile, hspoilt, pieceOf]

/-- A file that was not opened: there are two lengths. -/
theorem not_honest_unopened {body : Body} (h : body.response.Tame)
    (hkeep : body.response.closeConnection_ = false) (hfile : body.response.needSendFile = false)
    {length : Bytes} (hlength : body.response.headers_[kContentLength]? = some length)
    {reply : Reply} (hreply : FileServer.replyOf body = some reply) : ¬ reply.Honest := by
  obtain ⟨-, hiff⟩ := honest_iff_written h hreply
  have hcl : (ascii "Content-Length" == kContentLength) = true := by decide
  rw [hiff, hasLength_written, hlength]
  simp only [writtenHeaders, hkeep, hfile, Bool.false_eq_true, if_false]
  split <;> simp [List.filter_cons, hcl]

/-! ## The responses of the server -/

namespace HttpResponse

theorem Tame.of_eq {r r' : HttpResponse} (h : r.Tame)
    (hmessage : r'.statusMessage_ = r.statusMessage_) (hheaders : r'.headers_ = r.headers_) :
    r'.Tame :=
  ⟨by rw [hmessage]; exact h.message, by rw [hheaders]; exact h.fields⟩

theorem Tame.setStatusMessage {r : HttpResponse} (h : r.Tame) {message : Bytes}
    (hmessage : TameText message) : (r.setStatusMessage message).Tame :=
  ⟨hmessage, h.fields⟩

theorem Tame.setContentType {r : HttpResponse} (h : r.Tame) {contentType : Bytes}
    (htype : TameText contentType) : (r.setContentType contentType).Tame :=
  h.addHeader ⟨by decide, by decide⟩ (by decide) htype

/-- The table has short values on one line. -/
theorem tameText_getMime (suffix : Bytes) : TameText (getMime suffix) := by
  have hall : ∀ entry ∈ mime, entry.2.length < 2 ^ 31 ∧ LF ∉ entry.2 := by decide +kernel
  unfold getMime
  split
  · next type htype =>
    obtain ⟨l, r, hl, -⟩ := List.lookup_eq_some_iff.mp htype
    have hentry := hall (suffix, type) (by rw [hl]; simp)
    exact ⟨hentry.1, hentry.2⟩
  · exact ⟨by decide, by decide⟩

/-- The text of a number of some sixty bits is short, and has no line feed. -/
theorem length_intText {z : Int} (hlo : -2 ^ 66 < z) (hhi : z < 2 ^ 66) :
    (intText z).length ≤ 21 ∧ LF ∉ intText z := by
  have hdigits : (natText z.natAbs).length ≤ 20 :=
    (natText_length_le_iff (by decide)).mpr (by omega)
  refine ⟨?_, notMem_intText (by decide) (by decide)⟩
  unfold intText
  split
  · rw [List.length_cons]
    omega
  · omega

theorem tame_fileHead (fs : FileSystem) (path : Bytes) (req : HttpRequest) (close : Bool) :
    (fileHead fs path req (new close)).Tame := by
  have hfd : ((new close).setFd (fs.open_ path)).Tame := (tame_new close).of_eq rfl rfl
  exact (hfd.setContentType (tameText_getMime _)).addHeader ⟨by decide, by decide⟩ (by decide)
    ⟨by decide, by decide⟩

theorem Tame.wholeBody {res : HttpResponse} (h : res.Tame) (file : Option Bytes) {len : Int}
    (hlen : len.natAbs < 2 ^ 64) : (wholeBody file len res).response.Tame := by
  obtain ⟨htext, hline⟩ := length_intText (by omega : -2 ^ 66 < len) (by omega)
  have hstatus : (res.setStatusCode k200Ok).Tame := h.of_eq rfl rfl
  have hmessage := hstatus.setStatusMessage (⟨by decide, by decide⟩ : TameText (ascii "OK"))
  have hsend : (((res.setStatusCode k200Ok).setStatusMessage (ascii "OK")).setSendLen len).Tame :=
    hmessage.of_eq rfl rfl
  exact hsend.addHeader ⟨by decide, by decide⟩ (by decide) ⟨by omega, hline⟩

theorem Tame.rangeBody {res : HttpResponse} (h : res.Tame) (file : Option Bytes)
    {len beg_num end_num : Int} (hbeg : beg_num.natAbs < 2 ^ 64) (hend : end_num.natAbs < 2 ^ 64)
    (hlen : len.natAbs < 2 ^ 64) :
    (rangeBody file len beg_num end_num res).response.Tame := by
  have hlast : beg_num + (end_num - beg_num + 1) - 1 = end_num := by omega
  obtain ⟨hbegText, hbegLine⟩ := length_intText (by omega : -2 ^ 66 < beg_num) (by omega)
  obtain ⟨hendText, hendLine⟩ := length_intText (by omega : -2 ^ 66 < end_num) (by omega)
  obtain ⟨hlenText, hlenLine⟩ := length_intText (by omega : -2 ^ 66 < len) (by omega)
  obtain ⟨hneedText, hneedLine⟩ :=
    length_intText (by omega : -2 ^ 66 < end_num - beg_num + 1) (by omega)
  have hstatus : (res.setStatusCode k206Partitial).Tame := h.of_eq rfl rfl
  have hmessage := hstatus.setStatusMessage
    (⟨by decide, by decide⟩ : TameText (ascii "Partial Content"))
  have hsend : (((res.setStatusCode k206Partitial).setStatusMessage
      (ascii "Partial Content")).setSendLen (castInt (end_num - beg_num + 1))).Tame :=
    hmessage.of_eq rfl rfl
  have hrange : TameText (ascii "bytes " ++ intText beg_num ++ ascii "-" ++ intText end_num ++
      ascii "/" ++ intText len) := by
    have hfixed : (ascii "bytes ").length = 6 ∧ (ascii "-").length = 1 ∧
        (ascii "/").length = 1 := by decide
    constructor
    · simp only [List.length_append]
      omega
    · simp only [List.mem_append, not_or]
      exact ⟨⟨⟨⟨⟨by decide, hbegLine⟩, by decide⟩, hendLine⟩, by decide⟩, hlenLine⟩
  have hcontent := hsend.addHeader (⟨by decide, by decide⟩ : TameText (ascii "Content-Range"))
    (by decide) hrange
  unfold Mymuduo.rangeBody
  simp only [hlast]
  exact hcontent.addHeader ⟨by decide, by decide⟩ (by decide) ⟨by omega, hneedLine⟩

end HttpResponse

/-! ## Ranges -/

/-- A `Range` field that asks for `n` bytes from `b` on, all of them in a file of `size` bytes. -/
inductive Designates (size : Nat) : Bytes → Nat → Nat → Prop
  | fromTo {s t : Bytes} {a b : Nat} (hs : IsDecimal s a) (ht : IsDecimal t b) (hab : a ≤ b)
    (hb : b < size) : Designates size (ascii "bytes=" ++ (s ++ DASH :: t)) a (b + 1 - a)
  | fromOn {s : Bytes} {a : Nat} (hs : IsDecimal s a) (ha : a < size) :
    Designates size (ascii "bytes=" ++ (s ++ [DASH])) a (size - a)
  | last {t : Bytes} {n : Nat} (ht : IsDecimal t n) (hpos : 0 < n) (hn : n ≤ size) :
    Designates size (ascii "bytes=" ++ DASH :: t) (size - n) n

theorem Designates.bounds {size b n : Nat} {range : Bytes} (h : Designates size range b n) :
    0 < n ∧ b + n ≤ size ∧ range ≠ [] := by
  cases h with
  | fromTo hs ht hab hb => exact ⟨by omega, by omega, by simp [ascii]⟩
  | fromOn hs ha => exact ⟨by omega, by omega, by simp [ascii]⟩
  | last ht hpos hn => exact ⟨hpos, by omega, by simp [ascii]⟩

/-- `setResponseBody` finds the range that is asked for, unless it throws. -/
theorem rangeOf_of_designates {size b n : Nat} {range : Bytes} (h : Designates size range b n)
    {beg_num end_num : Int} (hok : rangeOf size range = .ok (beg_num, end_num)) :
    beg_num = b ∧ end_num - beg_num + 1 = n := by
  cases h with
  | fromTo hs ht hab hb =>
    obtain ⟨-, hbounds⟩ := (ByteRange.Spells.fromTo hs ht).rangeOf_eq_ok.mp hok
    obtain ⟨rfl, rfl⟩ := Prod.mk.inj hbounds
    exact ⟨rfl, by omega⟩
  | fromOn hs ha =>
    obtain ⟨-, hbounds⟩ := (ByteRange.Spells.fromOn hs).rangeOf_eq_ok.mp hok
    obtain ⟨rfl, rfl⟩ := Prod.mk.inj hbounds
    exact ⟨rfl, by omega⟩
  | last ht hpos hn =>
    obtain ⟨-, hbounds⟩ := (ByteRange.Spells.last ht).rangeOf_eq_ok.mp hok
    obtain ⟨rfl, rfl⟩ := Prod.mk.inj hbounds
    omega

/-- Whatever it asks for, the bounds of a range are numbers of some sixty bits. -/
theorem rangeOf_bounds {len : Nat} (hlen : len < 2 ^ 63) {range : Bytes} {beg_num end_num : Int}
    (hok : rangeOf len range = .ok (beg_num, end_num)) :
    beg_num.natAbs < 2 ^ 64 ∧ end_num.natAbs < 2 ^ 64 := by
  obtain ⟨hread, hbounds⟩ := rangeOf_eq_ok.mp hok
  cases hx : strto (pieces range).1 with
  | none =>
    cases hy : strto (pieces range).2 with
    | none =>
      rw [hx, hy] at hbounds
      cases hbounds
      decide
    | some y =>
      have hfits := hread.behind.fits hy
      rw [hx, hy] at hbounds
      obtain ⟨rfl, rfl⟩ := Prod.mk.inj hbounds
      omega
  | some x =>
    have hfits := hread.before.fits hx
    cases hy : strto (pieces range).2 with
    | none =>
      rw [hx, hy] at hbounds
      obtain ⟨rfl, rfl⟩ := Prod.mk.inj hbounds
      omega
    | some y =>
      have hfits' := hread.behind.fits hy
      rw [hx, hy] at hbounds
      obtain ⟨rfl, rfl⟩ := Prod.mk.inj hbounds
      omega

/-! ## The condition -/

namespace HttpResponse

theorem tame_page {r : HttpResponse} (h : r.Tame) (code : HttpStatusCode) {contentType : Bytes}
    (htype : TameText contentType) (body : Bytes) :
    (((r.setStatusCode code).setContentType contentType).setBody body).Tame :=
  ((h.of_eq rfl rfl : (r.setStatusCode code).Tame).setContentType htype).of_eq rfl rfl

theorem noLength_page (close : Bool) (code : HttpStatusCode) (contentType body : Bytes) :
    ((((new close).setStatusCode code).setContentType contentType).setBody
      body).headers_[kContentLength]? = none := by
  have hne : ascii "Content-Type" ≠ kContentLength := by decide
  have hget := getElem?_addHeader ((new close).setStatusCode code) (ascii "Content-Type")
    contentType kContentLength
  rw [if_neg hne] at hget
  exact hget.trans Std.ExtTreeMap.getElem?_empty

end HttpResponse

namespace FileServer

/-- The response of `body` keeps the connection if the reply does. -/
theorem keep_of_replyOf {body : Body} {reply : Reply} (h : replyOf body = some reply) :
    body.response.closeConnection_ = reply.close := by
  obtain ⟨buf, -, rfl⟩ := Option.map_eq_some_iff.mp h
  rfl

theorem tame_notFoundBody (msg : Bytes) (close : Bool) :
    (notFoundBody msg (HttpResponse.new close)).response.Tame :=
  tame_page (tame_new close) _ ⟨by decide, by decide⟩ _

theorem length_get404Html (msg msg' : Bytes) :
    (get404Html (msg ++ msg')).length = (get404Html msg).length + msg'.length := by
  simp only [get404Html, List.length_append, ← Nat.add_assoc]
  simp only [Nat.add_right_comm _ msg'.length]

theorem short_notFoundBody {msg : Bytes} (hmsg : msg.length < 100) (close : Bool) :
    (notFoundBody msg (HttpResponse.new close)).response.body_.length < 2 ^ 31 := by
  have hempty : (get404Html []).length < 1000 := by decide +kernel
  have hlen : (get404Html msg).length = (get404Html []).length + msg.length :=
    length_get404Html [] msg
  show (get404Html msg).length < 2 ^ 31
  omega

theorem honest_notFound {msg : Bytes} {close : Bool} {reply : Reply}
    (hreply : replyOf (notFoundBody msg (HttpResponse.new close)) = some reply)
    (hkeep : reply.close = false) (hmsg : msg.length < 100) : reply.Honest :=
  (honest_page_iff (tame_notFoundBody msg close) ((keep_of_replyOf hreply).trans hkeep) rfl
    (noLength_page close _ _ _) hreply).mpr (short_notFoundBody hmsg close)

theorem tame_directoryBody (path list : Bytes) (close : Bool) :
    (directoryBody path list (HttpResponse.new close)).response.Tame :=
  tame_page (tame_new close) _ ⟨by decide, by decide⟩ _

theorem honest_directory_iff {path list : Bytes} {close : Bool} {reply : Reply}
    (hreply : replyOf (directoryBody path list (HttpResponse.new close)) = some reply)
    (hkeep : reply.close = false) :
    reply.Honest ↔ (directoryBody path list (HttpResponse.new close)).response.body_.length <
      2 ^ 31 :=
  honest_page_iff (tame_directoryBody path list close) ((keep_of_replyOf hreply).trans hkeep) rfl
    (noLength_page close _ _ _) hreply

theorem tame_faviconBody (close : Bool) : (faviconBody (HttpResponse.new close)).response.Tame := by
  have hstatus : ((HttpResponse.new close).setStatusCode k200Ok).Tame :=
    (tame_new close).of_eq rfl rfl
  have hmessage := hstatus.setStatusMessage (⟨by decide, by decide⟩ : TameText (ascii "OK"))
  have htype := hmessage.setContentType (⟨by decide, by decide⟩ : TameText (ascii "image/png"))
  exact htype.of_eq rfl rfl

theorem short_favicon : favicon.length < 2 ^ 31 := by decide +kernel

theorem honest_favicon {close : Bool} {reply : Reply}
    (hreply : replyOf (faviconBody (HttpResponse.new close)) = some reply)
    (hkeep : reply.close = false) : reply.Honest :=
  (honest_page_iff (tame_faviconBody close) ((keep_of_replyOf hreply).trans hkeep) rfl
    (noLength_page close k200Ok (ascii "image/png") favicon) hreply).mpr short_favicon

/-- A whole file is honest if it was opened. -/
theorem honest_whole_iff {fs : FileSystem} {path : Bytes} {len : Nat} (hlen : len < 2 ^ 63)
    {req : HttpRequest} {close : Bool} {reply : Reply}
    (hreply : replyOf (wholeBody (fs.opened path) len
      (fileHead fs path req (HttpResponse.new close))) = some reply)
    (hkeep : reply.close = false) : reply.Honest ↔ fs.open_ path ≠ -1 := by
  have htame := (tame_fileHead fs path req close).wholeBody (fs.opened path)
    (by omega : (len : Int).natAbs < 2 ^ 64)
  have hkeep' := (keep_of_replyOf hreply).trans hkeep
  have hlength : (wholeBody (fs.opened path) len (fileHead fs path req
      (HttpResponse.new close))).response.headers_[kContentLength]? = some (intText len) :=
    (getElem?_addHeader _ _ _ _).trans (if_pos rfl)
  by_cases hfd : fs.open_ path = -1
  · have hno := not_honest_unopened htame hkeep'
      (show (fs.open_ path != -1) = false by simp [hfd]) hlength hreply
    exact ⟨fun h => absurd h hno, fun h => absurd hfd h⟩
  · rw [honest_file_iff htame hkeep' (show (fs.open_ path != -1) = true by simp [hfd]) rfl hlength
      hreply]
    refine ⟨fun _ => hfd, ?_⟩
    intro _
    show intText len = natText (castSize len)
    rw [castSize_natCast (by omega), intText_natCast]

/-- The length of a range survives the `int` exactly if it is one. -/
theorem castSize_castInt_iff {n : Nat} (hn : n < 2 ^ 63) :
    castSize (castInt n) = n ↔ n < 2 ^ 31 := by
  constructor
  · intro heq
    by_contra hlong
    -- a negative `int` becomes a `size_t` of more than `2 ^ 63`
    have hcut := castInt_lt (Nat.le_of_not_lt hlong)
    have hrange : -2 ^ 31 ≤ castInt n ∧ castInt n < 2 ^ 31 := by
      simp only [castInt, Int.bmod]
      split <;> omega
    unfold castSize at heq
    omega
  · intro hshort
    rw [castInt_eq (by omega) (by omega), castSize_natCast (by omega)]

/-- A range is honest if the file was opened and an `int` holds the length of the range. -/
theorem honest_range_iff {fs : FileSystem} {path : Bytes} {len b n : Nat} (hlen : len < 2 ^ 63)
    (hpos : 0 < n) (hle : b + n ≤ len) {beg_num end_num : Int} (hbeg : beg_num = b)
    (hneed : end_num - beg_num + 1 = n) {req : HttpRequest} {close : Bool} {reply : Reply}
    (hreply : replyOf (rangeBody (fs.opened path) len beg_num end_num
      (fileHead fs path req (HttpResponse.new close))) = some reply)
    (hkeep : reply.close = false) : reply.Honest ↔ fs.open_ path ≠ -1 ∧ n < 2 ^ 31 := by
  have htame := (tame_fileHead fs path req close).rangeBody (fs.opened path)
    (by omega : beg_num.natAbs < 2 ^ 64) (by omega : end_num.natAbs < 2 ^ 64)
    (by omega : (len : Int).natAbs < 2 ^ 64)
  have hkeep' := (keep_of_replyOf hreply).trans hkeep
  have hlength : (rangeBody (fs.opened path) len beg_num end_num (fileHead fs path req
      (HttpResponse.new close))).response.headers_[kContentLength]? =
        some (intText (end_num - beg_num + 1)) :=
    (getElem?_addHeader _ _ _ _).trans (if_pos rfl)
  by_cases hfd : fs.open_ path = -1
  · have hno := not_honest_unopened htame hkeep'
      (show (fs.open_ path != -1) = false by simp [hfd]) hlength hreply
    exact ⟨fun h => absurd h hno, fun h => absurd hfd h.1⟩
  · rw [honest_file_iff htame hkeep' (show (fs.open_ path != -1) = true by simp [hfd]) rfl hlength
      hreply, ← castSize_castInt_iff (by omega : n < 2 ^ 63)]
    show intText (end_num - beg_num + 1) =
      natText (castSize (castInt (end_num - beg_num + 1))) ↔ _
    rw [hneed, intText_natCast]
    constructor
    · exact fun heq => ⟨hfd, (natText_injective heq).symm⟩
    · exact fun heq => congrArg natText heq.2.symm

/-- A regular file is honest if it was opened and an `int` holds the length of the range, if one is
asked for. -/
theorem honest_regular_iff {server : FileServer} {fs : FileSystem} {req : HttpRequest}
    {reply : Reply} (hreply : server.reply fs req = some reply) (hkeep : reply.close = false)
    (hicon : req.path_ ≠ ascii "/favicon.ico") {st_size : Nat} {hsize : st_size < 2 ^ 63}
    (hstat : fs.stat (c_str (server.path req)) = some (.regular st_size hsize))
    (hrange : req.getHeader (ascii "Range") = [] ∨
      ∃ b n, Designates st_size (req.getHeader (ascii "Range")) b n) :
    reply.Honest ↔ fs.open_ (c_str (server.path req)) ≠ -1 ∧
      ∀ b n, Designates st_size (req.getHeader (ascii "Range")) b n → n < 2 ^ 31 := by
  obtain ⟨body, hbody, hreplyOf⟩ := Option.bind_eq_some_iff.mp hreply
  rw [respond, if_neg hicon, setResponseBody] at hbody
  simp only [hstat, fileBody] at hbody
  rcases hrange with hnone | ⟨b, n, hrange⟩
  · rw [if_neg (by simp [hnone])] at hbody
    cases hbody
    rw [honest_whole_iff hsize hreplyOf hkeep]
    exact ⟨fun h => ⟨h, fun b n hd => absurd hnone hd.bounds.2.2⟩, fun h => h.1⟩
  · obtain ⟨hpos, hle, hne⟩ := hrange.bounds
    rw [if_pos hne] at hbody
    split at hbody
    · cases hbody
    · next beg_num end_num hok =>
      cases hbody
      obtain ⟨hbeg, hneed⟩ := rangeOf_of_designates hrange hok
      rw [honest_range_iff hsize hpos hle hbeg hneed hreplyOf hkeep]
      refine ⟨fun h => ⟨h.1, fun b' n' hd => ?_⟩, fun h => ⟨h.1, h.2 b n hrange⟩⟩
      -- the field determines the length
      have hneed' := (rangeOf_of_designates hd hok).2
      omega

/-- The condition under which a response says how long it is: a file must have been opened, and a
range and a directory's page must be counted in an `int`. -/
def LengthAgrees (server : FileServer) (fs : FileSystem) (req : HttpRequest) : Prop :=
  req.path_ = ascii "/favicon.ico" ∨
    match fs.stat (c_str (server.path req)) with
    | some (.regular st_size _) => fs.open_ (c_str (server.path req)) ≠ -1 ∧
        ∀ b n, Designates st_size (req.getHeader (ascii "Range")) b n → n < 2 ^ 31
    | some .directory => ∀ list, (scanDir fs (server.path req) []).2 = some list →
        (directoryBody (server.path req) list
          (HttpResponse.new req.close)).response.body_.length < 2 ^ 31
    | _ => True

/-- A reply on a connection that is kept says how long it is exactly under this condition, for
every request whose `Range` field, if there is one, asks for a part of the file. -/
theorem honest_iff {server : FileServer} {fs : FileSystem} {req : HttpRequest} {reply : Reply}
    (hreply : server.reply fs req = some reply) (hkeep : reply.close = false)
    (hrange : ∀ st_size h, fs.stat (c_str (server.path req)) = some (.regular st_size h) →
      req.getHeader (ascii "Range") = [] ∨
        ∃ b n, Designates st_size (req.getHeader (ascii "Range")) b n) :
    reply.Honest ↔ server.LengthAgrees fs req := by
  obtain ⟨body, hbody, hreplyOf⟩ := Option.bind_eq_some_iff.mp hreply
  unfold respond at hbody
  unfold LengthAgrees
  by_cases hicon : req.path_ = ascii "/favicon.ico"
  · rw [if_pos hicon] at hbody
    cases hbody
    exact ⟨fun _ => .inl hicon, fun _ => honest_favicon hreplyOf hkeep⟩
  · rw [if_neg hicon, setResponseBody] at hbody
    rw [or_iff_right hicon]
    cases hstat : fs.stat (c_str (server.path req)) with
    | none =>
      rw [hstat] at hbody
      cases hbody
      exact ⟨fun _ => trivial, fun _ => honest_notFound hreplyOf hkeep (by decide)⟩
    | some kind =>
      cases kind with
      | other =>
        rw [hstat] at hbody
        cases hbody
        exact ⟨fun _ => trivial, fun _ => honest_notFound hreplyOf hkeep (by decide)⟩
      | directory =>
        rw [hstat] at hbody
        obtain ⟨list, hlist, rfl⟩ := Option.map_eq_some_iff.mp hbody
        rw [honest_directory_iff hreplyOf hkeep]
        simp only [hlist, Option.some.injEq, forall_eq']
      | regular st_size hsize =>
        exact honest_regular_iff hreply hkeep hicon hstat (hrange st_size hsize hstat)

/-- `GET /a HTTP/1.1`. -/
def getA : HttpRequest :=
  { HttpRequest.new with method_ := .kGet, version_ := .kHttp11, path_ := ascii "/a" }

/-- Two bytes of a file of five. -/
theorem honest_part :
    let req := getA.addHeader (ascii "Range") (ascii "bytes=1-2")
    ∃ reply, (FileServer.mk (ascii "./www")).reply
      (.oneFile 7 (ascii "./www/a") (ascii "hello") (by decide)) req = some reply ∧
        reply.Honest := by
  intro req
  have hrange : req.getHeader (ascii "Range") =
      ascii "bytes=" ++ (ascii "1" ++ DASH :: ascii "2") := by decide +kernel
  have hpart : Designates 5 (req.getHeader (ascii "Range")) 1 2 := by
    rw [hrange]
    exact .fromTo (isDecimal_of_all (by decide) (by decide) (by decide))
      (isDecimal_of_all (by decide) (by decide) (by decide)) (by decide) (by decide)
  have hclose : ((FileServer.mk (ascii "./www")).reply
      (.oneFile 7 (ascii "./www/a") (ascii "hello") (by decide)) req).map Reply.close =
        some false := by decide +kernel
  obtain ⟨reply, hreply, hkeep⟩ := Option.map_eq_some_iff.mp hclose
  have hstat : (FileSystem.oneFile 7 (ascii "./www/a") (ascii "hello") (by decide)).stat
      (c_str ((FileServer.mk (ascii "./www")).path req)) = some (.regular 5 (by decide)) := by
    decide
  refine ⟨reply, hreply, (honest_iff hreply hkeep ?_).mpr ?_⟩
  · intro st_size h hsize
    cases hstat.symm.trans hsize
    exact .inr ⟨1, 2, hpart⟩
  · rw [LengthAgrees, hstat]
    refine .inr ⟨by decide, ?_⟩
    intro b n hd
    have hbounds := hd.bounds
    omega

/-- A file that is there and cannot be opened. -/
theorem not_honest_unreadable : ∃ reply, (FileServer.mk (ascii "./www")).reply
    (.oneFile (-1) (ascii "./www/a") (ascii "hello") (by decide)) getA = some reply ∧
      reply.close = false ∧ ¬ reply.Honest := by
  have hclose : ((FileServer.mk (ascii "./www")).reply
      (.oneFile (-1) (ascii "./www/a") (ascii "hello") (by decide)) getA).map Reply.close =
        some false := by decide +kernel
  obtain ⟨reply, hreply, hkeep⟩ := Option.map_eq_some_iff.mp hclose
  have hstat : (FileSystem.oneFile (-1) (ascii "./www/a") (ascii "hello") (by decide)).stat
      (c_str ((FileServer.mk (ascii "./www")).path getA)) = some (.regular 5 (by decide)) := by
    decide
  have hiff := honest_regular_iff hreply hkeep (by decide) hstat (.inl (by decide +kernel))
  exact ⟨reply, hreply, hkeep, fun hhonest => absurd rfl (hiff.mp hhonest).1⟩

end FileServer

end Mymuduo
