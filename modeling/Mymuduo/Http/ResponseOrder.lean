import Mymuduo.Http.LengthHonesty
import Mymuduo.Http.Pipelining
import Mymuduo.Net.BufferedOutput

/-!
# The order of the responses on a connection

`send` and `sendFile` share one write interest, one output buffer and one slot for a file. `InOrder`
says that everything produced so far is on the socket, in the buffer or still in the file, in this
order. Every way of writing keeps it (`InOrder.handleWrite`), and so does a reply, if nothing of an
earlier file is left when it is handed over (`InOrder.perform`). Nothing in the code sees to that: a
reply that comes while a file is half sent is put in front of the rest of that file
(`not_prefix_second_file`).

* `responses_in_order`: what every run of the server in which no reply comes too early puts on the
  socket.
-/

namespace Mymuduo

open CString Lines Transition HttpResponse

def SysRet.isPositive : SysRet → Bool
  | .ok n => 0 < n
  | .fail _ => false

theorem SysRet.isFault_of_isPositive {r : SysRet} (h : r.isPositive = true) :
    r.isFault = false := by
  cases r with
  | ok n => rfl
  | fail e => cases h

namespace TcpConnection

/-! ## The connection -/

/-- What is still to be sent of the file in the slot. -/
def unsentFile (c : TcpConnection) : Bytes := (c.files c.sendFd_).take c.sendLen_

/-- Everything produced is on the socket, in the buffer or still in the file, in this order. -/
structure InOrder (c : TcpConnection) (all : Bytes) : Prop where
  connected : c.state_ = .kConnected
  output : wire c.trace ++ c.outputBuffer_.readable ++ c.unsentFile = all
  opened : c.unsentFile ≠ [] → 0 ≤ c.sendFd_
  bufferWatched : c.outputBuffer_.readable ≠ [] → c.isWriting = true
  fileWatched : c.unsentFile ≠ [] → c.isWriting = true

/-- The same of a connection whose slot does not count. -/
structure Buffered (c : TcpConnection) (all : Bytes) : Prop where
  connected : c.state_ = .kConnected
  output : wire c.trace ++ c.outputBuffer_.readable = all
  bufferWatched : c.outputBuffer_.readable ≠ [] → c.isWriting = true

theorem InOrder.buffered {c : TcpConnection} {all : Bytes} (h : InOrder c all)
    (hnone : c.unsentFile = []) : Buffered c all :=
  ⟨h.connected, by simpa [hnone] using h.output, h.bufferWatched⟩

theorem Buffered.inOrder {c : TcpConnection} {all : Bytes} (h : Buffered c all)
    (hnone : c.unsentFile = []) : InOrder c all :=
  ⟨h.connected, by simpa [hnone] using h.output, fun hne => absurd hnone hne, h.bufferWatched,
    fun hne => absurd hnone hne⟩

theorem InOrder.sent {c : TcpConnection} {all : Bytes} (h : InOrder c all) :
    wire c.trace <+: all :=
  ⟨c.outputBuffer_.readable ++ c.unsentFile, by rw [← List.append_assoc, h.output]⟩

theorem unsentFile_congr {c c' : TcpConnection} (h : SameControl c c') :
    c'.unsentFile = c.unsentFile := by
  rw [unsentFile, unsentFile, h.files, h.sendFd_, h.sendLen_]

/-- A message goes behind everything that is in the buffer. -/
theorem Buffered.send {c : TcpConnection} {all : Bytes} (h : Buffered c all) (message : Bytes)
    {r : SysRet} (hr : r.isFault = false) :
    Buffered (c.send message r) (all ++ message) ∧ SameControl c (c.send message r) := by
  have hup : c.state_ ≠ .kDisconnected := by simp [h.connected]
  rw [TcpConnection.send, if_pos h.connected]
  obtain ⟨sent, rest, hmsg, hspec⟩ := sendInLoop_spec hup message r
  obtain ⟨es, hes, htr⟩ := hspec.trace
  -- bytes go out directly only when nothing is buffered
  have horder : c.outputBuffer_.readable ++ (sent ++ rest) =
      sent ++ (c.outputBuffer_.readable ++ rest) := by
    rcases eq_or_ne sent [] with rfl | hne
    · simp
    · simp [(hspec.direct hne).2]
  refine ⟨⟨hspec.control.state_.trans h.connected, ?_, fun hne => hspec.writing.mpr ?_⟩,
    hspec.control⟩
  · rw [htr, hspec.out, wire_append, hes.wire_eq, ← h.output, hmsg hr, List.append_assoc,
      List.append_assoc, horder]
  · rw [hspec.out, ne_eq, List.append_eq_nil_iff, not_and_or] at hne
    exact hne.imp_left h.bufferWatched

/-- `sendfile(2)` takes from the front of what is unsent. -/
theorem fileBytes_append_unsentFile (c : TcpConnection) (n : Nat) :
    c.fileBytes n ++ ((c.moveFile (c.fileBytes n)).advance (c.fileBytes n).length).unsentFile =
      c.unsentFile := by
  have hfile : c.fileBytes n = c.unsentFile.take n := rfl
  have hrest : ((c.moveFile (c.fileBytes n)).advance (c.fileBytes n).length).unsentFile =
      c.unsentFile.drop (c.fileBytes n).length := by
    simp [unsentFile, List.drop_take]
  rw [hrest, hfile, List.length_take, drop_min_length, List.take_append_drop]

/-- The slot is watched for from then on. -/
theorem inOrder_watchFile {c : TcpConnection} {all : Bytes} (hconnected : c.state_ = .kConnected)
    (houtput : wire c.trace ++ c.outputBuffer_.readable ++ c.unsentFile = all)
    (hopened : c.unsentFile ≠ [] → 0 ≤ c.sendFd_)
    (hbuffer : c.outputBuffer_.readable ≠ [] → c.isWriting = true) :
    InOrder (c.watchFile false) all := by
  have hspec := watchFile_spec c false
  have hunsent := unsentFile_congr hspec.control
  refine ⟨hspec.control.state_.trans hconnected, ?_, ?_, ?_, ?_⟩
  · rw [hspec.trace, hspec.outputBuffer_, hunsent, houtput]
  · rw [hunsent, hspec.control.sendFd_]
    exact hopened
  · intro hne
    rw [hspec.outputBuffer_] at hne
    exact (isWriting_watchFile c).mpr (.inl (hbuffer hne))
  · intro hne
    refine (isWriting_watchFile c).mpr (.inr (Nat.pos_of_ne_zero fun hzero => ?_))
    rw [hunsent, unsentFile, hzero] at hne
    exact hne rfl

/-- A file goes into the slot when no other is left there, behind everything in the buffer. -/
theorem Buffered.sendFile {c : TcpConnection} {all : Bytes} (h : Buffered c all) {fd : Int}
    (hfd : 0 ≤ fd) (count : Nat) {r : SysRet} (hr : r.isPositive = true) :
    InOrder (c.sendFile fd count r) (all ++ (c.files fd).take count) := by
  rw [TcpConnection.sendFile, if_pos h.connected]
  have hcases := sendFileInLoop_cases (c.setFile fd count) r
  generalize (c.setFile fd count).sendFileInLoop r = c' at hcases ⊢
  cases hcases with
  | disconnected hs => simp [h.connected] at hs
  | busy hs hbusy =>
    refine inOrder_watchFile h.connected ?_ (fun _ => hfd) h.bufferWatched
    simp only [setFile_trace, setFile_outputBuffer_, h.output]
    rfl
  | failed hs hidle e hfail =>
    rcases hfail with rfl | ⟨hneg, -⟩
    · cases hr
    · exact absurd hfd (Int.not_le.mpr hneg)
  | sent hs hidle n hn hfd' =>
    have hunsent := fileBytes_append_unsentFile (c.setFile fd count) n
    have hempty : c.outputBuffer_.readable = [] := hidle.2
    have houtput := h.output
    rw [hempty, List.append_nil] at houtput
    unfold sentFromFile
    dsimp only
    generalize (c.setFile fd count).fileBytes n = data at hunsent ⊢
    have hall : wire (c.trace ++ [.put data]) ++
        (((c.setFile fd count).moveFile data).advance data.length).unsentFile =
          all ++ (c.files fd).take count := by
      have hput : wire [.put data] = data := List.append_nil data
      rw [wire_append, houtput, hput, List.append_assoc, hunsent]
      rfl
    split
    · next hdone =>
      refine inOrder_watchFile h.connected ?_ (fun _ => hfd) (fun hne => absurd hempty hne)
      rw [← hall]
      simp [wire, hempty, unsentFile]
    · next hmore =>
      refine inOrder_watchFile h.connected ?_ (fun _ => hfd) (fun hne => absurd hempty hne)
      rw [← hall]
      simp [hempty]

theorem InOrder.writeBuffer {c : TcpConnection} {all : Bytes} (h : InOrder c all)
    (hw : c.isWriting = true) (hout : c.outputBuffer_.readable ≠ []) (r : SysRet) :
    InOrder (c.writeBuffer r) all := by
  have hdue : c.dueShutdown = [] := if_neg (by simp [h.connected])
  obtain ⟨sent, hspec⟩ := writeBuffer_spec hw hout r
  obtain ⟨es, hes, htr⟩ := hspec.trace
  have hunsent := unsentFile_congr hspec.control
  have hwire : wire (c.writeBuffer r).trace = wire c.trace ++ sent := by
    rw [htr, hdue, ite_self, List.append_nil, wire_append, hes.wire_eq]
  refine ⟨hspec.control.state_.trans h.connected, ?_, ?_, ?_, ?_⟩
  · rw [hwire, hunsent, ← h.output, hspec.out, List.append_assoc (wire c.trace) sent]
  · rw [hunsent, hspec.control.sendFd_]
    exact h.opened
  · intro hrest
    exact hspec.writing.mpr (.inl hrest)
  · -- the write interest stays on for the file that comes after the buffer
    intro hrest
    refine hspec.writing.mpr (.inr ?_)
    intro hzero
    rw [hunsent, unsentFile, hzero] at hrest
    exact hrest rfl

/-- Giving a file up drops nothing when nothing of it is left. -/
theorem InOrder.abandonFile {c : TcpConnection} {all : Bytes} (h : InOrder c all)
    (hempty : c.outputBuffer_.readable = []) (hnone : c.unsentFile = []) :
    InOrder c.abandonFile all := by
  have houtput := h.output
  rw [hempty, hnone, List.append_nil, List.append_nil] at houtput
  refine Buffered.inOrder ⟨h.connected, ?_, fun hne => absurd hempty hne⟩ List.take_zero
  rw [← houtput]
  simp [TcpConnection.abandonFile, wire, hempty]

theorem InOrder.moveNothing {c : TcpConnection} {all : Bytes} (h : InOrder c all) :
    InOrder (c.moveFile []) all := by
  have hunsent : (c.moveFile []).unsentFile = c.unsentFile := by simp [unsentFile]
  refine ⟨h.connected, ?_, ?_, h.bufferWatched, ?_⟩
  · rw [hunsent, ← h.output]
    simp [wire]
  · rw [hunsent]
    exact h.opened
  · rw [hunsent]
    exact h.fileWatched

theorem InOrder.writeFile {c : TcpConnection} {all : Bytes} (h : InOrder c all)
    (hw : c.isWriting = true) (hempty : c.outputBuffer_.readable = []) {r : SysRet}
    (hr : r.isPositive = true) : InOrder (c.writeFile r) all := by
  have houtput := h.output
  rw [hempty, List.append_nil] at houtput
  have hcases := writeFile_cases c r
  generalize c.writeFile r = c' at hcases ⊢
  cases hcases with
  | failed hfail =>
    refine h.abandonFile hempty ?_
    rcases hfail with ⟨e, rfl⟩ | hneg
    · cases hr
    · by_contra hne
      exact absurd (h.opened hne) (Int.not_le.mpr hneg)
  | ended n hn hfd hnone =>
    -- `sendfile(2)` reports nothing only at the end of the file
    subst hn
    have hpos : n ≠ 0 := Nat.pos_iff_ne_zero.mp (by simpa [SysRet.isPositive] using hr)
    have hend : c.unsentFile = [] := (List.take_eq_nil_iff.mp hnone).resolve_left hpos
    refine h.moveNothing.abandonFile hempty ?_
    simpa [unsentFile] using hend
  | part n hn hfd hmore hsome =>
    have hunsent := fileBytes_append_unsentFile c n
    refine ⟨h.connected, ?_, fun _ => hfd, fun _ => hw, fun _ => hw⟩
    rw [← houtput, ← hunsent]
    simp [wire, hempty]
  | finished n hn hfd hall hsome =>
    have hwhole : c.fileBytes n = c.unsentFile := by
      have hle : (c.fileBytes n).length ≤ n := List.length_take_le _ _
      have hlen : c.unsentFile.length ≤ c.sendLen_ := List.length_take_le _ _
      exact List.take_of_length_le (hlen.trans (hall.symm.le.trans hle))
    have hdue : ((c.moveFile (c.fileBytes n)).disableWriting.closeSendFd.setFile
        (-1) 0).dueShutdown = [] := if_neg (by simp [h.connected])
    rw [finishShutdown_eq (by simp)]
    refine Buffered.inOrder ⟨h.connected, ?_, fun hne => absurd hempty hne⟩ List.take_zero
    rw [← houtput, ← hwhole]
    simp [hdue, hempty, wire]

/-- A writable socket takes the buffer first and the file after it. -/
theorem InOrder.handleWrite {c : TcpConnection} {all : Bytes} (h : InOrder c all) {r : SysRet}
    (hr : r.isPositive = true) : InOrder (c.handleWrite r) all := by
  unfold TcpConnection.handleWrite
  split
  · next hw =>
    split
    · next hne =>
      exact h.writeBuffer hw (fun h0 => hne (Buffer.readableBytes_eq_zero.mpr h0)) r
    · next hzero =>
      have hempty : c.outputBuffer_.readable = [] :=
        Buffer.readableBytes_eq_zero.mp (Decidable.not_not.mp hzero)
      exact h.writeFile hw hempty hr
  · exact h

end TcpConnection

/-- All that a reply puts on the socket. -/
def Reply.bytes (reply : Reply) : Bytes :=
  reply.text ++ reply.file.elim [] fun file => file.2.2.take file.2.1

namespace TcpConnection

/-- A reply goes behind everything produced before, if no file is left in the slot. -/
theorem InOrder.perform {c : TcpConnection} {all : Bytes} (h : InOrder c all)
    (hnone : c.unsentFile = []) {reply : Reply} (hkeep : reply.close = false)
    (hopen : ∀ file ∈ reply.file, 0 ≤ file.1) {r r' : SysRet} (hr : r.isPositive = true)
    (hr' : r'.isPositive = true) : InOrder (c.perform reply r r') (all ++ reply.bytes) := by
  have hfault := SysRet.isFault_of_isPositive hr
  rw [TcpConnection.perform, hkeep, if_neg Bool.false_ne_true]
  cases hfile : reply.file with
  | none =>
    obtain ⟨hsent, hcontrol⟩ := (h.buffered hnone).send reply.text hfault
    simpa [Reply.bytes, hfile] using hsent.inOrder ((unsentFile_congr hcontrol).trans hnone)
  | some file =>
    obtain ⟨fd, needLen, data⟩ := file
    -- the new descriptor may be the old one of the slot, which no longer counts
    have hopened : Buffered (c.openFile fd data) all :=
      ⟨h.connected, (h.buffered hnone).output, h.bufferWatched⟩
    obtain ⟨hsent, hcontrol⟩ := hopened.send reply.text hfault
    have hdata : ((c.openFile fd data).send reply.text r).files fd = data := by
      rw [hcontrol.files]
      exact if_pos rfl
    have hslot := hsent.sendFile (hopen (fd, needLen, data) hfile) needLen hr'
    rw [hdata] at hslot
    simpa [Reply.bytes, hfile] using hslot

end TcpConnection

namespace FileServer

/-! ## The responses -/

/-- The bytes of a file that a request asks for. A file that cannot be opened has none. -/
def asked (server : FileServer) (fs : FileSystem) (req : HttpRequest) : Bytes :=
  let path := c_str (server.path req)
  if req.path_ = ascii "/favicon.ico" ∨ fs.open_ path = -1 then []
  else
    match fs.stat path with
    | some (.regular st_size _) =>
      let range := req.getHeader (ascii "Range")
      if range = [] then (fs.contents path).take st_size
      else
        match rangeOf st_size range with
        | .ok (beg_num, end_num) =>
          ((fs.contents path).drop beg_num.toNat).take (end_num - beg_num + 1).toNat
        | .error _ => []
    | _ => []

/-- For a `Range` field that asks for `n` bytes from `b` on, these are the bytes, unless the numbers
are too large to be read. -/
theorem asked_of_designates {server : FileServer} {fs : FileSystem} {req : HttpRequest}
    (hicon : req.path_ ≠ ascii "/favicon.ico") (hfd : fs.open_ (c_str (server.path req)) ≠ -1)
    {st_size : Nat} {hsize : st_size < 2 ^ 63}
    (hstat : fs.stat (c_str (server.path req)) = some (.regular st_size hsize)) {b n : Nat}
    (hrange : Designates st_size (req.getHeader (ascii "Range")) b n) {beg_num end_num : Int}
    (hok : rangeOf st_size (req.getHeader (ascii "Range")) = .ok (beg_num, end_num)) :
    server.asked fs req = ((fs.contents (c_str (server.path req))).drop b).take n := by
  obtain ⟨hbeg, hneed⟩ := rangeOf_of_designates hrange hok
  obtain ⟨-, -, hne⟩ := hrange.bounds
  rw [asked]
  simp only [hicon, hfd, or_self, if_false, hstat, hne, hok, hbeg, Int.toNat_natCast]
  rw [← hbeg, hneed, Int.toNat_natCast]

/-- The whole response to a request: its text and the file that is asked for. -/
def wholeResponse (server : FileServer) (fs : FileSystem) (req : HttpRequest) : Option Bytes :=
  (server.respond fs req).2.map fun body => body.response.text ++ server.asked fs req

/-- The length of a range cuts the file where it should, after it was made an `int` and a
`size_t`. -/
def RangeHeld (contents : Bytes) : Except StdException (Int × Int) → Prop
  | .ok (beg_num, end_num) =>
    min (castSize (castInt (end_num - beg_num + 1))) (contents.drop beg_num.toNat).length =
      min (end_num - beg_num + 1).toNat (contents.drop beg_num.toNat).length
  | .error _ => True

/-- `LengthsHeld`, for a path of this kind. -/
def KindHeld (server : FileServer) (fs : FileSystem) (req : HttpRequest) : Option FileKind → Prop
  | some (.regular st_size _) => fs.open_ (c_str (server.path req)) = -1 ∨
      req.getHeader (ascii "Range") = [] ∨
        RangeHeld (fs.contents (c_str (server.path req)))
          (rangeOf st_size (req.getHeader (ascii "Range")))
  | some .directory => ∀ list ∈ (scanDir fs (server.path req) []).2,
      (directoryBody (server.path req) list
        (HttpResponse.new req.close)).response.body_.length < 2 ^ 31
  | _ => True

/-- The lengths in a response survive that they are made an `int`: that of a range, as far as the
file goes, and that of a directory's page. -/
def LengthsHeld (server : FileServer) (fs : FileSystem) (req : HttpRequest) : Prop :=
  req.path_ = ascii "/favicon.ico" ∨ server.KindHeld fs req (fs.stat (c_str (server.path req)))

instance (contents : Bytes) : (range : Except StdException (Int × Int)) →
    Decidable (RangeHeld contents range)
  | .ok _ => inferInstanceAs (Decidable (_ = _))
  | .error _ => instDecidableTrue

instance (server : FileServer) (fs : FileSystem) (req : HttpRequest) :
    (kind : Option FileKind) → Decidable (server.KindHeld fs req kind)
  | some (.regular _ _) => inferInstanceAs (Decidable (_ ∨ _ ∨ _))
  | some .directory => inferInstanceAs (Decidable (∀ _ ∈ _, _))
  | some .other | none => instDecidableTrue

instance (server : FileServer) (fs : FileSystem) (req : HttpRequest) :
    Decidable (server.LengthsHeld fs req) :=
  inferInstanceAs (Decidable (_ ∨ _))

/-- What is handed over for a request: a text of which nothing is cut off, and the bytes that are
asked for. -/
structure Whole (server : FileServer) (fs : FileSystem) (req : HttpRequest) (body : Body) :
    Prop where
  tame : body.response.Tame
  short : body.response.body_.length < 2 ^ 31
  close : body.response.closeConnection_ = req.close
  file : (if body.response.needSendFile then
      (body.file.getD []).take (castSize body.response.len_) else []) = server.asked fs req
  opened : body.response.needSendFile = true →
    body.response.fd_ = fs.open_ (c_str (server.path req))

theorem whole_page {server : FileServer} {fs : FileSystem} {req : HttpRequest} {body : Body}
    (htame : body.response.Tame) (hshort : body.response.body_.length < 2 ^ 31)
    (hclose : body.response.closeConnection_ = req.close)
    (hfile : body.response.needSendFile = false) (hasked : server.asked fs req = []) :
    server.Whole fs req body :=
  ⟨htame, hshort, hclose, by rw [hfile, hasked]; rfl, by simp [hfile]⟩

/-- A regular file that cannot be opened: there is nothing behind the text. -/
theorem whole_unopened {server : FileServer} {fs : FileSystem} {req : HttpRequest} {body : Body}
    (hfd : fs.open_ (c_str (server.path req)) = -1) {st_size : Nat} (hsize : st_size < 2 ^ 63)
    (hbody : fileBody fs (c_str (server.path req)) st_size req (HttpResponse.new req.close) =
      some body) : server.Whole fs req body := by
  have hhead := tame_fileHead fs (c_str (server.path req)) req req.close
  have hempty : ([] : Bytes).length < 2 ^ 31 := by decide
  have hnone : (fs.open_ (c_str (server.path req)) != -1) = false := by simp [hfd]
  have hasked : server.asked fs req = [] := if_pos (.inr hfd)
  unfold fileBody at hbody
  dsimp only at hbody
  split at hbody
  · split at hbody
    · cases hbody
    · next beg_num end_num hok =>
      cases hbody
      obtain ⟨hbeg, hend⟩ := rangeOf_bounds hsize hok
      exact whole_page (hhead.rangeBody _ hbeg hend (by omega)) hempty rfl hnone hasked
  · cases hbody
    exact whole_page (hhead.wholeBody _ (by omega)) hempty rfl hnone hasked

/-- A regular file that was opened, whole or in part. -/
theorem whole_opened {server : FileServer} {fs : FileSystem} {req : HttpRequest} {body : Body}
    (hicon : req.path_ ≠ ascii "/favicon.ico") (hfd : fs.open_ (c_str (server.path req)) ≠ -1)
    {st_size : Nat} {hsize : st_size < 2 ^ 63}
    (hstat : fs.stat (c_str (server.path req)) = some (.regular st_size hsize))
    (hheld : req.getHeader (ascii "Range") = [] ∨
      RangeHeld (fs.contents (c_str (server.path req)))
        (rangeOf st_size (req.getHeader (ascii "Range"))))
    (hbody : fileBody fs (c_str (server.path req)) st_size req (HttpResponse.new req.close) =
      some body) : server.Whole fs req body := by
  have hhead := tame_fileHead fs (c_str (server.path req)) req req.close
  have hempty : ([] : Bytes).length < 2 ^ 31 := by decide
  have hsome : (fs.open_ (c_str (server.path req)) != -1) = true := by simp [hfd]
  have hnot : ¬ (req.path_ = ascii "/favicon.ico" ∨
      fs.open_ (c_str (server.path req)) = -1) := by simp [hicon, hfd]
  unfold fileBody at hbody
  by_cases hrange : req.getHeader (ascii "Range") = []
  · rw [if_neg (by simp [hrange])] at hbody
    cases hbody
    refine ⟨hhead.wholeBody _ (by omega), hempty, rfl, ?_, fun _ => rfl⟩
    have hlen : castSize st_size = st_size := castSize_natCast (by omega)
    rw [asked]
    simp only [if_neg hnot, hstat, if_pos hrange]
    refine (if_pos hsome).trans ?_
    show ((fs.opened _).getD []).take (castSize st_size) = _
    rw [FileSystem.opened_of_ne hfd, hlen, Option.getD_some]
  · rw [if_pos hrange] at hbody
    split at hbody
    · cases hbody
    · next beg_num end_num hok =>
      cases hbody
      obtain ⟨hbeg, hend⟩ := rangeOf_bounds hsize hok
      refine ⟨hhead.rangeBody _ hbeg hend (by omega), hempty, rfl, ?_, fun _ => rfl⟩
      -- where the `size_t` cuts the file, the length itself cuts it too
      have hcut : RangeHeld (fs.contents (c_str (server.path req))) (.ok (beg_num, end_num)) := by
        rw [← hok]
        exact hheld.resolve_left hrange
      rw [asked]
      simp only [if_neg hnot, hstat, if_neg hrange, hok]
      rw [FileSystem.opened_of_ne hfd]
      exact (if_pos hsome).trans (List.take_eq_take_iff.mpr hcut)

theorem asked_of_not_regular {server : FileServer} {fs : FileSystem} {req : HttpRequest}
    (hno : ∀ st_size h, fs.stat (c_str (server.path req)) ≠ some (.regular st_size h)) :
    server.asked fs req = [] := by
  unfold asked
  dsimp only
  split
  · rfl
  · split
    · next hstat => exact absurd hstat (hno _ _)
    · rfl

/-- Under the condition on the lengths, every response is handed over whole. -/
theorem whole_respond {server : FileServer} {fs : FileSystem} {req : HttpRequest} {body : Body}
    (hheld : server.LengthsHeld fs req) (hbody : (server.respond fs req).2 = some body) :
    server.Whole fs req body := by
  unfold respond at hbody
  by_cases hicon : req.path_ = ascii "/favicon.ico"
  · rw [if_pos hicon] at hbody
    cases hbody
    exact whole_page (tame_faviconBody _) short_favicon rfl rfl (if_pos (.inl hicon))
  · rw [if_neg hicon, setResponseBody] at hbody
    have hheld := hheld.resolve_left hicon
    cases hstat : fs.stat (c_str (server.path req)) with
    | none =>
      rw [hstat] at hbody
      cases hbody
      exact whole_page (tame_notFoundBody _ _) (short_notFoundBody (by decide) _) rfl rfl
        (asked_of_not_regular (by simp [hstat]))
    | some kind =>
      cases kind with
      | other =>
        rw [hstat] at hbody
        cases hbody
        exact whole_page (tame_notFoundBody _ _) (short_notFoundBody (by decide) _) rfl rfl
          (asked_of_not_regular (by simp [hstat]))
      | directory =>
        rw [hstat] at hbody hheld
        obtain ⟨list, hlist, rfl⟩ := Option.map_eq_some_iff.mp hbody
        exact whole_page (tame_directoryBody _ _ _) (hheld list hlist) rfl rfl
          (asked_of_not_regular (by simp [hstat]))
      | regular st_size hsize =>
        rw [hstat] at hbody hheld
        by_cases hfd : fs.open_ (c_str (server.path req)) = -1
        · exact whole_unopened hfd hsize hbody
        · exact whole_opened hicon hfd hstat (hheld.resolve_left hfd) hbody

theorem Whole.reply {server : FileServer} {fs : FileSystem} {req : HttpRequest} {body : Body}
    (h : server.Whole fs req body) : ∃ reply, replyOf body = some reply ∧
      reply.bytes = body.response.text ++ server.asked fs req ∧ reply.close = req.close ∧
      ∀ file ∈ reply.file, file.1 ≠ -1 ∧ file.1 = fs.open_ (c_str (server.path req)) := by
  have hfits : body.response.Fits := ⟨h.tame.frontFits, h.short⟩
  obtain ⟨buf, hbuf, hread⟩ := hfits.appendToBuffer (Buffer.new kInitialSize)
  rw [Buffer.readable_new, List.nil_append] at hread
  rw [replyOf, hbuf]
  refine ⟨_, rfl, ?_, h.close, ?_⟩
  · rw [Reply.bytes, ← h.file, ← hread]
    dsimp only
    split <;> rfl
  · intro file hfile
    split at hfile
    · next hneed =>
      cases hfile
      exact ⟨by simpa [needSendFile] using hneed, h.opened hneed⟩
    · cases hfile

/-! ## Runs -/

end FileServer

/-- What can happen to a connection of the server: a request arrives, while the files are as they
are, or the socket is writable. The kernel answers `write(2)` and `sendfile(2)`. -/
inductive ServerEvent
  | deliver (fs : FileSystem) (d : Delivery) (r' : SysRet)
  | handleWrite (r : SysRet)

namespace HttpConnection

/-- What the parser makes of a delivery. -/
def parsed (s : HttpConnection) (d : Delivery) : Option ParseResult :=
  (s.read d.data).context.parseRequest d.time (s.read d.data).conn.inputBuffer_

/-- The delivery makes a bad request. -/
def rejects (s : HttpConnection) (d : Delivery) : Bool :=
  match s.parsed d with
  | some ⟨.returned false, _, _⟩ => true
  | _ => false

/-- The request that the delivery completes. -/
def completes (s : HttpConnection) (d : Delivery) : Option HttpRequest :=
  match s.parsed d with
  | some ⟨.returned true, context, _⟩ => if context.gotAll then some context.request_ else none
  | _ => none

end HttpConnection

namespace FileServer

open HttpConnection TcpConnection

/-- One delivery of bytes. -/
def deliver (server : FileServer) (s : HttpConnection) (fs : FileSystem) (d : Delivery)
    (r' : SysRet) : Option HttpConnection :=
  server.onMessage fs (s.read d.data) d.time d.answer r'

/-- A delivery that ends the server puts nothing on the socket any more. -/
def step (server : FileServer) (s : HttpConnection) : ServerEvent → HttpConnection
  | .deliver fs d r' => (server.deliver s fs d r').getD s
  | .handleWrite r => { s with conn := s.conn.handleWrite r }

/-- The responses to the requests that a step completes. -/
def responses (server : FileServer) (s : HttpConnection) : ServerEvent → List Bytes
  | .deliver fs d _ => ((s.completes d).bind (server.wholeResponse fs)).toList
  | .handleWrite _ => []

/-- The steps of a connection that is kept and whose peer takes what it is sent, bit by bit. -/
def Served (server : FileServer) (s : HttpConnection) : ServerEvent → Prop
  | .deliver fs d r' => d.answer.isPositive = true ∧ r'.isPositive = true ∧ s.rejects d = false ∧
      ∀ req ∈ s.completes d, req.close = false ∧ -1 ≤ fs.open_ (c_str (server.path req))
  | .handleWrite r => r.isPositive = true

/-- No request is completed while an earlier file is still to be sent, and none whose response has
a length that an `int` spoils. -/
def Undisturbed (server : FileServer) (s : HttpConnection) : ServerEvent → Prop
  | .deliver fs d _ => ∀ req ∈ s.completes d, s.conn.unsentFile = [] ∧ server.LengthsHeld fs req
  | .handleWrite _ => True

instance (server : FileServer) (s : HttpConnection) :
    (e : ServerEvent) → Decidable (server.Served s e)
  | .deliver _ _ _ => inferInstanceAs (Decidable (_ ∧ _ ∧ _ ∧ ∀ _ ∈ _, _))
  | .handleWrite _ => inferInstanceAs (Decidable (_ = _))

instance (server : FileServer) (s : HttpConnection) :
    (e : ServerEvent) → Decidable (server.Undisturbed s e)
  | .deliver _ _ _ => inferInstanceAs (Decidable (∀ _ ∈ _, _))
  | .handleWrite _ => instDecidableTrue

/-- A parser that does not return ends the server. -/
theorem step_of_not_returned (server : FileServer) {s : HttpConnection} (fs : FileSystem)
    {d : Delivery} (r' : SysRet) (hno : ∀ ok ctx buf, s.parsed d ≠ some ⟨.returned ok, ctx, buf⟩) :
    s.completes d = none ∧ server.step s (.deliver fs d r') = s := by
  constructor
  · unfold completes
    split
    · next ctx buf hparse => exact absurd hparse (hno true ctx buf)
    · rfl
  · have hnone : server.deliver s fs d r' = none := by
      unfold deliver FileServer.onMessage HttpConnection.onMessage
      split
      · next ok ctx buf hparse => exact absurd hparse (hno ok ctx buf)
      · rfl
    rw [step, hnone]
    rfl

/-- A delivery completes a request, or it changes nothing but the input. -/
theorem deliver_cases (server : FileServer) {s : HttpConnection} {fs : FileSystem} {d : Delivery}
    {r' : SysRet} (haccepts : s.rejects d = false) :
    (∃ (ctx : HttpContext) (buf : Buffer), s.completes d = some ctx.request_ ∧
      server.deliver s fs d r' =
        (server.onRequest fs (s.conn.setInput buf) ctx.request_ d.answer r').map fun conn =>
          ⟨conn, ctx.reset, s.requests ++ [ctx.request_]⟩) ∨
      s.completes d = none ∧
        ∃ buf, (server.step s (.deliver fs d r')).conn = s.conn.setInput buf := by
  have hends : (∀ ok ctx buf, s.parsed d ≠ some ⟨.returned ok, ctx, buf⟩) →
      s.completes d = none ∧
        ∃ buf, (server.step s (.deliver fs d r')).conn = s.conn.setInput buf := by
    intro hno
    obtain ⟨hnone, hstep⟩ := step_of_not_returned server fs r' hno
    exact ⟨hnone, s.conn.inputBuffer_, congrArg HttpConnection.conn hstep⟩
  cases hparse : s.parsed d with
  | none => exact .inr (hends (by simp [hparse]))
  | some res =>
    obtain ⟨outcome, ctx, buf⟩ := res
    cases outcome with
    | threw e => exact .inr (hends (by simp [hparse]))
    | overread => exact .inr (hends (by simp [hparse]))
    | returned ok =>
      cases ok with
      | false => simp [rejects, hparse] at haccepts
      | true =>
        have hdeliver : server.deliver s fs d r' = _ :=
          onMessage_of_parse hparse (fun c req => server.onRequest fs c req d.answer r') d.answer
        cases hgot : ctx.gotAll with
        | true =>
          rw [hgot, if_pos rfl] at hdeliver
          exact .inl ⟨ctx, buf, by simp [completes, hparse, hgot], hdeliver⟩
        | false =>
          rw [hgot, if_neg Bool.false_ne_true] at hdeliver
          refine .inr ⟨by simp [completes, hparse, hgot], buf, ?_⟩
          rw [step, hdeliver]
          rfl

theorem inOrder_setInput {c : TcpConnection} {all : Bytes} (h : InOrder c all) (buf : Buffer) :
    InOrder (c.setInput buf) all :=
  ⟨h.connected, h.output, h.opened, h.bufferWatched, h.fileWatched⟩

/-- A request gets its whole response, behind everything produced before, or ends the server. -/
theorem inOrder_onRequest {server : FileServer} {fs : FileSystem} {c : TcpConnection} {all : Bytes}
    (h : InOrder c all) (hunsent : c.unsentFile = []) {req : HttpRequest}
    (hheld : server.LengthsHeld fs req) (hkeep : req.close = false)
    (hopen : -1 ≤ fs.open_ (c_str (server.path req))) {r r' : SysRet} (hr : r.isPositive = true)
    (hr' : r'.isPositive = true) :
    server.onRequest fs c req r r' = none ∧ server.wholeResponse fs req = none ∨
      ∃ c' response, server.onRequest fs c req r r' = some c' ∧
        server.wholeResponse fs req = some response ∧ InOrder c' (all ++ response) := by
  rw [onRequest, wholeResponse, FileServer.reply]
  cases hbody : (server.respond fs req).2 with
  | none => exact .inl ⟨rfl, rfl⟩
  | some body =>
    obtain ⟨reply, hreply, hbytes, hclose, hfile⟩ := (whole_respond hheld hbody).reply
    have hopen' : ∀ file ∈ reply.file, 0 ≤ file.1 := fun file hm => by
      obtain ⟨hne, heq⟩ := hfile file hm
      omega
    rw [Option.bind_some, hreply]
    refine .inr ⟨c.perform reply r r', reply.bytes, rfl, congrArg some hbytes.symm, ?_⟩
    exact h.perform hunsent (hclose.trans hkeep) hopen' hr hr'

/-- One step puts the responses it produces behind those produced before. -/
theorem inOrder_step {server : FileServer} {s : HttpConnection} {e : ServerEvent} {all : Bytes}
    (h : InOrder s.conn all) (hserved : server.Served s e) (hun : server.Undisturbed s e) :
    InOrder (server.step s e).conn (all ++ (server.responses s e).flatten) := by
  cases e with
  | handleWrite r =>
    rw [responses, List.flatten_nil, List.append_nil]
    exact h.handleWrite hserved
  | deliver fs d r' =>
    obtain ⟨hr, hr', haccepts, hreq⟩ := hserved
    rcases deliver_cases server haccepts with ⟨ctx, buf, hcompletes, hdeliver⟩ | ⟨hnone, buf, hconn⟩
    · obtain ⟨hkeep, hopen⟩ := hreq _ hcompletes
      obtain ⟨hunsent, hheld⟩ := hun _ hcompletes
      rw [responses, hcompletes, Option.bind_some, step, hdeliver]
      rcases inOrder_onRequest (inOrder_setInput h buf) hunsent hheld hkeep hopen hr hr' with
        ⟨hnone, hresponse⟩ | ⟨c', response, hsome, hresponse, hinOrder⟩
      · rw [hnone, hresponse]
        simpa using h
      · rw [hsome, hresponse]
        simpa using hinOrder
    · rw [hconn, responses, hnone]
      simpa using inOrder_setInput h buf

theorem inOrder_established (hwm : Nat) (hcb wcb : Bool) (files : Int → Bytes) :
    InOrder (established hwm hcb wcb files) [] :=
  Buffered.inOrder ⟨rfl, rfl, fun hne => absurd rfl hne⟩ List.take_zero

/-- Every run in which no request is completed too early puts whole responses on the socket, one
after the other: what was not sent yet waits behind what was, and the connection watches for it. -/
theorem responses_in_order (server : FileServer) (hwm : Nat) (hcb wcb : Bool) (files : Int → Bytes)
    (es : List ServerEvent)
    (hserved : Meets server.Served server.step (onConnection (established hwm hcb wcb files)) es)
    (hun : Meets server.Undisturbed server.step (onConnection (established hwm hcb wcb files)) es) :
    let s := run server.step (onConnection (established hwm hcb wcb files)) es
    let all := (collect server.responses server.step
      (onConnection (established hwm hcb wcb files)) es).flatten
    wire s.conn.trace <+: all ∧
      wire s.conn.trace ++ s.conn.outputBuffer_.readable ++ s.conn.unsentFile = all ∧
      (wire s.conn.trace ≠ all → s.conn.isWriting = true) := by
  intro s all
  have h : InOrder s.conn all := by
    refine run_ledger server.responses (I := fun s acc => InOrder s.conn acc.flatten)
      ?_ (inOrder_established hwm hcb wcb files) (hserved.and hun)
    intro s e acc hs he
    rw [List.flatten_append]
    exact inOrder_step hs he.1 he.2
  refine ⟨h.sent, h.output, ?_⟩
  intro hne
  by_cases hbuf : s.conn.outputBuffer_.readable = []
  · refine h.fileWatched fun hfile => hne ?_
    rw [← h.output, hbuf, hfile, List.append_nil, List.append_nil]
  · exact h.bufferWatched hbuf

/-- `GET /a`, when `./www/a` holds five bytes. -/
def askA (r r' : SysRet) : ServerEvent :=
  .deliver (.oneFile 7 (ascii "./www/a") (ascii "hello") length_hello)
    ⟨1, ascii "GET /a HTTP/1.1" ++ crlf ++ crlf, r⟩ r'

/-- The first response goes out in four parts, and the second request comes after them. -/
theorem responses_in_order_twice :
    wire (run (FileServer.mk (ascii "./www")).step
        (onConnection (established 64 false false fun _ => []))
        [askA (.ok 10) (.ok 9), .handleWrite (.ok 1000), .handleWrite (.ok 2),
          .handleWrite (.ok 9), askA (.ok 1000) (.ok 2)]).conn.trace <+:
      (collect (FileServer.mk (ascii "./www")).responses (FileServer.mk (ascii "./www")).step
        (onConnection (established 64 false false fun _ => []))
        [askA (.ok 10) (.ok 9), .handleWrite (.ok 1000), .handleWrite (.ok 2),
          .handleWrite (.ok 9), askA (.ok 1000) (.ok 2)]).flatten := by
  obtain ⟨hsent, -⟩ := responses_in_order ⟨ascii "./www"⟩ 64 false false (fun _ => [])
    [askA (.ok 10) (.ok 9), .handleWrite (.ok 1000), .handleWrite (.ok 2), .handleWrite (.ok 9),
      askA (.ok 1000) (.ok 2)] (by decide +kernel) (by decide +kernel)
  exact hsent

/-- The second request comes when two bytes of the first file are out: its response goes behind
these, and the other three never follow. -/
theorem not_prefix_second_file :
    ¬ ∀ es, Meets (FileServer.mk (ascii "./www")).Served (FileServer.mk (ascii "./www")).step
        (onConnection (established 64 false false fun _ => [])) es →
      wire (run (FileServer.mk (ascii "./www")).step
        (onConnection (established 64 false false fun _ => [])) es).conn.trace <+:
          (collect (FileServer.mk (ascii "./www")).responses (FileServer.mk (ascii "./www")).step
            (onConnection (established 64 false false fun _ => [])) es).flatten := by
  intro h
  have hmixed := h [askA (.ok 1000) (.ok 2), askA (.ok 1000) (.ok 9), .handleWrite (.ok 1000),
    .handleWrite (.ok 9)] (by decide +kernel)
  revert hmixed
  decide +kernel

end FileServer

end Mymuduo
