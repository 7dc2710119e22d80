import Mymuduo.Net.TcpConnection

/-!
# What the sending functions do

One lemma for each function that moves bytes, in terms of the readable bytes of `outputBuffer_` and
the trace. `SameControl` is the frame: what sending a message leaves alone.

* `sendInLoop_spec`: a message splits into what went out at once and what was buffered.
* `writeBuffer_spec`: the buffered bytes split into what went out and what stays.
* `sendFileInLoop_cases`, `writeFile_cases`: what one `sendfile(2)` can come to.
* `Outputs`: to the rest of the connection all of this is output and no more.
* `step_cases`: what a step comes to once its function lets it through.
-/

namespace Mymuduo

open CString

/-! ## Traces -/

@[simp] theorem wire_append (es es' : List Effect) : wire (es ++ es') = wire es ++ wire es' := by
  induction es with
  | nil => rfl
  | cons e es ih => cases e <;> simp [wire, ih]

/-- The trace of one system call that moved `sent` to the socket. -/
inductive Moved : List Effect → Bytes → Prop
  | failed : Moved [] []
  | moved (sent : Bytes) : Moved [.put sent] sent

theorem Moved.wire_eq {es : List Effect} {sent : Bytes} (h : Moved es sent) : wire es = sent := by
  cases h with
  | failed => rfl
  | moved => simp [wire]

/-- A system call that moves bytes does nothing else. -/
theorem Moved.notMem {es : List Effect} {sent : Bytes} (h : Moved es sent) {e : Effect}
    (he : ∀ data, e ≠ .put data) : e ∉ es := by
  intro hm
  cases h with
  | failed => cases hm
  | moved => exact he sent (List.mem_singleton.mp hm)

/-- What goes out: bytes, the end of the write side, and files that are done with. -/
def Effect.isOutput : Effect → Bool
  | .put _ => true
  | .shutdownWrite => true
  | .close _ => true
  | _ => false

theorem Moved.isOutput {es : List Effect} {sent : Bytes} (h : Moved es sent) :
    ∀ e ∈ es, e.isOutput = true := by
  cases h <;> simp [Effect.isOutput]

/-- A functor that only calls back into user code. -/
def Functor.isCallback : Functor → Bool
  | .writeCompleteCallback => true
  | .highWaterMarkCallback _ => true
  | _ => false

/-- The errors that `sendInLoop` and `sendFileInLoop` do not recover from. -/
def SysRet.isFault : SysRet → Bool
  | .ok _ => false
  | .fail e => TcpConnection.isFault e

theorem drop_min_length (data : Bytes) (n : Nat) :
    data.drop (min n data.length) = data.drop n := by
  rcases Nat.le_total n data.length with h | h
  · rw [Nat.min_eq_left h]
  · rw [Nat.min_eq_right h, List.drop_length, List.drop_eq_nil_of_le h]

namespace TcpConnection

/-- What sending a message leaves alone. -/
structure SameControl (c c' : TcpConnection) : Prop where
  state_ : c'.state_ = c.state_
  inputBuffer_ : c'.inputBuffer_ = c.inputBuffer_
  sendFd_ : c'.sendFd_ = c.sendFd_
  sendLen_ : c'.sendLen_ = c.sendLen_
  files : c'.files = c.files
  writeCompleteCallback_ : c'.writeCompleteCallback_ = c.writeCompleteCallback_

theorem SameControl.refl (c : TcpConnection) : SameControl c c :=
  ⟨rfl, rfl, rfl, rfl, rfl, rfl⟩

theorem SameControl.trans {c₁ c₂ c₃ : TcpConnection} (h : SameControl c₁ c₂)
    (h' : SameControl c₂ c₃) : SameControl c₁ c₃ :=
  ⟨h'.state_.trans h.state_, h'.inputBuffer_.trans h.inputBuffer_, h'.sendFd_.trans h.sendFd_,
    h'.sendLen_.trans h.sendLen_, h'.files.trans h.files,
    h'.writeCompleteCallback_.trans h.writeCompleteCallback_⟩

/-- `c'` has queued callbacks, and nothing else, since `c`. -/
def QueuesCallbacks (c c' : TcpConnection) : Prop :=
  ∃ fs, (∀ f ∈ fs, f.isCallback = true) ∧ c'.pendingFunctors_ = c.pendingFunctors_ ++ fs

theorem QueuesCallbacks.of_eq {c c' : TcpConnection}
    (h : c'.pendingFunctors_ = c.pendingFunctors_) : QueuesCallbacks c c' :=
  ⟨[], by simp, by simp [h]⟩

theorem QueuesCallbacks.trans {c₁ c₂ c₃ : TcpConnection} (h : QueuesCallbacks c₁ c₂)
    (h' : QueuesCallbacks c₂ c₃) : QueuesCallbacks c₁ c₃ := by
  obtain ⟨fs, hfs, hq⟩ := h
  obtain ⟨fs', hfs', hq'⟩ := h'
  refine ⟨fs ++ fs', ?_, by rw [hq', hq, List.append_assoc]⟩
  intro f hf
  rcases List.mem_append.mp hf with hf | hf
  · exact hfs f hf
  · exact hfs' f hf

/-! ## The small pieces -/

/-- Nothing is on its way out: `sendInLoop` and `sendFileInLoop` try the system call at once. -/
abbrev Idle (c : TcpConnection) : Prop :=
  c.isWriting = false ∧ c.outputBuffer_.readable = []

/-- `c'` is `c` after one more callback was possibly queued. -/
structure Notes (c c' : TcpConnection) : Prop where
  control : SameControl c c'
  outputBuffer_ : c'.outputBuffer_ = c.outputBuffer_
  channel_ : c'.channel_ = c.channel_
  trace : c'.trace = c.trace
  queue : QueuesCallbacks c c'

theorem Notes.refl (c : TcpConnection) : Notes c c :=
  ⟨.refl c, rfl, rfl, rfl, .of_eq rfl⟩

theorem notes_queueInLoop (c : TcpConnection) {f : Functor} (hf : f.isCallback = true) :
    Notes c (c.queueInLoop f) :=
  ⟨⟨rfl, rfl, rfl, rfl, rfl, rfl⟩, rfl, rfl, rfl, [f], by simpa using hf, rfl⟩

theorem notes_noteWriteComplete (c : TcpConnection) : Notes c c.noteWriteComplete := by
  unfold noteWriteComplete
  split
  · exact notes_queueInLoop c rfl
  · exact .refl c

theorem notes_noteHighWater (c : TcpConnection) (remaining : Nat) :
    Notes c (c.noteHighWater remaining) := by
  simp only [noteHighWater]
  split
  · exact notes_queueInLoop c rfl
  · exact .refl c

theorem sameControl_watchWritable (c : TcpConnection) : SameControl c c.watchWritable := by
  unfold watchWritable
  split
  · exact ⟨rfl, rfl, rfl, rfl, rfl, rfl⟩
  · exact .refl c

@[simp] theorem outputBuffer_watchWritable (c : TcpConnection) :
    c.watchWritable.outputBuffer_ = c.outputBuffer_ := by
  unfold watchWritable
  split <;> rfl

@[simp] theorem trace_watchWritable (c : TcpConnection) : c.watchWritable.trace = c.trace := by
  unfold watchWritable
  split <;> rfl

@[simp] theorem pendingFunctors_watchWritable (c : TcpConnection) :
    c.watchWritable.pendingFunctors_ = c.pendingFunctors_ := by
  unfold watchWritable
  split <;> rfl

@[simp] theorem isWriting_watchWritable (c : TcpConnection) : c.watchWritable.isWriting = true := by
  unfold watchWritable
  split
  · exact Channel.isWriting_enableWriting c.channel_
  · next h => simpa using h

/-! ## Messages -/

/-- `c'` is `c` after `rest` was put into the buffer. -/
structure KeepSpec (c c' : TcpConnection) (rest : Bytes) : Prop where
  control : SameControl c c'
  out : c'.outputBuffer_.readable = c.outputBuffer_.readable ++ rest
  writing : c'.isWriting = true ↔ c.isWriting = true ∨ rest ≠ []
  trace : c'.trace = c.trace
  queue : QueuesCallbacks c c'

theorem keepRemaining_fault (c : TcpConnection) (data : Bytes) (n : Nat) :
    c.keepRemaining data n true = c := by
  simp [keepRemaining]

theorem keepRemaining_spec (c : TcpConnection) (data : Bytes) (n : Nat) :
    KeepSpec c (c.keepRemaining data n false) (data.drop n) := by
  by_cases hrem : 0 < data.length - n
  · have hne : data.drop n ≠ [] := by
      rw [ne_eq, List.drop_eq_nil_iff]
      omega
    have hdef : c.keepRemaining data n false =
        ((c.noteHighWater (data.length - n)).bufferOutput (data.drop n)).watchWritable := by
      simp [keepRemaining, hrem]
    have hn := notes_noteHighWater c (data.length - n)
    have hb : SameControl (c.noteHighWater (data.length - n))
        ((c.noteHighWater (data.length - n)).bufferOutput (data.drop n)) :=
      ⟨rfl, rfl, rfl, rfl, rfl, rfl⟩
    rw [hdef]
    exact ⟨hn.control.trans (hb.trans (sameControl_watchWritable _)),
      by simp [bufferOutput, hn.outputBuffer_], by simp [hne], by simp [bufferOutput, hn.trace],
      hn.queue.trans (.of_eq (by simp [bufferOutput]))⟩
  · have hnil : data.drop n = [] := List.drop_eq_nil_iff.mpr (by omega)
    have hdef : c.keepRemaining data n false = c := by simp [keepRemaining, hrem]
    rw [hdef, hnil]
    exact ⟨.refl c, by simp, by simp, rfl, .of_eq rfl⟩

/-- `c'` is `c` after a message `sent ++ rest` of which `sent` went out and `rest` was kept. -/
structure SendSpec (c c' : TcpConnection) (sent rest : Bytes) : Prop where
  control : SameControl c c'
  out : c'.outputBuffer_.readable = c.outputBuffer_.readable ++ rest
  writing : c'.isWriting = true ↔ c.isWriting = true ∨ rest ≠ []
  direct : sent ≠ [] → c.Idle
  trace : ∃ es, Moved es sent ∧ c'.trace = c.trace ++ es
  queue : QueuesCallbacks c c'

theorem KeepSpec.sendSpec {c c' : TcpConnection} {rest : Bytes} (h : KeepSpec c c' rest) :
    SendSpec c c' [] rest :=
  ⟨h.control, h.out, h.writing, by simp, ⟨[], .failed, by simpa using h.trace⟩, h.queue⟩

/-- The part of the message that `write(2)` took goes out before the rest is kept. -/
theorem KeepSpec.sendSpec_put {c c₁ c₂ : TcpConnection} {sent rest : Bytes}
    (hidle : c.Idle)
    (h₁ : Notes (c.emit (.put sent)) c₁) (h₂ : KeepSpec c₁ c₂ rest) :
    SendSpec c c₂ sent rest := by
  have hput : SameControl c (c.emit (.put sent)) := ⟨rfl, rfl, rfl, rfl, rfl, rfl⟩
  have hq : QueuesCallbacks c (c.emit (.put sent)) := .of_eq rfl
  have hw : c₁.isWriting = c.isWriting := congrArg Channel.isWriting h₁.channel_
  have hout : c₁.outputBuffer_ = c.outputBuffer_ := h₁.outputBuffer_
  exact ⟨hput.trans (h₁.control.trans h₂.control), by rw [h₂.out, hout], by rw [h₂.writing, hw],
    fun _ => hidle, ⟨[.put sent], .moved sent, h₂.trace.trans h₁.trace⟩,
    hq.trans (h₁.queue.trans h₂.queue)⟩

theorem idle_iff {c : TcpConnection} :
    (!c.isWriting && c.outputBuffer_.readableBytes == 0) = true ↔ c.Idle := by
  simp [Idle, Buffer.readableBytes_eq_zero]

theorem SendSpec.refl (c : TcpConnection) : SendSpec c c [] [] :=
  ⟨.refl c, by simp, by simp, by simp, ⟨[], .failed, by simp⟩, .of_eq rfl⟩

theorem sendInLoop_disconnected {c : TcpConnection} (hs : c.state_ = .kDisconnected) (data : Bytes)
    (r : SysRet) : c.sendInLoop data r = c := by
  rw [sendInLoop, if_pos hs]

/-- A message is split into what goes out at once and what is buffered; it is dropped when the
direct write finds the peer gone. -/
theorem sendInLoop_spec {c : TcpConnection} (hs : c.state_ ≠ .kDisconnected) (data : Bytes)
    (r : SysRet) :
    ∃ sent rest, (r.isFault = false → data = sent ++ rest) ∧
      SendSpec c (c.sendInLoop data r) sent rest := by
  rw [sendInLoop, if_neg hs]
  split
  · next hidle =>
    rw [idle_iff] at hidle
    cases r with
    | ok n =>
      refine ⟨data.take n, data.drop n, fun _ => (List.take_append_drop n data).symm, ?_⟩
      rw [← drop_min_length data n]
      refine KeepSpec.sendSpec_put hidle ?_ (keepRemaining_spec _ data _)
      split
      · exact notes_noteWriteComplete _
      · exact .refl _
    | fail e =>
      cases he : isFault e with
      | true =>
        refine ⟨[], [], fun h => by simp [SysRet.isFault, he] at h, ?_⟩
        simp only [write, he, keepRemaining_fault]
        exact .refl c
      | false =>
        refine ⟨[], data, fun _ => rfl, ?_⟩
        simp only [write, he]
        exact (keepRemaining_spec c data 0).sendSpec
  · exact ⟨[], data, fun _ => rfl, (keepRemaining_spec c data 0).sendSpec⟩

/-! ## Draining the buffer -/

/-- The shutdown that is due once nothing is left to send. -/
def dueShutdown (c : TcpConnection) : List Effect :=
  if c.state_ = .kDisconnecting then [.shutdownWrite] else []

theorem close_notMem_dueShutdown (c : TcpConnection) (fd : Int) :
    Effect.close fd ∉ c.dueShutdown := by
  unfold dueShutdown
  split <;> simp

/-- `c'` is `c` after `sent` of the buffered bytes went out. -/
structure DrainSpec (c c' : TcpConnection) (sent : Bytes) : Prop where
  control : SameControl c c'
  out : c.outputBuffer_.readable = sent ++ c'.outputBuffer_.readable
  writing : c'.isWriting = true ↔ c'.outputBuffer_.readable ≠ [] ∨ c.sendLen_ ≠ 0
  trace : ∃ es, Moved es sent ∧
    c'.trace = c.trace ++ es ++ if c'.isWriting then [] else c.dueShutdown
  queue : QueuesCallbacks c c'

theorem finishShutdown_eq {c : TcpConnection} (hw : c.isWriting = false) :
    c.finishShutdown = { c with trace := c.trace ++ c.dueShutdown } := by
  unfold finishShutdown dueShutdown
  split
  · simp [shutdownInLoop, hw, emit]
  · simp

/-- `c'` is `c` after the write interest ended. -/
structure FinishSpec (c c' : TcpConnection) : Prop where
  control : SameControl c c'
  outputBuffer_ : c'.outputBuffer_ = c.outputBuffer_
  writing : c'.isWriting = false
  trace : c'.trace = c.trace ++ c.dueShutdown
  queue : QueuesCallbacks c c'

theorem finish_spec (c : TcpConnection) :
    FinishSpec c c.disableWriting.noteWriteComplete.finishShutdown := by
  have hd : SameControl c c.disableWriting := ⟨rfl, rfl, rfl, rfl, rfl, rfl⟩
  have hq : QueuesCallbacks c c.disableWriting := .of_eq rfl
  have hn := notes_noteWriteComplete c.disableWriting
  have hc := hd.trans hn.control
  have hw : c.disableWriting.noteWriteComplete.isWriting = false :=
    (congrArg Channel.isWriting hn.channel_).trans (Channel.isWriting_disableWriting _)
  rw [finishShutdown_eq hw]
  refine ⟨⟨hc.state_, hc.inputBuffer_, hc.sendFd_, hc.sendLen_, hc.files,
    hc.writeCompleteCallback_⟩, hn.outputBuffer_, hw, ?_, hq.trans hn.queue⟩
  simp only [dueShutdown, hc.state_, hn.trace, disableWriting_trace]

/-- The branch of `writeBuffer` in which `write(2)` took something. -/
theorem writeBuffer_ok {c : TcpConnection} (hout : c.outputBuffer_.readable ≠ []) {n : Nat}
    (hn : 0 < n) :
    c.writeBuffer (.ok n) =
      let c' := (c.emit (.put (c.outputBuffer_.readable.take n))).retrieveOutput
        (min n c.outputBuffer_.readable.length)
      if c'.outputBuffer_.readable = [] ∧ c'.sendLen_ = 0 then
        c'.disableWriting.noteWriteComplete.finishShutdown
      else c' := by
  have hpos : 0 < min n c.outputBuffer_.readable.length :=
    Nat.lt_min.mpr ⟨hn, List.length_pos_iff.mpr hout⟩
  simp only [writeBuffer, write, hpos, if_true, Buffer.readableBytes_eq_zero]

/-- The buffered bytes go out from the front; the write interest ends with the last byte unless a
file is still to be sent. -/
theorem writeBuffer_spec {c : TcpConnection} (hw : c.isWriting = true)
    (hout : c.outputBuffer_.readable ≠ []) (r : SysRet) :
    ∃ sent, DrainSpec c (c.writeBuffer r) sent := by
  cases r with
  | fail e =>
    exact ⟨[], .refl c, rfl, by simp [writeBuffer, write, hw, hout],
      ⟨[], .failed, by simp [writeBuffer, write, hw]⟩, .of_eq rfl⟩
  | ok n =>
    rcases Nat.eq_zero_or_pos n with rfl | hn
    · have hdef : c.writeBuffer (.ok 0) = c.emit (.put []) := by simp [writeBuffer, write]
      rw [hdef]
      exact ⟨[], ⟨rfl, rfl, rfl, rfl, rfl, rfl⟩, rfl, by simp [hw, hout],
        ⟨[.put []], .moved [], by simp [hw]⟩, .of_eq rfl⟩
    · have hread : c.outputBuffer_.readable = c.outputBuffer_.readable.take n ++
          (c.outputBuffer_.retrieve (min n c.outputBuffer_.readable.length)).readable := by
        rw [Buffer.readable_retrieve, drop_min_length, List.take_append_drop]
      refine ⟨c.outputBuffer_.readable.take n, ?_⟩
      rw [writeBuffer_ok hout hn]
      dsimp only
      generalize hc₁ : (c.emit (.put (c.outputBuffer_.readable.take n))).retrieveOutput
        (min n c.outputBuffer_.readable.length) = c₁
      have hctl : SameControl c c₁ := by subst hc₁; exact ⟨rfl, rfl, rfl, rfl, rfl, rfl⟩
      have hout₁ : c.outputBuffer_.readable =
          c.outputBuffer_.readable.take n ++ c₁.outputBuffer_.readable := by subst hc₁; exact hread
      have hwr₁ : c₁.isWriting = true := by subst hc₁; exact hw
      have htr₁ : c₁.trace = c.trace ++ [.put (c.outputBuffer_.readable.take n)] := by
        subst hc₁; rfl
      have hq₁ : QueuesCallbacks c c₁ := by subst hc₁; exact .of_eq rfl
      split
      · next hdone =>
        have hf := finish_spec c₁
        refine ⟨hctl.trans hf.control, by rw [hf.outputBuffer_]; exact hout₁, ?_,
          ⟨_, .moved _, ?_⟩, hq₁.trans hf.queue⟩
        · simp [hf.writing, hf.outputBuffer_, hdone.1, ← hctl.sendLen_, hdone.2]
        · simp [hf.writing, hf.trace, htr₁, dueShutdown, hctl.state_]
      · next hmore =>
        refine ⟨hctl, hout₁, ?_, ⟨_, .moved _, by simp [hwr₁, htr₁]⟩, hq₁⟩
        rw [← hctl.sendLen_]
        simpa [hwr₁] using not_and_or.mp hmore

/-! ## Sending a file -/

/-- `c'` is `c` with the write interest switched on at most. -/
structure WatchSpec (c c' : TcpConnection) : Prop where
  control : SameControl c c'
  outputBuffer_ : c'.outputBuffer_ = c.outputBuffer_
  trace : c'.trace = c.trace
  pendingFunctors_ : c'.pendingFunctors_ = c.pendingFunctors_
  writing : c'.isWriting = true → c.isWriting = true ∨ 0 < c.sendLen_

theorem watchFile_spec (c : TcpConnection) (faultError : Bool) :
    WatchSpec c (c.watchFile faultError) := by
  unfold watchFile
  split
  · next h =>
    have hlen : 0 < c.sendLen_ := by simp only [Bool.and_eq_true, decide_eq_true_eq] at h; exact h.2
    exact ⟨sameControl_watchWritable c, outputBuffer_watchWritable c, trace_watchWritable c,
      pendingFunctors_watchWritable c, fun _ => .inr hlen⟩
  · exact ⟨.refl c, rfl, rfl, rfl, .inl⟩

/-- Unless the peer was found gone, a file that is not finished is watched for. -/
theorem isWriting_watchFile (c : TcpConnection) :
    (c.watchFile false).isWriting = true ↔ c.isWriting = true ∨ 0 < c.sendLen_ := by
  refine ⟨(watchFile_spec c false).writing, ?_⟩
  intro h
  unfold watchFile
  split
  · exact isWriting_watchWritable c
  · next hno => simpa [show ¬ 0 < c.sendLen_ by simpa using hno] using h

/-- What `sendfile(2)` leaves of the file is still to be sent; a finished file is closed. -/
def sentFromFile (c : TcpConnection) (data : Bytes) : TcpConnection :=
  let c := (c.moveFile data).advance data.length
  if c.sendLen_ = 0 then c.closeSendFd else c

/-- Everything `sendFileInLoop` can do. -/
inductive SendFileInLoop (c : TcpConnection) (r : SysRet) : TcpConnection → Prop
  | disconnected (hs : c.state_ = .kDisconnected) : SendFileInLoop c r c
  | busy (hs : c.state_ ≠ .kDisconnected) (hbusy : ¬ c.Idle) :
    SendFileInLoop c r (c.watchFile false)
  | failed (hs : c.state_ ≠ .kDisconnected) (hidle : c.Idle) (e : Errno)
    (hr : r = .fail e ∨ c.sendFd_ < 0 ∧ e = .EBADF) : SendFileInLoop c r (c.watchFile (isFault e))
  | sent (hs : c.state_ ≠ .kDisconnected) (hidle : c.Idle) (n : Nat) (hr : r = .ok n)
    (hfd : 0 ≤ c.sendFd_) : SendFileInLoop c r ((c.sentFromFile (c.fileBytes n)).watchFile false)

theorem sendFileInLoop_cases (c : TcpConnection) (r : SysRet) :
    SendFileInLoop c r (c.sendFileInLoop r) := by
  unfold sendFileInLoop
  split
  · next hs => exact .disconnected hs
  · next hs =>
    split
    · next hidle =>
      rw [idle_iff] at hidle
      cases r with
      | fail e => exact .failed hs hidle e (.inl rfl)
      | ok n =>
        by_cases hfd : c.sendFd_ < 0
        · simp only [sendfile, hfd, if_true]
          exact .failed hs hidle .EBADF (.inr ⟨hfd, rfl⟩)
        · simp only [sendfile, hfd, if_false]
          exact .sent hs hidle n rfl (Int.not_lt.mp hfd)
    · next hbusy => exact .busy hs (fun hidle => hbusy (idle_iff.mpr hidle))

/-- Everything `handleWrite` can do with a file. -/
inductive WriteFile (c : TcpConnection) (r : SysRet) : TcpConnection → Prop
  | failed (hr : (∃ e, r = .fail e) ∨ c.sendFd_ < 0) : WriteFile c r c.abandonFile
  | ended (n : Nat) (hr : r = .ok n) (hfd : 0 ≤ c.sendFd_) (hnone : c.fileBytes n = []) :
    WriteFile c r (c.moveFile []).abandonFile
  | part (n : Nat) (hr : r = .ok n) (hfd : 0 ≤ c.sendFd_)
    (hmore : (c.fileBytes n).length < c.sendLen_) (hsome : c.fileBytes n ≠ []) :
    WriteFile c r ((c.moveFile (c.fileBytes n)).advance (c.fileBytes n).length)
  | finished (n : Nat) (hr : r = .ok n) (hfd : 0 ≤ c.sendFd_)
    (hall : (c.fileBytes n).length = c.sendLen_) (hsome : c.fileBytes n ≠ []) :
    WriteFile c r
      (((c.moveFile (c.fileBytes n)).disableWriting.closeSendFd.setFile (-1) 0).finishShutdown)

theorem length_fileBytes_le (c : TcpConnection) (n : Nat) :
    (c.fileBytes n).length ≤ c.sendLen_ := by
  simp only [fileBytes, List.length_take]
  omega

theorem writeFile_cases (c : TcpConnection) (r : SysRet) : WriteFile c r (c.writeFile r) := by
  cases r with
  | fail e => exact .failed (.inl ⟨e, rfl⟩)
  | ok n =>
    unfold writeFile
    by_cases hfd : c.sendFd_ < 0
    · simp only [sendfile, hfd, if_true]
      exact .failed (.inr hfd)
    · have hle := length_fileBytes_le c n
      simp only [sendfile, hfd, if_false]
      rcases eq_or_ne (c.fileBytes n) [] with hnone | hsome
      · simp only [hnone, List.length_nil, Nat.lt_irrefl, if_false]
        exact .ended n rfl (Int.not_lt.mp hfd) hnone
      · rw [if_pos (List.length_pos_iff.mpr hsome)]
        split
        · next hdone =>
          simp only [advance_sendLen_, moveFile_sendLen_] at hdone
          exact .finished n rfl (Int.not_lt.mp hfd) (by omega) hsome
        · next hmore =>
          simp only [advance_sendLen_, moveFile_sendLen_] at hmore
          exact .part n rfl (Int.not_lt.mp hfd) (by omega) hsome

/-- `sendfile(2)` takes something from the file. -/
def Progress (c : TcpConnection) : SysRet → Prop
  | .ok n => 0 ≤ c.sendFd_ ∧ c.fileBytes n ≠ []
  | .fail _ => False

instance (c : TcpConnection) : (r : SysRet) → Decidable (c.Progress r)
  | .ok _ => inferInstanceAs (Decidable (_ ∧ _))
  | .fail _ => instDecidableFalse

/-- The file is given up exactly where `sendfile(2)` takes nothing. -/
theorem not_progress_of_failed {c : TcpConnection} {r : SysRet}
    (hr : (∃ e, r = .fail e) ∨ c.sendFd_ < 0) : ¬ c.Progress r := by
  rintro hp
  rcases hr with ⟨e, rfl⟩ | hfd
  · exact hp
  · cases r with
    | ok n => exact absurd hp.1 (Int.not_le.mpr hfd)
    | fail e => exact hp

/-! ## Sending is output -/

/-- `c'` is `c` after nothing but output. -/
structure Outputs (c c' : TcpConnection) : Prop where
  state_ : c'.state_ = c.state_
  writeCompleteCallback_ : c'.writeCompleteCallback_ = c.writeCompleteCallback_
  trace : ∃ es, (∀ e ∈ es, e.isOutput = true) ∧ c'.trace = c.trace ++ es

theorem Outputs.refl (c : TcpConnection) : Outputs c c := ⟨rfl, rfl, [], by simp, by simp⟩

theorem Outputs.trans {c₁ c₂ c₃ : TcpConnection} (h : Outputs c₁ c₂) (h' : Outputs c₂ c₃) :
    Outputs c₁ c₃ := by
  obtain ⟨es, hes, htr⟩ := h.trace
  obtain ⟨es', hes', htr'⟩ := h'.trace
  refine ⟨h'.state_.trans h.state_, h'.writeCompleteCallback_.trans h.writeCompleteCallback_,
    es ++ es', ?_, by rw [htr', htr, List.append_assoc]⟩
  intro e he
  rcases List.mem_append.mp he with he | he
  · exact hes e he
  · exact hes' e he

/-- A change that is output by its definition. -/
theorem Outputs.of_eq {c c' : TcpConnection} (hs : c'.state_ = c.state_)
    (hcb : c'.writeCompleteCallback_ = c.writeCompleteCallback_) (es : List Effect)
    (hes : es.all Effect.isOutput = true) (htr : c'.trace = c.trace ++ es) : Outputs c c' :=
  ⟨hs, hcb, es, List.all_eq_true.mp hes, htr⟩

theorem isOutput_dueShutdown (c : TcpConnection) : ∀ e ∈ c.dueShutdown, e.isOutput = true := by
  unfold dueShutdown
  split <;> simp [Effect.isOutput]

theorem outputs_shutdownInLoop (c : TcpConnection) : Outputs c c.shutdownInLoop := by
  unfold shutdownInLoop
  split
  · exact .of_eq rfl rfl [.shutdownWrite] rfl rfl
  · exact .refl c

theorem outputs_sendInLoop (c : TcpConnection) (data : Bytes) (r : SysRet) :
    Outputs c (c.sendInLoop data r) := by
  by_cases hs : c.state_ = .kDisconnected
  · rw [sendInLoop_disconnected hs]
    exact .refl c
  · obtain ⟨sent, rest, -, h⟩ := sendInLoop_spec hs data r
    obtain ⟨es, hes, htr⟩ := h.trace
    exact ⟨h.control.state_, h.control.writeCompleteCallback_, es, hes.isOutput, htr⟩

theorem WatchSpec.outputs {c c' : TcpConnection} (h : WatchSpec c c') : Outputs c c' :=
  .of_eq h.control.state_ h.control.writeCompleteCallback_ [] rfl (by simp [h.trace])

theorem outputs_sendFileInLoop (c : TcpConnection) (r : SysRet) :
    Outputs c (c.sendFileInLoop r) := by
  have hcases := sendFileInLoop_cases c r
  generalize c.sendFileInLoop r = c' at hcases ⊢
  cases hcases with
  | disconnected => exact .refl c
  | busy => exact (watchFile_spec c _).outputs
  | failed => exact (watchFile_spec c _).outputs
  | sent hs hidle n hr hfd =>
    refine Outputs.trans ?_ (watchFile_spec _ _).outputs
    unfold sentFromFile
    dsimp only
    split
    · exact .of_eq rfl rfl [.put (c.fileBytes n), .close c.sendFd_] rfl (by simp)
    · exact .of_eq rfl rfl [.put (c.fileBytes n)] rfl (by simp)

theorem outputs_finishShutdown {c : TcpConnection} (hw : c.isWriting = false) :
    Outputs c c.finishShutdown := by
  rw [finishShutdown_eq hw]
  exact ⟨rfl, rfl, c.dueShutdown, c.isOutput_dueShutdown, rfl⟩

theorem outputs_writeBuffer {c : TcpConnection} (hw : c.isWriting = true)
    (hout : c.outputBuffer_.readable ≠ []) (r : SysRet) : Outputs c (c.writeBuffer r) := by
  obtain ⟨sent, h⟩ := writeBuffer_spec hw hout r
  obtain ⟨es, hes, htr⟩ := h.trace
  refine ⟨h.control.state_, h.control.writeCompleteCallback_, _, ?_,
    by rw [htr, List.append_assoc]⟩
  intro e he
  rcases List.mem_append.mp he with he | he
  · exact hes.isOutput e he
  · split at he
    · cases he
    · exact c.isOutput_dueShutdown e he

theorem outputs_writeFile (c : TcpConnection) (r : SysRet) : Outputs c (c.writeFile r) := by
  have hcases := writeFile_cases c r
  generalize c.writeFile r = c' at hcases ⊢
  cases hcases with
  | failed => exact .of_eq rfl rfl [.close c.sendFd_] rfl (by simp [abandonFile])
  | ended => exact .of_eq rfl rfl [.put [], .close c.sendFd_] rfl (by simp [abandonFile])
  | part n => exact .of_eq rfl rfl [.put (c.fileBytes n)] rfl (by simp)
  | finished n =>
    refine Outputs.trans ?_ (outputs_finishShutdown (by simp))
    exact .of_eq rfl rfl [.put (c.fileBytes n), .close c.sendFd_] rfl (by simp)

theorem outputs_handleWrite (c : TcpConnection) (r : SysRet) : Outputs c (c.handleWrite r) := by
  unfold handleWrite
  split
  · next hw =>
    split
    · next hne => exact outputs_writeBuffer hw (fun h => hne (Buffer.readableBytes_eq_zero.mpr h)) r
    · exact outputs_writeFile c r
  · exact .refl c

/-! ## What is queued -/

theorem queues_sendInLoop (c : TcpConnection) (data : Bytes) (r : SysRet) :
    QueuesCallbacks c (c.sendInLoop data r) := by
  by_cases hs : c.state_ = .kDisconnected
  · rw [sendInLoop_disconnected hs]
    exact .of_eq rfl
  · obtain ⟨sent, rest, -, h⟩ := sendInLoop_spec hs data r
    exact h.queue

theorem queues_shutdownInLoop (c : TcpConnection) : QueuesCallbacks c c.shutdownInLoop := by
  unfold shutdownInLoop
  split <;> exact .of_eq rfl

theorem queues_sendFileInLoop (c : TcpConnection) (r : SysRet) :
    QueuesCallbacks c (c.sendFileInLoop r) := by
  have hcases := sendFileInLoop_cases c r
  generalize c.sendFileInLoop r = c' at hcases ⊢
  cases hcases with
  | disconnected => exact .of_eq rfl
  | busy | failed => exact .of_eq (watchFile_spec c _).pendingFunctors_
  | sent hs hidle n hr hfd =>
    refine .of_eq ((watchFile_spec _ false).pendingFunctors_.trans ?_)
    unfold sentFromFile
    dsimp only
    split <;> rfl

theorem queues_handleWrite (c : TcpConnection) (r : SysRet) :
    QueuesCallbacks c (c.handleWrite r) := by
  unfold handleWrite
  split
  · next hw =>
    split
    · next hne =>
      obtain ⟨sent, h⟩ := writeBuffer_spec hw (fun h => hne (Buffer.readableBytes_eq_zero.mpr h)) r
      exact h.queue
    · have hcases := writeFile_cases c r
      generalize c.writeFile r = c' at hcases ⊢
      cases hcases with
      | failed | ended | part => exact .of_eq rfl
      | finished n =>
        rw [finishShutdown_eq (by simp)]
        exact .of_eq rfl
  · exact .of_eq rfl

theorem queues_runFunctor (c : TcpConnection) (r : SysRet) (f : Functor) :
    QueuesCallbacks c (c.runFunctor r f) := by
  cases f with
  | shutdownInLoop => exact queues_shutdownInLoop c
  | forceCloseInLoop =>
    rw [runFunctor, forceCloseInLoop]
    split <;> exact .of_eq rfl
  | sendFileInLoop => exact queues_sendFileInLoop c r
  | sendInLoop message => exact queues_sendInLoop c message r
  | writeCompleteCallback | highWaterMarkCallback => exact .of_eq rfl

/-! ## Steps -/

/-- What a step does where its function lets it through. -/
inductive StepCases (c : TcpConnection) : Event → TcpConnection → Prop
  | connectEstablished : StepCases c .connectEstablished c.connectEstablished
  | send (hs : c.state_ = .kConnected) (message : Bytes) (r : SysRet) :
    StepCases c (.send message r) (c.sendInLoop message r)
  | sendFile (hs : c.state_ = .kConnected) (fd : Int) (count : Nat) (r : SysRet) :
    StepCases c (.sendFile fd count r) ((c.setFile fd count).sendFileInLoop r)
  | shutdown (hs : c.state_ = .kConnected) :
    StepCases c .shutdown (c.setState .kDisconnecting).shutdownInLoop
  | forceClose (hup : c.state_ = .kConnected ∨ c.state_ = .kDisconnecting) :
    StepCases c .forceClose ((c.setState .kDisconnecting).queueInLoop .forceCloseInLoop)
  | forceCloseInLoop (hup : c.state_ = .kConnected ∨ c.state_ = .kDisconnecting) :
    StepCases c .forceCloseInLoop c.handleClose
  | sendFromThread (hs : c.state_ = .kConnected) (message : Bytes) :
    StepCases c (.sendFromThread message) (c.queueInLoop (.sendInLoop message))
  | sendFileFromThread (hs : c.state_ = .kConnected) (fd : Int) (count : Nat) :
    StepCases c (.sendFileFromThread fd count) ((c.setFile fd count).queueInLoop .sendFileInLoop)
  | shutdownFromThread (hs : c.state_ = .kConnected) :
    StepCases c .shutdownFromThread ((c.setState .kDisconnecting).queueInLoop .shutdownInLoop)
  | received {data : Bytes} (hne : data ≠ []) :
    StepCases c (.handleRead (.ok data)) ({ c with
      inputBuffer_ := c.inputBuffer_.readFd (data.take c.inputBuffer_.readLimit) }.emit
        .messageCallback)
  | endOfFile : StepCases c (.handleRead (.ok [])) c.handleClose
  | handleWrite (r : SysRet) : StepCases c (.handleWrite r) (c.handleWrite r)
  | handleClose : StepCases c .handleClose c.handleClose
  | doPendingFunctor (f : Functor) (fs : List Functor) (hq : c.pendingFunctors_ = f :: fs)
    (r : SysRet) :
    StepCases c (.doPendingFunctor r) ({ c with pendingFunctors_ := fs }.runFunctor r f)
  | connectDestroyed (hs : c.state_ = .kConnected) :
    StepCases c .connectDestroyed
      ((c.setState .kDisconnected).disableAll.emit (.connectionCallback false))

/-- A step leaves the connection alone or is one of these. -/
theorem step_cases (c : TcpConnection) (e : Event) : c.step e = c ∨ StepCases c e (c.step e) := by
  cases e with
  | connectEstablished => exact .inr .connectEstablished
  | send message r =>
    rw [step, send]
    split
    · next hs => exact .inr (.send hs message r)
    · exact .inl rfl
  | sendFile fd count r =>
    rw [step, sendFile]
    split
    · next hs => exact .inr (.sendFile hs fd count r)
    · exact .inl rfl
  | shutdown =>
    rw [step, shutdown]
    split
    · next hs => exact .inr (.shutdown hs)
    · exact .inl rfl
  | forceClose =>
    rw [step, forceClose]
    split
    · next hup => exact .inr (.forceClose hup)
    · exact .inl rfl
  | forceCloseInLoop =>
    rw [step, forceCloseInLoop]
    split
    · next hup => exact .inr (.forceCloseInLoop hup)
    · exact .inl rfl
  | sendFromThread message =>
    rw [step, sendFromThread]
    split
    · next hs => exact .inr (.sendFromThread hs message)
    · exact .inl rfl
  | sendFileFromThread fd count =>
    rw [step, sendFileFromThread]
    split
    · next hs => exact .inr (.sendFileFromThread hs fd count)
    · exact .inl rfl
  | shutdownFromThread =>
    rw [step, shutdownFromThread]
    split
    · next hs => exact .inr (.shutdownFromThread hs)
    · exact .inl rfl
  | handleRead r =>
    cases r with
    | fail => exact .inl rfl
    | ok data =>
      rw [step, handleRead]
      split
      · next h =>
        subst h
        exact .inr .endOfFile
      · next hne => exact .inr (.received hne)
  | handleWrite r => exact .inr (.handleWrite r)
  | handleClose => exact .inr .handleClose
  | doPendingFunctor r =>
    rw [step]
    split
    · exact .inl rfl
    · next f fs hq => exact .inr (.doPendingFunctor f fs hq r)
  | connectDestroyed =>
    rw [step, connectDestroyed]
    split
    · next hs => exact .inr (.connectDestroyed hs)
    · exact .inl rfl

/-- What a call leaves for the loop to do. -/
def Event.queued : Event → Option Functor
  | .forceClose => some .forceCloseInLoop
  | .sendFromThread message => some (.sendInLoop message)
  | .sendFileFromThread _ _ => some .sendFileInLoop
  | .shutdownFromThread => some .shutdownInLoop
  | _ => none

/-- A functor found in the queue was there before, is a callback or is what the call left. -/
theorem QueuesCallbacks.mem {c c' : TcpConnection} (h : QueuesCallbacks c c') {f : Functor}
    (hf : f ∈ c'.pendingFunctors_) : f ∈ c.pendingFunctors_ ∨ f.isCallback = true := by
  obtain ⟨fs, hfs, heq⟩ := h
  rw [heq, List.mem_append] at hf
  exact hf.imp_right (hfs f)

/-- A step queues callbacks and what its call leaves. -/
theorem mem_queue_step {c : TcpConnection} {e : Event} {f : Functor}
    (hf : f ∈ (c.step e).pendingFunctors_) :
    f ∈ c.pendingFunctors_ ∨ f.isCallback = true ∨ e.queued = some f := by
  rcases step_cases c e with heq | h
  · rw [heq] at hf
    exact .inl hf
  generalize c.step e = c' at hf h
  have hcallbacks : ∀ {c₁ : TcpConnection}, QueuesCallbacks c₁ c' →
      c₁.pendingFunctors_ = c.pendingFunctors_ →
      f ∈ c.pendingFunctors_ ∨ f.isCallback = true ∨ e.queued = some f := by
    intro c₁ hq heq
    rw [← heq]
    exact (hq.mem hf).imp_right .inl
  have hleft : ∀ {g : Functor}, c'.pendingFunctors_ = c.pendingFunctors_ ++ [g] →
      e.queued = some g →
      f ∈ c.pendingFunctors_ ∨ f.isCallback = true ∨ e.queued = some f := by
    intro g heq hg
    rw [heq, List.mem_append, List.mem_singleton] at hf
    rcases hf with hf | rfl
    · exact .inl hf
    · exact .inr (.inr hg)
  cases h with
  | connectEstablished | forceCloseInLoop | received | endOfFile | handleClose
  | connectDestroyed => exact .inl hf
  | send hs message r => exact hcallbacks (queues_sendInLoop c message r) rfl
  | sendFile hs fd count r => exact hcallbacks (queues_sendFileInLoop (c.setFile fd count) r) rfl
  | shutdown => exact hcallbacks (queues_shutdownInLoop (c.setState .kDisconnecting)) rfl
  | forceClose | sendFromThread | sendFileFromThread | shutdownFromThread => exact hleft rfl rfl
  | handleWrite r => exact hcallbacks (queues_handleWrite c r) rfl
  | doPendingFunctor f fs hq r =>
    rw [hq]
    exact ((queues_runFunctor _ r _).mem hf).imp (List.mem_cons_of_mem _) .inl

end TcpConnection

end Mymuduo
