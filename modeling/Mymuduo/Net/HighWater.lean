import Mymuduo.Net.WriteComplete

/-!
# When the high-water mark is reported

`sendInLoop` reports the length of the output to `highWaterMarkCallback_` when the rest of a message
takes it to `highWaterMark_` from below. A producer that stops there relies on two things: that the
report comes with every crossing, whichever of the calls made it, and that it is not told again
until the socket has taken what was over the mark.

* `Quiet`: what leaves the output no longer than it was reports nothing.
* `reports_step`: what one step reports.
* `high_water_exact`: the same for each step of a run.
* `high_water_spaced`: what the socket took between two reports.
-/

namespace Mymuduo

/-- The length that the callback is to be called with. -/
def Functor.highWater : Functor → Option Nat
  | .highWaterMarkCallback len => some len
  | _ => none

namespace TcpConnection

open CString Transition

/-- The number of bytes that wait in the buffer. -/
def outputLen (c : TcpConnection) : Nat := c.outputBuffer_.readableBytes

/-- The lengths that the step reports, in order. -/
def notices (c : TcpConnection) (e : Event) : List Nat :=
  ((c.step e).pendingFunctors_.drop (c.stillQueued e).length).filterMap Functor.highWater

/-- The report that is due when the output goes from `old` bytes to `new`. -/
def reached (mark old new : Nat) : List Nat :=
  if old < mark ∧ mark ≤ new then [new] else []

theorem reached_of_le {mark old new : Nat} (h : new ≤ old) : reached mark old new = [] :=
  if_neg fun hcross => Nat.lt_irrefl _ (Nat.lt_of_lt_of_le hcross.1 (hcross.2.trans h))

theorem mem_reached {mark old new n : Nat} :
    n ∈ reached mark old new ↔ old < mark ∧ mark ≤ new ∧ n = new := by
  unfold reached
  split
  · next h => simp [h.1, h.2]
  · next h => simpa using fun hold hnew => absurd ⟨hold, hnew⟩ h

/-! ## What one function reports -/

/-- `c'` is `c` after `left` was kept in the queue, with the report that is due behind it. -/
structure Reports (left : List Functor) (c c' : TcpConnection) : Prop where
  highWaterMark_ : c'.highWaterMark_ = c.highWaterMark_
  highWaterMarkCallback_ : c'.highWaterMarkCallback_ = c.highWaterMarkCallback_
  queue : c.highWaterMarkCallback_ = true → ∃ fs, c'.pendingFunctors_ = left ++ fs ∧
    fs.filterMap Functor.highWater = reached c.highWaterMark_ c.outputLen c'.outputLen
  taken : c.outputLen + (wire c.trace).length ≤ c'.outputLen + (wire c'.trace).length

/-- `c'` is `c` after `left` was kept in the queue, and the output is no longer than it was. -/
structure Quiet (left : List Functor) (c c' : TcpConnection) : Prop where
  highWaterMark_ : c'.highWaterMark_ = c.highWaterMark_
  highWaterMarkCallback_ : c'.highWaterMarkCallback_ = c.highWaterMarkCallback_
  shorter : c'.outputLen ≤ c.outputLen
  queue : ∃ fs, c'.pendingFunctors_ = left ++ fs ∧ fs.filterMap Functor.highWater = []
  taken : c.outputLen + (wire c.trace).length ≤ c'.outputLen + (wire c'.trace).length

theorem Quiet.reports {left : List Functor} {c c' : TcpConnection} (h : Quiet left c c') :
    Reports left c c' := by
  refine ⟨h.highWaterMark_, h.highWaterMarkCallback_, fun _ => ?_, h.taken⟩
  obtain ⟨fs, hq, hfs⟩ := h.queue
  exact ⟨fs, hq, hfs.trans (reached_of_le h.shorter).symm⟩

/-- What leaves the buffer alone and queues nothing. -/
theorem Quiet.of_eq {left : List Functor} {c c' : TcpConnection}
    (hmark : c'.highWaterMark_ = c.highWaterMark_)
    (hcb : c'.highWaterMarkCallback_ = c.highWaterMarkCallback_)
    (hout : c'.outputBuffer_ = c.outputBuffer_) (hq : c'.pendingFunctors_ = left)
    (es : List Effect) (htr : c'.trace = c.trace ++ es) : Quiet left c c' := by
  have hlen : c'.outputLen = c.outputLen := by rw [outputLen, hout, outputLen]
  refine ⟨hmark, hcb, Nat.le_of_eq hlen, ⟨[], by rw [hq, List.append_nil], rfl⟩, ?_⟩
  rw [hlen, htr, wire_append, List.length_append]
  exact Nat.add_le_add_left (Nat.le_add_right _ _) _

theorem Quiet.refl (c : TcpConnection) : Quiet c.pendingFunctors_ c c :=
  .of_eq rfl rfl rfl rfl [] (List.append_nil _).symm

theorem Quiet.trans {left : List Functor} {c₁ c₂ c₃ : TcpConnection} (h : Quiet left c₁ c₂)
    (h' : Quiet c₂.pendingFunctors_ c₂ c₃) : Quiet left c₁ c₃ := by
  obtain ⟨fs, hq, hfs⟩ := h.queue
  obtain ⟨fs', hq', hfs'⟩ := h'.queue
  refine ⟨h'.highWaterMark_.trans h.highWaterMark_,
    h'.highWaterMarkCallback_.trans h.highWaterMarkCallback_, h'.shorter.trans h.shorter,
    ⟨fs ++ fs', ?_, ?_⟩, h.taken.trans h'.taken⟩
  · rw [hq', hq, List.append_assoc]
  · rw [List.filterMap_append, hfs, hfs', List.append_nil]

/-- What comes before the report, as long as the output keeps its length. -/
theorem Quiet.reports_trans {left : List Functor} {c₁ c₂ c₃ : TcpConnection}
    (h : Quiet left c₁ c₂) (hlen : c₂.outputLen = c₁.outputLen)
    (h' : Reports c₂.pendingFunctors_ c₂ c₃) : Reports left c₁ c₃ := by
  obtain ⟨fs, hq, hfs⟩ := h.queue
  refine ⟨h'.highWaterMark_.trans h.highWaterMark_,
    h'.highWaterMarkCallback_.trans h.highWaterMarkCallback_, fun hcb => ?_,
    h.taken.trans h'.taken⟩
  obtain ⟨fs', hq', hfs'⟩ := h'.queue (h.highWaterMarkCallback_.trans hcb)
  refine ⟨fs ++ fs', by rw [hq', hq, List.append_assoc], ?_⟩
  rw [List.filterMap_append, hfs, hfs', List.nil_append, h.highWaterMark_, hlen]

theorem quiet_queueInLoop (c : TcpConnection) {f : Functor} (hf : f.highWater = none) :
    Quiet c.pendingFunctors_ c (c.queueInLoop f) :=
  ⟨rfl, rfl, Nat.le_refl _, ⟨[f], rfl, by simp [hf]⟩, Nat.le_refl _⟩

theorem quiet_noteWriteComplete (c : TcpConnection) :
    Quiet c.pendingFunctors_ c c.noteWriteComplete := by
  unfold noteWriteComplete
  split
  · exact quiet_queueInLoop c rfl
  · exact .refl c

theorem quiet_watchWritable (c : TcpConnection) :
    Quiet c.pendingFunctors_ c c.watchWritable := by
  unfold watchWritable
  split
  · exact .of_eq rfl rfl rfl rfl [] (List.append_nil _).symm
  · exact .refl c

theorem quiet_disableWriting (c : TcpConnection) :
    Quiet c.pendingFunctors_ c c.disableWriting :=
  .of_eq rfl rfl rfl rfl [] (List.append_nil _).symm

theorem quiet_watchFile (c : TcpConnection) (faultError : Bool) :
    Quiet c.pendingFunctors_ c (c.watchFile faultError) := by
  unfold watchFile
  split
  · exact quiet_watchWritable c
  · exact .refl c

theorem quiet_shutdownInLoop (c : TcpConnection) :
    Quiet c.pendingFunctors_ c c.shutdownInLoop := by
  unfold shutdownInLoop
  split
  · exact .of_eq rfl rfl rfl rfl [.shutdownWrite] rfl
  · exact .refl c

theorem quiet_finishShutdown (c : TcpConnection) :
    Quiet c.pendingFunctors_ c c.finishShutdown := by
  unfold finishShutdown
  split
  · exact quiet_shutdownInLoop c
  · exact .refl c

theorem quiet_sendFileInLoop (c : TcpConnection) (r : SysRet) :
    Quiet c.pendingFunctors_ c (c.sendFileInLoop r) := by
  have hcases := sendFileInLoop_cases c r
  generalize c.sendFileInLoop r = c' at hcases ⊢
  cases hcases with
  | disconnected => exact .refl c
  | busy | failed => exact quiet_watchFile c _
  | sent hs hidle n hr hfd =>
    have hsent : Quiet c.pendingFunctors_ c (c.sentFromFile (c.fileBytes n)) := by
      unfold sentFromFile
      dsimp only
      split
      · exact .of_eq rfl rfl rfl rfl
          [.put (c.fileBytes n), .close c.sendFd_] (by simp)
      · exact .of_eq rfl rfl rfl rfl [.put (c.fileBytes n)] (by simp)
    exact hsent.trans (quiet_watchFile _ false)

/-- What `write(2)` takes from the buffer is on the socket. -/
theorem quiet_retrieveOutput (c : TcpConnection) (n : Nat) :
    Quiet c.pendingFunctors_ c ((c.emit (.put (c.outputBuffer_.readable.take n))).retrieveOutput
      (min n c.outputBuffer_.readable.length)) := by
  generalize hc' : (c.emit (.put (c.outputBuffer_.readable.take n))).retrieveOutput
    (min n c.outputBuffer_.readable.length) = c'
  have hlen : c'.outputLen = c.outputLen - n := by
    subst hc'
    rw [outputLen, retrieveOutput_outputBuffer_, ← Buffer.length_readable,
      Buffer.readable_retrieve, emit_outputBuffer_, drop_min_length, List.length_drop,
      Buffer.length_readable, outputLen]
  have hwire : (wire c'.trace).length = (wire c.trace).length + min n c.outputLen := by
    subst hc'
    simp [wire, outputLen]
  refine ⟨by subst hc'; rfl, by subst hc'; rfl, ?_, ⟨[], ?_, rfl⟩, ?_⟩
  · rw [hlen]
    exact Nat.sub_le _ _
  · subst hc'
    simp
  · rw [hlen, hwire]
    omega

theorem quiet_writeBuffer {c : TcpConnection} (hout : c.outputBuffer_.readable ≠ [])
    (r : SysRet) : Quiet c.pendingFunctors_ c (c.writeBuffer r) := by
  cases r with
  | fail e => exact .refl c
  | ok n =>
    rcases Nat.eq_zero_or_pos n with rfl | hn
    · have hdef : c.writeBuffer (.ok 0) = c.emit (.put []) := by simp [writeBuffer, write]
      rw [hdef]
      exact .of_eq rfl rfl rfl rfl [.put []] rfl
    · rw [writeBuffer_ok hout hn]
      dsimp only
      have hretrieve := quiet_retrieveOutput c n
      split
      · exact ((hretrieve.trans (quiet_disableWriting _)).trans (quiet_noteWriteComplete _)).trans
          (quiet_finishShutdown _)
      · exact hretrieve

theorem quiet_writeFile (c : TcpConnection) (r : SysRet) :
    Quiet c.pendingFunctors_ c (c.writeFile r) := by
  have hcases := writeFile_cases c r
  generalize c.writeFile r = c' at hcases ⊢
  cases hcases with
  | failed =>
    exact .of_eq rfl rfl rfl rfl [.close c.sendFd_]
      (by simp [abandonFile])
  | ended =>
    exact .of_eq rfl rfl rfl rfl [.put [], .close c.sendFd_]
      (by simp [abandonFile])
  | part n =>
    exact .of_eq rfl rfl rfl rfl [.put (c.fileBytes n)] (by simp)
  | finished n =>
    refine Quiet.trans ?_ (quiet_finishShutdown _)
    exact .of_eq rfl rfl rfl rfl
      [.put (c.fileBytes n), .close c.sendFd_] (by simp)

theorem quiet_handleWrite (c : TcpConnection) (r : SysRet) :
    Quiet c.pendingFunctors_ c (c.handleWrite r) := by
  unfold handleWrite
  split
  · split
    · next hne => exact quiet_writeBuffer (fun h => hne (Buffer.readableBytes_eq_zero.mpr h)) r
    · exact quiet_writeFile c r
  · exact .refl c

theorem quiet_handleClose (c : TcpConnection) : Quiet c.pendingFunctors_ c c.handleClose :=
  .of_eq rfl rfl rfl rfl _ (trace_handleClose c)

/-! ## Sending -/

/-- The rest of a message goes behind the output, and the report is queued before it does. -/
theorem reports_keepRemaining (c : TcpConnection) (data : Bytes) (n : Nat) (faultError : Bool) :
    Reports c.pendingFunctors_ c (c.keepRemaining data n faultError) := by
  simp only [keepRemaining]
  split
  · generalize hm : data.length - n = m
    generalize hc' : ((c.noteHighWater m).bufferOutput (data.drop n)).watchWritable = c'
    have hn := notes_noteHighWater c m
    have hlen : c'.outputLen = c.outputLen + m := by
      subst hc'
      rw [outputLen, outputBuffer_watchWritable, bufferOutput_outputBuffer_, hn.outputBuffer_,
        ← Buffer.length_readable, Buffer.readable_append, List.length_append, List.length_drop, hm,
        Buffer.length_readable, outputLen]
    have hq : c'.pendingFunctors_ = (c.noteHighWater m).pendingFunctors_ := by
      subst hc'
      simp
    have htr : c'.trace = c.trace := by
      subst hc'
      simp [hn.trace]
    have hw := quiet_watchWritable ((c.noteHighWater m).bufferOutput (data.drop n))
    have hframe : (c.noteHighWater m).highWaterMark_ = c.highWaterMark_ ∧
        (c.noteHighWater m).highWaterMarkCallback_ = c.highWaterMarkCallback_ := by
      simp only [noteHighWater]
      split <;> exact ⟨rfl, rfl⟩
    rw [hc'] at hw
    refine ⟨hw.highWaterMark_.trans hframe.1, hw.highWaterMarkCallback_.trans hframe.2,
      fun hcb => ?_, ?_⟩
    · rw [hq, hlen]
      by_cases hcross : c.outputLen < c.highWaterMark_ ∧ c.highWaterMark_ ≤ c.outputLen + m
      · refine ⟨[.highWaterMarkCallback (c.outputLen + m)], ?_, by rw [reached, if_pos hcross]; rfl⟩
        exact congrArg pendingFunctors_ (if_pos ⟨hcross.2, hcross.1, hcb⟩)
      · refine ⟨[], ?_, by rw [reached, if_neg hcross]; rfl⟩
        rw [List.append_nil]
        exact congrArg pendingFunctors_ (if_neg fun h => hcross ⟨h.2.1, h.1⟩)
    · rw [hlen, htr]
      exact Nat.add_le_add_right (Nat.le_add_right _ _) _
  · exact (Quiet.refl c).reports

theorem reports_sendInLoop (c : TcpConnection) (data : Bytes) (r : SysRet) :
    Reports c.pendingFunctors_ c (c.sendInLoop data r) := by
  unfold sendInLoop
  split
  · exact (Quiet.refl c).reports
  · split
    · cases r with
      | ok n =>
        simp only [write]
        have hput : Quiet c.pendingFunctors_ c (c.emit (.put (data.take n))) :=
          .of_eq rfl rfl rfl rfl [.put (data.take n)] rfl
        split
        · refine (hput.trans (quiet_noteWriteComplete _)).reports_trans ?_
            (reports_keepRemaining _ data _ false)
          rw [outputLen, (notes_noteWriteComplete _).outputBuffer_]
          rfl
        · exact hput.reports_trans rfl (reports_keepRemaining _ data _ false)
      | fail e => exact reports_keepRemaining c data 0 (isFault e)
    · exact reports_keepRemaining c data 0 false

theorem reports_runFunctor (c : TcpConnection) (r : SysRet) (f : Functor) :
    Reports c.pendingFunctors_ c (c.runFunctor r f) := by
  cases f with
  | shutdownInLoop => exact (quiet_shutdownInLoop c).reports
  | forceCloseInLoop =>
    rw [runFunctor, forceCloseInLoop]
    split
    · exact (quiet_handleClose c).reports
    · exact (Quiet.refl c).reports
  | sendFileInLoop => exact (quiet_sendFileInLoop c r).reports
  | sendInLoop message => exact reports_sendInLoop c message r
  | writeCompleteCallback | highWaterMarkCallback => exact (Quiet.refl c).reports

/-- Every call but the loop's taking a functor off the queue leaves all that was queued there. -/
theorem reports_call (c : TcpConnection) {e : Event} (he : ∀ r, e ≠ .doPendingFunctor r) :
    Reports c.pendingFunctors_ c (c.step e) := by
  rcases step_cases c e with heq | h
  · rw [heq]
    exact (Quiet.refl c).reports
  generalize c.step e = c' at h ⊢
  have hstate : ∀ st : StateE, Quiet c.pendingFunctors_ c (c.setState st) := fun st =>
    .of_eq rfl rfl rfl rfl [] (List.append_nil _).symm
  have hfile : ∀ fd count, Quiet c.pendingFunctors_ c (c.setFile fd count) := fun fd count =>
    .of_eq rfl rfl rfl rfl [] (List.append_nil _).symm
  cases h with
  | connectEstablished =>
    exact Quiet.reports (.of_eq rfl rfl rfl rfl [.connectionCallback true] rfl)
  | send hs message r => exact reports_sendInLoop c message r
  | sendFile hs fd count r => exact ((hfile fd count).trans (quiet_sendFileInLoop _ r)).reports
  | shutdown hs => exact ((hstate .kDisconnecting).trans (quiet_shutdownInLoop _)).reports
  | forceClose hup => exact ((hstate .kDisconnecting).trans (quiet_queueInLoop _ rfl)).reports
  | sendFromThread hs message => exact (quiet_queueInLoop c rfl).reports
  | sendFileFromThread hs fd count =>
    exact ((hfile fd count).trans (quiet_queueInLoop _ rfl)).reports
  | shutdownFromThread hs =>
    exact ((hstate .kDisconnecting).trans (quiet_queueInLoop _ rfl)).reports
  | received hne => exact Quiet.reports (.of_eq rfl rfl rfl rfl [.messageCallback] rfl)
  | handleWrite r => exact (quiet_handleWrite c r).reports
  | forceCloseInLoop | endOfFile | handleClose => exact (quiet_handleClose c).reports
  | doPendingFunctor f fs hq r => exact absurd rfl (he r)
  | connectDestroyed hs =>
    exact Quiet.reports (.of_eq rfl rfl rfl rfl [.connectionCallback false] rfl)

/-- What a step reports is due, and what it takes from the output is on the socket. -/
theorem reports_step (c : TcpConnection) (e : Event) :
    Reports (c.stillQueued e) c (c.step e) := by
  cases e with
  | doPendingFunctor r =>
    rw [step, stillQueued]
    split
    · next hq =>
      rw [hq]
      have hnone := Quiet.refl c
      rw [hq] at hnone
      exact hnone.reports
    · next f fs hq =>
      rw [hq, List.tail_cons]
      have hrun := reports_runFunctor { c with pendingFunctors_ := fs } r f
      exact ⟨hrun.highWaterMark_, hrun.highWaterMarkCallback_, hrun.queue, hrun.taken⟩
  | _ => exact reports_call c (by simp)

theorem notices_eq {c : TcpConnection} (hcb : c.highWaterMarkCallback_ = true) (e : Event) :
    c.notices e = reached c.highWaterMark_ c.outputLen (c.step e).outputLen := by
  obtain ⟨fs, hq, hfs⟩ := (reports_step c e).queue hcb
  rw [notices, hq, List.drop_left, hfs]

/-! ## Whole runs -/

/-- The mark and the callback stay as the owner set them. -/
theorem mark_run (highWaterMark : Nat) (hcb wcb : Bool) (files : Int → Bytes) (es : List Event) :
    let c := run step (established highWaterMark hcb wcb files) es
    c.highWaterMark_ = highWaterMark ∧ c.highWaterMarkCallback_ = hcb :=
  run_preserves (I := fun c => c.highWaterMark_ = highWaterMark ∧ c.highWaterMarkCallback_ = hcb)
    (fun c e hc => ⟨(reports_step c e).highWaterMark_.trans hc.1,
      (reports_step c e).highWaterMarkCallback_.trans hc.2⟩) es ⟨rfl, rfl⟩

/-- What leaves the output is on the socket, over any number of steps. -/
theorem taken_run (c : TcpConnection) (es : List Event) :
    c.outputLen + (wire c.trace).length ≤
      (run step c es).outputLen + (wire (run step c es).trace).length :=
  run_preserves
    (I := fun c' => c.outputLen + (wire c.trace).length ≤ c'.outputLen + (wire c'.trace).length)
    (fun c' e h => h.trans (reports_step c' e).taken) es (Nat.le_refl _)

/-- Whatever happens to a connection with a `highWaterMarkCallback_`: a step queues one report, with
the length of the output behind it, if it takes the output to the mark from below, and none
otherwise. -/
theorem high_water_exact (highWaterMark : Nat) (wcb : Bool) (files : Int → Bytes)
    (es : List Event) (e : Event) :
    let c := run step (established highWaterMark true wcb files) es
    c.notices e = reached highWaterMark c.outputLen (c.step e).outputLen := by
  intro c
  obtain ⟨hmark, hcb⟩ := mark_run highWaterMark true wcb files es
  have hnotices := notices_eq hcb e
  rwa [hmark] at hnotices

/-- Between two reports the socket has taken more than what the output was over the mark at the
first of them. -/
theorem high_water_spaced (highWaterMark : Nat) (wcb : Bool) (files : Int → Bytes)
    (es es' : List Event) (e e' : Event) (len len' : Nat) :
    let c := run step (established highWaterMark true wcb files) es
    let c' := run step (c.step e) es'
    len ∈ c.notices e → len' ∈ c'.notices e' →
      (wire (c.step e).trace).length + (len - highWaterMark) < (wire c'.trace).length := by
  intro c c' hlen hlen'
  have hset : c.highWaterMark_ = highWaterMark ∧ c.highWaterMarkCallback_ = true :=
    mark_run highWaterMark true wcb files es
  have hset' : c'.highWaterMark_ = highWaterMark ∧ c'.highWaterMarkCallback_ = true := by
    have hrun := mark_run highWaterMark true wcb files (es ++ e :: es')
    rwa [run_append, run_cons] at hrun
  have htaken : (c.step e).outputLen + (wire (c.step e).trace).length ≤
      c'.outputLen + (wire c'.trace).length := taken_run (c.step e) es'
  rw [notices_eq hset.2, hset.1, mem_reached] at hlen
  rw [notices_eq hset'.2, hset'.1, mem_reached] at hlen'
  obtain ⟨-, hover, rfl⟩ := hlen
  have hbelow : c'.outputLen < highWaterMark := hlen'.1
  calc (wire (c.step e).trace).length + ((c.step e).outputLen - highWaterMark)
      = (c.step e).outputLen + (wire (c.step e).trace).length - highWaterMark := by omega
    _ ≤ c'.outputLen + (wire c'.trace).length - highWaterMark := Nat.sub_le_sub_right htaken _
    _ < (wire c'.trace).length := by omega

/-- Two messages that cross a mark of four bytes, the second after the first was written. -/
theorem high_water_spaced_twice :
    let c := run step (established 4 true true fun _ => []) []
    let c' := run step (c.step (.send (ascii "hello") (.ok 0))) [.handleWrite (.ok 5)]
    (wire (c.step (.send (ascii "hello") (.ok 0))).trace).length + (5 - 4) <
      (wire c'.trace).length :=
  high_water_spaced 4 true (fun _ => []) [] [.handleWrite (.ok 5)]
    (.send (ascii "hello") (.ok 0)) (.send (ascii "world!") (.ok 1)) 5 5
    (by decide +kernel) (by decide +kernel)

end TcpConnection

end Mymuduo
