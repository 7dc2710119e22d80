import Mymuduo.Net.AskedShutdown
import Mymuduo.Net.WriteInterest
import Mymuduo.Net.LifeCycle

/-!
# What happens beside a file

A connection sends the buffer first and then the file, and most of its steps concern neither. The
frame lemmas of a run around one `sendFile`: what can happen before it, what can happen after it
without touching the file, and what stays once the connection is at its end.

* `WatchesOutput.step`: the write interest is for output of a connection that is up.
* `spares_step`: a step that does not get to the file leaves it alone.
* `Fileless.step`: before the first `sendFile` nothing is tracked, queued or closed.
* `ended_step`: closed and shut down is for good.
-/

namespace Mymuduo

open CString Transition

/-- A functor that sends nothing. -/
def Functor.sendsNothing : Functor → Bool
  | .sendFileInLoop => false
  | .sendInLoop _ => false
  | _ => true

namespace TcpConnection

/-- What can happen to a connection that was not given a file yet. -/
def Event.isFileless : Event → Bool
  | .connectEstablished => false
  | .sendFile _ _ _ => false
  | .sendFileFromThread _ _ => false
  | _ => true

/-- What can happen after the last output was given to the connection. -/
def Event.isSilent : Event → Bool
  | .connectEstablished => false
  | .send _ _ => false
  | .sendFile _ _ _ => false
  | .sendFromThread _ => false
  | .sendFileFromThread _ _ => false
  | _ => true

/-- The connection is closed or its write side shut down. -/
abbrev Ended (c : TcpConnection) : Prop :=
  c.state_ = .kDisconnected ∨ c.Shut

/-! ## What the write interest is for -/

/-- A connection that watches for writability is up and has output. -/
def WatchesOutput (c : TcpConnection) : Prop :=
  c.isWriting = true → c.state_ ≠ .kDisconnected ∧ c.HasOutput

theorem WatchesOutput.of_off {c : TcpConnection} (hw : c.isWriting = false) : c.WatchesOutput :=
  fun hon => absurd (hw.symm.trans hon) (by decide)

/-- Output and interest are as they were. -/
theorem WatchesOutput.frame {c c' : TcpConnection} (h : c.WatchesOutput)
    (hs : c.state_ ≠ .kDisconnected → c'.state_ ≠ .kDisconnected)
    (hw : c'.isWriting = c.isWriting) (hout : c'.outputBuffer_ = c.outputBuffer_)
    (hlen : c'.sendLen_ = c.sendLen_) : c'.WatchesOutput := by
  intro hon
  rw [HasOutput, hout, hlen]
  exact (h (hw.symm.trans hon)).imp_left hs

theorem WatchesOutput.sendInLoop {c : TcpConnection} (h : c.WatchesOutput) (message : Bytes)
    (r : SysRet) : (c.sendInLoop message r).WatchesOutput := by
  by_cases hs : c.state_ = .kDisconnected
  · rwa [sendInLoop_disconnected hs]
  · obtain ⟨sent, rest, -, hspec⟩ := sendInLoop_spec hs message r
    intro hon
    refine ⟨by rwa [hspec.control.state_], ?_⟩
    rw [HasOutput, hspec.out, hspec.control.sendLen_, ne_eq, List.append_eq_nil_iff, not_and_or]
    rcases hspec.writing.mp hon with hw | hrest
    · exact (h hw).2.imp_left .inl
    · exact .inl (.inr hrest)

theorem WatchesOutput.watchFile {c : TcpConnection} (h : c.WatchesOutput)
    (hs : c.state_ ≠ .kDisconnected) (faultError : Bool) :
    (c.watchFile faultError).WatchesOutput := by
  have hspec := watchFile_spec c faultError
  intro hon
  refine ⟨by rwa [hspec.control.state_], ?_⟩
  rw [HasOutput, hspec.outputBuffer_, hspec.control.sendLen_]
  rcases hspec.writing hon with hw | hlen
  · exact (h hw).2
  · exact .inr hlen

theorem isWriting_sentFromFile (c : TcpConnection) (data : Bytes) :
    (c.sentFromFile data).isWriting = c.isWriting := by
  unfold sentFromFile
  dsimp only
  split <;> rfl

theorem state_sentFromFile (c : TcpConnection) (data : Bytes) :
    (c.sentFromFile data).state_ = c.state_ := by
  unfold sentFromFile
  dsimp only
  split <;> rfl

theorem WatchesOutput.sendFileInLoop {c : TcpConnection} (h : c.WatchesOutput) (r : SysRet) :
    (c.sendFileInLoop r).WatchesOutput := by
  have hcases := sendFileInLoop_cases c r
  generalize c.sendFileInLoop r = c' at hcases ⊢
  cases hcases with
  | disconnected => exact h
  | busy hs | failed hs => exact h.watchFile hs _
  | sent hs hidle n hr hfd =>
    have hoff : (c.sentFromFile (c.fileBytes n)).isWriting = false :=
      (isWriting_sentFromFile c _).trans hidle.1
    exact (WatchesOutput.of_off hoff).watchFile (by rwa [state_sentFromFile]) false

theorem WatchesOutput.handleWrite {c : TcpConnection} (h : c.WatchesOutput) (r : SysRet) :
    (c.handleWrite r).WatchesOutput := by
  unfold TcpConnection.handleWrite
  split
  · next hw =>
    have hup := (h hw).1
    split
    · next hne =>
      obtain ⟨sent, hspec⟩ := writeBuffer_spec hw
        (fun hout => hne (Buffer.readableBytes_eq_zero.mpr hout)) r
      intro hon
      refine ⟨by rwa [hspec.control.state_], ?_⟩
      rw [HasOutput, hspec.control.sendLen_, Nat.pos_iff_ne_zero]
      exact hspec.writing.mp hon
    · have hcases := writeFile_cases c r
      generalize c.writeFile r = c' at hcases ⊢
      cases hcases with
      | failed | ended => exact .of_off (isWriting_disableWriting _)
      | part n hr hfd hmore hsome => exact fun _ => ⟨hup, .inr (Nat.sub_pos_of_lt hmore)⟩
      | finished n hr hfd hall hsome =>
        rw [finishShutdown_eq (by simp)]
        exact .of_off (isWriting_disableWriting _)
  · exact h

theorem WatchesOutput.shutdownInLoop {c : TcpConnection} (h : c.WatchesOutput) :
    c.shutdownInLoop.WatchesOutput := by
  unfold TcpConnection.shutdownInLoop
  split
  · exact h.frame id rfl rfl rfl
  · exact h

theorem WatchesOutput.forceCloseInLoop {c : TcpConnection} (h : c.WatchesOutput) :
    c.forceCloseInLoop.WatchesOutput := by
  unfold TcpConnection.forceCloseInLoop
  split
  · exact .of_off (isWriting_handleClose c)
  · exact h

theorem WatchesOutput.runFunctor {c : TcpConnection} (h : c.WatchesOutput) (r : SysRet)
    (f : Functor) : (c.runFunctor r f).WatchesOutput := by
  cases f with
  | shutdownInLoop => exact h.shutdownInLoop
  | forceCloseInLoop => exact h.forceCloseInLoop
  | sendFileInLoop => exact h.sendFileInLoop r
  | sendInLoop message => exact h.sendInLoop message r
  | writeCompleteCallback | highWaterMarkCallback => exact h

theorem WatchesOutput.step {c : TcpConnection} (h : c.WatchesOutput) {e : Event}
    (he : e.isFileless = true) : (c.step e).WatchesOutput := by
  rcases step_cases c e with heq | hcase
  · rwa [heq]
  generalize c.step e = c' at hcase ⊢
  cases hcase with
  | send hs message r => exact h.sendInLoop message r
  | shutdown =>
    have hclosing : (c.setState .kDisconnecting).WatchesOutput :=
      h.frame (fun _ => by simp) rfl rfl rfl
    exact hclosing.shutdownInLoop
  | forceClose | shutdownFromThread => exact h.frame (fun _ => by simp) rfl rfl rfl
  | sendFromThread | received => exact h.frame id rfl rfl rfl
  | forceCloseInLoop | endOfFile | handleClose => exact .of_off (isWriting_handleClose c)
  | handleWrite r => exact h.handleWrite r
  | doPendingFunctor f fs hq r =>
    have hrest : ({ c with pendingFunctors_ := fs } : TcpConnection).WatchesOutput :=
      h.frame id rfl rfl rfl
    exact hrest.runFunctor r f
  | connectDestroyed => exact .of_off (Channel.isWriting_disableAll c.channel_)
  | connectEstablished | sendFile | sendFileFromThread => cases he

/-! ## Steps that spare the file -/

/-- `c'` is `c` after something that sent buffered bytes at most and left the file alone. -/
structure Spares (c c' : TcpConnection) : Prop where
  sendFd_ : c'.sendFd_ = c.sendFd_
  sendLen_ : c'.sendLen_ = c.sendLen_
  files : c'.files = c.files
  out : wire c'.trace ++ c'.outputBuffer_.readable = wire c.trace ++ c.outputBuffer_.readable
  drained : c.outputBuffer_.readable = [] → c'.outputBuffer_.readable = []
  closes : ∀ fd, Effect.close fd ∈ c'.trace → Effect.close fd ∈ c.trace

theorem Spares.refl (c : TcpConnection) : Spares c c :=
  ⟨rfl, rfl, rfl, rfl, id, fun _ => id⟩

/-- Effects that write and close nothing. -/
theorem Spares.of_quiet {c c' : TcpConnection} (hfd : c'.sendFd_ = c.sendFd_)
    (hlen : c'.sendLen_ = c.sendLen_) (hfiles : c'.files = c.files)
    (hout : c'.outputBuffer_ = c.outputBuffer_) (es : List Effect)
    (htr : c'.trace = c.trace ++ es) (hwire : wire es = [])
    (hno : ∀ fd, Effect.close fd ∉ es) : Spares c c' := by
  refine ⟨hfd, hlen, hfiles, by rw [htr, hout, wire_append, hwire, List.append_nil],
    fun h => by rw [hout, h], fun fd hclose => ?_⟩
  rw [htr, List.mem_append] at hclose
  exact hclose.resolve_right (hno fd)

theorem spares_shutdownInLoop (c : TcpConnection) : Spares c c.shutdownInLoop := by
  unfold shutdownInLoop
  split
  · exact .of_quiet rfl rfl rfl rfl [.shutdownWrite] rfl rfl (by simp)
  · exact .refl c

theorem spares_handleClose (c : TcpConnection) : Spares c c.handleClose :=
  .of_quiet rfl rfl rfl rfl _ (trace_handleClose c) rfl (by simp)

theorem spares_forceCloseInLoop (c : TcpConnection) : Spares c c.forceCloseInLoop := by
  unfold forceCloseInLoop
  split
  · exact spares_handleClose c
  · exact .refl c

theorem spares_watchFile (c : TcpConnection) (faultError : Bool) :
    Spares c (c.watchFile faultError) := by
  have hspec := watchFile_spec c faultError
  exact .of_quiet hspec.control.sendFd_ hspec.control.sendLen_ hspec.control.files
    hspec.outputBuffer_ [] (by rw [hspec.trace, List.append_nil]) rfl (by simp)

theorem wire_dueShutdown (c : TcpConnection) : wire c.dueShutdown = [] := by
  unfold dueShutdown
  split <;> rfl

/-- The buffer goes out before the file. -/
theorem spares_writeBuffer {c : TcpConnection} (hw : c.isWriting = true)
    (hout : c.outputBuffer_.readable ≠ []) (r : SysRet) : Spares c (c.writeBuffer r) := by
  obtain ⟨sent, hspec⟩ := writeBuffer_spec hw hout r
  obtain ⟨es, hes, htr⟩ := hspec.trace
  refine ⟨hspec.control.sendFd_, hspec.control.sendLen_, hspec.control.files, ?_,
    fun h => absurd h hout, fun fd hclose => ?_⟩
  · have hwire : wire (c.writeBuffer r).trace = wire c.trace ++ sent := by
      rw [htr, wire_append, wire_append, hes.wire_eq]
      split
      · simp [wire]
      · rw [wire_dueShutdown, List.append_nil]
    rw [hwire, List.append_assoc, ← hspec.out]
  · have hsent : Effect.close fd ∉ es := hes.notMem (by simp)
    rw [htr, List.mem_append, List.mem_append] at hclose
    rcases hclose with (hclose | hclose) | hclose
    · exact hclose
    · exact absurd hclose hsent
    · split at hclose
      · cases hclose
      · exact absurd hclose (close_notMem_dueShutdown c fd)

theorem spares_step {c : TcpConnection} {e : Event} (he : e.isSilent = true)
    (hwrite : ∀ r, e = .handleWrite r → c.isWriting = true → c.outputBuffer_.readable ≠ [])
    (hhead : ∀ r f, e = .doPendingFunctor r → c.pendingFunctors_.head? = some f →
      f.sendsNothing = true) : Spares c (c.step e) := by
  rcases step_cases c e with heq | h
  · rw [heq]
    exact .refl c
  generalize c.step e = c' at h ⊢
  cases h with
  | shutdown =>
    have h := spares_shutdownInLoop (c.setState .kDisconnecting)
    exact ⟨h.sendFd_, h.sendLen_, h.files, h.out, h.drained, h.closes⟩
  | forceClose | shutdownFromThread => exact .of_quiet rfl rfl rfl rfl [] (by simp) rfl (by simp)
  | forceCloseInLoop | endOfFile | handleClose => exact spares_handleClose c
  | received => exact .of_quiet rfl rfl rfl rfl [.messageCallback] rfl rfl (by simp)
  | handleWrite r =>
    unfold handleWrite
    split
    · next hw =>
      have hout := hwrite r rfl hw
      rw [if_pos fun h => hout (Buffer.readableBytes_eq_zero.mp h)]
      exact spares_writeBuffer hw hout r
    · exact .refl c
  | doPendingFunctor f fs hq r =>
    have hf := hhead r f rfl (by rw [hq]; rfl)
    have hpop : Spares c { c with pendingFunctors_ := fs } :=
      .of_quiet rfl rfl rfl rfl [] (by simp) rfl (by simp)
    cases f with
    | shutdownInLoop =>
      have h := spares_shutdownInLoop { c with pendingFunctors_ := fs }
      exact ⟨h.sendFd_, h.sendLen_, h.files, h.out, h.drained, h.closes⟩
    | forceCloseInLoop =>
      have h := spares_forceCloseInLoop { c with pendingFunctors_ := fs }
      exact ⟨h.sendFd_, h.sendLen_, h.files, h.out, h.drained, h.closes⟩
    | sendFileInLoop | sendInLoop => cases hf
    | writeCompleteCallback | highWaterMarkCallback => exact hpop
  | connectDestroyed =>
    exact .of_quiet rfl rfl rfl rfl [.connectionCallback false] rfl rfl (by simp)
  | connectEstablished | send | sendFile | sendFromThread | sendFileFromThread => cases he

/-! ## Before the file -/

/-- A connection that was not given a file yet. -/
structure Fileless (c : TcpConnection) : Prop where
  noFile : c.sendLen_ = 0
  noCall : Functor.sendFileInLoop ∉ c.pendingFunctors_
  watches : c.WatchesOutput
  never : ∀ fd, Effect.close fd ∉ c.trace

theorem noCall_step {c : TcpConnection} (h : Functor.sendFileInLoop ∉ c.pendingFunctors_)
    {e : Event} (he : e.isFileless = true) :
    Functor.sendFileInLoop ∉ (c.step e).pendingFunctors_ := by
  intro hf
  rcases mem_queue_step hf with hf | hf | hf
  · exact h hf
  · cases hf
  · cases e with
    | sendFileFromThread => cases he
    | _ => cases hf

/-- A message does not concern files either. -/
theorem fileless_sendInLoop {c : TcpConnection} (hlen : c.sendLen_ = 0)
    (hnever : ∀ fd, Effect.close fd ∉ c.trace) (message : Bytes) (r : SysRet) :
    (c.sendInLoop message r).sendLen_ = 0 ∧
      ∀ fd, Effect.close fd ∉ (c.sendInLoop message r).trace := by
  by_cases hs : c.state_ = .kDisconnected
  · rw [sendInLoop_disconnected hs]
    exact ⟨hlen, hnever⟩
  · obtain ⟨sent, rest, -, hspec⟩ := sendInLoop_spec hs message r
    obtain ⟨es, hes, htr⟩ := hspec.trace
    refine ⟨hspec.control.sendLen_.trans hlen, fun fd hclose => ?_⟩
    rw [htr, List.mem_append] at hclose
    rcases hclose with hclose | hclose
    · exact hnever fd hclose
    · exact hes.notMem (by simp) hclose

theorem Fileless.step {c : TcpConnection} (h : c.Fileless) {e : Event}
    (he : e.isFileless = true) : (c.step e).Fileless := by
  have hcall := noCall_step h.noCall he
  have hwatches := h.watches.step he
  have hspared : Spares c (c.step e) → (c.step e).Fileless := fun hs =>
    ⟨hs.sendLen_.trans h.noFile, hcall, hwatches, fun fd hclose => h.never fd (hs.closes fd hclose)⟩
  have hsent : ∀ (c₀ : TcpConnection) (message : Bytes) (r : SysRet), c₀.sendLen_ = 0 →
      (∀ fd, Effect.close fd ∉ c₀.trace) → c.step e = c₀.sendInLoop message r →
      (c.step e).Fileless := by
    intro c₀ message r hlen hnever heq
    obtain ⟨hlen', hnever'⟩ := fileless_sendInLoop hlen hnever message r
    exact ⟨heq ▸ hlen', hcall, hwatches, heq ▸ hnever'⟩
  have hwrite : c.isWriting = true → c.outputBuffer_.readable ≠ [] := fun hw =>
    (h.watches hw).2.resolve_right (by simp [h.noFile])
  cases e with
  | send message r =>
    by_cases hs : c.state_ = .kConnected
    · exact hsent c message r h.noFile h.never (by rw [TcpConnection.step, send, if_pos hs])
    · rw [TcpConnection.step, send, if_neg hs]
      exact h
  | sendFromThread message =>
    refine hspared ?_
    rw [TcpConnection.step, sendFromThread]
    split
    · exact .of_quiet rfl rfl rfl rfl [] (by simp) rfl (by simp)
    · exact .refl c
  | doPendingFunctor r =>
    by_cases hmessage : ∃ message, c.pendingFunctors_.head? = some (.sendInLoop message)
    · obtain ⟨message, hhead⟩ := hmessage
      obtain ⟨fs, hq⟩ := List.head?_eq_some_iff.mp hhead
      refine hsent { c with pendingFunctors_ := fs } message r h.noFile h.never ?_
      simp only [TcpConnection.step, hq, runFunctor]
    · refine hspared (spares_step rfl (by simp) fun _ f _ hhead => ?_)
      cases f with
      | sendInLoop message => exact absurd ⟨message, hhead⟩ hmessage
      | sendFileInLoop => exact absurd (List.mem_of_mem_head? hhead) h.noCall
      | _ => rfl
  | handleWrite r => exact hspared (spares_step rfl (fun _ _ => hwrite) (by simp))
  | connectEstablished | sendFile | sendFileFromThread => cases he
  | _ => exact hspared (spares_step rfl (by simp) (by simp))

theorem fileless_established (highWaterMark : Nat) (hcb wcb : Bool) (files : Int → Bytes) :
    (established highWaterMark hcb wcb files).Fileless := by
  refine ⟨rfl, fun hf => ?_, .of_off (isWriting_established highWaterMark hcb wcb files), ?_⟩
  · cases hf
  · intro fd hclose
    simp [established, connectEstablished, new] at hclose

/-- No message is waiting to be sent. -/
abbrev NoMessage (c : TcpConnection) : Prop :=
  ∀ message, Functor.sendInLoop message ∉ c.pendingFunctors_

theorem noMessage_step {c : TcpConnection} (h : c.NoMessage) {e : Event}
    (he : ∀ message, e ≠ .sendFromThread message) : (c.step e).NoMessage := by
  intro message hf
  rcases mem_queue_step hf with hf | hf | hf
  · exact h message hf
  · cases hf
  · cases e with
    | sendFromThread message => exact he message rfl
    | _ => cases hf

/-! ## The end of the connection -/

theorem Outputs.ended {c c' : TcpConnection} (h : Outputs c c') (hend : c.Ended) : c'.Ended := by
  obtain ⟨es, -, htr⟩ := h.trace
  exact hend.imp h.state_.trans fun hshut => (shut_append htr).mpr (.inl hshut)

/-- The end of a connection is for good. -/
theorem ended_step {c : TcpConnection} (hend : c.Ended) {e : Event}
    (he : e ≠ .connectEstablished) : (c.step e).Ended := by
  by_cases hlife : e.isLife = true
  · cases hcl : c.closes e with
    | true =>
      obtain ⟨fs, hstep⟩ := closes_step hcl
      rw [hstep]
      exact .inl rfl
    | false =>
      have hon := goesOn_step hlife hcl
      obtain ⟨es, -, htr⟩ := hon.trace
      rcases hend with hs | hshut
      · refine .inl (hon.state_.elim (·.trans hs) fun hup => ?_)
        rcases hup.1 with hup | hup <;> exact absurd (hs.symm.trans hup) (by decide)
      · exact .inr ((shut_append htr).mpr (.inl hshut))
  · cases e with
    | connectDestroyed =>
      rw [step, connectDestroyed]
      split
      · exact .inl rfl
      · exact hend
    | connectEstablished => exact absurd rfl he
    | _ => exact absurd rfl hlife

end TcpConnection

end Mymuduo
