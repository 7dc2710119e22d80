import Mymuduo.Net.BufferedOutput

/-!
# A shutdown that was asked for

`shutdown` shuts down the write side at once if the channel is not writing, and leaves it to the end
of the output otherwise. `handleWrite` has three ends: the last buffered byte is out, the last byte
of the file is out, and the file is given up because `sendfile(2)` failed or took nothing. The third
forgets the shutdown. `Honoured` is what the user is promised, `KeepsFile` the condition on a step.

* `shut_handleWrite`: when a writability event shuts down the write side.
* `honoured_step`: a step keeps the promise exactly when it is `KeepsFile`.
* `asked_shutdown_happens`: the runs that keep the promise all along.
* `asked_shutdown_fails`: the file is given up, and the peer waits for ever.
-/

namespace Mymuduo

open CString Transition

/-- A connection, and whether a call of `shutdown` put it on its way down. -/
structure AskedConnection where
  conn : TcpConnection
  asked : Bool

namespace AskedConnection

/-- A call of `shutdown` that finds the connection up. -/
def callsShutdown (s : AskedConnection) : TcpConnection.Event → Bool
  | .shutdown => decide (s.conn.state_ = .kConnected)
  | _ => false

def step (s : AskedConnection) (e : TcpConnection.Event) : AskedConnection :=
  ⟨s.conn.step e, s.asked || s.callsShutdown e⟩

/-- On the way down because of `shutdown` and not writing: the write side is shut down. -/
def Honoured (s : AskedConnection) : Prop :=
  s.asked = true → s.conn.state_ = .kDisconnecting → s.conn.isWriting = false →
    Effect.shutdownWrite ∈ s.conn.trace

/-- A writability event that finds only the file left takes something from it, while a shutdown
waits for the output to end. -/
def KeepsFile (s : AskedConnection) : TcpConnection.Event → Prop
  | .handleWrite r =>
    s.asked = true → s.conn.state_ = .kDisconnecting → s.conn.isWriting = true →
      s.conn.outputBuffer_.readable = [] → s.conn.Progress r
  | _ => True

instance (s : AskedConnection) : Decidable s.Honoured :=
  inferInstanceAs (Decidable (_ → _ → _ → _))

instance (s : AskedConnection) : (e : TcpConnection.Event) → Decidable (s.KeepsFile e)
  | .handleWrite _ => inferInstanceAs (Decidable (_ → _ → _ → _ → _))
  | .connectEstablished | .send _ _ | .sendFile _ _ _ | .shutdown | .forceClose | .forceCloseInLoop
  | .sendFromThread _ | .sendFileFromThread _ _ | .shutdownFromThread | .handleRead _
  | .handleClose | .doPendingFunctor _ | .connectDestroyed => instDecidableTrue

end AskedConnection

namespace TcpConnection

/-- The user's calls in the loop thread, and what the loop and the server do. -/
def Event.isLoopThread : Event → Bool
  | .connectEstablished => false
  | .sendFromThread _ => false
  | .sendFileFromThread _ _ => false
  | .shutdownFromThread => false
  | _ => true

/-! ## The end of the output -/

/-- The write side of `c` has been shut down. -/
abbrev Shut (c : TcpConnection) : Prop :=
  Effect.shutdownWrite ∈ c.trace

theorem shut_append {c c' : TcpConnection} {es : List Effect} (htr : c'.trace = c.trace ++ es) :
    c'.Shut ↔ c.Shut ∨ Effect.shutdownWrite ∈ es := by
  rw [Shut, htr, List.mem_append]

theorem shut_quiet {c c' : TcpConnection} (es : List Effect) (htr : c'.trace = c.trace ++ es)
    (hes : Effect.shutdownWrite ∉ es) : c'.Shut ↔ c.Shut := by
  rw [shut_append htr, or_iff_left hes]

theorem mem_dueShutdown {c : TcpConnection} :
    Effect.shutdownWrite ∈ c.dueShutdown ↔ c.state_ = .kDisconnecting := by
  unfold dueShutdown
  split <;> simp [*]

theorem shut_finishShutdown {c : TcpConnection} (hw : c.isWriting = false) :
    c.finishShutdown.Shut ↔ c.Shut ∨ c.state_ = .kDisconnecting := by
  rw [finishShutdown_eq hw, ← mem_dueShutdown]
  exact List.mem_append

/-- What one call does to the state and the write side, in terms of when it ends the output. -/
structure EndsOutput (c c' : TcpConnection) (shuts : Prop) : Prop where
  state_ : c'.state_ = c.state_
  on : c'.isWriting = true → (c'.Shut ↔ c.Shut)
  off : c'.isWriting = false → (c'.Shut ↔ c.Shut ∨ shuts)

theorem shut_writeBuffer {c : TcpConnection} (hw : c.isWriting = true)
    (hout : c.outputBuffer_.readable ≠ []) (r : SysRet) :
    EndsOutput c (c.writeBuffer r) (c.state_ = .kDisconnecting) := by
  obtain ⟨sent, hspec⟩ := writeBuffer_spec hw hout r
  obtain ⟨es, hes, htr⟩ := hspec.trace
  have hno : Effect.shutdownWrite ∉ es := hes.notMem (by simp)
  refine ⟨hspec.control.state_, ?_, ?_⟩
  · intro hon
    rw [hon, if_pos rfl, List.append_nil] at htr
    exact shut_quiet _ htr hno
  · intro hoff
    rw [hoff, if_neg Bool.false_ne_true, List.append_assoc] at htr
    rw [shut_append htr, List.mem_append, or_iff_right hno, mem_dueShutdown]

theorem shut_writeFile {c : TcpConnection} (hw : c.isWriting = true) (r : SysRet) :
    EndsOutput c (c.writeFile r) (c.state_ = .kDisconnecting ∧ c.Progress r) := by
  have hcases := writeFile_cases c r
  generalize c.writeFile r = c' at hcases ⊢
  cases hcases with
  | failed hr =>
    have hsame : c.abandonFile.Shut ↔ c.Shut :=
      shut_quiet (c := c) [.close c.sendFd_] rfl (by simp)
    refine ⟨rfl, fun _ => hsame, fun _ => ?_⟩
    rw [hsame, or_iff_left fun h => not_progress_of_failed hr h.2]
  | ended n hr hfd hnone =>
    have hsame : (c.moveFile []).abandonFile.Shut ↔ c.Shut :=
      shut_quiet (c := c) [.put [], .close c.sendFd_] (by simp [abandonFile]) (by simp)
    refine ⟨rfl, fun _ => hsame, fun _ => ?_⟩
    rw [hsame, or_iff_left]
    rintro ⟨-, hp⟩
    subst hr
    exact hp.2 hnone
  | part n hr hfd hmore hsome =>
    refine ⟨rfl, fun _ => shut_quiet [.put (c.fileBytes n)] rfl (by simp), ?_⟩
    intro hoff
    exact absurd (hw.symm.trans hoff) (by decide)
  | finished n hr hfd hall hsome =>
    subst hr
    have hprogress : c.Progress (.ok n) := ⟨hfd, hsome⟩
    generalize hdone :
      ((c.moveFile (c.fileBytes n)).disableWriting.closeSendFd.setFile (-1) 0) = c₁
    have hoff : c₁.isWriting = false := by subst hdone; exact isWriting_disableWriting _
    have hstate : c₁.state_ = c.state_ := by subst hdone; rfl
    have hshut : c₁.Shut ↔ c.Shut := by
      subst hdone
      exact shut_quiet [.put (c.fileBytes n), .close c.sendFd_] (by simp) (by simp)
    rw [iff_true_intro hprogress, and_true]
    have hfinish := shut_finishShutdown hoff
    rw [hshut, hstate] at hfinish
    rw [finishShutdown_eq hoff] at hfinish ⊢
    exact ⟨hstate, fun hon => absurd (hoff.symm.trans hon) (by decide), fun _ => hfinish⟩

/-- The output of a connection on its way down ends with the write side shut down, unless the file
is given up. -/
theorem shut_handleWrite {c : TcpConnection} (hw : c.isWriting = true) (r : SysRet) :
    EndsOutput c (c.handleWrite r)
      (c.state_ = .kDisconnecting ∧ (c.outputBuffer_.readable = [] → c.Progress r)) := by
  rw [handleWrite, if_pos hw]
  split
  · next hne =>
    have hout : c.outputBuffer_.readable ≠ [] := fun h => hne (Buffer.readableBytes_eq_zero.mpr h)
    rw [iff_true_intro fun h => absurd h hout, and_true]
    exact shut_writeBuffer hw hout r
  · next he =>
    have hout : c.outputBuffer_.readable = [] := Buffer.readableBytes_eq_zero.mp (not_not.mp he)
    rw [forall_prop_of_true hout]
    exact shut_writeFile hw r

/-- A file that is given up is not watched for any more. -/
theorem isWriting_giveUp {c : TcpConnection} (hout : c.outputBuffer_.readable = []) {r : SysRet}
    (hno : ¬ c.Progress r) : (c.handleWrite r).isWriting = false := by
  unfold handleWrite
  split
  · rw [if_neg fun hne => hne (Buffer.readableBytes_eq_zero.mpr hout)]
    have hcases := writeFile_cases c r
    generalize c.writeFile r = c' at hcases ⊢
    cases hcases with
    | failed | ended => exact isWriting_disableWriting _
    | part n hr hfd hmore hsome | finished n hr hfd hall hsome =>
      subst hr
      exact absurd ⟨hfd, hsome⟩ hno
  · next hw => simpa using hw

/-! ## All other steps -/

theorem shut_sendInLoop {c : TcpConnection} (hs : c.state_ ≠ .kDisconnected) (message : Bytes)
    (r : SysRet) : (c.sendInLoop message r).Shut ↔ c.Shut := by
  obtain ⟨sent, rest, -, hspec⟩ := sendInLoop_spec hs message r
  obtain ⟨es, hes, htr⟩ := hspec.trace
  exact shut_quiet _ htr (hes.notMem (by simp))

theorem shut_watchFile (c : TcpConnection) (faultError : Bool) :
    (c.watchFile faultError).Shut ↔ c.Shut := by
  rw [Shut, (watchFile_spec c faultError).trace]

theorem shut_sendFileInLoop (c : TcpConnection) (r : SysRet) :
    (c.sendFileInLoop r).Shut ↔ c.Shut := by
  have hcases := sendFileInLoop_cases c r
  generalize c.sendFileInLoop r = c' at hcases ⊢
  cases hcases with
  | disconnected => exact Iff.rfl
  | busy | failed => exact shut_watchFile c _
  | sent hs hidle n hr hfd =>
    rw [shut_watchFile]
    unfold sentFromFile
    dsimp only
    split
    · exact shut_quiet [.put (c.fileBytes n), .close c.sendFd_] (by simp) (by simp)
    · exact shut_quiet [.put (c.fileBytes n)] rfl (by simp)

/-- What a step other than `shutdown` and `handleWrite` does to the write side: nothing, unless the
connection accepts messages before or is down after it. -/
inductive Aside (c c' : TcpConnection) : Prop
  | accepts (hs : c.state_ = .kConnected) (hshut : c'.Shut ↔ c.Shut)
  | down (hs : c'.state_ = .kDisconnected) (hw : c'.isWriting = false)
  | same (hs : c'.state_ = c.state_) (hw : c'.isWriting = c.isWriting) (hshut : c'.Shut ↔ c.Shut)

theorem Aside.refl (c : TcpConnection) : Aside c c := .same rfl rfl Iff.rfl

theorem aside_handleClose (c : TcpConnection) (fs : List Functor) :
    Aside c { c with pendingFunctors_ := fs }.handleClose :=
  .down rfl (isWriting_handleClose _)

/-- The functors of a run in the loop thread. -/
abbrev OwnQueue (c : TcpConnection) : Prop :=
  ∀ f ∈ c.pendingFunctors_, f.isCallback = true ∨ f = .forceCloseInLoop

theorem ownQueue_step {c : TcpConnection} {e : Event} (hq : c.OwnQueue)
    (he : e.isLoopThread = true) : (c.step e).OwnQueue := by
  intro f hf
  rcases mem_queue_step hf with hf | hf | hf
  · exact hq f hf
  · exact .inl hf
  · cases e with
    | forceClose => exact .inr (Option.some_inj.mp hf).symm
    | sendFromThread | sendFileFromThread | shutdownFromThread => cases he
    | _ => cases hf

theorem aside_step {c : TcpConnection} {e : Event} (hq : c.OwnQueue) (he : e.isLoopThread = true)
    (hshutdown : e ≠ .shutdown) (hwrite : ∀ r, e ≠ .handleWrite r) : Aside c (c.step e) := by
  rcases step_cases c e with heq | h
  · rw [heq]
    exact .refl c
  generalize c.step e = c' at h ⊢
  cases h with
  | send hs message r => exact .accepts hs (shut_sendInLoop (by simp [hs]) message r)
  | sendFile hs fd count r => exact .accepts hs (shut_sendFileInLoop (c.setFile fd count) r)
  | forceClose hup =>
    rcases hup with hs | hs
    · exact .accepts hs Iff.rfl
    · exact .same hs.symm rfl Iff.rfl
  | forceCloseInLoop | endOfFile | handleClose => exact aside_handleClose c c.pendingFunctors_
  | received => exact .same rfl rfl (shut_quiet [.messageCallback] rfl (by simp))
  | doPendingFunctor f fs heq r =>
    rcases hq f (by rw [heq]; exact List.mem_cons_self) with hf | rfl
    · have hsame : Aside c { c with pendingFunctors_ := fs } := .same rfl rfl Iff.rfl
      cases f <;> first | exact hsame | cases hf
    · rw [runFunctor, forceCloseInLoop]
      split
      · exact aside_handleClose c fs
      · exact .same rfl rfl Iff.rfl
  | connectDestroyed => exact .down rfl (Channel.isWriting_disableAll c.channel_)
  | shutdown => exact absurd rfl hshutdown
  | handleWrite r => exact absurd rfl (hwrite r)
  | connectEstablished | sendFromThread | sendFileFromThread | shutdownFromThread => cases he

end TcpConnection

namespace AskedConnection

open TcpConnection (Shut OwnQueue Aside ownQueue_step aside_step shut_handleWrite)

/-! ## The invariant -/

/-- The write side is shut down on the way down only, once the output has ended. -/
structure Orderly (s : AskedConnection) : Prop where
  refuses : s.asked = true → s.conn.state_ ≠ .kConnected
  ended : s.conn.Shut → s.conn.state_ ≠ .kConnected ∧ s.conn.isWriting = false
  queue : s.conn.OwnQueue

theorem Orderly.never {s : AskedConnection} (h : Orderly s)
    (hopen : s.conn.state_ = .kConnected ∨ s.conn.isWriting = true) : ¬ s.conn.Shut := by
  intro hshut
  obtain ⟨hs, hw⟩ := h.ended hshut
  rcases hopen with hs' | hw'
  · exact hs hs'
  · exact absurd (hw.symm.trans hw') (by decide)

theorem Orderly.aside {s : AskedConnection} (h : Orderly s) {c' : TcpConnection}
    (ha : Aside s.conn c') (hq : c'.OwnQueue) : Orderly ⟨c', s.asked⟩ := by
  cases ha with
  | accepts hs hshut =>
    refine ⟨fun hasked => absurd hs (h.refuses hasked), fun hshut' => ?_, hq⟩
    exact absurd (hshut.mp hshut') (h.never (.inl hs))
  | down hs hw => exact ⟨fun _ => by simp [hs], fun _ => ⟨by simp [hs], hw⟩, hq⟩
  | same hs hw hshut =>
    refine ⟨fun hasked => hs ▸ h.refuses hasked, fun hshut' => ?_, hq⟩
    simp only [hs, hw]
    exact h.ended (hshut.mp hshut')

theorem Honoured.aside {s : AskedConnection} (h : Honoured s) (ho : Orderly s)
    {c' : TcpConnection} (ha : Aside s.conn c') : Honoured ⟨c', s.asked⟩ := by
  intro hasked hclosing hoff
  cases ha with
  | accepts hs hshut => exact absurd hs (ho.refuses hasked)
  | down hs hw => exact absurd (hs.symm.trans hclosing) (by decide)
  | same hs hw hshut => exact hshut.mpr (h hasked (hs.symm.trans hclosing) (hw.symm.trans hoff))

theorem step_shutdown {s : AskedConnection} (h : Orderly s) :
    Orderly (s.step .shutdown) ∧ (Honoured s → Honoured (s.step .shutdown)) := by
  by_cases hs : s.conn.state_ = .kConnected
  · have hnever := h.never (.inl hs)
    simp only [step, callsShutdown, TcpConnection.step, TcpConnection.shutdown,
      TcpConnection.shutdownInLoop, hs, if_true, decide_true, Bool.or_true]
    split
    · next hw =>
      have hoff : s.conn.isWriting = false := by simpa using hw
      exact ⟨⟨fun _ => by simp, fun _ => ⟨by simp, hoff⟩, h.queue⟩, fun _ _ _ _ => by simp⟩
    · next hw =>
      have hon : s.conn.isWriting = true := by simpa using hw
      exact ⟨⟨fun _ => by simp, fun hshut => absurd hshut hnever, h.queue⟩,
        fun _ _ _ hoff => absurd (hon.symm.trans hoff) (by decide)⟩
  · have hsame : s.step .shutdown = s := by
      simp [step, callsShutdown, TcpConnection.step, TcpConnection.shutdown, hs]
    rw [hsame]
    exact ⟨h, id⟩

theorem step_handleWrite {s : AskedConnection} (h : Orderly s) (r : SysRet) :
    Orderly (s.step (.handleWrite r)) ∧
      (Honoured s → (Honoured (s.step (.handleWrite r)) ↔ s.KeepsFile (.handleWrite r))) := by
  have hstep : s.step (.handleWrite r) = ⟨s.conn.handleWrite r, s.asked⟩ := by
    simp [step, callsShutdown, TcpConnection.step]
  rw [hstep]
  cases hw : s.conn.isWriting with
  | false =>
    have hsame : s.conn.handleWrite r = s.conn := by simp [TcpConnection.handleWrite, hw]
    rw [hsame]
    exact ⟨h, fun hkept => iff_of_true hkept fun _ _ hon => absurd (hw.symm.trans hon) (by decide)⟩
  | true =>
    have hnever := h.never (.inr hw)
    have hends := shut_handleWrite hw r
    refine ⟨⟨fun hasked => hends.state_ ▸ h.refuses hasked, fun hshut => ?_,
      ownQueue_step (e := .handleWrite r) h.queue rfl⟩, fun _ => ⟨?_, ?_⟩⟩
    · cases hon : (s.conn.handleWrite r).isWriting with
      | true => exact absurd ((hends.on hon).mp hshut) hnever
      | false =>
        rcases (hends.off hon).mp hshut with hbefore | ⟨hclosing, -⟩
        · exact absurd hbefore hnever
        · exact ⟨by simp [hends.state_, hclosing], rfl⟩
    · intro hkept hasked hclosing _ hout
      by_contra hno
      -- the promise is due in the step that gives the file up
      have hoff := TcpConnection.isWriting_giveUp hout hno
      rcases (hends.off hoff).mp (hkept hasked (hends.state_.trans hclosing) hoff) with
        hbefore | ⟨-, hprogress⟩
      · exact hnever hbefore
      · exact hno (hprogress hout)
    · intro hkeeps hasked hclosing hoff
      have hwas : s.conn.state_ = .kDisconnecting := hends.state_.symm.trans hclosing
      exact (hends.off hoff).mpr (.inr ⟨hwas, hkeeps hasked hwas hw⟩)

theorem step_aside {s : AskedConnection} (ho : Orderly s) {e : TcpConnection.Event}
    (he : e.isLoopThread = true) (hshutdown : e ≠ .shutdown) (hwrite : ∀ r, e ≠ .handleWrite r) :
    Orderly (s.step e) ∧ (Honoured s → Honoured (s.step e)) := by
  have hcalls : s.callsShutdown e = false := by
    cases e with
    | shutdown => exact absurd rfl hshutdown
    | _ => rfl
  have ha := aside_step ho.queue he hshutdown hwrite
  simp only [step, hcalls, Bool.or_false]
  exact ⟨ho.aside ha (ownQueue_step ho.queue he), fun h => h.aside ho ha⟩

theorem Orderly.step {s : AskedConnection} (h : Orderly s) {e : TcpConnection.Event}
    (he : e.isLoopThread = true) : Orderly (s.step e) := by
  cases e with
  | shutdown => exact (step_shutdown h).1
  | handleWrite r => exact (step_handleWrite h r).1
  | _ => exact (step_aside h he nofun nofun).1

theorem honoured_step {s : AskedConnection} (ho : Orderly s) (h : Honoured s)
    {e : TcpConnection.Event} (he : e.isLoopThread = true) :
    Honoured (s.step e) ↔ s.KeepsFile e := by
  cases e with
  | shutdown => exact iff_of_true ((step_shutdown ho).2 h) trivial
  | handleWrite r => exact (step_handleWrite ho r).2 h
  | _ => exact iff_of_true ((step_aside ho he nofun nofun).2 h) trivial

/-! ## Whole runs -/

/-- A connection just after `connectEstablished`, not asked for anything yet. -/
def established (highWaterMark : Nat) (hcb wcb : Bool) (files : Int → Bytes) : AskedConnection :=
  ⟨TcpConnection.established highWaterMark hcb wcb files, false⟩

theorem orderly_established (highWaterMark : Nat) (hcb wcb : Bool) (files : Int → Bytes) :
    Orderly (established highWaterMark hcb wcb files) := by
  refine ⟨nofun, fun hshut => ?_, fun f hf => ?_⟩
  · simp [established, TcpConnection.established, TcpConnection.connectEstablished,
      TcpConnection.new, Shut] at hshut
  · cases hf

/-- A connection that `shutdown` put on its way down has its write side shut down whenever it is not
writing, all along a run, if and only if no writability event of the run gives up the file while the
shutdown waits for it. -/
theorem asked_shutdown_happens (highWaterMark : Nat) (hcb wcb : Bool) (files : Int → Bytes)
    (es : List TcpConnection.Event) (hes : ∀ e ∈ es, e.isLoopThread = true) :
    (∀ pre, pre <+: es → Honoured (run step (established highWaterMark hcb wcb files) pre)) ↔
      Meets KeepsFile step (established highWaterMark hcb wcb files) es := by
  have hfirst : Honoured (established highWaterMark hcb wcb files) := nofun
  rw [forall_prefix_iff, and_iff_right hfirst]
  have hstep : ∀ (s : AskedConnection) (e : TcpConnection.Event), Orderly s ∧ Honoured s →
      e.isLoopThread = true → (Honoured (s.step e) ↔ s.KeepsFile e) :=
    fun s e h he => honoured_step h.1 h.2 he
  have hkeep : ∀ (s : AskedConnection) (e : TcpConnection.Event), Orderly s ∧ Honoured s →
      e.isLoopThread = true → s.KeepsFile e → Orderly (s.step e) ∧ Honoured (s.step e) :=
    fun s e h he hkeeps => ⟨h.1.step he, (honoured_step h.1 h.2 he).mpr hkeeps⟩
  exact meets_iff hstep hkeep ⟨orderly_established highWaterMark hcb wcb files, hfirst⟩ hes

/-- A page that is taken piece by piece, and a `shutdown` that waits for it. -/
theorem asked_shutdown_happens_page :
    let es : List TcpConnection.Event := [.send (ascii "head") (.ok 1), .sendFile 5 4 (.ok 0),
      .shutdown, .handleWrite (.fail .EWOULDBLOCK), .handleWrite (.ok 3), .handleWrite (.ok 1),
      .handleWrite (.ok 3)]
    ∀ pre, pre <+: es →
      Honoured (run step (established 64 true true fun _ => ascii "page") pre) := by
  intro es
  exact (asked_shutdown_happens 64 true true (fun _ => ascii "page") es (by decide)).mpr
    (by decide +kernel)

/-- A page is taken in part, the user calls `shutdown`, and then `sendfile(2)` fails, would block or
finds the file shorter than it was said to be. -/
theorem asked_shutdown_fails :
    let start := established 64 true true fun _ => ascii "page"
    ¬ (∀ es : List TcpConnection.Event, (∀ e ∈ es, e.isLoopThread = true) →
        Honoured (run step start es)) ∧
      ¬ Honoured (run step start
        [.sendFile 5 4 (.ok 1), .shutdown, .handleWrite (.fail .EPIPE)]) ∧
      ¬ Honoured (run step start
        [.sendFile 5 4 (.ok 1), .shutdown, .handleWrite (.fail .EWOULDBLOCK)]) ∧
      ¬ Honoured (run step start [.sendFile 5 6 (.ok 4), .shutdown, .handleWrite (.ok 2)]) := by
  intro start
  have hfail : ¬ Honoured (run step start
      [.sendFile 5 4 (.ok 1), .shutdown, .handleWrite (.fail .EPIPE)]) := by decide +kernel
  exact ⟨fun hall => hfail (hall _ (by decide)), hfail, by decide +kernel, by decide +kernel⟩

end AskedConnection

end Mymuduo
