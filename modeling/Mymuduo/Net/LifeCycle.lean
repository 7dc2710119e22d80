import Mymuduo.Net.Dispatch

/-!
# Closing and going on

What an event between `connectEstablished` and `connectDestroyed` does about going down: it gets to
`handleClose` (`closes`), or it goes on (`GoesOn`) and begins to shut down at most.

* `goesOn_step`, `closes_step`: each event does the one or the other.
-/

namespace Mymuduo

open CString

/-- What the user or the server is told about the connection. -/
def Effect.isReport : Effect → Bool
  | .handleClose _ => true
  | .connectionCallback _ => true
  | .closeCallback => true
  | _ => false

namespace TcpConnection

/-- What can happen between `connectEstablished` and `connectDestroyed`. -/
def Event.isLife : Event → Bool
  | .connectEstablished => false
  | .connectDestroyed => false
  | _ => true

/-- The event gets to `handleClose`. -/
def closes (c : TcpConnection) : Event → Bool
  | .handleClose => true
  | .handleRead r => r == .ok []
  | .forceCloseInLoop => decide c.Up
  | .doPendingFunctor _ => c.pendingFunctors_.head? == some .forceCloseInLoop && decide c.Up
  | _ => false

/-- Only a connection that is up is closed. -/
def ClosesUp (c : TcpConnection) (e : Event) : Prop := c.closes e = true → c.Up

instance (c : TcpConnection) (e : Event) : Decidable (c.ClosesUp e) :=
  inferInstanceAs (Decidable (_ → _))

/-! ## Going on -/

/-- What output does to a channel: the write interest changes at most, and only when it has to. -/
inductive Switches (ch : Channel) : Channel → Prop
  | same : Switches ch ch
  | enable (hw : ch.isWriting = false) : Switches ch ch.enableWriting
  | disable (hw : ch.isWriting = true) : Switches ch ch.disableWriting

theorem switches_watchWritable (c : TcpConnection) :
    Switches c.channel_ c.watchWritable.channel_ := by
  unfold watchWritable
  split
  · next hw => exact .enable (by simpa [isWriting] using hw)
  · exact .same

theorem switches_keepRemaining (c : TcpConnection) (data : Bytes) (n : Nat) (faultError : Bool) :
    Switches c.channel_ (c.keepRemaining data n faultError).channel_ := by
  simp only [keepRemaining]
  split
  · have hch : ((c.noteHighWater (data.length - n)).bufferOutput (data.drop n)).channel_ =
        c.channel_ := (notes_noteHighWater c _).channel_
    exact hch ▸ switches_watchWritable _
  · exact .same

theorem switches_sendInLoop (c : TcpConnection) (data : Bytes) (r : SysRet) :
    Switches c.channel_ (c.sendInLoop data r).channel_ := by
  unfold sendInLoop
  split
  · exact .same
  · split
    · cases r with
      | ok n =>
        have hch : (if data.length - min n data.length = 0 then
            (c.emit (.put (data.take n))).noteWriteComplete
            else c.emit (.put (data.take n))).channel_ = c.channel_ := by
          split
          · exact (notes_noteWriteComplete _).channel_
          · rfl
        exact hch ▸ switches_keepRemaining _ data (min n data.length) false
      | fail e => exact switches_keepRemaining c data 0 (isFault e)
    · exact switches_keepRemaining c data 0 false

theorem switches_watchFile (c : TcpConnection) (faultError : Bool) :
    Switches c.channel_ (c.watchFile faultError).channel_ := by
  unfold watchFile
  split
  · exact switches_watchWritable c
  · exact .same

theorem switches_sendFileInLoop (c : TcpConnection) (r : SysRet) :
    Switches c.channel_ (c.sendFileInLoop r).channel_ := by
  have hcases := sendFileInLoop_cases c r
  generalize c.sendFileInLoop r = c' at hcases ⊢
  cases hcases with
  | disconnected => exact .same
  | busy => exact switches_watchFile c false
  | failed => exact switches_watchFile c _
  | sent hs hidle n hr hfd =>
    have hch : (c.sentFromFile (c.fileBytes n)).channel_ = c.channel_ := by
      unfold sentFromFile
      dsimp only
      split <;> rfl
    exact hch ▸ switches_watchFile _ false

theorem channel_shutdownInLoop (c : TcpConnection) : c.shutdownInLoop.channel_ = c.channel_ := by
  unfold shutdownInLoop
  split <;> rfl

theorem channel_finishShutdown (c : TcpConnection) : c.finishShutdown.channel_ = c.channel_ := by
  unfold finishShutdown
  split
  · exact channel_shutdownInLoop c
  · rfl

theorem switches_handleWrite (c : TcpConnection) (r : SysRet) :
    Switches c.channel_ (c.handleWrite r).channel_ := by
  unfold handleWrite
  split
  · next hw =>
    split
    · next hne =>
      cases r with
      | fail e => exact .same
      | ok n =>
        rcases Nat.eq_zero_or_pos n with rfl | hn
        · have hdef : c.writeBuffer (.ok 0) = c.emit (.put []) := by simp [writeBuffer, write]
          exact hdef ▸ .same
        · rw [writeBuffer_ok (fun h => hne (Buffer.readableBytes_eq_zero.mpr h)) hn]
          dsimp only
          split
          · rw [channel_finishShutdown, (notes_noteWriteComplete _).channel_]
            exact .disable hw
          · exact .same
    · have hcases := writeFile_cases c r
      generalize c.writeFile r = c' at hcases ⊢
      cases hcases with
      | failed | ended => exact .disable hw
      | part => exact .same
      | finished n =>
        rw [channel_finishShutdown]
        exact .disable hw
  · exact .same

/-- `c'` is `c` after something that has nothing to do with going down: a `shutdown` at most. -/
structure GoesOn (c c' : TcpConnection) : Prop where
  state_ : c'.state_ = c.state_ ∨ c.Up ∧ c'.state_ = .kDisconnecting
  trace : ∃ es, (∀ e ∈ es, e.isReport = false) ∧ c'.trace = c.trace ++ es
  channel_ : Switches c.channel_ c'.channel_

/-- The same for an effect of one's own. -/
theorem GoesOn.of_eq {c c' : TcpConnection}
    (hs : c'.state_ = c.state_ ∨ c.Up ∧ c'.state_ = .kDisconnecting) (htr : c'.trace = c.trace)
    (hch : c'.channel_ = c.channel_) : GoesOn c c' :=
  ⟨hs, ⟨[], by simp, by simp [htr]⟩, hch ▸ .same⟩

theorem GoesOn.refl (c : TcpConnection) : GoesOn c c := .of_eq (.inl rfl) rfl rfl

theorem GoesOn.up {c c' : TcpConnection} (h : GoesOn c c') : c'.Up ↔ c.Up := by
  rcases h.state_ with hs | ⟨hup, hs⟩
  · simp only [Up, hs]
  · exact ⟨fun _ => hup, fun _ => .inr hs⟩

theorem GoesOn.filterMap {c c' : TcpConnection} (h : GoesOn c c') {α : Type*}
    {f : Effect → Option α} (hf : ∀ e : Effect, e.isReport = false → f e = none) :
    c'.trace.filterMap f = c.trace.filterMap f := by
  obtain ⟨es, hes, htr⟩ := h.trace
  rw [htr, List.filterMap_append, List.filterMap_eq_nil_iff.mpr fun e he => hf e (hes e he),
    List.append_nil]

/-- Going on from a connection that differs from `c` only in what does not matter here. -/
theorem GoesOn.after {c c₀ c' : TcpConnection} (h : GoesOn c₀ c')
    (hs : c₀.state_ = c.state_ ∨ c.Up ∧ c₀.state_ = .kDisconnecting)
    (htr : c₀.trace = c.trace) (hch : c₀.channel_ = c.channel_) : GoesOn c c' := by
  refine ⟨?_, htr ▸ h.trace, hch ▸ h.channel_⟩
  rcases hs with hs | ⟨hup, hs⟩
  · simpa only [Up, hs] using h.state_
  · rcases h.state_ with hs' | ⟨-, hs'⟩
    · exact .inr ⟨hup, hs'.trans hs⟩
    · exact .inr ⟨hup, hs'⟩

theorem Outputs.goesOn {c c' : TcpConnection} (h : Outputs c c')
    (hch : Switches c.channel_ c'.channel_) : GoesOn c c' := by
  obtain ⟨es, hes, htr⟩ := h.trace
  refine ⟨.inl h.state_, ⟨es, fun e he => ?_, htr⟩, hch⟩
  have hout := hes e he
  cases e <;> first | rfl | cases hout

theorem goesOn_shutdownInLoop (c : TcpConnection) : GoesOn c c.shutdownInLoop :=
  (outputs_shutdownInLoop c).goesOn (channel_shutdownInLoop c ▸ .same)

theorem goesOn_sendInLoop (c : TcpConnection) (data : Bytes) (r : SysRet) :
    GoesOn c (c.sendInLoop data r) :=
  (outputs_sendInLoop c data r).goesOn (switches_sendInLoop c data r)

theorem goesOn_sendFileInLoop (c : TcpConnection) (r : SysRet) : GoesOn c (c.sendFileInLoop r) :=
  (outputs_sendFileInLoop c r).goesOn (switches_sendFileInLoop c r)

/-- A functor other than a `forceCloseInLoop` that finds the connection up. -/
theorem goesOn_runFunctor (c : TcpConnection) (r : SysRet) {f : Functor}
    (hno : f = .forceCloseInLoop → ¬ c.Up) : GoesOn c (c.runFunctor r f) := by
  cases f with
  | shutdownInLoop => exact goesOn_shutdownInLoop c
  | forceCloseInLoop =>
    rw [runFunctor, forceCloseInLoop, if_neg (hno rfl)]
    exact .refl c
  | sendFileInLoop => exact goesOn_sendFileInLoop c r
  | sendInLoop message => exact goesOn_sendInLoop c message r
  | writeCompleteCallback | highWaterMarkCallback => exact .refl c

theorem goesOn_step {c : TcpConnection} {e : Event} (he : e.isLife = true)
    (hno : c.closes e = false) : GoesOn c (c.step e) := by
  rcases step_cases c e with heq | h
  · rw [heq]
    exact .refl c
  generalize c.step e = c' at h ⊢
  cases h with
  | send hs message r => exact goesOn_sendInLoop c message r
  | sendFile hs fd count r =>
    exact (goesOn_sendFileInLoop (c.setFile fd count) r).after (.inl rfl) rfl rfl
  | shutdown hs => exact (goesOn_shutdownInLoop _).after (.inr ⟨.inl hs, rfl⟩) rfl rfl
  | forceClose hup => exact .of_eq (.inr ⟨hup, rfl⟩) rfl rfl
  | forceCloseInLoop hup => exact absurd hup (of_decide_eq_false hno)
  | sendFromThread | sendFileFromThread => exact .of_eq (.inl rfl) rfl rfl
  | shutdownFromThread hs => exact .of_eq (.inr ⟨.inl hs, rfl⟩) rfl rfl
  | received => exact ⟨.inl rfl, ⟨[.messageCallback], by simp [Effect.isReport], rfl⟩, .same⟩
  | handleWrite r => exact (outputs_handleWrite c r).goesOn (switches_handleWrite c r)
  | endOfFile | handleClose => cases hno
  | doPendingFunctor f fs hq r =>
    refine (goesOn_runFunctor _ r ?_).after (.inl rfl) rfl rfl
    rintro rfl hup
    have hup' : c.Up := hup
    simp [closes, hq, hup'] at hno
  | connectEstablished | connectDestroyed => cases he

/-- A step that closes is `handleClose`, up to the functor that called it. -/
theorem closes_step {c : TcpConnection} {e : Event} (h : c.closes e = true) :
    ∃ fs, c.step e = { c with pendingFunctors_ := fs }.handleClose := by
  cases e with
  | handleClose => exact ⟨c.pendingFunctors_, rfl⟩
  | handleRead r =>
    obtain rfl : r = .ok [] := by simpa [closes] using h
    exact ⟨c.pendingFunctors_, rfl⟩
  | forceCloseInLoop =>
    have hup : c.Up := of_decide_eq_true h
    exact ⟨c.pendingFunctors_, if_pos hup⟩
  | doPendingFunctor r =>
    obtain ⟨hhead, hup⟩ : c.pendingFunctors_.head? = some .forceCloseInLoop ∧ c.Up := by
      simpa [closes] using h
    cases hq : c.pendingFunctors_ with
    | nil => simp [hq] at hhead
    | cons f fs =>
      obtain rfl : f = .forceCloseInLoop := by simpa [hq] using hhead
      refine ⟨fs, ?_⟩
      simp only [step, hq, runFunctor]
      exact if_pos hup
  | _ => cases h

end TcpConnection

end Mymuduo
