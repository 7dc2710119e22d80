import Mymuduo.Net.WriteInterest

/-!
# When the output is said to be complete

A producer that stopped at the high-water mark goes on when `writeCompleteCallback_` tells it that
everything is out. Of the ways to transmit the last pending byte one queues that callback:
`handleWrite` with the rest of the buffer. Where a file was part of the output, its last bytes go
out in `handleWrite` or in `sendFileInLoop`, and neither queues anything.

* `notifiesOnce_iff`: what a step that completes the output queues.
* `write_complete_exact`: the same for each step of a run.
* `write_complete_fails`: a producer that is told to stop and never told to go on.
-/

namespace Mymuduo.TcpConnection

open CString Transition

/-- The connection as a step begins to transmit: a call of `sendFile` stores its file first. -/
def loaded (c : TcpConnection) : Event → TcpConnection
  | .sendFile fd count _ => if c.state_ = .kConnected then c.setFile fd count else c
  | _ => c

/-- The number of bytes still to be transmitted. -/
def pendingBytes (c : TcpConnection) : Nat := c.outputBuffer_.readable.length + c.sendLen_

/-- The step ends the pending output by transmitting all of it. -/
structure Completes (c : TcpConnection) (e : Event) : Prop where
  pending : (c.loaded e).HasOutput
  done : ¬ (c.step e).HasOutput
  transmitted : (wire (c.step e).trace).length = (wire c.trace).length + (c.loaded e).pendingBytes

/-- The functors that were queued before the step and are still to be run after it. -/
def stillQueued (c : TcpConnection) : Event → List Functor
  | .doPendingFunctor _ => c.pendingFunctors_.tail
  | _ => c.pendingFunctors_

/-- The step queues `writeCompleteCallback_` exactly once. -/
def NotifiesOnce (c : TcpConnection) (e : Event) : Prop :=
  (c.step e).pendingFunctors_.count .writeCompleteCallback =
    (c.stillQueued e).count .writeCompleteCallback + 1

instance (c : TcpConnection) (e : Event) : Decidable (NotifiesOnce c e) :=
  inferInstanceAs (Decidable (_ = _))

/-! ## The callback stays set -/

/-- What is output leaves the callback as it is, and so does everything else. -/
theorem writeCompleteCallback_step (c : TcpConnection) (e : Event) :
    (c.step e).writeCompleteCallback_ = c.writeCompleteCallback_ := by
  rcases step_cases c e with heq | h
  · rw [heq]
  generalize c.step e = c' at h ⊢
  cases h with
  | send hs message r => exact (outputs_sendInLoop c message r).writeCompleteCallback_
  | sendFile hs fd count r => exact (outputs_sendFileInLoop _ r).writeCompleteCallback_
  | shutdown => exact (outputs_shutdownInLoop _).writeCompleteCallback_
  | handleWrite r => exact (outputs_handleWrite c r).writeCompleteCallback_
  | doPendingFunctor f fs hq r =>
    cases f with
    | shutdownInLoop => exact (outputs_shutdownInLoop _).writeCompleteCallback_
    | forceCloseInLoop =>
      rw [runFunctor, forceCloseInLoop]
      split <;> rfl
    | sendFileInLoop => exact (outputs_sendFileInLoop _ r).writeCompleteCallback_
    | sendInLoop message => exact (outputs_sendInLoop _ message r).writeCompleteCallback_
    | writeCompleteCallback | highWaterMarkCallback => rfl
  | _ => rfl

/-! ## Steps that leave output pending -/

/-- Output that is pending in `c` is not finished in `c'`. -/
def LeavesPending (c c' : TcpConnection) : Prop := c.HasOutput → c'.HasOutput

theorem leavesPending_of_eq {c c' : TcpConnection} (hout : c'.outputBuffer_ = c.outputBuffer_)
    (hlen : c'.sendLen_ = c.sendLen_) : LeavesPending c c' := by
  intro h
  rwa [HasOutput, hout, hlen]

theorem leavesPending_sendInLoop (c : TcpConnection) (data : Bytes) (r : SysRet) :
    LeavesPending c (c.sendInLoop data r) := by
  by_cases hs : c.state_ = .kDisconnected
  · rw [sendInLoop_disconnected hs]
    exact leavesPending_of_eq rfl rfl
  · obtain ⟨sent, rest, -, h⟩ := sendInLoop_spec hs data r
    rintro (hout | hlen)
    · refine .inl fun hnil => hout ?_
      rw [h.out, List.append_eq_nil_iff] at hnil
      exact hnil.1
    · exact .inr (by rwa [h.control.sendLen_])

theorem leavesPending_shutdownInLoop (c : TcpConnection) : LeavesPending c c.shutdownInLoop := by
  unfold shutdownInLoop
  split <;> exact leavesPending_of_eq rfl rfl

theorem leavesPending_forceCloseInLoop (c : TcpConnection) :
    LeavesPending c c.forceCloseInLoop := by
  unfold forceCloseInLoop
  split <;> exact leavesPending_of_eq rfl rfl

/-! ## Steps that complete it -/

theorem pendingFunctors_finishShutdown (c : TcpConnection) :
    c.finishShutdown.pendingFunctors_ = c.pendingFunctors_ := by
  unfold finishShutdown shutdownInLoop
  split
  · split <;> rfl
  · rfl

/-- The buffer reports its last byte, if no file is left to be sent. -/
theorem writeBuffer_completes {c : TcpConnection} (hcb : c.writeCompleteCallback_ = true)
    (hout : c.outputBuffer_.readable ≠ []) {r : SysRet} (hdone : ¬ (c.writeBuffer r).HasOutput) :
    c.sendLen_ = 0 ∧
      (c.writeBuffer r).pendingFunctors_ = c.pendingFunctors_ ++ [.writeCompleteCallback] := by
  cases r with
  | fail e => exact absurd (.inl hout) hdone
  | ok n =>
    rcases Nat.eq_zero_or_pos n with rfl | hn
    · have hdef : c.writeBuffer (.ok 0) = c.emit (.put []) := by simp [writeBuffer, write]
      rw [hdef] at hdone
      exact absurd (.inl hout) hdone
    · rw [writeBuffer_ok hout hn] at hdone ⊢
      dsimp only at hdone ⊢
      split at hdone
      · next hlast =>
        rw [if_pos hlast, pendingFunctors_finishShutdown]
        refine ⟨hlast.2, ?_⟩
        unfold noteWriteComplete
        exact congrArg pendingFunctors_ (if_pos hcb)
      · next hmore =>
        refine absurd ?_ hdone
        rwa [HasOutput, ne_eq, Nat.pos_iff_ne_zero, ← not_and_or]

/-- A file reports nothing. -/
theorem pendingFunctors_writeFile (c : TcpConnection) (r : SysRet) :
    (c.writeFile r).pendingFunctors_ = c.pendingFunctors_ := by
  have hcases := writeFile_cases c r
  generalize c.writeFile r = c' at hcases ⊢
  cases hcases with
  | failed => rfl
  | ended => rfl
  | part => rfl
  | finished => exact pendingFunctors_finishShutdown _

/-- What `handleWrite` queues where it ends the pending output. -/
theorem handleWrite_completes {c : TcpConnection} (hcb : c.writeCompleteCallback_ = true)
    {r : SysRet} (hp : c.HasOutput) (hdone : ¬ (c.handleWrite r).HasOutput) :
    (c.handleWrite r).pendingFunctors_ =
      c.pendingFunctors_ ++ if c.sendLen_ = 0 then [.writeCompleteCallback] else [] := by
  by_cases hw : c.isWriting = true
  · by_cases hout : c.outputBuffer_.readable = []
    · have hlen : c.sendLen_ ≠ 0 := Nat.pos_iff_ne_zero.mp (hp.resolve_left (not_not.mpr hout))
      have hdef : c.handleWrite r = c.writeFile r := by
        rw [handleWrite, if_pos hw, if_neg (not_not.mpr (Buffer.readableBytes_eq_zero.mpr hout))]
      rw [hdef, pendingFunctors_writeFile, if_neg hlen, List.append_nil]
    · have hdef : c.handleWrite r = c.writeBuffer r := by
        rw [handleWrite, if_pos hw, if_pos fun h0 => hout (Buffer.readableBytes_eq_zero.mp h0)]
      rw [hdef] at hdone ⊢
      obtain ⟨hlen, hq⟩ := writeBuffer_completes hcb hout hdone
      rw [hq, if_pos hlen]
  · have hdef : c.handleWrite r = c := by rw [handleWrite, if_neg hw]
    rw [hdef] at hdone
    exact absurd hp hdone

/-- A file that `sendFileInLoop` sends as a whole is not reported. -/
theorem sendFileInLoop_completes {c : TcpConnection} {r : SysRet} (hp : c.HasOutput)
    (hdone : ¬ (c.sendFileInLoop r).HasOutput) :
    c.sendLen_ ≠ 0 ∧ (c.sendFileInLoop r).pendingFunctors_ = c.pendingFunctors_ := by
  have hcases := sendFileInLoop_cases c r
  generalize c.sendFileInLoop r = c' at hcases hdone
  have hwatch : ∀ b, c' = c.watchFile b → c'.HasOutput := by
    rintro b rfl
    have hspec := watchFile_spec c b
    rwa [HasOutput, hspec.outputBuffer_, hspec.control.sendLen_]
  cases hcases with
  | disconnected => exact absurd hp hdone
  | busy => exact absurd (hwatch _ rfl) hdone
  | failed => exact absurd (hwatch _ rfl) hdone
  | sent hs hidle n hr hfd =>
    refine ⟨fun hlen => hp.elim (fun hout => hout hidle.2) (by omega), ?_⟩
    rw [(watchFile_spec _ false).pendingFunctors_]
    unfold sentFromFile
    dsimp only
    split <;> rfl

/-- The loop runs a functor that completes the output: it is a file of another thread. -/
theorem runFunctor_completes {c : TcpConnection} {r : SysRet} {f : Functor} (hp : c.HasOutput)
    (hdone : ¬ (c.runFunctor r f).HasOutput) :
    c.sendLen_ ≠ 0 ∧ (c.runFunctor r f).pendingFunctors_ = c.pendingFunctors_ := by
  cases f with
  | sendFileInLoop => exact sendFileInLoop_completes hp hdone
  | shutdownInLoop => exact absurd (leavesPending_shutdownInLoop c hp) hdone
  | forceCloseInLoop => exact absurd (leavesPending_forceCloseInLoop c hp) hdone
  | sendInLoop message => exact absurd (leavesPending_sendInLoop c message r hp) hdone
  | writeCompleteCallback => exact absurd hp hdone
  | highWaterMarkCallback len => exact absurd hp hdone

/-- What is pending is left pending, except by what transmits. -/
theorem leavesPending_step (c : TcpConnection) {e : Event} (h₁ : ∀ r, e ≠ .handleWrite r)
    (h₂ : ∀ fd count r, e ≠ .sendFile fd count r) (h₃ : ∀ r, e ≠ .doPendingFunctor r)
    (h₄ : ∀ fd count, e ≠ .sendFileFromThread fd count) : LeavesPending c (c.step e) := by
  rcases step_cases c e with heq | h
  · rw [heq]
    exact leavesPending_of_eq rfl rfl
  generalize c.step e = c' at h ⊢
  cases h with
  | send hs message r => exact leavesPending_sendInLoop c message r
  | shutdown => exact leavesPending_shutdownInLoop (c.setState .kDisconnecting)
  | handleWrite r => exact absurd rfl (h₁ r)
  | sendFile hs fd count r => exact absurd rfl (h₂ fd count r)
  | doPendingFunctor f fs hq r => exact absurd rfl (h₃ r)
  | sendFileFromThread hs fd count => exact absurd rfl (h₄ fd count)
  | _ => exact leavesPending_of_eq rfl rfl

/-- What a step that completes the output adds to the queue. -/
theorem completes_queue {c : TcpConnection} {e : Event} (hcb : c.writeCompleteCallback_ = true)
    (h : Completes c e) :
    (c.step e).pendingFunctors_ =
      c.stillQueued e ++ if (c.loaded e).sendLen_ = 0 then [.writeCompleteCallback] else [] := by
  obtain ⟨hp, hdone, htransmitted⟩ := h
  have hleft : LeavesPending c (c.step e) → c.loaded e = c → False := fun hl heq =>
    hdone (hl (heq ▸ hp))
  cases e with
  | handleWrite r => exact handleWrite_completes hcb hp hdone
  | sendFile fd count r =>
    simp only [step, sendFile, loaded, stillQueued] at hp hdone ⊢
    split at hdone
    · next hs =>
      rw [if_pos hs] at hp
      simp only [if_pos hs]
      obtain ⟨hlen, hq⟩ := sendFileInLoop_completes hp hdone
      rw [hq, if_neg hlen, List.append_nil]
      rfl
    · next hs => exact absurd (by rwa [if_neg hs] at hp) hdone
  | doPendingFunctor r =>
    simp only [step, stillQueued] at hdone ⊢
    cases hq : c.pendingFunctors_ with
    | nil =>
      simp only [hq] at hdone
      exact absurd hp hdone
    | cons f fs =>
      simp only [hq] at hdone
      obtain ⟨hlen, hfs⟩ := runFunctor_completes (c := { c with pendingFunctors_ := fs }) hp hdone
      have hfile : (c.loaded (.doPendingFunctor r)).sendLen_ ≠ 0 := hlen
      rw [if_neg hfile, List.append_nil]
      exact hfs
  | sendFileFromThread fd count =>
    -- another thread stores the file and transmits nothing
    have hwire : (c.step (.sendFileFromThread fd count)).trace = c.trace := by
      simp only [step, sendFileFromThread]
      split <;> rfl
    rw [hwire] at htransmitted
    have hnone : c.pendingBytes = 0 := Nat.left_eq_add.mp htransmitted
    rw [pendingBytes, Nat.add_eq_zero_iff, List.length_eq_zero_iff] at hnone
    exact absurd hp (by simp [loaded, HasOutput, hnone.1, hnone.2])
  | _ =>
    refine (hleft (leavesPending_step c ?_ ?_ ?_ ?_) rfl).elim <;> simp

/-- A step that completes the output queues the callback once if no file was part of the output, and
not at all otherwise. -/
theorem notifiesOnce_iff {c : TcpConnection} {e : Event} (hcb : c.writeCompleteCallback_ = true)
    (h : Completes c e) : NotifiesOnce c e ↔ (c.loaded e).sendLen_ = 0 := by
  rw [NotifiesOnce, completes_queue hcb h, List.count_append, Nat.add_left_cancel_iff]
  split
  · next hlen => exact iff_of_true rfl hlen
  · next hlen => exact iff_of_false Nat.zero_ne_one hlen

/-! ## Whole runs -/

/-- Whatever happens to a connection with a `writeCompleteCallback_`: a step that completes the
output queues the callback exactly once if and only if nothing of a file is left when it starts. -/
theorem write_complete_exact (highWaterMark : Nat) (hcb : Bool) (files : Int → Bytes)
    (es : List Event) (e : Event) :
    let c := run step (established highWaterMark hcb true files) es
    Completes c e → (NotifiesOnce c e ↔ (c.loaded e).sendLen_ = 0) := by
  intro c h
  have hset : c.writeCompleteCallback_ = true :=
    run_preserves (I := fun c => c.writeCompleteCallback_ = true)
      (fun c e hc => (writeCompleteCallback_step c e).trans hc) es rfl
  exact notifiesOnce_iff hset h

/-- A message that is taken in part only; the write that takes the rest queues the callback. -/
theorem write_complete_exact_hello :
    let c := run step (established 4 true true fun _ => []) [.send (ascii "hello") (.ok 1)]
    NotifiesOnce c (.handleWrite (.ok 4)) := by
  intro c
  have hcompletes : Completes c (.handleWrite (.ok 4)) :=
    ⟨by decide +kernel, by decide +kernel, by decide +kernel⟩
  exact (write_complete_exact 4 true (fun _ => []) [.send (ascii "hello") (.ok 1)]
    (.handleWrite (.ok 4)) hcompletes).mpr (by decide +kernel)

/-- The producer is told to stop when its message crosses the mark, and gives a file after it. Both
go out, and it is never told to go on: the queue holds the high-water callback only. -/
theorem write_complete_fails :
    let es : List Event := [.send (ascii "hello") (.ok 0), .sendFile 5 4 (.ok 0),
      .handleWrite (.ok 5)]
    let c := run step (established 4 true true fun _ => ascii "page") es
    Completes c (.handleWrite (.ok 4)) ∧ ¬ NotifiesOnce c (.handleWrite (.ok 4)) ∧
      (c.step (.handleWrite (.ok 4))).pendingFunctors_ = [.highWaterMarkCallback 5] := by
  intro es c
  refine ⟨⟨?_, ?_, ?_⟩, ?_, ?_⟩ <;> decide +kernel

end Mymuduo.TcpConnection
