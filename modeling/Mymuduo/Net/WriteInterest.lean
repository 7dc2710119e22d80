import Mymuduo.Net.BufferedOutput

/-!
# Write interest and pending output

A level-triggered poller reports a writable socket as long as it is asked to, so the channel has to
watch for writability exactly while output is pending: with less the output stalls, with more the
loop spins. `Watched` says so, and `WatchOk` names the two calls of `sendFile` that break it. One
finds the peer gone: `sendFileInLoop` then gives up and leaves `sendLen_` as it is, where
`handleWrite` sets it back. The other is given no bytes while a file is being sent: it overwrites
`sendLen_`, and the interest stays.

* `watched_sendFileInLoop`: what `sendFileInLoop` makes of the interest.
* `watched_step`: a step keeps the interest right exactly when it is `WatchOk`.
* `write_interest_exact`: the runs in which the interest is right all along.
* `write_interest_fails`: a run of each of the two kinds.
-/

namespace Mymuduo.TcpConnection

open CString Transition

/-- Something is still to be transmitted. -/
abbrev HasOutput (c : TcpConnection) : Prop :=
  c.outputBuffer_.readable ≠ [] ∨ 0 < c.sendLen_

/-- The write interest is registered exactly when output is pending. -/
def Watched (c : TcpConnection) : Prop :=
  c.state_ ≠ .kDisconnected → (c.isWriting = true ↔ c.HasOutput)

instance (c : TcpConnection) : Decidable (Watched c) :=
  inferInstanceAs (Decidable (_ → (_ ↔ _)))

/-- What can happen to an established connection whose files are sent in the loop thread. -/
def Event.isInLoop : Event → Bool
  | .connectEstablished => false
  | .sendFileFromThread _ _ => false
  | _ => true

/-- A file given to a connection that is up is not empty while another one is all that is pending,
and the peer of an idle connection is not found gone. -/
def WatchOk (c : TcpConnection) : Event → Prop
  | .sendFile _ count r =>
    c.state_ = .kConnected →
      (count = 0 → c.isWriting = true → c.outputBuffer_.readable ≠ []) ∧
      (0 < count → c.Idle → r.isFault = false)
  | _ => True

instance (c : TcpConnection) : (e : Event) → Decidable (WatchOk c e)
  | .sendFile _ _ _ => inferInstanceAs (Decidable (_ → (_ → _ → _) ∧ (_ → _ → _)))
  | .connectEstablished | .send _ _ | .shutdown | .forceClose | .forceCloseInLoop
  | .sendFromThread _ | .sendFileFromThread _ _ | .shutdownFromThread | .handleRead _
  | .handleWrite _ | .handleClose | .doPendingFunctor _ | .connectDestroyed => instDecidableTrue

/-! ## Steps that keep the interest right -/

/-- Output and interest are as they were. -/
theorem Watched.frame {c c' : TcpConnection} (h : Watched c)
    (hs : c'.state_ ≠ .kDisconnected → c.state_ ≠ .kDisconnected)
    (hw : c'.isWriting = c.isWriting) (hout : c'.outputBuffer_ = c.outputBuffer_)
    (hlen : c'.sendLen_ = c.sendLen_) : Watched c' := by
  intro hup
  rw [HasOutput, hw, hout, hlen]
  exact h (hs hup)

theorem Watched.of_disconnected {c : TcpConnection} (hs : c.state_ = .kDisconnected) :
    Watched c :=
  fun hup => absurd hs hup

theorem Watched.sendInLoop {c : TcpConnection} (h : Watched c) (data : Bytes) (r : SysRet) :
    Watched (c.sendInLoop data r) := by
  by_cases hs : c.state_ = .kDisconnected
  · rwa [sendInLoop_disconnected hs]
  · obtain ⟨sent, rest, -, hspec⟩ := sendInLoop_spec hs data r
    intro _
    have hout : (c.sendInLoop data r).outputBuffer_.readable ≠ [] ↔
        c.outputBuffer_.readable ≠ [] ∨ rest ≠ [] := by
      rw [hspec.out, ne_eq, List.append_eq_nil_iff, not_and_or]
    rw [hspec.writing, h hs, HasOutput, HasOutput, hout, hspec.control.sendLen_, or_right_comm]

theorem Watched.shutdownInLoop {c : TcpConnection} (h : Watched c) : Watched c.shutdownInLoop := by
  unfold TcpConnection.shutdownInLoop
  split
  · exact h.frame id rfl rfl rfl
  · exact h

theorem Watched.handleClose (c : TcpConnection) : Watched c.handleClose :=
  .of_disconnected rfl

theorem Watched.forceCloseInLoop {c : TcpConnection} (h : Watched c) :
    Watched c.forceCloseInLoop := by
  unfold TcpConnection.forceCloseInLoop
  split
  · exact .handleClose c
  · exact h

theorem watched_writeBuffer {c : TcpConnection} (hw : c.isWriting = true)
    (hout : c.outputBuffer_.readable ≠ []) (r : SysRet) : Watched (c.writeBuffer r) := by
  obtain ⟨sent, hspec⟩ := writeBuffer_spec hw hout r
  intro _
  rw [hspec.writing, HasOutput, hspec.control.sendLen_, Nat.pos_iff_ne_zero]

/-- Nothing is pending and nothing is watched for. -/
theorem watched_of_done {c : TcpConnection} (hw : c.isWriting = false)
    (hout : c.outputBuffer_.readable = []) (hlen : c.sendLen_ = 0) : Watched c :=
  fun _ => by simp [hw, hout, hlen]

theorem watched_writeFile {c : TcpConnection} (hw : c.isWriting = true)
    (hout : c.outputBuffer_.readable = []) (r : SysRet) : Watched (c.writeFile r) := by
  have hcases := writeFile_cases c r
  generalize c.writeFile r = c' at hcases ⊢
  cases hcases with
  | failed hr => exact watched_of_done (isWriting_disableWriting _) hout rfl
  | ended n hr hfd hnone => exact watched_of_done (isWriting_disableWriting _) hout rfl
  | part n hr hfd hmore hsome =>
    intro _
    exact iff_of_true hw (.inr (Nat.sub_pos_of_lt hmore))
  | finished n hr hfd hall hsome =>
    rw [finishShutdown_eq (by simp)]
    exact watched_of_done (isWriting_disableWriting _) hout rfl

theorem Watched.handleWrite {c : TcpConnection} (h : Watched c) (r : SysRet) :
    Watched (c.handleWrite r) := by
  unfold TcpConnection.handleWrite
  split
  · next hw =>
    split
    · next hne =>
      exact watched_writeBuffer hw (fun h0 => hne (Buffer.readableBytes_eq_zero.mpr h0)) r
    · next he => exact watched_writeFile hw (Buffer.readableBytes_eq_zero.mp (not_not.mp he)) r
  · exact h

/-! ## Files -/

theorem sendFileInLoop_fail {c : TcpConnection} (hs : c.state_ ≠ .kDisconnected) (hidle : c.Idle)
    (e : Errno) : c.sendFileInLoop (.fail e) = c.watchFile (isFault e) := by
  rw [sendFileInLoop, if_neg hs, if_pos (idle_iff.mpr hidle)]
  rfl

/-- Where no fault is found, `sendFileInLoop` watches for what is left of the file. -/
theorem watched_watchFile {c : TcpConnection} (hs : c.state_ ≠ .kDisconnected) :
    Watched (c.watchFile false) ↔ (c.isWriting = true ∨ 0 < c.sendLen_ ↔ c.HasOutput) := by
  have hspec := watchFile_spec c false
  have hup : (c.watchFile false).state_ ≠ .kDisconnected := by rwa [hspec.control.state_]
  rw [Watched, isWriting_watchFile, HasOutput, hspec.outputBuffer_, hspec.control.sendLen_]
  exact forall_prop_of_true hup

/-- An idle connection watches for a file it has begun to send. -/
theorem watched_watchFile_idle {c : TcpConnection} (hs : c.state_ ≠ .kDisconnected)
    (hidle : c.Idle) : Watched (c.watchFile false) := by
  rw [watched_watchFile hs, HasOutput, hidle.1, hidle.2]
  simp

theorem watched_sendFileInLoop_busy {c : TcpConnection} (hs : c.state_ ≠ .kDisconnected)
    (hbuf : c.outputBuffer_.readable ≠ [] → c.isWriting = true) (hbusy : ¬ c.Idle) (r : SysRet) :
    Watched (c.sendFileInLoop r) ↔ (c.sendLen_ = 0 → c.outputBuffer_.readable ≠ []) := by
  have hw : c.isWriting = true := by
    by_contra hnw
    have hout : c.outputBuffer_.readable = [] := not_not.mp fun h => hnw (hbuf h)
    exact hbusy ⟨by simpa using hnw, hout⟩
  have hdef : c.sendFileInLoop r = c.watchFile false := by
    rw [sendFileInLoop, if_neg hs, if_neg fun h => hbusy (idle_iff.mp h)]
  rw [hdef, watched_watchFile hs, HasOutput, hw, Nat.pos_iff_ne_zero]
  simp only [true_or, true_iff]
  rw [or_iff_not_imp_right, not_not]

theorem watched_sendFileInLoop_idle {c : TcpConnection} (hs : c.state_ ≠ .kDisconnected)
    (hidle : c.Idle) (r : SysRet) :
    Watched (c.sendFileInLoop r) ↔ (0 < c.sendLen_ → r.isFault = false) := by
  cases r with
  | fail e =>
    rw [sendFileInLoop_fail hs hidle]
    cases he : isFault e with
    | true =>
      have hsame : c.watchFile true = c := rfl
      rw [hsame, Watched, HasOutput, hidle.1, hidle.2]
      simp [hs, SysRet.isFault, he]
    | false =>
      have hfault : (SysRet.fail e).isFault = false := he
      exact iff_of_true (watched_watchFile_idle hs hidle) fun _ => hfault
  | ok n =>
    refine iff_of_true ?_ fun _ => rfl
    have hcases := sendFileInLoop_cases c (.ok n)
    generalize c.sendFileInLoop (.ok n) = c' at hcases ⊢
    cases hcases with
    | disconnected hd => exact absurd hd hs
    | busy _ hbusy => exact absurd hidle hbusy
    | failed _ _ e hr =>
      obtain hr | ⟨-, rfl⟩ := hr
      · cases hr
      · exact watched_watchFile_idle hs hidle
    | sent _ _ m hr hfd =>
      have hsame : ∀ c' : TcpConnection, c'.state_ = c.state_ → c'.isWriting = c.isWriting →
          c'.outputBuffer_ = c.outputBuffer_ → Watched (c'.watchFile false) := by
        intro c' hs' hw' hout'
        exact watched_watchFile_idle (by rwa [hs']) ⟨by rw [hw', hidle.1], by rw [hout', hidle.2]⟩
      unfold sentFromFile
      dsimp only
      split
      · exact hsame _ rfl rfl rfl
      · exact hsame _ rfl rfl rfl

/-- A file of which nothing is left over keeps the interest right only while the buffer needs it,
and one that is left over only if no fault was found. -/
theorem watched_sendFileInLoop {c : TcpConnection} (hs : c.state_ ≠ .kDisconnected)
    (hbuf : c.outputBuffer_.readable ≠ [] → c.isWriting = true) (r : SysRet) :
    Watched (c.sendFileInLoop r) ↔
      (c.sendLen_ = 0 → c.isWriting = true → c.outputBuffer_.readable ≠ []) ∧
      (0 < c.sendLen_ → c.Idle → r.isFault = false) := by
  by_cases hidle : c.Idle
  · rw [watched_sendFileInLoop_idle hs hidle]
    simp [hidle.1, hidle.2]
  · rw [watched_sendFileInLoop_busy hs hbuf hidle]
    constructor
    · exact fun h => ⟨fun hlen _ => h hlen, fun _ h' => absurd h' hidle⟩
    · rintro ⟨h, -⟩ hlen hnil
      refine hidle ⟨?_, hnil⟩
      by_contra hw
      exact h hlen (by simpa using hw) hnil

/-! ## All steps -/

theorem watched_sendFile {c : TcpConnection} (h : Watched c) (fd : Int) (count : Nat) (r : SysRet) :
    Watched (c.sendFile fd count r) ↔ WatchOk c (.sendFile fd count r) := by
  unfold sendFile WatchOk
  split
  · next hs =>
    have hup : c.state_ ≠ .kDisconnected := by simp [hs]
    have hbuf : (c.setFile fd count).outputBuffer_.readable ≠ [] →
        (c.setFile fd count).isWriting = true := fun hout => (h hup).mpr (.inl hout)
    rw [watched_sendFileInLoop (c := c.setFile fd count) hup hbuf]
    exact ⟨fun hfile _ => hfile, fun hfile => hfile hs⟩
  · next hs => exact iff_of_true h fun hs' => absurd hs' hs

/-- The queue holds a file of another thread at most. -/
theorem Watched.runFunctor {c : TcpConnection} (h : Watched c) (r : SysRet) (f : Functor) :
    Watched (c.runFunctor r f) := by
  cases f with
  | shutdownInLoop => exact h.shutdownInLoop
  | forceCloseInLoop => exact h.forceCloseInLoop
  | sendInLoop message => exact h.sendInLoop message r
  | writeCompleteCallback => exact h
  | highWaterMarkCallback len => exact h
  | sendFileInLoop =>
    rw [TcpConnection.runFunctor]
    by_cases hs : c.state_ = .kDisconnected
    · rwa [sendFileInLoop, if_pos hs]
    · refine (watched_sendFileInLoop hs (fun hout => (h hs).mpr (.inl hout)) r).mpr ⟨?_, ?_⟩
      · exact fun hlen hw => ((h hs).mp hw).resolve_right (by omega)
      · rintro hlen ⟨hw, -⟩
        rw [(h hs).mpr (.inr hlen)] at hw
        cases hw

/-- Every step in the loop but a `sendFile` keeps what is watched in order. -/
theorem Watched.step {c : TcpConnection} {e : Event} (h : Watched c) (he : e.isInLoop = true)
    (hfile : ∀ fd count r, e ≠ .sendFile fd count r) : Watched (c.step e) := by
  rcases step_cases c e with heq | hcase
  · rwa [heq]
  generalize c.step e = c' at hcase ⊢
  cases hcase with
  | sendFile hs fd count r => exact absurd rfl (hfile fd count r)
  | send hs message r => exact h.sendInLoop message r
  | shutdown hs =>
    have hclosing : Watched (c.setState .kDisconnecting) :=
      h.frame (fun _ => by simp [hs]) rfl rfl rfl
    exact hclosing.shutdownInLoop
  | forceClose hup =>
    refine h.frame (fun _ hd => ?_) rfl rfl rfl
    rcases hup with hs | hs <;> simp [hs] at hd
  | shutdownFromThread hs => exact h.frame (fun _ => by simp [hs]) rfl rfl rfl
  | sendFromThread | received => exact h.frame id rfl rfl rfl
  | forceCloseInLoop | endOfFile | handleClose => exact .handleClose c
  | handleWrite r => exact h.handleWrite r
  | doPendingFunctor f fs hq r =>
    have hrest : Watched { c with pendingFunctors_ := fs } := h.frame id rfl rfl rfl
    exact hrest.runFunctor r f
  | connectDestroyed => exact .of_disconnected rfl
  | connectEstablished | sendFileFromThread => cases he

theorem watched_step {c : TcpConnection} {e : Event} (h : Watched c) (he : e.isInLoop = true) :
    Watched (c.step e) ↔ WatchOk c e := by
  cases e with
  | sendFile fd count r => exact watched_sendFile h fd count r
  | _ => exact iff_of_true (h.step he nofun) trivial

/-! ## Whole runs -/

theorem watched_established (highWaterMark : Nat) (hcb wcb : Bool) (files : Int → Bytes) :
    Watched (established highWaterMark hcb wcb files) :=
  watched_of_done (isWriting_established highWaterMark hcb wcb files) rfl rfl

/-- After every step of a run the write interest is registered exactly when output is pending, if
and only if no `sendFile` of the run finds the peer gone or cuts off a pending file with an empty
one. -/
theorem write_interest_exact (highWaterMark : Nat) (hcb wcb : Bool) (files : Int → Bytes)
    (es : List Event) (hes : ∀ e ∈ es, e.isInLoop = true) :
    (∀ pre, pre <+: es → Watched (run step (established highWaterMark hcb wcb files) pre)) ↔
      Meets WatchOk step (established highWaterMark hcb wcb files) es := by
  have hstep : ∀ (c : TcpConnection) (e : Event), Watched c → e.isInLoop = true →
      (Watched (c.step e) ↔ WatchOk c e) := fun _ _ h he => watched_step h he
  exact run_invariant_iff hstep (watched_established highWaterMark hcb wcb files) hes

/-- A message and a page one after the other, both taken in part only, and an empty page while the
message is still buffered. -/
theorem write_interest_exact_page :
    let es : List Event := [.send (ascii "head") (.ok 1), .sendFile 5 4 (.ok 0),
      .handleWrite (.ok 1), .sendFile 6 0 (.ok 0), .handleWrite (.ok 2), .shutdown]
    ∀ pre, pre <+: es →
      Watched (run step (established 64 true true fun _ => ascii "page") pre) := by
  intro es
  exact (write_interest_exact 64 true true (fun _ => ascii "page") es (by decide)).mpr
    (by decide +kernel)

/-- The peer is found gone by `sendfile(2)`, and the rest of the file is never watched for. An empty
file is given while another is pending, and the loop goes on watching for nothing. -/
theorem write_interest_fails :
    ¬ (∀ es : List Event, (∀ e ∈ es, e.isInLoop = true) →
        Watched (run step (established 64 true true fun _ => ascii "page") es)) ∧
      ¬ Watched (run step (established 64 true true fun _ => ascii "page")
        [.sendFile 5 4 (.fail .EPIPE)]) ∧
      ¬ Watched (run step (established 64 true true fun _ => ascii "page")
        [.sendFile 5 4 (.ok 1), .sendFile 6 0 (.ok 0)]) := by
  have hgone : ¬ Watched (run step (established 64 true true fun _ => ascii "page")
      [.sendFile 5 4 (.fail .EPIPE)]) := by decide +kernel
  refine ⟨fun hall => hgone (hall _ (by decide)), hgone, ?_⟩
  decide +kernel

end Mymuduo.TcpConnection
