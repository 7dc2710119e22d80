import Mymuduo.Net.Sending
import Mymuduo.Lib.Transition

/-!
# Who closes the descriptors given to `sendFile`

A descriptor given to `sendFile` is the connection's to close. `Ledger` keeps the account over a
run: every descriptor was closed as often as it was given, except the one of the file still
pending. The code keeps the account only if no call breaks it (`ReleaseOk`): a call that is refused,
that overwrites a pending file or that sends nothing while the connection is busy loses the
descriptor, and so does a connection that goes away with a file pending.

* `Ledger.step`: the account over one step.
* `sendFile_closed_once`: the account of a whole run up to `connectDestroyed`.
* `sendFile_leaks`: a run that loses a descriptor.
-/

namespace Mymuduo

open CString Transition

def SysRet.isOk : SysRet → Bool
  | .ok _ => true
  | .fail _ => false

namespace TcpConnection

/-- The descriptors given to `sendFile`. -/
def given (_ : TcpConnection) : Event → List Int
  | .sendFile fd _ _ => [fd]
  | .sendFileFromThread fd _ => [fd]
  | _ => []

/-- No file is being sent and none is queued. -/
abbrev FileIdle (c : TcpConnection) : Prop :=
  c.sendLen_ = 0 ∧ Functor.sendFileInLoop ∉ c.pendingFunctors_

/-- A file is still to be sent, or an empty one still to be looked at by the loop. -/
abbrev PendingFile (c : TcpConnection) : Prop :=
  0 < c.sendLen_ ∨ 0 ≤ c.sendFd_ ∧ Functor.sendFileInLoop ∈ c.pendingFunctors_

/-- The steps that keep the account. A file is given to a connection that is up and has no other,
an empty one only where `sendfile(2)` is tried at once and succeeds, and the connection is not
destroyed before its file is done with. -/
def ReleaseOk (c : TcpConnection) : Event → Prop
  | .sendFile fd count r =>
    c.state_ = .kConnected ∧ c.FileIdle ∧ (count = 0 → 0 ≤ fd → c.Idle ∧ r.isOk = true)
  | .sendFileFromThread _ _ => c.state_ = .kConnected ∧ c.FileIdle
  | .doPendingFunctor r =>
    c.pendingFunctors_.head? = some .sendFileInLoop → c.sendLen_ = 0 → 0 ≤ c.sendFd_ →
      c.state_ ≠ .kDisconnected ∧ c.Idle ∧ r.isOk = true
  | .connectDestroyed => ¬ c.PendingFile
  | _ => True

instance (c : TcpConnection) : (e : Event) → Decidable (ReleaseOk c e)
  | .sendFile _ _ _ => inferInstanceAs (Decidable (_ ∧ _ ∧ (_ → _ → _)))
  | .sendFileFromThread _ _ => inferInstanceAs (Decidable (_ ∧ _))
  | .doPendingFunctor _ => inferInstanceAs (Decidable (_ → _ → _ → _))
  | .connectDestroyed => inferInstanceAs (Decidable (¬ _))
  | .connectEstablished | .send _ _ | .shutdown | .forceClose | .forceCloseInLoop
  | .sendFromThread _ | .shutdownFromThread | .handleRead _ | .handleWrite _ | .handleClose =>
    instDecidableTrue

/-- How often `fd` is still to be closed. -/
def owed (c : TcpConnection) (fd : Int) : Nat :=
  if c.PendingFile ∧ c.sendFd_ = fd then 1 else 0

/-- The account of the descriptors `fds` given so far. -/
structure Ledger (c : TcpConnection) (fds : List Int) : Prop where
  balance : ∀ fd, 0 ≤ fd → fds.count fd = c.trace.count (.close fd) + c.owed fd
  watched : c.isWriting = true → c.outputBuffer_.readable ≠ [] ∨ 0 < c.sendLen_
  queued : c.pendingFunctors_.count .sendFileInLoop ≤ 1

/-! ## Steps that leave the file alone -/

/-- What every step but those of a file leaves alone. -/
structure FileFrame (c c' : TcpConnection) : Prop where
  sendFd_ : c'.sendFd_ = c.sendFd_
  sendLen_ : c'.sendLen_ = c.sendLen_
  queued : c'.pendingFunctors_.count .sendFileInLoop = c.pendingFunctors_.count .sendFileInLoop
  closes : ∀ fd, c'.trace.count (.close fd) = c.trace.count (.close fd)
  watched : (c.isWriting = true → c.outputBuffer_.readable ≠ [] ∨ 0 < c.sendLen_) →
    c'.isWriting = true → c'.outputBuffer_.readable ≠ [] ∨ 0 < c'.sendLen_

theorem FileFrame.refl (c : TcpConnection) : FileFrame c c :=
  ⟨rfl, rfl, rfl, fun _ => rfl, id⟩

theorem FileFrame.trans {c₁ c₂ c₃ : TcpConnection} (h : FileFrame c₁ c₂) (h' : FileFrame c₂ c₃) :
    FileFrame c₁ c₃ :=
  ⟨h'.sendFd_.trans h.sendFd_, h'.sendLen_.trans h.sendLen_, h'.queued.trans h.queued,
    fun fd => (h'.closes fd).trans (h.closes fd), fun hw => h'.watched (h.watched hw)⟩

theorem fileFrame_setState (c : TcpConnection) (s : StateE) : FileFrame c (c.setState s) :=
  ⟨rfl, rfl, rfl, fun _ => rfl, id⟩

theorem pendingFile_congr {c c' : TcpConnection} (hfd : c'.sendFd_ = c.sendFd_)
    (hlen : c'.sendLen_ = c.sendLen_) (hq : c'.pendingFunctors_.count .sendFileInLoop =
      c.pendingFunctors_.count .sendFileInLoop) : c'.PendingFile ↔ c.PendingFile := by
  unfold PendingFile
  rw [hfd, hlen, ← List.count_pos_iff, ← List.count_pos_iff, hq]

theorem owed_congr {c c' : TcpConnection} (hp : c'.PendingFile ↔ c.PendingFile)
    (hfd : c'.sendFd_ = c.sendFd_) (fd : Int) : c'.owed fd = c.owed fd := by
  simp only [owed, hp, hfd]

theorem owed_eq_zero {c : TcpConnection} (h : ¬ c.PendingFile) (fd : Int) : c.owed fd = 0 :=
  if_neg fun hp => h hp.1

theorem owed_eq {c : TcpConnection} (h : c.PendingFile) (fd : Int) :
    c.owed fd = [c.sendFd_].count fd := by
  simp [owed, h, List.count_singleton]

theorem Ledger.frame {c c' : TcpConnection} {fds : List Int} (h : Ledger c fds)
    (hf : FileFrame c c') : Ledger c' fds := by
  refine ⟨?_, hf.watched h.watched, hf.queued ▸ h.queued⟩
  intro fd hfd
  rw [h.balance fd hfd, hf.closes,
    owed_congr (pendingFile_congr hf.sendFd_ hf.sendLen_ hf.queued) hf.sendFd_]

theorem QueuesCallbacks.count_eq {c c' : TcpConnection} (h : QueuesCallbacks c c') :
    c'.pendingFunctors_.count .sendFileInLoop = c.pendingFunctors_.count .sendFileInLoop := by
  obtain ⟨fs, hfs, hq⟩ := h
  have hno : Functor.sendFileInLoop ∉ fs := fun hm => by cases hfs _ hm
  rw [hq, List.count_append, List.count_eq_zero_of_not_mem hno, Nat.add_zero]

/-- A trace that grows by effects other than `close`. -/
theorem count_close_append {es es' : List Effect} {fd : Int}
    (h : Effect.close fd ∉ es') : (es ++ es').count (.close fd) = es.count (.close fd) := by
  rw [List.count_append, List.count_eq_zero_of_not_mem h, Nat.add_zero]

theorem fileFrame_sendInLoop (c : TcpConnection) (data : Bytes) (r : SysRet) :
    FileFrame c (c.sendInLoop data r) := by
  by_cases hs : c.state_ = .kDisconnected
  · rw [sendInLoop_disconnected hs]
    exact .refl c
  · obtain ⟨sent, rest, -, h⟩ := sendInLoop_spec hs data r
    obtain ⟨es, hes, htr⟩ := h.trace
    refine ⟨h.control.sendFd_, h.control.sendLen_, h.queue.count_eq,
      fun fd => by rw [htr, count_close_append (hes.notMem (by simp))], ?_⟩
    intro hw hw'
    rw [h.out, h.control.sendLen_]
    rcases h.writing.mp hw' with hw' | hrest
    · rcases hw hw' with hout | hlen
      · exact .inl fun h0 => hout (List.append_eq_nil_iff.mp h0).1
      · exact .inr hlen
    · exact .inl fun h0 => hrest (List.append_eq_nil_iff.mp h0).2

theorem fileFrame_writeBuffer {c : TcpConnection} (hw : c.isWriting = true)
    (hout : c.outputBuffer_.readable ≠ []) (r : SysRet) : FileFrame c (c.writeBuffer r) := by
  obtain ⟨sent, h⟩ := writeBuffer_spec hw hout r
  obtain ⟨es, hes, htr⟩ := h.trace
  refine ⟨h.control.sendFd_, h.control.sendLen_, h.queue.count_eq, ?_, ?_⟩
  · intro fd
    rw [htr, count_close_append, count_close_append (hes.notMem (by simp))]
    split
    · simp
    · exact close_notMem_dueShutdown c fd
  · intro _ hw'
    rw [h.control.sendLen_]
    exact (h.writing.mp hw').imp_right Nat.pos_of_ne_zero

theorem fileFrame_shutdownInLoop (c : TcpConnection) : FileFrame c c.shutdownInLoop := by
  unfold shutdownInLoop
  split
  · exact ⟨rfl, rfl, rfl, fun fd => by simp, id⟩
  · exact .refl c

theorem fileFrame_handleClose (c : TcpConnection) : FileFrame c c.handleClose :=
  ⟨rfl, rfl, rfl, fun fd => by rw [trace_handleClose, count_close_append (by simp)],
    fun _ hw => by simp at hw⟩

theorem fileFrame_queueInLoop (c : TcpConnection) {f : Functor} (hf : f ≠ .sendFileInLoop) :
    FileFrame c (c.queueInLoop f) :=
  ⟨rfl, rfl, by simp [List.count_cons_of_ne hf], fun _ => rfl, id⟩

theorem WatchSpec.fileFrame {c c' : TcpConnection} (h : WatchSpec c c') : FileFrame c c' := by
  refine ⟨h.control.sendFd_, h.control.sendLen_, by rw [h.pendingFunctors_],
    fun fd => by rw [h.trace], ?_⟩
  intro hw hw'
  rw [h.outputBuffer_, h.control.sendLen_]
  rcases h.writing hw' with hw' | hlen
  · exact hw hw'
  · exact .inr hlen

/-! ## Steps of a file -/

@[simp] theorem count_close_singleton (fd fd' : Int) :
    [Effect.close fd].count (.close fd') = [fd].count fd' := by
  simp [List.count_singleton]

/-- The pending file is closed and done with. -/
theorem Ledger.release {c c' : TcpConnection} {fds : List Int} (h : Ledger c fds)
    (hp : c.PendingFile)
    (hclose : ∀ fd, c'.trace.count (.close fd) =
      c.trace.count (.close fd) + [c.sendFd_].count fd)
    (hdone : ¬ c'.PendingFile) (hw : c'.isWriting = false)
    (hq : c'.pendingFunctors_ = c.pendingFunctors_) : Ledger c' fds := by
  refine ⟨?_, fun hw' => by simp [hw] at hw', hq ▸ h.queued⟩
  intro fd hfd
  rw [h.balance fd hfd, hclose, owed_eq hp, owed_eq_zero hdone, Nat.add_zero]

theorem not_pendingFile_none {c : TcpConnection} (hlen : c.sendLen_ = 0) (hfd : c.sendFd_ = -1) :
    ¬ c.PendingFile := by
  simp [PendingFile, hlen, hfd]

theorem Ledger.abandonFile {c : TcpConnection} {fds : List Int} (h : Ledger c fds)
    (hp : c.PendingFile) : Ledger c.abandonFile fds :=
  h.release hp (fun fd => by simp [TcpConnection.abandonFile, List.count_append])
    (not_pendingFile_none rfl rfl) (isWriting_disableWriting _) rfl

theorem fileFrame_moveFile (c : TcpConnection) (data : Bytes) : FileFrame c (c.moveFile data) :=
  ⟨rfl, rfl, rfl, fun fd => by rw [moveFile_trace, count_close_append (by simp)], id⟩

theorem Ledger.writeFile {c : TcpConnection} {fds : List Int} (h : Ledger c fds)
    (hlen : 0 < c.sendLen_) (r : SysRet) : Ledger (c.writeFile r) fds := by
  have hcases := writeFile_cases c r
  generalize c.writeFile r = c' at hcases ⊢
  cases hcases with
  | failed => exact h.abandonFile (.inl hlen)
  | ended => exact (h.frame (fileFrame_moveFile c [])).abandonFile (.inl hlen)
  | part n hr hfd hmore hsome =>
    have hstill : ((c.moveFile (c.fileBytes n)).advance (c.fileBytes n).length).PendingFile :=
      .inl (Nat.sub_pos_of_lt hmore)
    have hp : c.PendingFile := .inl hlen
    refine ⟨?_, fun _ => .inr (Nat.sub_pos_of_lt hmore), h.queued⟩
    intro fd hfd
    rw [h.balance fd hfd, owed_eq hp, owed_eq hstill, advance_trace, moveFile_trace,
      count_close_append (by simp)]
    rfl
  | finished n hr hfd hall hsome =>
    rw [finishShutdown_eq (by simp)]
    refine h.release (.inl hlen) ?_ (not_pendingFile_none rfl rfl)
      (isWriting_disableWriting (c.moveFile (c.fileBytes n))) rfl
    intro fd
    simp only [setFile_trace, closeSendFd_trace, disableWriting_trace, moveFile_trace,
      disableWriting_sendFd_, moveFile_sendFd_]
    rw [count_close_append (close_notMem_dueShutdown _ fd), List.count_append,
      count_close_append (by simp), count_close_singleton]

/-- A descriptor that the connection was just given, or whose queued `sendFileInLoop` runs now. -/
theorem ledger_sendFileInLoop {c : TcpConnection} {fds : List Int}
    (hbalance : ∀ fd, 0 ≤ fd → fds.count fd = c.trace.count (.close fd) + [c.sendFd_].count fd)
    (hwatched : c.isWriting = true → c.outputBuffer_.readable ≠ [] ∨ 0 < c.sendLen_)
    (hq : Functor.sendFileInLoop ∉ c.pendingFunctors_) {r : SysRet}
    (hempty : c.sendLen_ = 0 → 0 ≤ c.sendFd_ →
      c.state_ ≠ .kDisconnected ∧ c.Idle ∧ r.isOk = true) :
    Ledger (c.sendFileInLoop r) fds := by
  have hq₀ := List.count_eq_zero_of_not_mem hq
  have hqueued : c.pendingFunctors_.count .sendFileInLoop ≤ 1 := by omega
  have hclaim : (0 ≤ c.sendFd_ → 0 < c.sendLen_) → Ledger c fds := by
    refine fun hlen => ⟨fun fd hfd => ?_, hwatched, hqueued⟩
    rw [hbalance fd hfd]
    by_cases hneg : c.sendFd_ < 0
    · have hne : c.sendFd_ ≠ fd := by omega
      simp [owed, hne]
    · rw [owed_eq (.inl (hlen (by omega)))]
  have hcases := sendFileInLoop_cases c r
  generalize c.sendFileInLoop r = c' at hcases ⊢
  cases hcases with
  | disconnected hs =>
    refine hclaim fun hfd => Nat.pos_of_ne_zero fun hlen => ?_
    exact (hempty hlen hfd).1 hs
  | busy hs hbusy =>
    refine Ledger.frame ?_ (watchFile_spec c _).fileFrame
    refine hclaim fun hfd => Nat.pos_of_ne_zero fun hlen => ?_
    exact hbusy (hempty hlen hfd).2.1
  | failed hs hidle e hr =>
    refine Ledger.frame ?_ (watchFile_spec c _).fileFrame
    refine hclaim fun hfd => Nat.pos_of_ne_zero fun hlen => ?_
    rcases hr with rfl | ⟨hneg, -⟩
    · cases (hempty hlen hfd).2.2
    · omega
  | sent hs hidle n hr hfd =>
    refine Ledger.frame ?_ (watchFile_spec _ _).fileFrame
    unfold sentFromFile
    dsimp only
    split
    · next hdone =>
      have hnot : ¬ PendingFile
          ((c.moveFile (c.fileBytes n)).advance (c.fileBytes n).length).closeSendFd := by
        rintro (hlen | ⟨-, hm⟩)
        · exact absurd hdone (Nat.ne_of_gt hlen)
        · exact hq hm
      refine ⟨?_, ?_, hqueued⟩
      · intro fd hfd
        rw [hbalance fd hfd, owed_eq_zero hnot, closeSendFd_trace, List.count_append, advance_trace,
          moveFile_trace, count_close_append (by simp), count_close_singleton]
        rfl
      · intro hw
        simp [hidle.1] at hw
    · next hmore =>
      have hstill : ((c.moveFile (c.fileBytes n)).advance (c.fileBytes n).length).PendingFile :=
        .inl (Nat.pos_of_ne_zero hmore)
      refine ⟨?_, fun _ => .inr (Nat.pos_of_ne_zero hmore), hqueued⟩
      intro fd hfd
      rw [hbalance fd hfd, owed_eq hstill, advance_trace, moveFile_trace,
        count_close_append (by simp)]
      rfl

theorem Ledger.handleWrite {c : TcpConnection} {fds : List Int} (h : Ledger c fds) (r : SysRet) :
    Ledger (c.handleWrite r) fds := by
  unfold TcpConnection.handleWrite
  split
  · next hw =>
    split
    · next hne =>
      exact h.frame (fileFrame_writeBuffer hw (fun h0 =>
        hne (Buffer.readableBytes_eq_zero.mpr h0)) r)
    · next hempty =>
      have hnil : c.outputBuffer_.readable = [] :=
        Buffer.readableBytes_eq_zero.mp (by simpa using hempty)
      exact h.writeFile ((h.watched hw).resolve_left fun hne => hne hnil) r
  · exact h

/-! ## One step -/

theorem fileFrame_down {c : TcpConnection} : FileFrame c
    ((c.setState .kDisconnected).disableAll.emit (.connectionCallback false)) :=
  ⟨rfl, rfl, rfl, fun fd => by simp, fun _ hw => by
    simp [TcpConnection.isWriting, disableAll] at hw⟩

theorem fileFrame_connectDestroyed (c : TcpConnection) : FileFrame c c.connectDestroyed := by
  unfold connectDestroyed
  split
  · exact fileFrame_down
  · exact .refl c

theorem fileFrame_forceCloseInLoop (c : TcpConnection) : FileFrame c c.forceCloseInLoop := by
  unfold forceCloseInLoop
  split
  · exact fileFrame_handleClose c
  · exact .refl c

/-- The file is left alone by every step that does not send, queue or run a functor. -/
theorem fileFrame_step (c : TcpConnection) {e : Event} (h₁ : ∀ r, e ≠ .handleWrite r)
    (h₂ : ∀ fd count r, e ≠ .sendFile fd count r) (h₃ : ∀ r, e ≠ .doPendingFunctor r)
    (h₄ : ∀ fd count, e ≠ .sendFileFromThread fd count) : FileFrame c (c.step e) := by
  rcases step_cases c e with heq | h
  · rw [heq]
    exact .refl c
  generalize c.step e = c' at h ⊢
  cases h with
  | connectEstablished =>
    exact ⟨rfl, rfl, rfl, fun fd => by simp [connectEstablished], fun hw hw' =>
      hw (by simpa [connectEstablished] using hw')⟩
  | send hs message r => exact fileFrame_sendInLoop c message r
  | sendFromThread => exact fileFrame_queueInLoop c nofun
  | shutdown => exact (fileFrame_setState c _).trans (fileFrame_shutdownInLoop _)
  | shutdownFromThread | forceClose =>
    exact (fileFrame_setState c _).trans (fileFrame_queueInLoop _ nofun)
  | received => exact ⟨rfl, rfl, rfl, fun fd => by simp, id⟩
  | forceCloseInLoop | endOfFile | handleClose => exact fileFrame_handleClose c
  | connectDestroyed => exact fileFrame_down
  | handleWrite r => exact absurd rfl (h₁ r)
  | sendFile hs fd count r => exact absurd rfl (h₂ fd count r)
  | doPendingFunctor f fs hq r => exact absurd rfl (h₃ r)
  | sendFileFromThread hs fd count => exact absurd rfl (h₄ fd count)

/-- A new descriptor on a connection that has no other. -/
theorem Ledger.balance_setFile {c : TcpConnection} {fds : List Int} (h : Ledger c fds)
    (hidle : c.FileIdle) (fd : Int) (count : Nat) :
    ∀ fd', 0 ≤ fd' → (fds ++ [fd]).count fd' =
      (c.setFile fd count).trace.count (.close fd') + [(c.setFile fd count).sendFd_].count fd' := by
  intro fd' hfd'
  have hnot : ¬ c.PendingFile := by
    rintro (hlen | ⟨-, hm⟩)
    · exact absurd hidle.1 (Nat.ne_of_gt hlen)
    · exact hidle.2 hm
  rw [List.count_append, h.balance fd' hfd', owed_eq_zero hnot, Nat.add_zero]
  rfl

theorem Ledger.watched_setFile {c : TcpConnection} {fds : List Int} (h : Ledger c fds)
    (hidle : c.FileIdle) (fd : Int) (count : Nat) :
    (c.setFile fd count).isWriting = true →
      (c.setFile fd count).outputBuffer_.readable ≠ [] ∨ 0 < (c.setFile fd count).sendLen_ := by
  intro hw
  rcases h.watched hw with hout | hlen
  · exact .inl hout
  · exact absurd hidle.1 (Nat.ne_of_gt hlen)

theorem Ledger.sendFile {c : TcpConnection} {fds : List Int} (h : Ledger c fds) {fd : Int}
    {count : Nat} {r : SysRet} (hok : ReleaseOk c (.sendFile fd count r)) :
    Ledger (c.sendFile fd count r) (fds ++ [fd]) := by
  obtain ⟨hs, hidle, hempty⟩ := hok
  rw [TcpConnection.sendFile, if_pos hs]
  refine ledger_sendFileInLoop (h.balance_setFile hidle fd count)
    (h.watched_setFile hidle fd count) hidle.2 fun hlen hfd => ⟨?_, hempty hlen hfd⟩
  rw [setFile_state_, hs]
  decide

theorem Ledger.sendFileFromThread {c : TcpConnection} {fds : List Int} (h : Ledger c fds)
    {fd : Int} {count : Nat} (hok : ReleaseOk c (.sendFileFromThread fd count)) :
    Ledger (c.sendFileFromThread fd count) (fds ++ [fd]) := by
  obtain ⟨hs, hidle⟩ := hok
  rw [TcpConnection.sendFileFromThread, if_pos hs]
  refine ⟨?_, h.watched_setFile hidle fd count, ?_⟩
  · intro fd' hfd'
    rw [h.balance_setFile hidle fd count fd' hfd']
    by_cases heq : fd = fd'
    · subst heq
      rw [owed_eq (.inr ⟨hfd', by simp⟩)]
      rfl
    · simp [owed, heq]
  · simp [List.count_eq_zero_of_not_mem hidle.2]

theorem Ledger.doPendingFunctor {c : TcpConnection} {fds : List Int} (h : Ledger c fds)
    {r : SysRet} (hok : ReleaseOk c (.doPendingFunctor r)) :
    Ledger (c.step (.doPendingFunctor r)) fds := by
  cases hq : c.pendingFunctors_ with
  | nil => simpa only [TcpConnection.step, hq] using h
  | cons f fs =>
    simp only [TcpConnection.step, hq]
    have hframe : f ≠ .sendFileInLoop → Ledger { c with pendingFunctors_ := fs } fds := fun hne =>
      h.frame ⟨rfl, rfl, by rw [hq, List.count_cons_of_ne hne], fun _ => rfl, id⟩
    cases f with
    | shutdownInLoop => exact (hframe (by simp)).frame (fileFrame_shutdownInLoop _)
    | forceCloseInLoop => exact (hframe (by simp)).frame (fileFrame_forceCloseInLoop _)
    | sendInLoop message => exact (hframe (by simp)).frame (fileFrame_sendInLoop _ message r)
    | writeCompleteCallback => exact hframe (by simp)
    | highWaterMarkCallback len => exact hframe (by simp)
    | sendFileInLoop =>
      -- this was the only one queued, so that the descriptor is no longer owed for it
      have honce := h.queued
      rw [hq, List.count_cons_self] at honce
      have hgone : Functor.sendFileInLoop ∉ fs := List.count_eq_zero.mp (by omega)
      refine ledger_sendFileInLoop (c := { c with pendingFunctors_ := fs }) ?_
        h.watched hgone (hok (by rw [hq]; rfl))
      intro fd hfd
      rw [h.balance fd hfd]
      by_cases hneg : 0 ≤ c.sendFd_
      · rw [owed_eq (.inr ⟨hneg, by rw [hq]; exact List.mem_cons_self⟩)]
      · have hne : c.sendFd_ ≠ fd := by omega
        simp [owed, hne]

/-- One step keeps the account. -/
theorem Ledger.step {c : TcpConnection} {fds : List Int} (h : Ledger c fds) {e : Event}
    (hok : ReleaseOk c e) : Ledger (c.step e) (fds ++ c.given e) := by
  cases e with
  | sendFile fd count r => exact h.sendFile hok
  | sendFileFromThread fd count => exact h.sendFileFromThread hok
  | handleWrite r => simpa [given, TcpConnection.step] using h.handleWrite r
  | doPendingFunctor r => simpa [given] using h.doPendingFunctor hok
  | _ =>
    simp only [given, List.append_nil]
    exact h.frame (fileFrame_step c (by simp) (by simp) (by simp) (by simp))

/-! ## Whole runs -/

theorem ledger_new (highWaterMark : Nat) (hcb wcb : Bool) (files : Int → Bytes) :
    Ledger (new highWaterMark hcb wcb files) [] :=
  ⟨fun fd _ => by rw [owed_eq_zero (not_pendingFile_none rfl rfl)]; rfl,
    fun hw => by simp at hw, Nat.zero_le _⟩

theorem ledger_run (highWaterMark : Nat) (hcb wcb : Bool) (files : Int → Bytes) {es : List Event}
    (hok : Meets ReleaseOk step (new highWaterMark hcb wcb files) es) :
    Ledger (run step (new highWaterMark hcb wcb files) es)
      (collect given step (new highWaterMark hcb wcb files) es) := by
  exact run_ledger given (I := Ledger) (fun c e fds hc he => hc.step he)
    (ledger_new highWaterMark hcb wcb files) hok

/-- Up to and including `connectDestroyed`, every descriptor was closed as often as it was given. -/
def ReleasesAll (c : TcpConnection) (es : List Event) : Prop :=
  ∀ fd, 0 ≤ fd → (run step c (es ++ [.connectDestroyed])).trace.count (.close fd) =
    (collect given step c (es ++ [.connectDestroyed])).count fd

/-- The run loses the descriptor of a file that was not finished when the peer closed. -/
theorem sendFile_leaks : ¬ ∀ es, ReleasesAll (new 64 false false fun _ => []) es := by
  intro h
  have hleak := h [.connectEstablished, .sendFile 5 10 (.fail .EWOULDBLOCK), .handleRead (.ok [])]
    5 (by decide)
  revert hleak
  decide +kernel

/-- A run whose steps keep the account closes every descriptor exactly once. -/
theorem sendFile_closed_once (highWaterMark : Nat) (hcb wcb : Bool) (files : Int → Bytes)
    (es : List Event)
    (hok : Meets ReleaseOk step (new highWaterMark hcb wcb files) (es ++ [.connectDestroyed])) :
    ReleasesAll (new highWaterMark hcb wcb files) es := by
  intro fd hfd
  obtain ⟨hes, hlast, -⟩ := meets_append.mp hok
  have h := ledger_run highWaterMark hcb wcb files hok
  have hnone : ¬ (run step (new highWaterMark hcb wcb files)
      (es ++ [.connectDestroyed])).PendingFile := by
    have hf := fileFrame_connectDestroyed (run step (new highWaterMark hcb wcb files) es)
    rw [run_append]
    exact fun hp => hlast ((pendingFile_congr hf.sendFd_ hf.sendLen_ hf.queued).mp hp)
  rw [h.balance fd hfd, owed_eq_zero hnone, Nat.add_zero]

/-- Three files: one finished by `handleWrite`, an empty one, and one abandoned. -/
theorem sendFile_closed_once_three :
    ReleasesAll (new 64 false false fun _ => ascii "0123456789")
      [.connectEstablished, .sendFile 5 10 (.ok 4), .handleWrite (.ok 100), .sendFile 6 0 (.ok 0),
        .sendFile 7 3 (.fail .EWOULDBLOCK), .handleWrite (.fail .EPIPE), .handleRead (.ok [])] := by
  refine sendFile_closed_once _ _ _ _ _ ?_
  decide +kernel

end TcpConnection

end Mymuduo
