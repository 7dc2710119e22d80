import Mathlib.Data.Fintype.Basic
import Mathlib.Data.List.Perm.Subperm
import Mymuduo.Net.SharedConnection

/-!
# What `shutdown` waits for

A message whose `send` returned before a call of `shutdown` is promised: it is to be on the wire
before the write side is shut down. A `send` in another thread returns with its message in the
queue of the loop, and the queue is in order, so a `shutdown` in another thread is served after it.
But the loop thread has two ways past the queue: its own `shutdown`, and a `handleWrite` that drains
the buffer of a connection on which a `shutdown` is under way. And messages are dropped when the
peer closes first. `Waits` excludes these.

A run is `Open` until the write side is shut down or the connection goes down. From then on the
promises are kept for good (`Settled`), or nothing will shut down the write side any more (`Dead`).

* `Open.shutdownInLoop`: the functor of a `shutdown` finds everything promised on the wire.
* `Open.step`: where a step leads from an open run.
-/

namespace Mymuduo

open CString Transition

/-- The messages among the functors. -/
def messages (fs : List Functor) : List Bytes :=
  fs.filterMap fun
    | .sendInLoop message => some message
    | _ => none

@[simp] theorem messages_append (fs fs' : List Functor) :
    messages (fs ++ fs') = messages fs ++ messages fs' :=
  List.filterMap_append ..

theorem messages_cons (f : Functor) (fs : List Functor) :
    messages (f :: fs) = messages [f] ++ messages fs :=
  messages_append [f] fs

theorem messages_callbacks {fs : List Functor} (hfs : ∀ f ∈ fs, f.isCallback = true) :
    messages fs = [] := by
  refine List.filterMap_eq_nil_iff.mpr fun f hf => ?_
  have hcb := hfs f hf
  cases f <;> first | rfl | cases hcb

/-- The messages `promised` are on the wire, each as a whole. -/
def Delivered (out : Bytes) (promised : List Bytes) : Prop :=
  ∃ (sent : List Bytes) (rest : Bytes), out = sent.flatten ++ rest ∧ promised.Subperm sent

theorem Delivered.append {out : Bytes} {promised : List Bytes} (h : Delivered out promised)
    (more : Bytes) : Delivered (out ++ more) promised := by
  obtain ⟨sent, rest, hout, hsub⟩ := h
  exact ⟨sent, rest ++ more, by rw [hout, List.append_assoc], hsub⟩

theorem delivered_nil (out : Bytes) : Delivered out [] :=
  ⟨[], out, rfl, List.nil_subperm⟩

/-- The thread is in the middle of a `shutdown`. -/
def Call.isShutdown : Call → Bool
  | .shutdownTested => true
  | .shutdownStored => true
  | _ => false

/-- Nothing has begun to take the connection down. -/
abbrev TcpConnection.Early (c : TcpConnection) : Prop :=
  c.state_ = .kConnecting ∨ c.state_ = .kConnected

/-- The connection is down, and nothing in its queue changes that. -/
structure TcpConnection.Over (c : TcpConnection) : Prop where
  down : c.state_ = .kDisconnected
  unwatched : c.isWriting = false
  never : Effect.shutdownWrite ∉ c.trace
  queue : ∀ f ∈ c.pendingFunctors_, f.isCallback = true ∨ ∃ message, f = .sendInLoop message

namespace SharedConnection

variable {τ : Type*}

/-- The promised messages that are still in the queue. -/
def waiting (s : SharedConnection τ) : List Bytes :=
  messages (s.conn.pendingFunctors_.take s.ahead)

/-- The connection goes down. -/
def drops (c : TcpConnection) : TcpConnection.Event → Bool
  | .connectDestroyed => decide (c.state_ = .kConnected)
  | e => c.closes e

/-- A write takes the last byte while a `shutdown` is under way. -/
def flushes (c : TcpConnection) : TcpConnection.Event → Bool
  | .handleWrite (.ok n) =>
    decide (c.state_ = .kDisconnecting) && c.isWriting && decide (c.outputBuffer_.readableBytes ≤ n)
  | _ => false

/-- The loop thread sends and shuts down, and no write finds the peer gone. -/
def isSending : TcpConnection.Event → Bool
  | .send _ r => !r.isFault
  | .handleWrite r => !r.isFault
  | .doPendingFunctor r => !r.isFault
  | .connectEstablished => true
  | .shutdown => true
  | .handleRead _ => true
  | .handleClose => true
  | .connectDestroyed => true
  | _ => false

/-- A step of a run in which the threads call `send` and `shutdown` only. -/
def Sends (s : SharedConnection τ) : Event τ → Prop
  | .loop e => isSending e = true ∧ (e = .connectEstablished → s.conn.state_ = .kConnecting)
  | .forceClose _ => False
  | _ => True

/-- The step does not get ahead of what is promised: the loop thread shuts down with nothing being
written when no message is queued, a write takes the last byte when nothing promised is queued, and
the connection goes down when everything promised is out or no `shutdown` is still to be served. -/
def Waits (s : SharedConnection τ) : Event τ → Prop
  | .loop e =>
    (e = .shutdown → s.conn.state_ = .kConnected → s.conn.isWriting = false →
      messages s.conn.pendingFunctors_ = []) ∧
    (flushes s.conn e = true → s.waiting = []) ∧
    (drops s.conn e = true →
      s.promised = [] ∨
      (s.waiting = [] ∧ s.conn.outputBuffer_.readable = []) ∨
      ((∀ t, (s.calls t).isShutdown = false) ∧
        Functor.shutdownInLoop ∉ s.conn.pendingFunctors_))
  | _ => True

instance (s : SharedConnection τ) : (e : Event τ) → Decidable (s.Sends e)
  | .loop _ => inferInstanceAs (Decidable (_ ∧ _))
  | .forceClose _ => instDecidableFalse
  | .send .. | .shutdown _ | .proceed _ => instDecidableTrue

instance [Fintype τ] (s : SharedConnection τ) : (e : Event τ) → Decidable (s.Waits e)
  | .loop _ => inferInstanceAs (Decidable (_ ∧ _ ∧ _))
  | .send .. | .shutdown _ | .forceClose _ | .proceed _ => instDecidableTrue

/-! ## The phases of a run -/

/-- The write side is open. The messages `hand` are in the loop's hand, taken from the queue or
from the user. -/
structure Open (s : SharedConnection τ) (hand : List Bytes) : Prop where
  up : s.conn.state_ ≠ .kDisconnected
  noFile : s.conn.sendLen_ = 0
  watching : s.conn.isWriting = true ↔ s.conn.outputBuffer_.readable ≠ []
  never : Effect.shutdownWrite ∉ s.conn.trace
  queue : ∀ f ∈ s.conn.pendingFunctors_,
    f.isCallback = true ∨ (∃ message, f = .sendInLoop message) ∨ f = .shutdownInLoop
  ledger : ∃ sent : List Bytes,
    wire s.conn.trace ++ s.conn.outputBuffer_.readable = sent.flatten ∧
      s.accepted.Perm (sent ++ hand ++ messages s.conn.pendingFunctors_) ∧
      s.promised.Subperm (sent ++ hand ++ s.waiting)
  ahead : s.ahead ≤ s.conn.pendingFunctors_.length
  behind : Functor.shutdownInLoop ∉ s.conn.pendingFunctors_.take s.ahead
  early : s.conn.Early →
    Functor.shutdownInLoop ∉ s.conn.pendingFunctors_ ∧ ∀ t, s.calls t ≠ .shutdownStored
  calls : ∀ t, s.calls t ≠ .forceCloseTested ∧ s.calls t ≠ .forceCloseStored

/-- Everything promised was on the wire before anything shut down the write side, and no more is
promised. -/
structure Settled (s : SharedConnection τ) : Prop where
  out : ∃ pre post, s.conn.trace = pre ++ post ∧ Effect.shutdownWrite ∉ pre ∧
    Delivered (wire pre) s.promised
  past : ¬ s.conn.Early

/-- Nothing shuts down the write side any more. -/
structure Dead (s : SharedConnection τ) : Prop where
  conn_over : s.conn.Over
  calls : ∀ t, s.calls t = .idle ∨ ∃ message, s.calls t = .sendTested message

inductive Phase (s : SharedConnection τ) : Prop
  | opened (h : Open s [])
  | settled (h : Settled s)
  | dead (h : Dead s)

/-! ## The loop sends -/

/-- The waiting messages stay when more is queued. -/
theorem take_append_of_le {s : SharedConnection τ} {hand : List Bytes} (h : Open s hand)
    (fs : List Functor) :
    (s.conn.pendingFunctors_ ++ fs).take s.ahead = s.conn.pendingFunctors_.take s.ahead :=
  List.take_append_of_le_length h.ahead

/-- What the loop does with the connection while the write side stays open: the messages in its hand
go out or into the buffer, and callbacks are queued. -/
theorem Open.carry {s : SharedConnection τ} {hand : List Bytes} (h : Open s hand)
    {c : TcpConnection} (hup : c.state_ ≠ .kDisconnected) (hearly : c.Early → s.conn.Early)
    (hlen : c.sendLen_ = s.conn.sendLen_)
    (hwatch : c.isWriting = true ↔ c.outputBuffer_.readable ≠ [])
    (hnever : Effect.shutdownWrite ∉ c.trace) (hqueue : TcpConnection.QueuesCallbacks s.conn c)
    (hout : wire c.trace ++ c.outputBuffer_.readable =
      wire s.conn.trace ++ s.conn.outputBuffer_.readable ++ hand.flatten) :
    Open { s with conn := c } [] := by
  obtain ⟨fs, hfs, hq⟩ := hqueue
  obtain ⟨sent, hsent, hacc, hprom⟩ := h.ledger
  have htake : c.pendingFunctors_.take s.ahead = s.conn.pendingFunctors_.take s.ahead := by
    rw [hq, take_append_of_le h]
  have hnew : ∀ f ∈ fs, f ≠ .shutdownInLoop := by
    rintro f hf rfl
    cases hfs _ hf
  refine ⟨hup, hlen.trans h.noFile, hwatch, hnever, ?_, ⟨sent ++ hand, ?_, ?_, ?_⟩, ?_, ?_,
    ?_, h.calls⟩
  · intro f hf
    rw [hq, List.mem_append] at hf
    rcases hf with hf | hf
    · exact h.queue f hf
    · exact .inl (hfs f hf)
  · rw [hout, hsent, List.flatten_append]
  · simpa only [hq, messages_append, messages_callbacks hfs, List.append_nil] using hacc
  · simpa only [waiting, htake, List.append_nil] using hprom
  · rw [hq, List.length_append]
    exact Nat.le_add_right_of_le h.ahead
  · rw [htake]
    exact h.behind
  · intro hc
    obtain ⟨hno, hcalls⟩ := h.early (hearly hc)
    refine ⟨?_, hcalls⟩
    rw [hq, List.mem_append]
    rintro (hf | hf)
    · exact hno hf
    · exact hnew _ hf rfl

theorem Open.sendInLoop {s : SharedConnection τ} {message : Bytes} (h : Open s [message])
    {r : SysRet} (hr : r.isFault = false) :
    Open { s with conn := s.conn.sendInLoop message r } [] := by
  obtain ⟨sent, rest, hmsg, hspec⟩ := TcpConnection.sendInLoop_spec h.up message r
  obtain ⟨es, hes, htr⟩ := hspec.trace
  -- bytes go out directly only when nothing is buffered
  have horder : s.conn.outputBuffer_.readable ++ (sent ++ rest) =
      sent ++ (s.conn.outputBuffer_.readable ++ rest) := by
    rcases eq_or_ne sent [] with rfl | hne
    · simp
    · simp [(hspec.direct hne).2]
  have hs : (s.conn.sendInLoop message r).state_ = s.conn.state_ := hspec.control.state_
  refine h.carry (hs ▸ h.up) (by simp only [TcpConnection.Early, hs, imp_self])
    hspec.control.sendLen_ ?_ ?_ hspec.queue ?_
  · rw [hspec.writing, hspec.out, h.watching]
    simp only [ne_eq, List.append_eq_nil_iff, not_and_or]
  · rw [htr, List.mem_append]
    rintro (hm | hm)
    · exact h.never hm
    · exact hes.notMem (by simp) hm
  · rw [htr, hspec.out, wire_append, hes.wire_eq, List.flatten_singleton, hmsg hr,
      List.append_assoc, List.append_assoc, horder]

/-- With nothing waiting and nothing buffered, what is promised is on the wire. -/
theorem Open.delivered {s : SharedConnection τ} (h : Open s []) (hwait : s.waiting = [])
    {out : Bytes} (hout : out = wire s.conn.trace ++ s.conn.outputBuffer_.readable) :
    Delivered out s.promised := by
  obtain ⟨sent, hsent, -, hprom⟩ := h.ledger
  refine ⟨sent, [], by rw [hout, hsent, List.append_nil], ?_⟩
  simpa [hwait] using hprom

theorem Open.drained {s : SharedConnection τ} {hand : List Bytes} (h : Open s hand)
    (hw : s.conn.isWriting = false) : s.conn.outputBuffer_.readable = [] := by
  by_contra hrest
  simp [h.watching.mpr hrest] at hw

/-- Once everything promised is out, the promises are kept, whatever comes after. -/
theorem Open.settled {s s' : SharedConnection τ} (h : Open s []) (hwait : s.waiting = [])
    (hprom : s'.promised = s.promised) (es post : List Effect)
    (hout : wire es = s.conn.outputBuffer_.readable)
    (htr : s'.conn.trace = s.conn.trace ++ es ++ post) (hno : Effect.shutdownWrite ∉ es)
    (hpast : ¬ s'.conn.Early) : Settled s' := by
  refine ⟨⟨s.conn.trace ++ es, post, htr, ?_, ?_⟩, hpast⟩
  · rw [List.mem_append]
    rintro (hm | hm)
    · exact h.never hm
    · exact hno hm
  · rw [hprom]
    exact h.delivered hwait (by rw [wire_append, hout])

/-- A `shutdown` begins, and with it everything accepted is promised. -/
theorem Open.promise {s : SharedConnection τ} (h : Open s [])
    (hs : s.conn.state_ = .kConnected) : Open s.promise [] := by
  obtain ⟨sent, hsent, hacc, -⟩ := h.ledger
  have htake : s.conn.pendingFunctors_.take s.promise.ahead = s.conn.pendingFunctors_ :=
    List.take_length
  have hno := (h.early (.inr hs)).1
  refine ⟨h.up, h.noFile, h.watching, h.never, h.queue, ⟨sent, hsent, hacc, ?_⟩, Nat.le_refl _,
    fun hm => hno (List.mem_of_mem_take hm), h.early, h.calls⟩
  show s.accepted.Subperm (sent ++ [] ++ messages (s.conn.pendingFunctors_.take s.promise.ahead))
  rw [htake]
  exact hacc.subperm

/-- The loop takes the first functor from its queue. -/
theorem Open.pop {s : SharedConnection τ} (h : Open s []) {f : Functor} {fs : List Functor}
    (hq : s.conn.pendingFunctors_ = f :: fs) :
    Open { s with conn := { s.conn with pendingFunctors_ := fs }, ahead := s.ahead - 1 }
      (messages [f]) := by
  obtain ⟨sent, hsent, hacc, hprom⟩ := h.ledger
  have hle := h.ahead
  have hbehind := h.behind
  simp only [hq, List.length_cons, List.append_nil] at hle hacc hbehind hprom
  simp only [waiting, hq] at hprom
  refine ⟨h.up, h.noFile, h.watching, h.never, ?_, ⟨sent, hsent, ?_, ?_⟩, by dsimp only; omega, ?_,
    ?_, h.calls⟩
  · intro f' hf'
    exact h.queue f' (by rw [hq]; exact List.mem_cons_of_mem _ hf')
  · rw [List.append_assoc, ← messages_cons]
    exact hacc
  · cases hahead : s.ahead with
    | zero =>
      rw [hahead] at hprom
      simp only [List.take_zero] at hprom
      refine hprom.trans ?_
      simpa [waiting, messages] using (List.sublist_append_left sent (messages [f])).subperm
    | succ k =>
      rw [hahead, List.take_succ_cons, messages_cons, ← List.append_assoc] at hprom
      simpa [waiting] using hprom
  · cases hahead : s.ahead with
    | zero => simp
    | succ k =>
      rw [hahead, List.take_succ_cons] at hbehind
      exact fun hm => hbehind (List.mem_cons_of_mem _ hm)
  · intro hc
    obtain ⟨hno, hcalls⟩ := h.early hc
    rw [hq] at hno
    exact ⟨fun hm => hno (List.mem_cons_of_mem _ hm), hcalls⟩

/-- The functor of a `shutdown` finds everything promised on the wire. -/
theorem Open.shutdownInLoop {s : SharedConnection τ} (h : Open s []) {fs : List Functor}
    (hq : s.conn.pendingFunctors_ = .shutdownInLoop :: fs) :
    Phase { s with
      conn := { s.conn with pendingFunctors_ := fs }.shutdownInLoop, ahead := s.ahead - 1 } := by
  have hpop := h.pop hq
  -- the functor was queued behind everything promised
  have hahead : s.ahead = 0 := by
    have hbehind := h.behind
    rw [hq] at hbehind
    cases hk : s.ahead with
    | zero => rfl
    | succ k =>
      rw [hk, List.take_succ_cons] at hbehind
      exact absurd List.mem_cons_self hbehind
  have hpast : ¬ s.conn.Early := fun hearly => by
    have hno := (h.early hearly).1
    rw [hq] at hno
    exact hno List.mem_cons_self
  unfold TcpConnection.shutdownInLoop
  split
  · next hw =>
    have hw' : s.conn.isWriting = false := by simpa [TcpConnection.isWriting] using hw
    refine .settled (hpop.settled ?_ rfl [] [.shutdownWrite] (hpop.drained hw').symm (by simp)
      (by simp) hpast)
    simp [waiting, hahead, messages]
  · exact .opened hpop

/-! ## The loop thread, with the write side open -/

theorem Open.send {s : SharedConnection τ} (h : Open s []) {message : Bytes} {r : SysRet}
    (hr : r.isFault = false) :
    Open { s with
      conn := s.conn.sendInLoop message r
      accepted := s.accepted ++ [message] } [] := by
  have hhand : Open { s with accepted := s.accepted ++ [message] } [message] := by
    obtain ⟨sent, hsent, hacc, hprom⟩ := h.ledger
    refine { h with ledger := ⟨sent, hsent, ?_, ?_⟩ }
    · have hmore := hacc.append_right [message]
      refine hmore.trans ?_
      rw [List.append_nil, List.append_assoc, List.append_assoc]
      exact List.Perm.append_left sent List.perm_append_comm
    · refine hprom.trans ?_
      rw [List.append_nil, List.append_assoc]
      exact ((List.sublist_append_right [message] s.waiting).append_left sent).subperm
  exact hhand.sendInLoop hr

/-- `shutdown` in the loop thread. -/
theorem Open.shutdown {s : SharedConnection τ} (h : Open s []) (hs : s.conn.state_ = .kConnected)
    (hwaits : s.conn.isWriting = false → messages s.conn.pendingFunctors_ = []) :
    Phase { s.promise with conn := s.conn.shutdown } := by
  have hprom := h.promise hs
  have hpast : ¬ TcpConnection.Early (s.conn.setState .kDisconnecting) := by
    rintro (hc | hc) <;> cases hc
  rw [TcpConnection.shutdown, if_pos hs, TcpConnection.shutdownInLoop]
  split
  · next hw =>
    have hw' : s.conn.isWriting = false := by simpa using hw
    have hwait : s.promise.waiting = [] := by
      have htake : s.conn.pendingFunctors_.take s.promise.ahead = s.conn.pendingFunctors_ :=
        List.take_length
      rw [waiting]
      exact htake.symm ▸ hwaits hw'
    refine .settled (hprom.settled hwait rfl [] [.shutdownWrite] (h.drained hw').symm ?_ (by simp)
      hpast)
    rw [List.append_nil]
    rfl
  · refine .opened (hprom.carry (by simp) (fun hc => absurd hc hpast) rfl h.watching h.never
      (.of_eq rfl) ?_)
    rw [List.flatten_nil, List.append_nil]
    rfl

/-- A write that leaves something in the buffer. -/
theorem readable_writeBuffer_ne_nil {c : TcpConnection} (hout : c.outputBuffer_.readable ≠ [])
    {r : SysRet} (hr : ∀ n, r = .ok n → n < c.outputBuffer_.readableBytes) :
    (c.writeBuffer r).outputBuffer_.readable ≠ [] := by
  cases r with
  | fail e => exact hout
  | ok n =>
    have hlt := hr n rfl
    rcases Nat.eq_zero_or_pos n with rfl | hn
    · have hdef : c.writeBuffer (.ok 0) = c.emit (.put []) := by
        simp [TcpConnection.writeBuffer, TcpConnection.write]
      rw [hdef]
      exact hout
    · rw [TcpConnection.writeBuffer_ok hout hn]
      dsimp only
      have hleft : (c.outputBuffer_.retrieve
          (min n c.outputBuffer_.readable.length)).readable ≠ [] := by
        rw [Buffer.readable_retrieve, drop_min_length, ne_eq, List.drop_eq_nil_iff]
        simpa using hlt
      rw [if_neg fun hdone => hleft hdone.1]
      exact hleft

/-- `handleWrite` shuts down a connection whose buffer it drains, if a `shutdown` waits for that. -/
theorem Open.handleWrite {s : SharedConnection τ} (h : Open s []) (r : SysRet)
    (hwaits : ∀ n, r = .ok n → s.conn.state_ = .kDisconnecting → s.conn.isWriting = true →
      s.conn.outputBuffer_.readableBytes ≤ n → s.waiting = []) :
    Phase { s with conn := s.conn.handleWrite r } := by
  unfold TcpConnection.handleWrite
  split
  · next hw =>
    have hout := h.watching.mp hw
    rw [if_pos fun h0 => hout (Buffer.readableBytes_eq_zero.mp h0)]
    obtain ⟨sent, hspec⟩ := TcpConnection.writeBuffer_spec hw hout r
    obtain ⟨es, hes, htr⟩ := hspec.trace
    have hs : (s.conn.writeBuffer r).state_ = s.conn.state_ := hspec.control.state_
    have hno : Effect.shutdownWrite ∉ es := hes.notMem (by simp)
    have hwriting : (s.conn.writeBuffer r).isWriting = true ↔
        (s.conn.writeBuffer r).outputBuffer_.readable ≠ [] := by
      simpa [h.noFile] using hspec.writing
    by_cases hdue : (s.conn.writeBuffer r).isWriting = false ∧ s.conn.state_ = .kDisconnecting
    · -- the last byte went out, and the write side is shut down
      obtain ⟨hdone, hdis⟩ := hdue
      have hempty : (s.conn.writeBuffer r).outputBuffer_.readable = [] := by
        by_contra hrest
        simp [hwriting.mpr hrest] at hdone
      obtain ⟨n, rfl, hn⟩ : ∃ n, r = .ok n ∧ s.conn.outputBuffer_.readableBytes ≤ n := by
        by_contra hnot
        refine readable_writeBuffer_ne_nil hout (r := r) (fun n hr => ?_) hempty
        exact Nat.lt_of_not_le fun hn => hnot ⟨n, hr, hn⟩
      have hwire : wire es = s.conn.outputBuffer_.readable := by
        rw [hes.wire_eq, hspec.out, hempty, List.append_nil]
      rw [hdone, if_neg Bool.false_ne_true, TcpConnection.dueShutdown, if_pos hdis] at htr
      refine .settled (h.settled (hwaits n rfl hdis hw hn) rfl es [.shutdownWrite] hwire htr hno ?_)
      simp only [TcpConnection.Early, hs, hdis]
      rintro (hc | hc) <;> cases hc
    · have hquiet : (s.conn.writeBuffer r).trace = s.conn.trace ++ es := by
        rw [htr]
        split
        · rw [List.append_nil]
        · next hdone =>
          rw [TcpConnection.dueShutdown, if_neg fun hdis => hdue ⟨by simpa using hdone, hdis⟩,
            List.append_nil]
      refine .opened (h.carry (hs ▸ h.up) (by simp only [TcpConnection.Early, hs, imp_self])
        hspec.control.sendLen_ hwriting ?_ hspec.queue ?_)
      · rw [hquiet, List.mem_append]
        rintro (hm | hm)
        · exact h.never hm
        · exact hno hm
      · rw [hquiet, wire_append, hes.wire_eq, hspec.out, List.flatten_nil, List.append_nil,
          List.append_assoc]
  · exact .opened h

/-- The connection goes down: the promises are kept already, or it does not matter any more. -/
theorem Open.drop {s : SharedConnection τ} (h : Open s [])
    (hwaits : s.promised = [] ∨ (s.waiting = [] ∧ s.conn.outputBuffer_.readable = []) ∨
      ((∀ t, (s.calls t).isShutdown = false) ∧
        Functor.shutdownInLoop ∉ s.conn.pendingFunctors_)) {c : TcpConnection}
    (hs : c.state_ = .kDisconnected) (hw : c.isWriting = false)
    (hq : c.pendingFunctors_ = s.conn.pendingFunctors_) {es : List Effect}
    (htr : c.trace = s.conn.trace ++ es) (hno : Effect.shutdownWrite ∉ es) :
    Phase { s with conn := c } := by
  have hpast : ¬ c.Early := by
    simp only [TcpConnection.Early, hs]
    rintro (hc | hc) <;> cases hc
  rcases hwaits with hnone | ⟨hwait, hout⟩ | ⟨hcalls, hqueue⟩
  · exact .settled ⟨⟨s.conn.trace, es, htr, h.never, hnone ▸ delivered_nil _⟩, hpast⟩
  · exact .settled (h.settled hwait rfl [] es hout.symm (by rw [List.append_nil]; exact htr)
      (by simp) hpast)
  · refine .dead ⟨⟨hs, hw, ?_, ?_⟩, ?_⟩
    · rw [htr, List.mem_append]
      rintro (hm | hm)
      · exact h.never hm
      · exact hno hm
    · intro f hf
      replace hf : f ∈ s.conn.pendingFunctors_ := hq ▸ hf
      rcases h.queue f hf with hf' | hf' | rfl
      · exact .inl hf'
      · exact .inr hf'
      · exact absurd hf hqueue
    · intro t
      have hno := hcalls t
      have hforce := h.calls t
      dsimp only
      cases hcall : s.calls t with
      | idle => exact .inl rfl
      | sendTested message => exact .inr ⟨message, rfl⟩
      | shutdownTested | shutdownStored => simp [hcall, Call.isShutdown] at hno
      | forceCloseTested => exact absurd hcall hforce.1
      | forceCloseStored => exact absurd hcall hforce.2

/-- One functor from the queue. -/
theorem Open.doPendingFunctor {s : SharedConnection τ} (h : Open s []) {r : SysRet}
    (hr : r.isFault = false) :
    Phase { s with conn := s.conn.step (.doPendingFunctor r), ahead := s.ahead - 1 } := by
  cases hq : s.conn.pendingFunctors_ with
  | nil =>
    have hahead : s.ahead - 1 = s.ahead := by
      have hle := h.ahead
      rw [hq, List.length_nil] at hle
      omega
    have hstay : s.conn.step (.doPendingFunctor r) = s.conn := by
      simp only [TcpConnection.step, hq]
    rw [hahead, hstay]
    exact .opened h
  | cons f fs =>
    have hpop := h.pop hq
    simp only [TcpConnection.step, hq]
    rcases h.queue f (by rw [hq]; exact List.mem_cons_self) with hf | ⟨message, rfl⟩ | rfl
    · have hrun : ({ s.conn with pendingFunctors_ := fs } : TcpConnection).runFunctor r f =
          { s.conn with pendingFunctors_ := fs } := by
        cases f <;> first | rfl | cases hf
      rw [messages_callbacks (by simpa using hf)] at hpop
      rw [hrun]
      exact .opened hpop
    · exact .opened (hpop.sendInLoop hr)
    · exact h.shutdownInLoop hq

/-- A message is queued by another thread, whose `send` returns. -/
theorem Open.queueSend {s : SharedConnection τ} (h : Open s []) (message : Bytes) :
    Open { s with
      conn := s.conn.queueInLoop (.sendInLoop message)
      accepted := s.accepted ++ [message] } [] := by
  obtain ⟨sent, hsent, hacc, hprom⟩ := h.ledger
  have htake := take_append_of_le h [.sendInLoop message]
  refine ⟨h.up, h.noFile, h.watching, h.never, ?_, ⟨sent, hsent, ?_, ?_⟩, ?_, htake ▸ h.behind, ?_,
    h.calls⟩
  · intro f hf
    rcases List.mem_append.mp hf with hf | hf
    · exact h.queue f hf
    · exact .inr (.inl ⟨message, List.mem_singleton.mp hf⟩)
  · rw [TcpConnection.queueInLoop_pendingFunctors_, messages_append, ← List.append_assoc]
    exact hacc.append_right [message]
  · simpa only [waiting, TcpConnection.queueInLoop_pendingFunctors_, htake] using hprom
  · rw [TcpConnection.queueInLoop_pendingFunctors_, List.length_append]
    exact Nat.le_add_right_of_le h.ahead
  · intro hc
    obtain ⟨hno, hcalls⟩ := h.early hc
    refine ⟨?_, hcalls⟩
    rw [TcpConnection.queueInLoop_pendingFunctors_, List.mem_append]
    rintro (hf | hf)
    · exact hno hf
    · cases List.mem_singleton.mp hf

/-- The functor of a `shutdown` is queued behind everything promised. -/
theorem Open.queueShutdown {s : SharedConnection τ} (h : Open s []) (hlate : ¬ s.conn.Early) :
    Open { s with conn := s.conn.queueInLoop .shutdownInLoop } [] := by
  obtain ⟨sent, hsent, hacc, hprom⟩ := h.ledger
  have htake := take_append_of_le h [.shutdownInLoop]
  refine ⟨h.up, h.noFile, h.watching, h.never, ?_, ⟨sent, hsent, ?_, ?_⟩, ?_, htake ▸ h.behind,
    fun hc => absurd hc hlate, h.calls⟩
  · intro f hf
    rcases List.mem_append.mp hf with hf | hf
    · exact h.queue f hf
    · exact .inr (.inr (List.mem_singleton.mp hf))
  · rw [TcpConnection.queueInLoop_pendingFunctors_, messages_append]
    simpa [messages] using hacc
  · simpa only [waiting, TcpConnection.queueInLoop_pendingFunctors_, htake] using hprom
  · rw [TcpConnection.queueInLoop_pendingFunctors_, List.length_append]
    exact Nat.le_add_right_of_le h.ahead

variable [DecidableEq τ]

/-- A step of the loop thread that accepts nothing and promises nothing. -/
theorem step_quiet {s : SharedConnection τ} {e : TcpConnection.Event}
    (hacc : s.conn.accepted e = []) (hpromise : e ≠ .shutdown)
    (hqueue : ∀ r, e ≠ .doPendingFunctor r) :
    s.step (.loop e) = { s with conn := s.conn.step e } := by
  have hnote : s.note e = s := by
    cases e with
    | shutdown => exact absurd rfl hpromise
    | doPendingFunctor r => exact absurd rfl (hqueue r)
    | _ => simp only [note, hacc, List.append_nil]
  rw [step, hnote]

/-- Every step of the loop thread, with the write side open. -/
theorem Open.loop {s : SharedConnection τ} (h : Open s [])
    {e : TcpConnection.Event} (hsends : s.Sends (.loop e)) (hwaits : s.Waits (.loop e)) :
    Phase (s.step (.loop e)) := by
  cases e with
  | connectEstablished =>
    have hs : s.conn.state_ = .kConnecting := hsends.2 rfl
    rw [step_quiet (e := .connectEstablished) rfl (by simp) (by simp), TcpConnection.step]
    refine .opened (h.carry (by simp [TcpConnection.connectEstablished]) (fun _ => .inl hs) rfl ?_
      ?_ (.of_eq rfl) ?_)
    · simpa [TcpConnection.connectEstablished] using h.watching
    · simpa [TcpConnection.connectEstablished] using h.never
    · simp [TcpConnection.connectEstablished, wire]
  | send message r =>
    by_cases hs : s.conn.state_ = .kConnected
    · have hstep : s.step (.loop (.send message r)) =
          { s with conn := s.conn.sendInLoop message r, accepted := s.accepted ++ [message] } := by
        simp [step, note, TcpConnection.accepted, TcpConnection.step, TcpConnection.send, hs]
      rw [hstep]
      exact .opened (h.send (by simpa [isSending] using hsends.1))
    · have hsame : s.conn.step (.send message r) = s.conn := if_neg hs
      have hnone : s.conn.accepted (.send message r) = [] := if_neg hs
      rw [step_quiet hnone (by simp) (by simp), hsame]
      exact .opened h
  | shutdown =>
    by_cases hs : s.conn.state_ = .kConnected
    · have hstep : s.step (.loop .shutdown) = { s.promise with conn := s.conn.shutdown } := by
        simp [step, note, TcpConnection.step, hs]
      rw [hstep]
      exact h.shutdown hs (hwaits.1 rfl hs)
    · have hstep : s.step (.loop .shutdown) = s := by
        simp [step, note, TcpConnection.step, TcpConnection.shutdown, hs]
      rw [hstep]
      exact .opened h
  | handleWrite r =>
    rw [step_quiet (e := .handleWrite r) rfl (by simp) (by simp)]
    refine h.handleWrite r ?_
    rintro n rfl hs hw hn
    exact hwaits.2.1 (by simp [flushes, hs, hw, hn])
  | handleClose =>
    rw [step_quiet (e := .handleClose) rfl (by simp) (by simp)]
    exact h.drop (hwaits.2.2 rfl) rfl (TcpConnection.isWriting_handleClose _) rfl
      (TcpConnection.trace_handleClose _) (by simp)
  | handleRead r =>
    rw [step_quiet (e := .handleRead r) rfl (by simp) (by simp)]
    cases r with
    | fail e => exact .opened h
    | ok data =>
      rcases eq_or_ne data [] with rfl | hne
      · exact h.drop (hwaits.2.2 rfl) rfl (TcpConnection.isWriting_handleClose _) rfl
          (TcpConnection.trace_handleClose _) (by simp)
      · simp only [TcpConnection.step, TcpConnection.handleRead, hne, if_false]
        refine .opened (h.carry h.up id rfl h.watching ?_ (.of_eq rfl) ?_)
        · simpa using h.never
        · simp [wire]
  | doPendingFunctor r => exact h.doPendingFunctor (by simpa [isSending] using hsends.1)
  | connectDestroyed =>
    rw [step_quiet (e := .connectDestroyed) rfl (by simp) (by simp), TcpConnection.step,
      TcpConnection.connectDestroyed]
    split
    · next hs =>
      exact h.drop (hwaits.2.2 (decide_eq_true hs)) rfl s.conn.channel_.isWriting_disableAll rfl rfl
        (by simp)
    · exact .opened h
  | sendFile | forceClose | forceCloseInLoop | sendFromThread | sendFileFromThread
  | shutdownFromThread => cases hsends.1

/-! ## The other threads, with the write side open -/

/-- A thread moves on in its call and leaves the rest alone. -/
theorem Open.setCall {s : SharedConnection τ} (h : Open s []) (t : τ) {call : Call}
    (hforce : call ≠ .forceCloseTested ∧ call ≠ .forceCloseStored)
    (hstored : call = .shutdownStored → ¬ s.conn.Early) : Open (s.setCall t call) [] := by
  refine { h with early := fun hc => ⟨(h.early hc).1, fun t' => ?_⟩, calls := fun t' => ?_ }
  · rcases eq_or_ne t' t with rfl | hne
    · rw [calls_setCall_self]
      exact fun hcall => hstored hcall hc
    · rw [calls_setCall_of_ne s call hne]
      exact (h.early hc).2 t'
  · rcases eq_or_ne t' t with rfl | hne
    · rw [calls_setCall_self]
      exact hforce
    · rw [calls_setCall_of_ne s call hne]
      exact h.calls t'

theorem Open.proceed {s : SharedConnection τ} (h : Open s []) (t : τ) :
    Open (s.proceed t) [] := by
  unfold SharedConnection.proceed
  cases hcall : s.calls t with
  | idle => exact h
  | sendTested message => exact (h.queueSend message).setCall t (by simp) (by simp)
  | shutdownTested =>
    have hlate : ¬ TcpConnection.Early (s.conn.setState .kDisconnecting) := by
      rintro (hc | hc) <;> cases hc
    have hstore : Open { s with conn := s.conn.setState .kDisconnecting } [] :=
      h.carry (by simp) (fun hc => absurd hc hlate) rfl h.watching h.never (.of_eq rfl) (by simp)
    exact hstore.setCall t (by simp) (fun _ => hlate)
  | shutdownStored =>
    have hlate : ¬ s.conn.Early := fun hc => (h.early hc).2 t hcall
    exact (h.queueShutdown hlate).setCall t (by simp) (by simp)
  | forceCloseTested => exact absurd hcall (h.calls t).1
  | forceCloseStored => exact absurd hcall (h.calls t).2

theorem Open.step {s : SharedConnection τ} (h : Open s []) {e : Event τ} (hsends : s.Sends e)
    (hwaits : s.Waits e) : Phase (s.step e) := by
  cases e with
  | loop e => exact h.loop hsends hwaits
  | send t message =>
    simp only [SharedConnection.step, SharedConnection.send]
    split
    · exact .opened (h.setCall t (by simp) (by simp))
    · exact .opened h
  | shutdown t =>
    simp only [SharedConnection.step, SharedConnection.shutdown]
    split
    · next hs => exact .opened ((h.promise hs.2).setCall t (by simp) (by simp))
    · exact .opened h
  | forceClose t => cases hsends
  | proceed t => exact .opened (h.proceed t)

end SharedConnection

end Mymuduo
