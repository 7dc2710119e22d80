import Mymuduo.Net.Sending
import Mymuduo.Lib.Transition

/-!
# Buffered sending is lossless

A run that only sends messages: `send`, `shutdown` and `forceClose` in the loop thread, between the
events and functors of the loop. `Lossless` is its invariant: what was accepted is what is on the
wire followed by what is buffered, the channel watches for writability exactly while something is
buffered, and once the write side is shut down (`WriteSide.shut`) everything accepted went out
before and nothing comes after.

* `Lossless.step`: every step of such a run keeps the invariant.
* `buffered_output_lossless`: what this says about a whole run from `connectEstablished`.
* `buffered_output_from_thread`: what is left of it where other threads call `shutdown` too.
-/

namespace Mymuduo.TcpConnection

open CString Transition

/-- The calls and events of a run that sends messages only, and never finds the peer gone in a
direct write. The calls are made in the loop thread. `shutdown` in another thread is left out, since
the write side is then shut down twice where the loop finishes the output before it runs the queued
functor: `buffered_output_from_thread` says what holds with it. -/
def Event.isBuffered : Event → Bool
  | .send _ r => !r.isFault
  | .shutdown => true
  | .forceClose => true
  | .forceCloseInLoop => true
  | .handleRead _ => true
  | .handleWrite _ => true
  | .handleClose => true
  | .doPendingFunctor _ => true
  | .connectDestroyed => true
  | _ => false

/-- The messages that `send` accepts. -/
def accepted (c : TcpConnection) : Event → List Bytes
  | .send message _ => if c.state_ = .kConnected then [message] else []
  | _ => []

/-- The write side of a connection that accepted the bytes `all`. -/
inductive WriteSide (c : TcpConnection) (all : Bytes) : Prop
  | opened (never : Effect.shutdownWrite ∉ c.trace)
  | shut (pre post : List Effect) (once : c.trace = pre ++ .shutdownWrite :: post)
      (first : Effect.shutdownWrite ∉ pre) (last : Effect.shutdownWrite ∉ post)
      (complete : wire pre = all) (quiet : wire post = [])
      (refuses : c.state_ ≠ .kConnected) (drained : c.outputBuffer_.readable = [])

/-- The invariant of a run that sends messages only. -/
structure Lossless (c : TcpConnection) (all : Bytes) : Prop where
  noFile : c.sendLen_ = 0
  queue : ∀ f ∈ c.pendingFunctors_, f.isCallback = true ∨ f = .forceCloseInLoop
  output : c.state_ ≠ .kDisconnected → wire c.trace ++ c.outputBuffer_.readable = all
  watching : c.state_ ≠ .kDisconnected →
    (c.isWriting = true ↔ c.outputBuffer_.readable ≠ [])
  unwatched : c.state_ = .kDisconnected → c.isWriting = false
  writeSide : WriteSide c all

/-! ## The write side -/

/-- Effects that write nothing leave the write side as it is. -/
theorem WriteSide.quiet_step {c c' : TcpConnection} {all : Bytes} (h : WriteSide c all)
    (es : List Effect) (htr : c'.trace = c.trace ++ es) (hno : Effect.shutdownWrite ∉ es)
    (hwire : wire es = []) (hout : c'.outputBuffer_.readable = c.outputBuffer_.readable)
    (hstate : c'.state_ = .kConnected → c.state_ = .kConnected) : WriteSide c' all := by
  cases h with
  | opened never =>
    refine .opened ?_
    rw [htr, List.mem_append]
    rintro (h | h)
    · exact never h
    · exact hno h
  | shut pre post once first last complete quiet refuses drained =>
    refine .shut pre (post ++ es) (by simp [htr, once]) first ?_ complete (by simp [quiet, hwire])
      (fun h => refuses (hstate h)) (by rw [hout, drained])
    rw [List.mem_append]
    rintro (h | h)
    · exact last h
    · exact hno h

/-- The write side is still open while the connection accepts messages or has some left. -/
theorem WriteSide.never {c : TcpConnection} {all : Bytes} (h : WriteSide c all)
    (hopen : c.state_ = .kConnected ∨ c.outputBuffer_.readable ≠ []) :
    Effect.shutdownWrite ∉ c.trace := by
  cases h with
  | opened never => exact never
  | shut pre post once first last complete quiet refuses drained =>
    rcases hopen with hs | hout
    · exact absurd hs refuses
    · exact absurd drained hout

/-- The one way to shut down: with everything out, on a connection that accepts no more. -/
theorem WriteSide.of_shutdown {c' : TcpConnection} {all : Bytes} {es : List Effect}
    (htr : c'.trace = es ++ [.shutdownWrite]) (hno : Effect.shutdownWrite ∉ es)
    (hwire : wire es = all) (hstate : c'.state_ ≠ .kConnected)
    (hout : c'.outputBuffer_.readable = []) : WriteSide c' all :=
  .shut es [] htr hno (by simp) hwire rfl hstate hout

/-! ## The steps -/

/-- Callbacks may join a queue of callbacks and a few functors of the connection's own. -/
theorem QueuesCallbacks.queue {c c' : TcpConnection} (hq : QueuesCallbacks c c')
    {own : Functor → Prop} (h : ∀ f ∈ c.pendingFunctors_, f.isCallback = true ∨ own f) :
    ∀ f ∈ c'.pendingFunctors_, f.isCallback = true ∨ own f := by
  obtain ⟨fs, hfs, heq⟩ := hq
  intro f hf
  rw [heq, List.mem_append] at hf
  rcases hf with hf | hf
  · exact h f hf
  · exact .inl (hfs f hf)

/-- Bytes go out directly only when nothing is buffered, so the order is kept. -/
theorem SendSpec.in_order {c c' : TcpConnection} {sent rest : Bytes} (h : SendSpec c c' sent rest) :
    c.outputBuffer_.readable ++ (sent ++ rest) = sent ++ (c.outputBuffer_.readable ++ rest) := by
  rcases eq_or_ne sent [] with rfl | hne
  · simp
  · simp [(h.direct hne).2]

theorem Lossless.send {c : TcpConnection} {all : Bytes} (h : Lossless c all)
    (hs : c.state_ = .kConnected) {message : Bytes} {r : SysRet} (hr : r.isFault = false) :
    Lossless (c.sendInLoop message r) (all ++ message) := by
  have hup : c.state_ ≠ .kDisconnected := by simp [hs]
  obtain ⟨sent, rest, hmsg, hspec⟩ := sendInLoop_spec hup message r
  obtain ⟨es, hes, htr⟩ := hspec.trace
  have hnever := h.writeSide.never (.inl hs)
  have hstate : (c.sendInLoop message r).state_ = .kConnected := hspec.control.state_.trans hs
  refine ⟨hspec.control.sendLen_.trans h.noFile, hspec.queue.queue h.queue, ?_,
    ?_, fun hd => by simp [hstate] at hd, .opened ?_⟩
  -- what went out directly and what is buffered are the message, behind all that was before
  · intro _
    rw [htr, hspec.out, wire_append, hes.wire_eq, ← h.output hup, hmsg hr, List.append_assoc,
      List.append_assoc, hspec.in_order]
  · intro _
    rw [hspec.writing, hspec.out, h.watching hup]
    simp only [ne_eq, List.append_eq_nil_iff, not_and_or]
  · rw [htr, List.mem_append]
    rintro (hm | hm)
    · exact hnever hm
    · exact hes.notMem (by simp) hm

theorem Lossless.handleWrite {c : TcpConnection} {all : Bytes} (h : Lossless c all) (r : SysRet) :
    Lossless (c.handleWrite r) all := by
  unfold TcpConnection.handleWrite
  split
  · next hw =>
    -- with no file about, the write interest is for the buffer
    have hup : c.state_ ≠ .kDisconnected := fun hd => by simp [h.unwatched hd] at hw
    have hout := (h.watching hup).mp hw
    have hne : c.outputBuffer_.readableBytes ≠ 0 := fun h0 =>
      hout (Buffer.readableBytes_eq_zero.mp h0)
    rw [if_pos hne]
    obtain ⟨sent, hspec⟩ := writeBuffer_spec hw hout r
    obtain ⟨es, hes, htr⟩ := hspec.trace
    have hnever := h.writeSide.never (.inr hout)
    have hall : wire (c.trace ++ es) ++ (c.writeBuffer r).outputBuffer_.readable = all := by
      rw [wire_append, hes.wire_eq, List.append_assoc, ← hspec.out, h.output hup]
    have hwriting : (c.writeBuffer r).isWriting = true ↔
        (c.writeBuffer r).outputBuffer_.readable ≠ [] := by
      simpa [h.noFile] using hspec.writing
    have hno : Effect.shutdownWrite ∉ c.trace ++ es := by
      rw [List.mem_append]
      rintro (hm | hm)
      · exact hnever hm
      · exact hes.notMem (by simp) hm
    have hlossless : ∀ due : List Effect, wire due = [] →
        (c.writeBuffer r).trace = c.trace ++ es ++ due → WriteSide (c.writeBuffer r) all →
        Lossless (c.writeBuffer r) all := fun due hdue htrace hside =>
      ⟨hspec.control.sendLen_.trans h.noFile, hspec.queue.queue h.queue,
        fun _ => by rw [htrace, wire_append, hdue, List.append_nil, hall], fun _ => hwriting,
        fun hd => absurd (hspec.control.state_.symm.trans hd) hup, hside⟩
    cases hdone : (c.writeBuffer r).isWriting with
    | true =>
      rw [hdone, if_pos rfl, List.append_nil] at htr
      exact hlossless [] rfl (by simpa using htr) (.opened (htr ▸ hno))
    | false =>
      have hempty : (c.writeBuffer r).outputBuffer_.readable = [] := by
        by_contra hrest
        simp [hwriting.mpr hrest] at hdone
      rw [hempty, List.append_nil] at hall
      -- the last byte went out: a shutdown that waited for it happens now
      by_cases hs : c.state_ = .kDisconnecting
      · have hdue : c.dueShutdown = [.shutdownWrite] := if_pos hs
        simp only [hdone, Bool.false_eq_true, if_false, hdue] at htr
        refine hlossless _ rfl htr (.of_shutdown htr hno hall ?_ hempty)
        rw [hspec.control.state_, hs]
        decide
      · have hdue : c.dueShutdown = [] := if_neg hs
        simp only [hdone, Bool.false_eq_true, if_false, hdue, List.append_nil] at htr
        exact hlossless [] rfl (by simpa using htr) (.opened (htr ▸ hno))
  · exact h

theorem Lossless.shutdown {c : TcpConnection} {all : Bytes} (h : Lossless c all) :
    Lossless c.shutdown all := by
  unfold TcpConnection.shutdown
  split
  · next hs =>
    have hup : c.state_ ≠ .kDisconnected := by simp [hs]
    have hnever := h.writeSide.never (.inl hs)
    unfold shutdownInLoop
    split
    · next hw =>
      have hnw : c.isWriting = false := by simpa using hw
      have hempty : c.outputBuffer_.readable = [] := by
        by_contra hrest
        simp [(h.watching hup).mpr hrest] at hnw
      have hall := h.output hup
      rw [hempty, List.append_nil] at hall
      refine ⟨h.noFile, h.queue, ?_, fun _ => h.watching hup, fun hd => (by cases hd),
        .of_shutdown rfl hnever hall (by simp) hempty⟩
      intro _
      simp [wire, hall, hempty]
    · exact ⟨h.noFile, h.queue, fun _ => h.output hup, fun _ => h.watching hup,
        fun hd => (by cases hd), .opened hnever⟩
  · exact h

/-- Going down: the connection watches for nothing more and writes nothing more. -/
theorem Lossless.down {c c' : TcpConnection} {all : Bytes} (h : Lossless c all)
    (hlen : c'.sendLen_ = c.sendLen_) (hq : c'.pendingFunctors_ = c.pendingFunctors_)
    (hs : c'.state_ = .kDisconnected) (hw : c'.isWriting = false)
    (hout : c'.outputBuffer_ = c.outputBuffer_) {es : List Effect} (htr : c'.trace = c.trace ++ es)
    (hno : Effect.shutdownWrite ∉ es) (hwire : wire es = []) : Lossless c' all :=
  ⟨hlen.trans h.noFile, by rw [hq]; exact h.queue, fun hup => absurd hs hup,
    fun hup => absurd hs hup, fun _ => hw,
    h.writeSide.quiet_step es htr hno hwire (by rw [hout]) fun hs' => by simp [hs] at hs'⟩

theorem Lossless.handleClose {c : TcpConnection} {all : Bytes} (h : Lossless c all) :
    Lossless c.handleClose all :=
  h.down rfl rfl rfl (isWriting_handleClose c) rfl (trace_handleClose c) (by simp) rfl

theorem Lossless.connectDestroyed {c : TcpConnection} {all : Bytes} (h : Lossless c all) :
    Lossless c.connectDestroyed all := by
  unfold TcpConnection.connectDestroyed
  split
  · exact h.down rfl rfl rfl (Channel.isWriting_disableAll c.channel_) rfl rfl (by simp) rfl
  · exact h

theorem Lossless.handleRead {c : TcpConnection} {all : Bytes} (h : Lossless c all) (r : ReadRet) :
    Lossless (c.handleRead r) all := by
  cases r with
  | fail e => exact h
  | ok data =>
    rw [TcpConnection.handleRead]
    split
    · exact h.handleClose
    · exact ⟨h.noFile, h.queue, fun hup => by simpa [wire] using h.output hup, h.watching,
        h.unwatched,
        h.writeSide.quiet_step [.messageCallback] rfl (by simp) rfl rfl fun hs => hs⟩

theorem Lossless.forceClose {c : TcpConnection} {all : Bytes} (h : Lossless c all) :
    Lossless c.forceClose all := by
  unfold TcpConnection.forceClose
  split
  · next hs =>
    have hup : c.state_ ≠ .kDisconnected := by
      rintro hd
      rcases hs with hs | hs <;> simp [hs] at hd
    refine ⟨h.noFile, ?_, fun _ => h.output hup, fun _ => h.watching hup, fun hd => (by cases hd),
      h.writeSide.quiet_step [] (by simp) (by simp) rfl rfl fun hs => by cases hs⟩
    intro f hf
    rcases List.mem_append.mp hf with hf | hf
    · exact h.queue f hf
    · exact .inr (List.mem_singleton.mp hf)
  · exact h

theorem Lossless.forceCloseInLoop {c : TcpConnection} {all : Bytes} (h : Lossless c all) :
    Lossless c.forceCloseInLoop all := by
  unfold TcpConnection.forceCloseInLoop
  split
  · exact h.handleClose
  · exact h

/-- The queue holds callbacks and `forceCloseInLoop` only. -/
theorem Lossless.doPendingFunctor {c : TcpConnection} {all : Bytes} (h : Lossless c all)
    (r : SysRet) : Lossless (c.step (.doPendingFunctor r)) all := by
  cases hq : c.pendingFunctors_ with
  | nil => simpa only [TcpConnection.step, hq] using h
  | cons f fs =>
    have hrest : Lossless { c with pendingFunctors_ := fs } all :=
      ⟨h.noFile, fun f' hf' => h.queue f' (by rw [hq]; exact List.mem_cons_of_mem _ hf'), h.output,
        h.watching, h.unwatched, h.writeSide.quiet_step [] (by simp) (by simp) rfl rfl
          fun hs => hs⟩
    simp only [TcpConnection.step, hq]
    rcases h.queue f (by rw [hq]; exact List.mem_cons_self) with hf | rfl
    · cases f <;> first | exact hrest | cases hf
    · exact hrest.forceCloseInLoop

/-- Every step of a run that sends messages only keeps the invariant. -/
theorem Lossless.step {c : TcpConnection} {all : Bytes} (h : Lossless c all) {e : Event}
    (he : e.isBuffered = true) : Lossless (c.step e) (all ++ (c.accepted e).flatten) := by
  cases e with
  | send message r =>
    have hr : r.isFault = false := by simpa [Event.isBuffered] using he
    rw [TcpConnection.step, TcpConnection.send, accepted]
    split
    · next hs => simpa using h.send hs hr
    · simpa using h
  | shutdown => simpa [accepted, TcpConnection.step] using h.shutdown
  | forceClose => simpa [accepted, TcpConnection.step] using h.forceClose
  | forceCloseInLoop => simpa [accepted, TcpConnection.step] using h.forceCloseInLoop
  | handleRead r => simpa [accepted, TcpConnection.step] using h.handleRead r
  | handleWrite r => simpa [accepted, TcpConnection.step] using h.handleWrite r
  | handleClose => simpa [accepted, TcpConnection.step] using h.handleClose
  | doPendingFunctor r => simpa [accepted] using h.doPendingFunctor r
  | connectDestroyed => simpa [accepted, TcpConnection.step] using h.connectDestroyed
  | _ => cases he

/-! ## Whole runs -/

/-- A connection just after `connectEstablished`. -/
def established (highWaterMark : Nat) (highWaterMarkCallback writeCompleteCallback : Bool)
    (files : Int → Bytes) : TcpConnection :=
  (new highWaterMark highWaterMarkCallback writeCompleteCallback files).connectEstablished

theorem isWriting_established (highWaterMark : Nat) (hcb wcb : Bool) (files : Int → Bytes) :
    (established highWaterMark hcb wcb files).isWriting = false := by
  simp [established, connectEstablished]

theorem lossless_established (highWaterMark : Nat) (hcb wcb : Bool) (files : Int → Bytes) :
    Lossless (established highWaterMark hcb wcb files) [] :=
  ⟨rfl, by simp [established, connectEstablished, new], fun _ => rfl,
    fun _ => by rw [isWriting_established]; simp [established, connectEstablished, new],
    fun hd => (by cases hd), .opened (by simp [established, connectEstablished, new])⟩

theorem lossless_run (highWaterMark : Nat) (hcb wcb : Bool) (files : Int → Bytes)
    {es : List Event} (hes : ∀ e ∈ es, e.isBuffered = true) :
    Lossless (run step (established highWaterMark hcb wcb files) es)
      (collect accepted step (established highWaterMark hcb wcb files) es).flatten := by
  exact run_ledger accepted (I := fun c acc => Lossless c acc.flatten)
    (fun c e acc hc he => by simpa using hc.step he)
    (lossless_established highWaterMark hcb wcb files) (meets_of_forall hes)

/-- In a run that only sends messages nothing is lost or reordered, and the write side is shut down
at most once, after everything accepted went out. -/
theorem buffered_output_lossless (highWaterMark : Nat) (hcb wcb : Bool) (files : Int → Bytes)
    (es : List Event) (hes : ∀ e ∈ es, e.isBuffered = true) :
    let c := run step (established highWaterMark hcb wcb files) es
    let all := (collect accepted step (established highWaterMark hcb wcb files) es).flatten
    (c.state_ ≠ .kDisconnected → wire c.trace ++ c.outputBuffer_.readable = all) ∧
      c.trace.count .shutdownWrite ≤ 1 ∧
      (Effect.shutdownWrite ∈ c.trace → c.outputBuffer_.readable = []) ∧
      ∀ pre post, c.trace = pre ++ .shutdownWrite :: post → wire pre = all ∧ wire post = [] := by
  intro c all
  have h : Lossless c all := lossless_run highWaterMark hcb wcb files hes
  refine ⟨h.output, ?_⟩
  cases h.writeSide with
  | opened never =>
    refine ⟨by rw [List.count_eq_zero_of_not_mem never]; omega, fun hm => absurd hm never, ?_⟩
    intro pre post heq
    exact absurd (by rw [heq]; simp) never
  | shut pre post once first last complete quiet refuses drained =>
    refine ⟨?_, fun _ => drained, ?_⟩
    · rw [once, List.count_append, List.count_cons_self, List.count_eq_zero_of_not_mem first,
        List.count_eq_zero_of_not_mem last]
    · intro pre' post' heq
      obtain ⟨rfl, -, rfl⟩ :=
        (List.append_cons_inj_of_notMem first last).mp (once.symm.trans heq)
      exact ⟨complete, quiet⟩

/-- Two messages, both taken in part only, and a `shutdown` before the rest is out. -/
theorem lossless_hello_world :
    let c := run step (established 64 true true fun _ => [])
      [.send (ascii "hello ") (.ok 2), .send (ascii "world") (.ok 5), .shutdown,
        .handleWrite (.fail .EWOULDBLOCK), .handleWrite (.ok 100)]
    wire c.trace ++ c.outputBuffer_.readable = ascii "hello world" ∧
      c.trace.count .shutdownWrite ≤ 1 ∧ c.outputBuffer_.readable = [] := by
  intro c
  obtain ⟨hall, honce, hdrained, -⟩ := buffered_output_lossless 64 true true (fun _ => [])
    [.send (ascii "hello ") (.ok 2), .send (ascii "world") (.ok 5), .shutdown,
      .handleWrite (.fail .EWOULDBLOCK), .handleWrite (.ok 100)] (by decide)
  refine ⟨(hall (by decide +kernel)).trans (by decide +kernel), honce, hdrained ?_⟩
  decide +kernel

/-! ## `shutdown` in another thread -/

/-- Nothing goes out once the write side is shut down. -/
def LastOut (tr : List Effect) : Prop :=
  ∀ pre post, tr = pre ++ .shutdownWrite :: post → wire post = []

theorem lastOut_of_notMem {tr : List Effect} (h : Effect.shutdownWrite ∉ tr) : LastOut tr := by
  rintro pre post rfl
  exact absurd (List.mem_append_right pre List.mem_cons_self) h

theorem LastOut.append {tr es : List Effect} (h : LastOut tr) (hwire : wire es = []) :
    LastOut (tr ++ es) := by
  intro pre post heq
  -- the shutdown is among the new effects, or among the old ones
  rcases List.append_eq_append_iff.mp heq with ⟨mid, -, hes⟩ | ⟨mid, htr, hpost⟩
  · rw [hes, wire_append, List.append_eq_nil_iff] at hwire
    exact hwire.2
  · cases mid with
    | nil =>
      rw [List.nil_append] at hpost
      rw [← hpost] at hwire
      exact hwire
    | cons e mid =>
      obtain ⟨rfl, hrest⟩ := List.cons_eq_cons.mp hpost
      change post = mid ++ es at hrest
      rw [hrest, wire_append, h pre mid htr, hwire, List.append_nil]

/-- The invariant of a run in which other threads call `shutdown` too: one shutdown is of the loop's
own making at most, and one of a functor. -/
structure LosslessShared (c : TcpConnection) (all : Bytes) : Prop where
  noFile : c.sendLen_ = 0
  queue : ∀ f ∈ c.pendingFunctors_,
    f.isCallback = true ∨ f = .forceCloseInLoop ∨ f = .shutdownInLoop
  output : c.state_ ≠ .kDisconnected → wire c.trace ++ c.outputBuffer_.readable = all
  watching : c.state_ ≠ .kDisconnected →
    (c.isWriting = true ↔ c.outputBuffer_.readable ≠ [])
  unwatched : c.state_ = .kDisconnected → c.isWriting = false
  unasked : c.state_ = .kConnected → c.pendingFunctors_.count .shutdownInLoop = 0
  asked : c.pendingFunctors_.count .shutdownInLoop ≤ 1
  never : c.state_ = .kConnected ∨ c.isWriting = true → Effect.shutdownWrite ∉ c.trace
  twice : c.trace.count .shutdownWrite + c.pendingFunctors_.count .shutdownInLoop ≤ 2
  last : LastOut c.trace

section Shared

variable {c : TcpConnection} {all : Bytes}

theorem count_shutdownInLoop_callbacks {fs : List Functor} (hfs : ∀ f ∈ fs, f.isCallback = true) :
    fs.count .shutdownInLoop = 0 :=
  List.count_eq_zero_of_not_mem fun h => by cases hfs _ h

/-- What queues callbacks only queues no shutdown. -/
theorem QueuesCallbacks.count_shutdownInLoop {c c' : TcpConnection} (h : QueuesCallbacks c c') :
    c'.pendingFunctors_.count .shutdownInLoop = c.pendingFunctors_.count .shutdownInLoop := by
  obtain ⟨fs, hfs, hq⟩ := h
  rw [hq, List.count_append, count_shutdownInLoop_callbacks hfs, Nat.add_zero]

theorem LosslessShared.send (h : LosslessShared c all) (hs : c.state_ = .kConnected)
    {message : Bytes} {r : SysRet} (hr : r.isFault = false) :
    LosslessShared (c.sendInLoop message r) (all ++ message) := by
  have hup : c.state_ ≠ .kDisconnected := by simp [hs]
  obtain ⟨sent, rest, hmsg, hspec⟩ := sendInLoop_spec hup message r
  obtain ⟨es, hes, htr⟩ := hspec.trace
  have hstate : (c.sendInLoop message r).state_ = .kConnected := hspec.control.state_.trans hs
  have hnever : Effect.shutdownWrite ∉ (c.sendInLoop message r).trace := by
    rw [htr, List.mem_append]
    rintro (hm | hm)
    · exact h.never (.inl hs) hm
    · exact hes.notMem (by simp) hm
  have hcount := hspec.queue.count_shutdownInLoop
  refine ⟨hspec.control.sendLen_.trans h.noFile, hspec.queue.queue h.queue, ?_, ?_,
    fun hd => by simp [hstate] at hd, fun _ => hcount.trans (h.unasked hs), hcount ▸ h.asked,
    fun _ => hnever, ?_, lastOut_of_notMem hnever⟩
  · intro _
    rw [htr, hspec.out, wire_append, hes.wire_eq, ← h.output hup, hmsg hr, List.append_assoc,
      List.append_assoc, hspec.in_order]
  · intro _
    rw [hspec.writing, hspec.out, h.watching hup]
    simp only [ne_eq, List.append_eq_nil_iff, not_and_or]
  · rw [List.count_eq_zero_of_not_mem hnever, Nat.zero_add, hcount]
    exact Nat.le_succ_of_le h.asked

/-- The loop finishes the output and shuts down, whether or not a functor is on its way that will do
so again. -/
theorem LosslessShared.handleWrite (h : LosslessShared c all) (r : SysRet) :
    LosslessShared (c.handleWrite r) all := by
  unfold TcpConnection.handleWrite
  split
  · next hw =>
    have hup : c.state_ ≠ .kDisconnected := fun hd => by simp [h.unwatched hd] at hw
    have hout := (h.watching hup).mp hw
    rw [if_pos fun h0 => hout (Buffer.readableBytes_eq_zero.mp h0)]
    obtain ⟨sent, hspec⟩ := writeBuffer_spec hw hout r
    obtain ⟨es, hes, htr⟩ := hspec.trace
    have hnever : Effect.shutdownWrite ∉ c.trace ++ es := by
      rw [List.mem_append]
      rintro (hm | hm)
      · exact h.never (.inr hw) hm
      · exact hes.notMem (by simp) hm
    have hcount := hspec.queue.count_shutdownInLoop
    -- a shutdown that is due is the loop's own; the one in the queue stays there
    obtain ⟨due, hdue, hquiet, honce, hconnected⟩ : ∃ due : List Effect,
        (c.writeBuffer r).trace = c.trace ++ es ++ due ∧ wire due = [] ∧
          due.count .shutdownWrite ≤ 1 ∧
          (c.state_ = .kConnected ∨ (c.writeBuffer r).isWriting = true → due = []) := by
      refine ⟨_, htr, ?_⟩
      unfold dueShutdown
      cases (c.writeBuffer r).isWriting <;> cases c.state_ <;> decide
    have hwire : wire (c.writeBuffer r).trace = wire c.trace ++ sent := by
      rw [hdue, wire_append, wire_append, hes.wire_eq, hquiet, List.append_nil]
    refine ⟨hspec.control.sendLen_.trans h.noFile, hspec.queue.queue h.queue, ?_, ?_,
      fun hd => absurd (hspec.control.state_.symm.trans hd) hup, ?_, hcount ▸ h.asked, ?_, ?_, ?_⟩
    · intro _
      rw [hwire, List.append_assoc, ← hspec.out, h.output hup]
    · intro _
      simpa [h.noFile] using hspec.writing
    · intro hs
      exact hcount.trans (h.unasked (hspec.control.state_.symm.trans hs))
    · intro hopen
      rw [hdue, hconnected (hopen.imp_left fun hs => hspec.control.state_.symm.trans hs),
        List.append_nil]
      exact hnever
    · rw [hdue, List.count_append, List.count_eq_zero_of_not_mem hnever, Nat.zero_add, hcount]
      exact Nat.add_le_add honce h.asked
    · rw [hdue]
      exact (lastOut_of_notMem hnever).append hquiet
  · exact h

theorem LosslessShared.disconnecting (h : LosslessShared c all)
    (hup : c.state_ ≠ .kDisconnected) : LosslessShared (c.setState .kDisconnecting) all :=
  ⟨h.noFile, h.queue, fun _ => h.output hup, fun _ => h.watching hup, fun hd => (by cases hd),
    fun hs => (by cases hs), h.asked, fun hopen => h.never (.inr (hopen.resolve_left (by simp))),
    h.twice, h.last⟩

/-- The end of the write side, where nothing is left to be written. -/
theorem LosslessShared.shutdownInLoop (h : LosslessShared c all)
    (hs : c.state_ ≠ .kConnected)
    (htwice : c.trace.count .shutdownWrite + c.pendingFunctors_.count .shutdownInLoop ≤ 1) :
    LosslessShared c.shutdownInLoop all := by
  unfold TcpConnection.shutdownInLoop
  split
  · next hw =>
    have hnw : c.isWriting = false := by simpa using hw
    refine ⟨h.noFile, h.queue, fun hup => ?_, h.watching, h.unwatched, h.unasked, h.asked, ?_, ?_,
      h.last.append rfl⟩
    · simpa [wire] using h.output hup
    · rintro (hopen | hopen)
      · exact absurd hopen hs
      · exact absurd (hnw.symm.trans hopen) Bool.false_ne_true
    · rw [emit_trace, List.count_append, emit_pendingFunctors_, Nat.add_right_comm]
      exact Nat.add_le_add_right htwice 1
  · exact h

/-- What another thread or `forceClose` queues. -/
theorem LosslessShared.queueInLoop (h : LosslessShared c all) {f : Functor}
    (hs : c.state_ = .kDisconnecting)
    (hf : f = .forceCloseInLoop ∨
      f = .shutdownInLoop ∧ c.pendingFunctors_.count .shutdownInLoop = 0 ∧
        c.trace.count .shutdownWrite = 0) : LosslessShared (c.queueInLoop f) all := by
  have hcount : (c.pendingFunctors_ ++ [f]).count .shutdownInLoop ≤ 1 ∧
      c.trace.count .shutdownWrite + (c.pendingFunctors_ ++ [f]).count .shutdownInLoop ≤ 2 := by
    rw [List.count_append]
    rcases hf with rfl | ⟨rfl, hnone, hopen⟩
    · exact ⟨h.asked, h.twice⟩
    · rw [hnone, hopen]
      decide
  refine ⟨h.noFile, ?_, h.output, h.watching, h.unwatched,
    fun hc => by simp [hs] at hc, hcount.1, h.never, hcount.2, h.last⟩
  intro f' hf'
  rcases List.mem_append.mp hf' with hf' | hf'
  · exact h.queue f' hf'
  · rw [List.mem_singleton.mp hf']
    exact .inr (hf.imp_right And.left)

theorem LosslessShared.down {c c' : TcpConnection} {all : Bytes} (h : LosslessShared c all)
    (hlen : c'.sendLen_ = c.sendLen_) (hq : c'.pendingFunctors_ = c.pendingFunctors_)
    (hs : c'.state_ = .kDisconnected) (hw : c'.isWriting = false) {es : List Effect}
    (htr : c'.trace = c.trace ++ es) (hno : es.count .shutdownWrite = 0) (hwire : wire es = []) :
    LosslessShared c' all := by
  refine ⟨hlen.trans h.noFile, hq ▸ h.queue, fun hup => absurd hs hup, fun hup => absurd hs hup,
    fun _ => hw, fun hc => by simp [hs] at hc, hq ▸ h.asked, ?_, ?_, htr ▸ h.last.append hwire⟩
  · rintro (hopen | hopen)
    · simp [hs] at hopen
    · exact absurd (hw.symm.trans hopen) Bool.false_ne_true
  · rw [hq, htr, List.count_append, hno]
    exact h.twice

theorem LosslessShared.handleClose (h : LosslessShared c all) : LosslessShared c.handleClose all :=
  h.down rfl rfl rfl (isWriting_handleClose c) (trace_handleClose c) (by simp) rfl

theorem LosslessShared.forceCloseInLoop (h : LosslessShared c all) :
    LosslessShared c.forceCloseInLoop all := by
  unfold TcpConnection.forceCloseInLoop
  split
  · exact h.handleClose
  · exact h

/-- A functor leaves the queue. -/
theorem LosslessShared.popped (h : LosslessShared c all) {f : Functor}
    {fs : List Functor} (hq : c.pendingFunctors_ = f :: fs) (r : SysRet) :
    LosslessShared ({ c with pendingFunctors_ := fs }.runFunctor r f) all := by
  have hle : fs.count .shutdownInLoop ≤ c.pendingFunctors_.count .shutdownInLoop := by
    rw [hq]
    exact List.count_le_count_cons
  have hrest : LosslessShared { c with pendingFunctors_ := fs } all :=
    ⟨h.noFile, fun f' hf' => h.queue f' (by rw [hq]; exact List.mem_cons_of_mem _ hf'), h.output,
      h.watching, h.unwatched, fun hs => Nat.eq_zero_of_le_zero (hle.trans (h.unasked hs).le),
      hle.trans h.asked, h.never, (Nat.add_le_add_left hle _).trans h.twice, h.last⟩
  rcases h.queue f (by rw [hq]; exact List.mem_cons_self) with hf | rfl | rfl
  · cases f <;> first | exact hrest | cases hf
  · exact hrest.forceCloseInLoop
  -- this functor was the only one of its kind
  · have hone : c.pendingFunctors_.count .shutdownInLoop = fs.count .shutdownInLoop + 1 := by
      rw [hq, List.count_cons_self]
    refine hrest.shutdownInLoop (fun hs => ?_) ?_
    · exact absurd (hone.symm.trans (h.unasked hs)) (Nat.succ_ne_zero _)
    · have htwice := h.twice
      rw [hone, ← Nat.add_assoc] at htwice
      exact Nat.le_of_succ_le_succ htwice

theorem LosslessShared.shutdown (h : LosslessShared c all) : LosslessShared c.shutdown all := by
  unfold TcpConnection.shutdown
  split
  · next hs =>
    refine (h.disconnecting (by simp [hs])).shutdownInLoop (by simp) ?_
    rw [setState_trace, setState_pendingFunctors_, h.unasked hs,
      List.count_eq_zero_of_not_mem (h.never (.inl hs))]
    decide
  · exact h

theorem LosslessShared.shutdownFromThread (h : LosslessShared c all) :
    LosslessShared c.shutdownFromThread all := by
  unfold TcpConnection.shutdownFromThread
  split
  · next hs =>
    exact (h.disconnecting (by simp [hs])).queueInLoop rfl
      (.inr ⟨rfl, h.unasked hs, List.count_eq_zero_of_not_mem (h.never (.inl hs))⟩)
  · exact h

theorem LosslessShared.forceClose (h : LosslessShared c all) :
    LosslessShared c.forceClose all := by
  unfold TcpConnection.forceClose
  split
  · next hs =>
    have hup : c.state_ ≠ .kDisconnected := by
      rintro hd
      rcases hs with hs | hs <;> simp [hs] at hd
    exact (h.disconnecting hup).queueInLoop rfl (.inl rfl)
  · exact h

theorem LosslessShared.connectDestroyed (h : LosslessShared c all) :
    LosslessShared c.connectDestroyed all := by
  unfold TcpConnection.connectDestroyed
  split
  · exact h.down rfl rfl rfl (Channel.isWriting_disableAll c.channel_) rfl (by simp) rfl
  · exact h

theorem LosslessShared.handleRead (h : LosslessShared c all) (r : ReadRet) :
    LosslessShared (c.handleRead r) all := by
  cases r with
  | fail e => exact h
  | ok data =>
    rw [TcpConnection.handleRead]
    split
    · exact h.handleClose
    · refine ⟨h.noFile, h.queue, fun hup => by simpa [wire] using h.output hup, h.watching,
        h.unwatched, h.unasked, h.asked, fun hopen => by simpa using h.never hopen, ?_,
        h.last.append rfl⟩
      simpa using h.twice

/-- Every step keeps the invariant, whoever calls `shutdown`. -/
theorem LosslessShared.step (h : LosslessShared c all) {e : Event}
    (he : e.isBuffered = true ∨ e = .shutdownFromThread) :
    LosslessShared (c.step e) (all ++ (c.accepted e).flatten) := by
  cases e with
  | send message r =>
    have hr : r.isFault = false := by simpa [Event.isBuffered] using he
    rw [TcpConnection.step, TcpConnection.send, accepted]
    split
    · next hs => simpa using h.send hs hr
    · simpa using h
  | shutdown => simpa [accepted, TcpConnection.step] using h.shutdown
  | shutdownFromThread => simpa [accepted, TcpConnection.step] using h.shutdownFromThread
  | forceClose => simpa [accepted, TcpConnection.step] using h.forceClose
  | forceCloseInLoop => simpa [accepted, TcpConnection.step] using h.forceCloseInLoop
  | handleRead r => simpa [accepted, TcpConnection.step] using h.handleRead r
  | handleWrite r => simpa [accepted, TcpConnection.step] using h.handleWrite r
  | handleClose => simpa [accepted, TcpConnection.step] using h.handleClose
  | doPendingFunctor r =>
    show LosslessShared _ (all ++ [])
    rw [List.append_nil]
    cases hq : c.pendingFunctors_ with
    | nil => simpa only [TcpConnection.step, hq] using h
    | cons f fs => simpa only [TcpConnection.step, hq] using h.popped hq r
  | connectDestroyed => simpa [accepted, TcpConnection.step] using h.connectDestroyed
  | _ => simp [Event.isBuffered] at he

end Shared

theorem losslessShared_established (highWaterMark : Nat) (hcb wcb : Bool) (files : Int → Bytes) :
    LosslessShared (established highWaterMark hcb wcb files) [] := by
  have h := lossless_established highWaterMark hcb wcb files
  have hnever : Effect.shutdownWrite ∉ (established highWaterMark hcb wcb files).trace := by
    simp [established, connectEstablished, new]
  exact ⟨h.noFile, fun f hf => (h.queue f hf).imp_right .inl, h.output, h.watching, h.unwatched,
    fun _ => rfl, Nat.zero_le 1, fun _ => hnever,
    (List.count_eq_zero_of_not_mem hnever).le.trans (Nat.zero_le 2), lastOut_of_notMem hnever⟩

/-- Where other threads call `shutdown` too, nothing is lost or reordered while the connection is
up, and nothing goes out once the write side is shut down. That happens twice at most, and as long
as the connection is up it comes after everything accepted. A call is one step here: threads that
all find `kConnected` before one of them stores queue a functor each. -/
theorem buffered_output_from_thread (highWaterMark : Nat) (hcb wcb : Bool) (files : Int → Bytes)
    (es : List Event) (hes : ∀ e ∈ es, e.isBuffered = true ∨ e = .shutdownFromThread) :
    let c := run step (established highWaterMark hcb wcb files) es
    let all := (collect accepted step (established highWaterMark hcb wcb files) es).flatten
    (c.state_ ≠ .kDisconnected → wire c.trace ++ c.outputBuffer_.readable = all) ∧
      c.trace.count .shutdownWrite ≤ 2 ∧
      ∀ pre post, c.trace = pre ++ .shutdownWrite :: post →
        wire post = [] ∧ (c.state_ ≠ .kDisconnected → wire pre = all) := by
  intro c all
  have h : LosslessShared c all := run_ledger accepted
    (I := fun c acc => LosslessShared c acc.flatten)
    (fun c e acc hc he => by simpa using hc.step he)
    (losslessShared_established highWaterMark hcb wcb files) (meets_of_forall hes)
  refine ⟨h.output, (Nat.le_add_right _ _).trans h.twice, ?_⟩
  intro pre post heq
  have hpost := h.last pre post heq
  refine ⟨hpost, fun hup => ?_⟩
  -- what was shut down is not watched, so nothing is buffered
  have hempty : c.outputBuffer_.readable = [] := by
    by_contra hout
    exact h.never (.inr ((h.watching hup).mpr hout)) (by rw [heq]; simp)
  have hall := h.output hup
  rw [hempty, List.append_nil, heq, wire_append] at hall
  change wire pre ++ wire post = all at hall
  rwa [hpost, List.append_nil] at hall

/-- The loop finishes the output before it runs the functor. -/
example : (run step (established 64 true true fun _ => []) [.send (ascii "hello") (.ok 2),
    .shutdownFromThread, .handleWrite (.ok 3), .doPendingFunctor (.ok 0),
    .doPendingFunctor (.ok 0)]).trace.count .shutdownWrite = 2 := by
  decide +kernel

end Mymuduo.TcpConnection
