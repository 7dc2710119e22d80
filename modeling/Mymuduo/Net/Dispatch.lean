import Mymuduo.Net.Sending
import Mymuduo.Lib.Transition

/-!
# One `handleEvent` of a connection's channel

`handleEvent` runs the callbacks that `handleEventWithGuard` selects, one after the other. The
kernel answers the read and the write, and the message callback makes any calls it likes in
between; the calls a user makes in a callback that reports the connection down do nothing any more
(`step_disconnected`).

`Step` is what each callback does about going down: nothing, or all of it once and from a state the
assertion of `handleClose` allows. Only `handleClose` on a connection that is already down is
neither, and `goesDownOnce_iff` says when the dispatch gets there: the masks for the close and the
read callback share `POLLHUP`, so a hang-up without input runs both, and the read that finds the
end of the stream closes again.
-/

namespace Mymuduo

open CString Transition

/-- The effects of going down. -/
def Effect.isDown : Effect → Bool
  | .handleClose _ => true
  | .connectionCallback up => !up
  | .closeCallback => true
  | _ => false

def Effect.isHandleClose : Effect → Bool
  | .handleClose _ => true
  | _ => false

def downs (es : List Effect) : List Effect := es.filter Effect.isDown

@[simp] theorem downs_append (es es' : List Effect) : downs (es ++ es') = downs es ++ downs es' :=
  List.filter_append ..

/-- The read brings data, so that the message callback is invoked. -/
def ReadRet.hasData : ReadRet → Bool
  | .ok data => data != []
  | .fail _ => false

namespace TcpConnection

/-- The calls a user can make on a connection in its loop. -/
def Event.isCall : Event → Bool
  | .send _ _ => true
  | .sendFile _ _ _ => true
  | .shutdown => true
  | .forceClose => true
  | .forceCloseInLoop => true
  | _ => false

/-- A callback of the channel. `handleError` only logs; `calls` are the calls that the user's
message callback makes. -/
def runCallback (read : ReadRet) (calls : List Event) (write : SysRet) (c : TcpConnection) :
    Channel.Callback → TcpConnection
  | .close => c.handleClose
  | .error => c
  | .read => run step (c.handleRead read) (if read.hasData then calls else [])
  | .write => c.handleWrite write

/-- `Channel::handleEvent` for the channel of a connection. -/
def handleEvent (c : TcpConnection) (revents : Events) (read : ReadRet) (calls : List Event)
    (write : SysRet) : TcpConnection :=
  (Channel.handleEventWithGuard revents).foldl (runCallback read calls write) c

/-- The connection is up, as the assertion of `handleClose` has it. -/
abbrev Up (c : TcpConnection) : Prop := c.state_ = .kConnected ∨ c.state_ = .kDisconnecting

/-- Between `c` and `c'` the connection went down at most once, and from a state in which it was
up. -/
def GoesDownOnce (c c' : TcpConnection) : Prop :=
  ∃ es, c'.trace = c.trace ++ es ∧ es.countP Effect.isHandleClose ≤ 1 ∧
    (∀ s, Effect.handleClose s ∈ es → s = .kConnected ∨ s = .kDisconnecting) ∧
    es.count (.connectionCallback false) ≤ 1 ∧ es.count .closeCallback ≤ 1

/-- Nothing between `c` and `c'` was about going down. -/
def Stays (c c' : TcpConnection) : Prop :=
  (c'.Up ↔ c.Up) ∧ ∃ es, c'.trace = c.trace ++ es ∧ downs es = []

/-- The connection went down between `c` and `c'`. -/
def Falls (c c' : TcpConnection) : Prop :=
  c.Up ∧ ¬ c'.Up ∧ ∃ es s, c'.trace = c.trace ++ es ∧
    downs es = [.handleClose s, .connectionCallback false, .closeCallback] ∧
    (s = .kConnected ∨ s = .kDisconnecting)

def Step (c c' : TcpConnection) : Prop := Stays c c' ∨ Falls c c'

theorem Stays.refl (c : TcpConnection) : Stays c c := ⟨Iff.rfl, [], by simp, rfl⟩

theorem Stays.trans {c₁ c₂ c₃ : TcpConnection} (h : Stays c₁ c₂) (h' : Stays c₂ c₃) :
    Stays c₁ c₃ := by
  obtain ⟨hup, es, htr, hno⟩ := h
  obtain ⟨hup', es', htr', hno'⟩ := h'
  exact ⟨hup'.trans hup, es ++ es', by rw [htr', htr, List.append_assoc], by simp [hno, hno']⟩

/-- Going down happens once: a connection that fell is not up to fall again. -/
theorem Step.trans {c₁ c₂ c₃ : TcpConnection} (h : Step c₁ c₂) (h' : Step c₂ c₃) : Step c₁ c₃ := by
  rcases h with h | ⟨hup, hdown, es, s, htr, hes, hs⟩
  · rcases h' with h' | ⟨hup', hdown', es', s', htr', hes', hs'⟩
    · exact .inl (h.trans h')
    · obtain ⟨hiff, es, htr, hno⟩ := h
      refine .inr ⟨hiff.mp hup', hdown', es ++ es', s', ?_, by simp [hno, hes'], hs'⟩
      rw [htr', htr, List.append_assoc]
  · rcases h' with ⟨hiff, es', htr', hno⟩ | ⟨hup', -⟩
    · refine .inr ⟨hup, fun h => hdown (hiff.mp h), es ++ es', s, ?_, by simp [hno, hes], hs⟩
      rw [htr', htr, List.append_assoc]
    · exact absurd hup' hdown

theorem countP_isHandleClose (es : List Effect) :
    es.countP Effect.isHandleClose = (downs es).countP Effect.isHandleClose := by
  rw [downs, List.countP_filter]
  congr 1
  funext e
  cases e <;> rfl

theorem Step.goesDownOnce {c c' : TcpConnection} (h : Step c c') : GoesDownOnce c c' := by
  rcases h with ⟨-, es, htr, hes⟩ | ⟨-, -, es, s, htr, hes, hs⟩
  · have hno : ∀ e, e.isDown = true → e ∉ es := fun e he hm => by
      have hmem : e ∈ downs es := List.mem_filter.mpr ⟨hm, he⟩
      simp [hes] at hmem
    refine ⟨es, htr, by simp [countP_isHandleClose, hes], fun s hm => absurd hm (hno _ rfl), ?_, ?_⟩
    · rw [List.count_eq_zero_of_not_mem (hno _ rfl)]
      omega
    · rw [List.count_eq_zero_of_not_mem (hno _ rfl)]
      omega
  · refine ⟨es, htr, ?_, ?_, ?_, ?_⟩
    · simp [countP_isHandleClose, hes, List.countP_cons, Effect.isHandleClose]
    · intro s' hm
      have hmem : Effect.handleClose s' ∈ downs es := List.mem_filter.mpr ⟨hm, rfl⟩
      rw [hes] at hmem
      obtain rfl : s' = s := by simpa using hmem
      exact hs
    · rw [← List.count_filter (p := Effect.isDown) rfl, ← downs, hes]
      simp
    · rw [← List.count_filter (p := Effect.isDown) rfl, ← downs, hes]
      simp

/-! ## The callbacks -/

theorem Outputs.stays {c c' : TcpConnection} (h : Outputs c c') : Stays c c' := by
  obtain ⟨es, hes, htr⟩ := h.trace
  refine ⟨by simp only [Up, h.state_], es, htr, List.filter_eq_nil_iff.mpr fun e he => ?_⟩
  have hout := hes e he
  cases e <;> simp_all [Effect.isOutput, Effect.isDown]

theorem falls_handleClose {c : TcpConnection} (hup : c.Up) : Falls c c.handleClose :=
  ⟨hup, (by rintro (h | h) <;> cases h), _, c.state_, trace_handleClose c, rfl, hup⟩

/-- A call of the user's brings the connection down only while it is up. -/
theorem step_call (c : TcpConnection) {e : Event} (he : e.isCall = true) : Step c (c.step e) := by
  rcases step_cases c e with heq | h
  · rw [heq]
    exact .inl (.refl c)
  generalize c.step e = c' at h ⊢
  cases h with
  | send hs message r => exact .inl (outputs_sendInLoop c message r).stays
  | sendFile hs fd count r => exact .inl (outputs_sendFileInLoop (c.setFile fd count) r).stays
  | shutdown hs =>
    unfold shutdownInLoop
    split
    · exact .inl ⟨by simp [Up, hs], [.shutdownWrite], rfl, rfl⟩
    · exact .inl ⟨by simp [Up, hs], [], by simp, rfl⟩
  | forceClose hup => exact .inl ⟨⟨fun _ => hup, fun _ => .inr rfl⟩, [], by simp, rfl⟩
  | forceCloseInLoop hup => exact .inr (falls_handleClose hup)
  | _ => cases he

theorem step_calls (c : TcpConnection) {es : List Event} (hes : ∀ e ∈ es, e.isCall = true) :
    Step c (run step c es) :=
  run_invariant (I := Step c) (fun c' _ h he => h.trans (step_call c' he)) (.inl (.refl c))
    (meets_of_forall hes)

/-- On a connection that is down, the calls of a user do nothing. -/
theorem step_disconnected {c : TcpConnection} (hs : c.state_ = .kDisconnected) {e : Event}
    (he : e.isCall = true) : c.step e = c := by
  cases e with
  | send | sendFile | shutdown | forceClose | forceCloseInLoop =>
    simp [step, send, sendFile, shutdown, forceClose, forceCloseInLoop, hs]
  | _ => cases he

/-- The read callback, unless it finds the end of the stream on a connection that is down. -/
theorem step_read {c : TcpConnection} {read : ReadRet} (hread : c.Up ∨ read ≠ .ok [])
    {calls : List Event} (hcalls : ∀ e ∈ calls, e.isCall = true) (write : SysRet) :
    Step c (runCallback read calls write c .read) := by
  cases read with
  | fail e => exact .inl (.refl c)
  | ok data =>
    rcases eq_or_ne data [] with rfl | hne
    · have hup : c.Up := hread.resolve_right fun h => h rfl
      exact .inr (falls_handleClose hup)
    · have hstep : Step c (c.handleRead (.ok data)) := by
        simp only [handleRead, hne, if_false]
        exact .inl ⟨Iff.rfl, [.messageCallback], rfl, rfl⟩
      simpa [runCallback, ReadRet.hasData, hne] using hstep.trans (step_calls _ hcalls)

/-! ## The dispatch -/

theorem foldl_ite {α β : Type} (f : α → β → α) (b : Bool) (x : β) (a : α) :
    (if b then [x] else []).foldl f a = if b then f a x else a := by
  cases b <;> rfl

/-- The dispatch, callback by callback. -/
theorem handleEvent_eq (c : TcpConnection) (revents : Events) (read : ReadRet)
    (calls : List Event) (write : SysRet) :
    c.handleEvent revents read calls write =
      let c := if revents.test POLLHUP && !revents.test POLLIN then c.handleClose else c
      let c := if revents.test (POLLIN ||| POLLPRI ||| POLLHUP) then
        runCallback read calls write c .read else c
      if revents.test POLLOUT then c.handleWrite write else c := by
  simp only [handleEvent, Channel.handleEventWithGuard, List.foldl_append, foldl_ite]
  simp only [runCallback, ite_self]

theorem step_write (c : TcpConnection) (revents : Events) (write : SysRet) :
    Step c (if revents.test POLLOUT then c.handleWrite write else c) := by
  split
  · exact .inl (outputs_handleWrite c write).stays
  · exact .inl (.refl c)

/-- Every dispatch but the one that closes twice. -/
theorem step_handleEvent {c : TcpConnection} (hup : c.Up) {revents : Events} {read : ReadRet}
    (hok : ¬ (revents.test POLLHUP = true ∧ revents.test POLLIN = false ∧ read = .ok []))
    {calls : List Event} (hcalls : ∀ e ∈ calls, e.isCall = true) (write : SysRet) :
    Step c (c.handleEvent revents read calls write) := by
  rw [handleEvent_eq]
  refine Step.trans ?_ (step_write _ revents write)
  -- the read may only close what the close branch has left up
  have hread : ∀ c' : TcpConnection, c'.Up ∨ read ≠ .ok [] →
      Step c' (if revents.test (POLLIN ||| POLLPRI ||| POLLHUP) then
        runCallback read calls write c' .read else c') := by
    intro c' h
    split
    · exact step_read h hcalls write
    · exact .inl (.refl c')
  cases hclose : revents.test POLLHUP && !revents.test POLLIN with
  | true =>
    have hbits := hclose
    simp only [Bool.and_eq_true, Bool.not_eq_true'] at hbits
    exact Step.trans (.inr (falls_handleClose hup))
      (hread _ (.inr fun h => hok ⟨hbits.1, hbits.2, h⟩))
  | false => exact hread c (.inl hup)

/-- A hang-up without input and a read that finds the end of the stream close twice. -/
theorem handleEvent_twice (c : TcpConnection) {revents : Events}
    (hhup : revents.test POLLHUP = true)
    (hin : revents.test POLLIN = false) (calls : List Event) (write : SysRet) :
    c.handleEvent revents (.ok []) calls write = c.handleClose.handleClose := by
  -- the mask of the read branch has `POLLHUP` in it
  have hread : revents.test (POLLIN ||| POLLPRI ||| POLLHUP) = true := by
    simp [Channel.test_or, hhup]
  have hwrite : c.handleClose.handleClose.handleWrite write = c.handleClose.handleClose := by
    simp [handleWrite]
  simp only [handleEvent_eq, hhup, hin, hread, Bool.not_false, Bool.and_self, if_true]
  simp only [runCallback, handleRead, ReadRet.hasData, bne_self_eq_false, Bool.false_eq_true,
    if_false, if_true, run_nil, hwrite, ite_self]

theorem not_goesDownOnce_twice (c : TcpConnection) :
    ¬ GoesDownOnce c c.handleClose.handleClose := by
  rintro ⟨es, htr, -, -, -, honce⟩
  rw [trace_handleClose, trace_handleClose, List.append_assoc, List.append_cancel_left_eq] at htr
  rw [← htr] at honce
  simp at honce

/-- One dispatch takes a connection down at most once, unless it is a hang-up without input and
the read finds the end of the stream. -/
theorem goesDownOnce_iff (c : TcpConnection) (hup : c.Up) (revents : Events) (read : ReadRet)
    (calls : List Event) (hcalls : ∀ e ∈ calls, e.isCall = true) (write : SysRet) :
    GoesDownOnce c (c.handleEvent revents read calls write) ↔
      ¬ (revents.test POLLHUP = true ∧ revents.test POLLIN = false ∧ read = .ok []) := by
  constructor
  · rintro honce ⟨hhup, hin, rfl⟩
    rw [handleEvent_twice c hhup hin] at honce
    exact not_goesDownOnce_twice c honce
  · exact fun hok => (step_handleEvent hup hok hcalls write).goesDownOnce

/-- A hang-up with the last input: the read closes, and only the read. -/
theorem hangup_with_input_goesDownOnce :
    let c := (new 64 false false fun _ => []).connectEstablished
    GoesDownOnce c (c.handleEvent (POLLHUP ||| POLLIN) (.ok []) [] (.ok 0)) :=
  (goesDownOnce_iff _ (.inl rfl) _ _ [] (by simp) _).mpr (by decide)

/-- The bare hang-up `poll(2)` reports when both directions are shut down. -/
theorem hangup_closes_twice :
    let c := (new 64 false false fun _ => []).connectEstablished
    ¬ GoesDownOnce c (c.handleEvent POLLHUP (.ok []) [] (.ok 0)) := by
  intro c
  rw [handleEvent_twice c (by decide) (by decide)]
  exact not_goesDownOnce_twice c

end TcpConnection

end Mymuduo
