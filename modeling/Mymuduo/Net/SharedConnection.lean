import Mymuduo.Net.BufferedOutput
import Mymuduo.Net.LifeCycle

/-!
# A connection that several threads call

`send`, `shutdown` and `forceClose` may be called from any thread. In the loop thread they are steps
like the others. In another thread they test `state_`, then store to it, then queue a functor, and
anything can happen in between; `Call` is where such a thread stands.

The header draws a diagram of the states, from `kConnecting` to `kDisconnected` (`Edge`). A thread
that found the connection up stores `kDisconnecting` even if the connection went down meanwhile, and
a `forceCloseInLoop` after that closes again.

* `state_follows_diagram`: the states are passed in order, and the connection is closed once, if no
  store comes too late and the loop closes only what is up.
* `state_follows_diagram_fails`: the peer closes between the test and the store of a `forceClose`.
-/

namespace Mymuduo

open CString Transition

/-- Where a thread stands in a call. -/
inductive Call
  | idle
  | sendTested (message : Bytes)
  | shutdownTested
  | shutdownStored
  | forceCloseTested
  | forceCloseStored
  deriving DecidableEq, Repr

/-- The next thing the thread does is to store to `state_`. -/
def Call.stores : Call → Bool
  | .shutdownTested => true
  | .forceCloseTested => true
  | _ => false

/-- A connection and the threads of the type `τ` that call it from outside its loop. The last three
fields keep the history: the messages of the `send` calls that have returned, of these the ones
that returned before a call of `shutdown`, and how many functors were queued by then and still
are. -/
structure SharedConnection (τ : Type*) where
  conn : TcpConnection
  calls : τ → Call
  accepted : List Bytes
  promised : List Bytes
  ahead : Nat

namespace SharedConnection

variable {τ : Type*}

def new (conn : TcpConnection) : SharedConnection τ where
  conn := conn
  calls := fun _ => .idle
  accepted := []
  promised := []
  ahead := 0

/-- `shutdown` is called and finds the connection accepting messages. -/
def promise (s : SharedConnection τ) : SharedConnection τ :=
  { s with promised := s.accepted, ahead := s.conn.pendingFunctors_.length }

/-- The history, before the loop thread does `e`. -/
def note (s : SharedConnection τ) (e : TcpConnection.Event) : SharedConnection τ :=
  match e with
  | .shutdown => if s.conn.state_ = .kConnected then s.promise else s
  | .doPendingFunctor _ => { s with ahead := s.ahead - 1 }
  | e => { s with accepted := s.accepted ++ s.conn.accepted e }

variable [DecidableEq τ]

def setCall (s : SharedConnection τ) (t : τ) (call : Call) : SharedConnection τ :=
  { s with calls := Function.update s.calls t call }

theorem calls_setCall_self (s : SharedConnection τ) (t : τ) (call : Call) :
    (s.setCall t call).calls t = call :=
  Function.update_self ..

theorem calls_setCall_of_ne (s : SharedConnection τ) {t t' : τ} (call : Call) (h : t' ≠ t) :
    (s.setCall t call).calls t' = s.calls t' :=
  Function.update_of_ne h ..

/-- `send` in the thread `t`, up to the test. -/
def send (s : SharedConnection τ) (t : τ) (message : Bytes) : SharedConnection τ :=
  if s.calls t = .idle ∧ s.conn.state_ = .kConnected then s.setCall t (.sendTested message) else s

/-- `shutdown` in the thread `t`, up to the test. -/
def shutdown (s : SharedConnection τ) (t : τ) : SharedConnection τ :=
  if s.calls t = .idle ∧ s.conn.state_ = .kConnected then s.promise.setCall t .shutdownTested else s

/-- `forceClose` in the thread `t`, up to the test. -/
def forceClose (s : SharedConnection τ) (t : τ) : SharedConnection τ :=
  if s.calls t = .idle ∧ (s.conn.state_ = .kConnected ∨ s.conn.state_ = .kDisconnecting) then
    s.setCall t .forceCloseTested
  else s

/-- What the thread `t` does next. -/
def proceed (s : SharedConnection τ) (t : τ) : SharedConnection τ :=
  match s.calls t with
  | .idle => s
  | .sendTested message =>
    { s with
      conn := s.conn.queueInLoop (.sendInLoop message)
      accepted := s.accepted ++ [message] }.setCall t .idle
  | .shutdownTested =>
    { s with conn := s.conn.setState .kDisconnecting }.setCall t .shutdownStored
  | .shutdownStored =>
    { s with conn := s.conn.queueInLoop .shutdownInLoop }.setCall t .idle
  | .forceCloseTested =>
    { s with conn := s.conn.setState .kDisconnecting }.setCall t .forceCloseStored
  | .forceCloseStored =>
    { s with conn := s.conn.queueInLoop .forceCloseInLoop }.setCall t .idle

/-- A step of the loop thread, or of another thread. -/
inductive Event (τ : Type*)
  | loop (e : TcpConnection.Event)
  | send (t : τ) (message : Bytes)
  | shutdown (t : τ)
  | forceClose (t : τ)
  | proceed (t : τ)
  deriving DecidableEq, Repr

def step (s : SharedConnection τ) : Event τ → SharedConnection τ
  | .loop e => { s.note e with conn := s.conn.step e }
  | .send t message => s.send t message
  | .shutdown t => s.shutdown t
  | .forceClose t => s.forceClose t
  | .proceed t => s.proceed t

end SharedConnection

/-! ## The diagram -/

/-- The arrows between the states. -/
inductive StateE.Edge : StateE → StateE → Prop
  | established : Edge .kConnecting .kConnected
  | shutdown : Edge .kConnected .kDisconnecting
  | closed : Edge .kConnected .kDisconnected
  | finished : Edge .kDisconnecting .kDisconnected

/-- One step of `state_`. -/
def StateE.Moves (s s' : StateE) : Prop := s' = s ∨ Edge s s'

theorem StateE.Moves.disconnected {s : StateE} (h : Moves .kDisconnected s) :
    s = .kDisconnected := by
  rcases h with h | h
  · exact h
  · cases h

/-- Nothing leads back to the beginning. -/
theorem StateE.Moves.connecting {s : StateE} (h : Moves s .kConnecting) : s = .kConnecting := by
  rcases h with h | h
  · exact h.symm
  · cases h

namespace TcpConnection

/-- How often the connection was closed. -/
def closings (c : TcpConnection) : Nat := c.trace.countP Effect.isHandleClose

theorem GoesOn.moves {c c' : TcpConnection} (h : GoesOn c c') : c.state_.Moves c'.state_ := by
  rcases h.state_ with hs | ⟨hup, hs⟩
  · exact .inl hs
  · rw [hs]
    rcases hup with hup | hup
    · exact .inr (hup ▸ .shutdown)
    · exact .inl hup.symm

theorem GoesOn.closings {c c' : TcpConnection} (h : GoesOn c c') : c'.closings = c.closings := by
  obtain ⟨es, hes, htr⟩ := h.trace
  have hnone : es.countP Effect.isHandleClose = 0 := by
    refine List.countP_eq_zero.mpr fun e he => ?_
    have hno := hes e he
    cases e <;> first | exact Bool.false_ne_true | cases hno
  rw [TcpConnection.closings, htr, List.countP_append, hnone]
  rfl

/-- What a step of the loop thread does to the state, and how often it closes. -/
theorem moves_step {c : TcpConnection} {e : Event} (hclose : c.ClosesUp e)
    (hest : e = .connectEstablished → c.state_ = .kConnecting) :
    c.state_.Moves (c.step e).state_ ∧
      (c.step e).closings = c.closings + if c.closes e then 1 else 0 := by
  by_cases he : e.isLife = true
  · cases hcl : c.closes e with
    | true =>
      obtain ⟨fs, hstep⟩ := closes_step hcl
      rw [hstep]
      refine ⟨.inr ?_, by simp [closings, Effect.isHandleClose, List.countP_cons]⟩
      rcases hclose hcl with hs | hs
      · exact hs ▸ .closed
      · exact hs ▸ .finished
    | false =>
      have hon := goesOn_step he hcl
      exact ⟨hon.moves, by simpa using hon.closings⟩
  · cases e with
    | connectEstablished =>
      refine ⟨.inr (hest rfl ▸ .established), ?_⟩
      simp [step, connectEstablished, closings, closes, Effect.isHandleClose]
    | connectDestroyed =>
      simp only [step, connectDestroyed]
      split
      · next hs =>
        refine ⟨.inr (hs ▸ .closed), ?_⟩
        simp [closings, closes, Effect.isHandleClose]
      · exact ⟨.inl rfl, by simp [closes]⟩
    | _ => exact absurd rfl he

end TcpConnection

namespace SharedConnection

variable {τ : Type*}

/-- The loop thread establishes the connection once and closes it only while it is up, and no other
thread stores to the state of a connection that is down. -/
def InOrder (s : SharedConnection τ) : Event τ → Prop
  | .loop e => s.conn.ClosesUp e ∧ (e = .connectEstablished → s.conn.state_ = .kConnecting)
  | .proceed t => (s.calls t).stores = true → s.conn.state_ ≠ .kDisconnected
  | _ => True

instance (s : SharedConnection τ) : (e : Event τ) → Decidable (s.InOrder e)
  | .loop _ => inferInstanceAs (Decidable (_ ∧ _))
  | .proceed _ => inferInstanceAs (Decidable (_ → _))
  | .send .. | .shutdown _ | .forceClose _ => instDecidableTrue

/-- A connection is closed on its way down only, and no thread has passed a test before it was
established. -/
structure Diagram (s : SharedConnection τ) : Prop where
  once : s.conn.closings ≤ if s.conn.state_ = .kDisconnected then 1 else 0
  tested : s.conn.state_ = .kConnecting → ∀ t, (s.calls t).stores = false

theorem diagram_new (highWaterMark : Nat) (hcb wcb : Bool) (files : Int → Bytes) :
    Diagram (τ := τ) (new (.new highWaterMark hcb wcb files)) :=
  ⟨Nat.le_refl _, fun _ _ => rfl⟩

theorem conn_note (s : SharedConnection τ) (e : TcpConnection.Event) :
    (s.note e).calls = s.calls ∧ (s.note e).conn = s.conn := by
  unfold note
  split
  · split <;> exact ⟨rfl, rfl⟩
  · exact ⟨rfl, rfl⟩
  · exact ⟨rfl, rfl⟩

variable [DecidableEq τ]

/-- What a thread does to the connection in one step: a store at most. -/
theorem conn_proceed (s : SharedConnection τ) (t : τ) :
    (s.proceed t).conn.trace = s.conn.trace ∧
      (s.proceed t).conn.state_ =
        if (s.calls t).stores then .kDisconnecting else s.conn.state_ := by
  unfold proceed
  cases hcall : s.calls t <;> exact ⟨rfl, rfl⟩

/-- A thread that is about to store has just passed a test, or was about to before. -/
theorem stores_step {s : SharedConnection τ} {e : Event τ} {t : τ}
    (h : ((s.step e).calls t).stores = true) : (s.calls t).stores = true ∨ s.conn.Up := by
  have hset : ∀ (t' : τ) (call : Call), (Function.update s.calls t' call t).stores = true →
      (s.calls t).stores = true ∨ call.stores = true := by
    intro t' call hst
    rcases eq_or_ne t t' with rfl | hne
    · rw [Function.update_self] at hst
      exact .inr hst
    · rw [Function.update_of_ne hne] at hst
      exact .inl hst
  cases e with
  | loop e => exact .inl (by simpa only [step, (conn_note s e).1] using h)
  | send t' message =>
    simp only [step, send] at h
    split at h
    · next hs => exact .inr (.inl hs.2)
    · exact .inl h
  | shutdown t' =>
    simp only [step, shutdown] at h
    split at h
    · next hs => exact .inr (.inl hs.2)
    · exact .inl h
  | forceClose t' =>
    simp only [step, forceClose] at h
    split at h
    · next hs => exact .inr hs.2
    · exact .inl h
  | proceed t' =>
    simp only [step, proceed] at h
    cases hcall : s.calls t' <;> simp only [hcall] at h
    · exact .inl h
    all_goals exact .inl ((hset t' _ h).resolve_right Bool.false_ne_true)

theorem moves_step {s : SharedConnection τ} (h : Diagram s) {e : Event τ} (hok : s.InOrder e) :
    s.conn.state_.Moves (s.step e).conn.state_ := by
  cases e with
  | loop e => exact (TcpConnection.moves_step hok.1 hok.2).1
  | send t message =>
    simp only [step, send]
    split <;> exact .inl rfl
  | shutdown t =>
    simp only [step, shutdown]
    split <;> exact .inl rfl
  | forceClose t =>
    simp only [step, forceClose]
    split <;> exact .inl rfl
  | proceed t =>
    rw [step, (conn_proceed s t).2]
    split
    · next hst =>
      -- the test was passed on a connection that was up
      cases hs : s.conn.state_ with
      | kConnecting => simp [h.tested hs t] at hst
      | kConnected => exact .inr .shutdown
      | kDisconnecting => exact .inl rfl
      | kDisconnected => exact absurd hs (hok hst)
    · exact .inl rfl

theorem closings_step (s : SharedConnection τ) (e : Event τ) (hok : s.InOrder e) :
    (s.step e).conn.closings = s.conn.closings ∨
      s.conn.Up ∧ (s.step e).conn.closings = s.conn.closings + 1 ∧
        (s.step e).conn.state_ = .kDisconnected := by
  cases e with
  | loop e =>
    have hclosings : (s.step (.loop e)).conn.closings =
        s.conn.closings + if s.conn.closes e then 1 else 0 :=
      (TcpConnection.moves_step hok.1 hok.2).2
    cases hcl : s.conn.closes e with
    | true =>
      obtain ⟨fs, hstep⟩ := TcpConnection.closes_step hcl
      refine .inr ⟨hok.1 hcl, by rw [hclosings, hcl]; rfl, ?_⟩
      exact congrArg TcpConnection.state_ hstep
    | false => exact .inl (by rw [hclosings, hcl]; rfl)
  | send t message =>
    simp only [step, send]
    split <;> exact .inl rfl
  | shutdown t =>
    simp only [step, shutdown]
    split <;> exact .inl rfl
  | forceClose t =>
    simp only [step, forceClose]
    split <;> exact .inl rfl
  | proceed t =>
    exact .inl (congrArg (List.countP Effect.isHandleClose) (conn_proceed s t).1)

theorem Diagram.step {s : SharedConnection τ} (h : Diagram s) {e : Event τ} (hok : s.InOrder e) :
    Diagram (s.step e) := by
  have hmoves := moves_step h hok
  refine ⟨?_, ?_⟩
  · rcases closings_step s e hok with hsame | ⟨hup, hone, hdown⟩
    · rw [hsame]
      by_cases hd : s.conn.state_ = .kDisconnected
      · rw [hd] at hmoves
        have honce := h.once
        rw [hd] at honce
        rwa [hmoves.disconnected]
      · have hzero : s.conn.closings ≤ 0 := by simpa [hd] using h.once
        exact hzero.trans (Nat.zero_le _)
    · have hzero : s.conn.closings ≤ 0 := by
        have hd : s.conn.state_ ≠ .kDisconnected := by
          rcases hup with hs | hs <;> simp [hs]
        simpa [hd] using h.once
      rw [hone, hdown, if_pos rfl]
      omega
  · intro hs t
    have hs₀ : s.conn.state_ = .kConnecting := (hs ▸ hmoves).connecting
    by_contra hst
    rcases stores_step (Bool.not_eq_false _ ▸ hst) with hst | hup
    · simp [h.tested hs₀ t] at hst
    · simp [TcpConnection.Up, hs₀] at hup

/-- The run takes the arrows of the diagram only, never leaves `kDisconnected`, and closes the
connection at most once. -/
structure FollowsDiagram (s : SharedConnection τ) (es : List (Event τ)) : Prop where
  arrows : ∀ before e after, es = before ++ e :: after →
    (run step s before).conn.state_.Moves (run step s (before ++ [e])).conn.state_
  final : ∀ before after, es = before ++ after →
    (run step s before).conn.state_ = .kDisconnected → (run step s es).conn.state_ = .kDisconnected
  once : (run step s es).conn.closings ≤ 1

/-- However the threads interleave: a run follows the diagram as long as no store comes too late
and the loop closes only what is up. -/
theorem state_follows_diagram (highWaterMark : Nat) (hcb wcb : Bool) (files : Int → Bytes)
    (es : List (Event τ)) (hok : Meets InOrder step (new (.new highWaterMark hcb wcb files)) es) :
    FollowsDiagram (new (.new highWaterMark hcb wcb files)) es := by
  have hsplit : ∀ before after, es = before ++ after →
      Diagram (run step (new (.new highWaterMark hcb wcb files)) before) ∧
        Meets InOrder step (run step (new (.new highWaterMark hcb wcb files)) before) after := by
    rintro before after rfl
    obtain ⟨hbefore, hafter⟩ := meets_append.mp hok
    exact ⟨run_invariant (fun _ _ h => h.step) (diagram_new highWaterMark hcb wcb files) hbefore,
      hafter⟩
  refine ⟨?_, ?_, ?_⟩
  · intro before e after heq
    obtain ⟨hd, hmeets⟩ := hsplit before (e :: after) heq
    rw [run_append]
    exact moves_step hd hmeets.1
  · intro before after heq hdown
    obtain ⟨hd, hmeets⟩ := hsplit before after heq
    have hkeep : ∀ (s : SharedConnection τ) e,
        (Diagram s ∧ s.conn.state_ = .kDisconnected) → s.InOrder e →
        Diagram (s.step e) ∧ (s.step e).conn.state_ = .kDisconnected := by
      rintro s e ⟨hd, hs⟩ hok
      have hmoves := moves_step hd hok
      rw [hs] at hmoves
      exact ⟨hd.step hok, hmoves.disconnected⟩
    rw [heq, run_append]
    exact (run_invariant hkeep ⟨hd, hdown⟩ hmeets).2
  · have honce := (hsplit es [] (by simp)).1.once
    split at honce <;> omega

/-- Two threads shut the connection down and close it, one between the steps of the other, and are
done before the peer closes. -/
theorem state_follows_diagram_two :
    FollowsDiagram (new (.new 64 false false fun _ => []))
      [.loop .connectEstablished, .shutdown 1, .forceClose 2, .proceed 1, .proceed 2, .proceed 1,
        .loop (.doPendingFunctor (.ok 0)), .loop (.handleRead (.ok [])), .proceed 2,
        .loop (.doPendingFunctor (.ok 0))] :=
  state_follows_diagram 64 false false (fun _ => []) _ (by decide +kernel)

/-- The peer closes after the test of a `forceClose` and before its store. -/
theorem state_follows_diagram_fails :
    ¬ FollowsDiagram (new (.new 64 false false fun _ => []))
      [.loop .connectEstablished, .forceClose 1, .loop (.handleRead (.ok [])), .proceed 1,
        .proceed 1, .loop (.doPendingFunctor (.ok 0))] := by
  intro h
  have honce := h.once
  revert honce
  decide +kernel

end SharedConnection

end Mymuduo
