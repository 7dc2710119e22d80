import Mymuduo.Lib.CString
import Mymuduo.Net.SocketFates

/-!
# `net/TcpClient`

A client over its connector. `connect`, `disconnect` and `stop` are called by any thread and are two
steps each: `connect_` is set, and then the connector or the connection is told. `newConnection` and
`removeConnection` run in the loop, the first one in `handleWrite` of the connector, the second one
when the connection closes. The destructor runs in the loop, between two callbacks. Without a
connection it sets a timer that keeps the connector for another second. So does a retry timer of
the connector, and with the last of them the connector goes, here as soon as the timer was run.

Of the connections there is what the client knows of them: which are established and have not
closed, with whom their `closeCallback_` leads to, and for which `connectDestroyed` is queued. They
are counted from 1. The code is modelled as its release build runs it; the trace records what the
assertion of `removeConnection` looks at, and a call into a client or connector that is gone is
`dangling`.

* `Sound.step`: there is one connection at a time, and the client knows it.
* `one_connection`: and so in every run that starts the connector one attempt at a time.
* `one_connection_fails`: the destructor right after a connection is established, and one whose
  timer expires before the queue of the loop was called.
-/

namespace Mymuduo

open CString Transition

/-- What a thread in a call of the client is still to do. -/
inductive ClientCall
  /-- `connector_->start()` -/
  | connect
  /-- `connection_->shutdown()`, under the lock -/
  | disconnect
  /-- `connector_->stop()` -/
  | stop
  deriving DecidableEq, Repr

/-- Whom the `closeCallback_` of a connection calls. -/
inductive CloseCallback
  /-- `TcpClient::removeConnection` -/
  | client
  /-- `detail::removeConnection` -/
  | detail
  deriving DecidableEq, Repr

inductive ClientEffect
  | established (conn : Nat) (connId : Int) (sockfd : Nat)
  | shutdown (conn : Nat)
  | forceClose (conn : Nat)
  /-- `removeConnection` finds this in `connection_`. -/
  | removed (conn : Nat) (connection : Option Nat)
  | connectDestroyed (conn : Nat)
  | dangling
  deriving DecidableEq, Repr

structure TcpClient (τ : Type*) where
  connector_ : Connector τ
  retry_ : Bool
  connect_ : Bool
  nextConnId_ : Int
  /-- how many connections there were -/
  conns : Nat
  connection_ : Option Nat
  calls : List (τ × ClientCall)
  /-- the connections that have not closed -/
  live : List (Nat × CloseCallback)
  /-- the connections for which `connectDestroyed` is queued -/
  closed : List Nat
  /-- The client is gone. -/
  destroyed : Bool
  /-- The timer with `detail::removeConnector` is still to be run. -/
  removing : Bool
  trace : List ClientEffect
  deriving DecidableEq, Repr

namespace TcpClient

variable {τ : Type*}

def new (loopThread : τ) : TcpClient τ where
  connector_ := .new loopThread
  retry_ := false
  connect_ := true
  nextConnId_ := 1
  conns := 0
  connection_ := none
  calls := []
  live := []
  closed := []
  destroyed := false
  removing := false
  trace := []

def emit (s : TcpClient τ) (e : ClientEffect) : TcpClient τ := { s with trace := s.trace ++ [e] }

/-- Nobody has the connector any more. -/
def connectorGone (s : TcpClient τ) : Bool :=
  s.destroyed && !s.removing && s.connector_.timers.isEmpty && s.connector_.expired.isEmpty &&
    s.connector_.pc = .idle

/-! ## In the loop -/

/-- The connection is named after `nextConnId_`. -/
def newConnection (s : TcpClient τ) (sockfd : Nat) : TcpClient τ :=
  if s.destroyed then s.emit .dangling
  else
    { s with
      nextConnId_ := castInt (s.nextConnId_ + 1)
      conns := s.conns + 1
      connection_ := some (s.conns + 1)
      live := s.live ++ [(s.conns + 1, CloseCallback.client)]
      }.emit (.established (s.conns + 1) s.nextConnId_ sockfd)

def removeConnection (s : TcpClient τ) (conn : Nat) : TcpClient τ :=
  if s.destroyed then s.emit .dangling
  else
    let s := s.emit (.removed conn s.connection_)
    let s := { s with connection_ := none, closed := s.closed ++ [conn] }
    if s.retry_ && s.connect_ then { s with connector_ := s.connector_.restart } else s

/-- `detail::removeConnection` -/
def removeConnectionDetail (s : TcpClient τ) (conn : Nat) : TcpClient τ :=
  { s with closed := s.closed ++ [conn] }

/-- The connection closes and calls its `closeCallback_`. -/
def handleClose (s : TcpClient τ) (conn : Nat) : TcpClient τ :=
  match s.live.find? fun c => c.1 = conn with
  | some (_, callback) =>
    let s := { s with live := s.live.filter fun c => c.1 ≠ conn }
    match callback with
    | .client => s.removeConnection conn
    | .detail => s.removeConnectionDetail conn
  | none => s

/-- The functor with `connectDestroyed` -/
def connectDestroyed (s : TcpClient τ) : TcpClient τ :=
  match s.closed with
  | conn :: closed => { s with closed := closed }.emit (.connectDestroyed conn)
  | [] => s

variable [DecidableEq τ]

/-- The destructor; `unique` is what the count of references says. -/
def destroy (s : TcpClient τ) (unique : Bool) : TcpClient τ :=
  match s.connection_ with
  | some conn =>
    let s := { s with
      live := s.live.map fun c => if c.1 = conn then (conn, CloseCallback.detail) else c
      destroyed := true }
    if unique then s.emit (.forceClose conn) else s
  | none =>
    { s with
      connector_ := s.connector_.stop s.connector_.loopThread
      destroyed := true
      removing := true }

/-- The timer with `detail::removeConnector` -/
def removeConnector (s : TcpClient τ) : TcpClient τ := { s with removing := false }

/-- The socket that a step of the connector gives to its `newConnectionCallback_`. -/
def handsOver (c : Connector τ) : Connector.Event τ → Option Nat
  | .proceed =>
    match c.pc with
    | .handingOver sockfd => some sockfd
    | _ => none
  | _ => none

/-- A step of the connector. -/
def stepConnector (s : TcpClient τ) (e : Connector.Event τ) : TcpClient τ :=
  if s.connectorGone then if s.connector_.step e = s.connector_ then s else s.emit .dangling
  else
    let s' := { s with connector_ := s.connector_.step e }
    match handsOver s.connector_ e with
    | some sockfd => s'.newConnection sockfd
    | none => s'

/-! ## Calls -/

def inCall (s : TcpClient τ) (t : τ) : Bool := s.calls.any fun c => c.1 = t

/-- The loop is between two callbacks. -/
def loopIdle (s : TcpClient τ) : Bool :=
  s.connector_.loopIdle && !s.inCall s.connector_.loopThread

/-- `connect_ = ...` -/
def call (s : TcpClient τ) (t : τ) (c : ClientCall) : TcpClient τ :=
  if !s.inCall t && s.connector_.mayCall t && !s.destroyed then
    { s with connect_ := c = .connect, calls := (t, c) :: s.calls }
  else s

/-- The rest of the call. -/
def finish (s : TcpClient τ) (t : τ) (c : ClientCall) : TcpClient τ :=
  if (t, c) ∈ s.calls then
    let s := { s with calls := s.calls.erase (t, c) }
    match c with
    | .connect => { s with connector_ := s.connector_.start t }
    | .stop => { s with connector_ := s.connector_.stop t }
    | .disconnect =>
      match s.connection_ with
      | some conn => s.emit (.shutdown conn)
      | none => s
  else s

inductive Event (τ : Type*)
  | call (t : τ) (c : ClientCall)
  | finish (t : τ) (c : ClientCall)
  | enableRetry
  | connector (e : Connector.Event τ)
  | handleClose (conn : Nat)
  | connectDestroyed
  | destroy (unique : Bool)
  | removeConnector
  deriving DecidableEq, Repr

/-- The connector is started, stopped and restarted by the client only. -/
def Own : Connector.Event τ → Bool
  | .start _ | .stop _ | .restart => false
  | _ => true

/-- Does the step run in the loop? -/
def inLoop : Connector.Event τ → Bool
  | .start _ | .runStart _ | .stop _ | .queueStop _ | .cancel _ => false
  | _ => true

def step (s : TcpClient τ) : Event τ → TcpClient τ
  | .call t c => s.call t c
  | .finish t c => s.finish t c
  | .enableRetry => { s with retry_ := true }
  | .connector e =>
    if Own e && (!inLoop e || !s.inCall s.connector_.loopThread) then s.stepConnector e else s
  | .handleClose conn =>
    if s.loopIdle && s.connector_.handedOver = some 0 then s.handleClose conn else s
  | .connectDestroyed => if s.loopIdle then s.connectDestroyed else s
  | .destroy unique => if s.loopIdle && !s.destroyed then s.destroy unique else s
  | .removeConnector => if s.loopIdle && s.removing then s.removeConnector else s

/-! ## What the connector does meanwhile -/

section Connector

variable {c : Connector τ}

omit [DecidableEq τ] in
@[simp] theorem handedOver_destroyChannel : c.destroyChannel.handedOver = c.handedOver := by
  unfold Connector.destroyChannel
  split <;> rfl

omit [DecidableEq τ] in
@[simp] theorem handedOver_startInLoop : c.startInLoop.handedOver = c.handedOver := by
  unfold Connector.startInLoop
  dsimp only
  split <;> rfl

omit [DecidableEq τ] in
@[simp] theorem handedOver_connect (savedErrno : ConnectErrno) :
    (c.connect savedErrno).handedOver = c.handedOver := by
  unfold Connector.connect Connector.connecting
  cases savedErrno <;> simp [Connector.emit]

omit [DecidableEq τ] in
@[simp] theorem handedOver_removeAndResetChannel (next : Nat → ConnectorPc) :
    (c.removeAndResetChannel next).handedOver = c.handedOver := by
  unfold Connector.removeAndResetChannel
  split <;> rfl

omit [DecidableEq τ] in
@[simp] theorem handedOver_stopInLoop : c.stopInLoop.handedOver = c.handedOver := by
  unfold Connector.stopInLoop
  split <;> simp

/-- A connection that was handed over stays so. -/
theorem handedOver_step (h : c.handedOver ≠ none) {e : Connector.Event τ} (hown : Own e = true) :
    (c.step e).handedOver ≠ none := by
  cases e with
  | start t => cases hown
  | stop t => cases hown
  | restart => cases hown
  | runStart t =>
    rw [Connector.step, Connector.runStart]
    split
    · dsimp only
      split <;> simpa [Connector.queueInLoop] using h
    · exact h
  | queueStop t =>
    rw [Connector.step, Connector.queueStop]
    split <;> exact h
  | cancel t =>
    rw [Connector.step, Connector.cancel]
    split
    · dsimp only
      split <;> exact h
    · exact h
  | callFunctor =>
    rw [Connector.step, Connector.callFunctor]
    split
    · split
      · next f functors hqueue =>
        cases f <;>
          simpa [Connector.runFunctor, Connector.resetChannel, Connector.cancelInLoop] using h
      · exact h
    · exact h
  | handleWrite err selfConnect =>
    rw [Connector.step, Connector.handleWrite]
    split
    · split <;> simpa using h
    · exact h
  | handleError =>
    rw [Connector.step, Connector.handleError]
    split
    · split <;> simpa using h
    · exact h
  | connect savedErrno =>
    rw [Connector.step, Connector.callConnect]
    split
    · simpa using h
    · exact h
  -- `restart` alone takes the connection back, and that is the client's to call
  | proceed =>
    rw [Connector.step, Connector.proceed]
    split
    · exact h
    · exact h
    · exact h
    · simpa using h
    · unfold Connector.retry
      dsimp only
      split <;> exact h
    · exact h
    · unfold Connector.connected
      dsimp only
      split <;> exact h
    · simp [Connector.handOver, Connector.emit]
  | getExpired sequence =>
    rw [Connector.step]
    split <;> exact h
  | runTimer =>
    rw [Connector.step, Connector.runTimer]
    split
    · split
      · simpa using h
      · exact h
    · exact h

omit [DecidableEq τ] in
theorem startInLoop_of_stopped (hconnect : c.connect_ = false) :
    c.startInLoop = c.emit (.started c.state_) := by
  simp [Connector.startInLoop, Connector.emit, hconnect]

/-- The connector was told to stop by the loop, and nobody calls it any more but the loop. -/
structure Leaving (c : Connector τ) : Prop where
  connect_ : c.connect_ = false
  decided : c.pc.decided = false
  starting : c.starting = []
  calls : ∀ t, t ∈ c.stopping ∨ t ∈ c.cancelling → t = c.loopThread
  told : c.loopThread ∈ c.stopping ∨ .stopInLoop ∈ c.pendingFunctors_ ∨ c.state_ ≠ .kConnecting

omit [DecidableEq τ] in
/-- In the loop: the calls stay as they are, and no attempt gets under way. -/
theorem Leaving.inLoop {c c' : Connector τ} (h : Leaving c) (hconnect : c'.connect_ = false)
    (hdecided : c'.pc.decided = false) (hloop : c'.loopThread = c.loopThread)
    (hstarting : c'.starting = c.starting) (hstopping : c'.stopping = c.stopping)
    (hcancelling : c'.cancelling = c.cancelling)
    (htold : c'.state_ ≠ .kConnecting ∨ c'.state_ = c.state_ ∧
      (.stopInLoop ∈ c.pendingFunctors_ → .stopInLoop ∈ c'.pendingFunctors_)) : Leaving c' := by
  refine ⟨hconnect, hdecided, hstarting.trans h.starting, ?_, ?_⟩
  · rw [hstopping, hcancelling, hloop]
    exact h.calls
  · rcases htold with hstate | ⟨hstate, hqueue⟩
    · exact .inr (.inr hstate)
    · rw [hloop, hstopping, hstate]
      exact h.told.imp_right (Or.imp_left hqueue)

omit [DecidableEq τ] in
theorem Leaving.removeAndResetChannel (h : Leaving c) {next : Nat → ConnectorPc}
    (hnext : ∀ fd, (next fd).decided = false) : Leaving (c.removeAndResetChannel next) := by
  unfold Connector.removeAndResetChannel
  split
  · exact h.inLoop h.connect_ (hnext _) rfl rfl rfl rfl
      (.inr ⟨rfl, fun hmem => List.mem_append_left _ hmem⟩)
  · exact h

omit [DecidableEq τ] in
theorem Leaving.startInLoop (h : Leaving c) : Leaving c.startInLoop := by
  rw [startInLoop_of_stopped h.connect_]
  exact h.inLoop h.connect_ h.decided rfl rfl rfl rfl (.inr ⟨rfl, id⟩)

omit [DecidableEq τ] in
theorem Leaving.stopInLoop {functors : List ConnectorFunctor} {handedOver : Option Nat}
    (h : Leaving c) : Leaving ({ c with
      pendingFunctors_ := functors
      handedOver := handedOver }.stopInLoop) := by
  unfold Connector.stopInLoop
  split
  · have hdisconnected : Leaving { c with
        pendingFunctors_ := functors
        handedOver := handedOver
        state_ := .kDisconnected } :=
      h.inLoop h.connect_ h.decided rfl rfl rfl rfl (.inl (by simp))
    exact hdisconnected.removeAndResetChannel fun _ => rfl
  · next hstate => exact h.inLoop h.connect_ h.decided rfl rfl rfl rfl (.inl hstate)

omit [DecidableEq τ] in
theorem Leaving.callFunctor (h : Leaving c) : Leaving c.callFunctor := by
  unfold Connector.callFunctor
  split
  · next f functors hqueue =>
    have hpop (hf : f ≠ .stopInLoop) : Leaving { c with
        pendingFunctors_ := functors
        handedOver := c.handedOver.map fun n => n - 1 } := by
      refine h.inLoop h.connect_ h.decided rfl rfl rfl rfl (.inr ⟨rfl, fun hmem => ?_⟩)
      rw [hqueue] at hmem
      exact (List.mem_cons.mp hmem).resolve_left hf.symm
    cases f with
    | startInLoop => exact (hpop (by simp)).startInLoop
    | stopInLoop => exact h.stopInLoop
    | resetChannel =>
      have hpop := hpop (by simp)
      rw [Connector.runFunctor, Connector.resetChannel, Connector.destroyChannel]
      split
      · exact hpop.inLoop hpop.connect_ hpop.decided rfl rfl rfl rfl (.inr ⟨rfl, id⟩)
      · exact hpop
    | cancel timerId =>
      have hpop := hpop (by simp)
      exact hpop.inLoop hpop.connect_ hpop.decided rfl rfl rfl rfl (.inr ⟨rfl, id⟩)
  · exact h

omit [DecidableEq τ] in
theorem Leaving.proceed (h : Leaving c) : Leaving c.proceed := by
  unfold Connector.proceed
  split
  · exact h
  · exact h
  · next hpc => cases hpc ▸ h.decided
  · have hidle : Leaving { c with pc := .idle } :=
      h.inLoop h.connect_ rfl rfl rfl rfl rfl (.inr ⟨rfl, id⟩)
    exact hidle.startInLoop
  · rw [Connector.retry, if_neg (by simp [Connector.emit, h.connect_])]
    exact h.inLoop h.connect_ rfl rfl rfl rfl rfl (.inl (by simp [Connector.emit]))
  · exact h.inLoop h.connect_ rfl rfl rfl rfl rfl (.inr ⟨rfl, id⟩)
  · rw [Connector.connected, if_neg (by simp [h.connect_])]
    exact h.inLoop h.connect_ rfl rfl rfl rfl rfl (.inl (by simp [Connector.emit]))
  · next sockfd hpc => cases hpc ▸ h.decided

theorem Leaving.step (h : Leaving c) {e : Connector.Event τ} (hown : Own e = true) :
    Leaving (c.step e) := by
  cases e with
  | start t => cases hown
  | stop t => cases hown
  | restart => cases hown
  | runStart t =>
    rw [Connector.step, Connector.runStart, if_neg (by simp [h.starting])]
    exact h
  -- the `stop` of the destructor: what it tells goes from the call into the queue
  | queueStop t =>
    rw [Connector.step, Connector.queueStop]
    split
    · next hmem =>
      refine ⟨h.connect_, h.decided, h.starting, ?_, .inr (.inl ?_)⟩
      · rintro t' (ht' | ht')
        · exact h.calls t' (.inl (List.mem_of_mem_erase ht'))
        · rcases List.mem_cons.mp ht' with rfl | ht'
          · exact h.calls t' (.inl hmem)
          · exact h.calls t' (.inr ht')
      · exact List.mem_append_right _ List.mem_cons_self
    · exact h
  | cancel t =>
    rw [Connector.step, Connector.cancel]
    split
    · have hless : Leaving { c with cancelling := c.cancelling.erase t } :=
        ⟨h.connect_, h.decided, h.starting,
          fun t' ht' => h.calls t' (ht'.imp_right List.mem_of_mem_erase), h.told⟩
      dsimp only
      split
      · exact hless.inLoop h.connect_ h.decided rfl rfl rfl rfl (.inr ⟨rfl, id⟩)
      · exact hless.inLoop h.connect_ h.decided rfl rfl rfl rfl
          (.inr ⟨rfl, fun hmem => List.mem_append_left _ hmem⟩)
    · exact h
  | callFunctor =>
    rw [Connector.step]
    split
    · exact h.callFunctor
    · exact h
  | handleWrite err selfConnect =>
    rw [Connector.step]
    split
    · unfold Connector.handleWrite
      split
      · refine h.removeAndResetChannel fun fd => ?_
        split <;> rfl
      · exact h
    · exact h
  | handleError =>
    rw [Connector.step]
    split
    · unfold Connector.handleError
      split
      · exact h.removeAndResetChannel fun _ => rfl
      · exact h
    · exact h
  | connect savedErrno =>
    rw [Connector.step, Connector.callConnect]
    split
    · next hpc => cases hpc ▸ h.decided
    · exact h
  | proceed => exact h.proceed
  | getExpired sequence =>
    rw [Connector.step]
    split
    · exact h.inLoop h.connect_ h.decided rfl rfl rfl rfl (.inr ⟨rfl, id⟩)
    · exact h
  | runTimer =>
    rw [Connector.step]
    split
    · unfold Connector.runTimer
      split
      · have hless : Leaving { c with expired := ‹List RetryTimer› } :=
          h.inLoop h.connect_ h.decided rfl rfl rfl rfl (.inr ⟨rfl, id⟩)
        exact hless.startInLoop
      · exact h
    · exact h

/-- Nothing is left that could call the connector, retry timers aside, which find `connect_`
false. -/
structure Still (c : Connector τ) : Prop where
  starting : c.starting = []
  stopping : c.stopping = []
  cancelling : c.cancelling = []
  pendingFunctors_ : c.pendingFunctors_ = []
  channel_ : c.channel_ = none
  pc : c.pc = .idle
  timers : c.connect_ = false ∨ c.timers = [] ∧ c.expired = []

theorem Still.step_eq (h : Still c) (htimers : c.timers = []) (hexpired : c.expired = [])
    {e : Connector.Event τ} (hown : Own e = true) : c.step e = c := by
  cases e with
  | start t => cases hown
  | stop t => cases hown
  | restart => cases hown
  | runStart t => simp [Connector.step, Connector.runStart, h.starting]
  | queueStop t => simp [Connector.step, Connector.queueStop, h.stopping]
  | cancel t => simp [Connector.step, Connector.cancel, h.cancelling]
  | callFunctor => simp [Connector.step, Connector.callFunctor, h.pendingFunctors_]
  | handleWrite err selfConnect => simp [Connector.step, h.channel_]
  | handleError => simp [Connector.step, h.channel_]
  | connect savedErrno => rw [Connector.step, Connector.callConnect, h.pc]
  | proceed => rw [Connector.step, Connector.proceed, h.pc]
  | getExpired sequence =>
    rw [Connector.step, Connector.getExpired_of_none (by simp [htimers])]
    exact ite_self _
  | runTimer => simp [Connector.step, Connector.runTimer, hexpired]

theorem Still.step (h : Still c) {e : Connector.Event τ} (hown : Own e = true) :
    Still (c.step e) := by
  rcases h.timers with hconnect | ⟨htimers, hexpired⟩
  · cases e with
    | start t => cases hown
    | stop t => cases hown
    | restart => cases hown
    | runStart t => simpa [Connector.step, Connector.runStart, h.starting] using h
    | queueStop t => simpa [Connector.step, Connector.queueStop, h.stopping] using h
    | cancel t => simpa [Connector.step, Connector.cancel, h.cancelling] using h
    | callFunctor => simpa [Connector.step, Connector.callFunctor, h.pendingFunctors_] using h
    | handleWrite err selfConnect => simpa [Connector.step, h.channel_] using h
    | handleError => simpa [Connector.step, h.channel_] using h
    | connect savedErrno => rwa [Connector.step, Connector.callConnect, h.pc]
    | proceed => rwa [Connector.step, Connector.proceed, h.pc]
    | getExpired sequence =>
      rw [Connector.step]
      split
      · exact { h with timers := .inl hconnect }
      · exact h
    | runTimer =>
      rw [Connector.step, Connector.runTimer]
      split
      · split
        · next timer expired _ =>
          have hless : Still { c with expired := expired } := { h with timers := .inl hconnect }
          rw [startInLoop_of_stopped (c := { c with expired := expired }) hconnect]
          exact { hless with timers := .inl hconnect }
        · exact h
      · exact h
  · rwa [h.step_eq htimers hexpired hown]

/-- The loop has done what it was told, and has called what was queued. -/
theorem Leaving.still (h : Leaving c) (hsingle : c.Single) (hidle : c.loopIdle = true)
    (hqueue : c.pendingFunctors_ = []) : Still c := by
  obtain ⟨hpc, hcall⟩ := Bool.and_eq_true_iff.mp hidle
  simp only [Connector.inCall, Bool.not_eq_true', Bool.or_eq_false_iff,
    decide_eq_false_iff_not] at hcall
  obtain ⟨⟨-, hstopping⟩, hcancelling⟩ := hcall
  -- `stopInLoop` was called, and has left no attempt behind
  have hstate : c.state_ ≠ .kConnecting := by
    rcases h.told with hmem | hmem | hstate
    · exact absurd hmem hstopping
    · rw [hqueue] at hmem
      cases hmem
    · exact hstate
  have hchannel := hsingle.channel
  rw [hqueue, Connector.live_of_state hstate] at hchannel
  exact ⟨h.starting,
    List.eq_nil_iff_forall_not_mem.mpr fun t ht => hstopping (h.calls t (.inl ht) ▸ ht),
    List.eq_nil_iff_forall_not_mem.mpr fun t ht => hcancelling (h.calls t (.inr ht) ▸ ht),
    hqueue, hchannel.eq_none, of_decide_eq_true hpc, .inl h.connect_⟩

end Connector

/-! ## One connection at a time -/

/-- The connections in the order in which they were established. -/
def established (s : TcpClient τ) : List Nat :=
  s.trace.filterMap fun
    | .established conn _ _ => some conn
    | _ => none

def destroyedConns (s : TcpClient τ) : List Nat :=
  s.trace.filterMap fun
    | .connectDestroyed conn => some conn
    | _ => none

/-- What the trace says of the connections. -/
structure Ledger (s : TcpClient τ) : Prop where
  nextConnId_ : s.nextConnId_ = castInt (s.conns + 1)
  established : s.established = List.range' 1 s.conns
  ids : ∀ (conn : Nat) connId sockfd, .established conn connId sockfd ∈ s.trace →
    connId = castInt conn
  fates : s.established.Perm (s.live.map Prod.fst ++ s.closed ++ s.destroyedConns)
  removed : ∀ conn connection, .removed conn connection ∈ s.trace → connection = some conn
  dangling : .dangling ∉ s.trace

/-- The connection that the client knows is the live one. -/
structure Alive (s : TcpClient τ) : Prop where
  destroyed : s.destroyed = false
  removing : s.removing = false
  live : s.live = (s.connection_.map fun conn => (conn, CloseCallback.client)).toList
  handedOver : s.connection_ ≠ none → s.connector_.handedOver ≠ none

/-- The client is gone. The connector goes with the connection, or after its timer. -/
structure Gone (s : TcpClient τ) : Prop where
  destroyed : s.destroyed = true
  calls : s.calls = []
  connector_ : s.removing = true ∧ s.live = [] ∧ Leaving s.connector_ ∨
    s.removing = false ∧ Still s.connector_ ∧
      (s.live = [] ∨ ∃ conn, s.live = [(conn, .detail)])

structure Sound (s : TcpClient τ) : Prop where
  single : s.connector_.Single
  ledger : Ledger s
  phase : Alive s ∨ Gone s

/-! ### What a step does to the ledger -/

section Ledger

omit [DecidableEq τ]

theorem sound_new (loopThread : τ) : Sound (new loopThread) :=
  ⟨Connector.single_new loopThread, ⟨(castInt_eq (z := 1) (by decide) (by decide)).symm, rfl, nofun,
    .nil, nofun, nofun⟩, .inl ⟨rfl, rfl, rfl, fun h => absurd rfl h⟩⟩

variable {s s' : TcpClient τ}

theorem established_append {e : List ClientEffect} (h : s'.trace = s.trace ++ e) :
    s'.established = s.established ++ e.filterMap fun
      | .established conn _ _ => some conn
      | _ => none := by
  rw [established, h, List.filterMap_append]
  rfl

theorem destroyedConns_append {e : List ClientEffect} (h : s'.trace = s.trace ++ e) :
    s'.destroyedConns = s.destroyedConns ++ e.filterMap fun
      | .connectDestroyed conn => some conn
      | _ => none := by
  rw [destroyedConns, h, List.filterMap_append]
  rfl

/-- The trace does not change, and what is counted stays in balance. -/
theorem Ledger.close (h : Ledger s) (htrace : s'.trace = s.trace)
    (hnext : s'.nextConnId_ = s.nextConnId_) (hconns : s'.conns = s.conns)
    (hfates : (s.live.map Prod.fst ++ s.closed).Perm (s'.live.map Prod.fst ++ s'.closed)) :
    Ledger s' := by
  have hestablished : s'.established = s.established := by
    rw [TcpClient.established, htrace, TcpClient.established]
  have hdestroyed : s'.destroyedConns = s.destroyedConns := by
    rw [destroyedConns, htrace, destroyedConns]
  refine ⟨?_, ?_, htrace ▸ h.ids, ?_, htrace ▸ h.removed, htrace ▸ h.dangling⟩
  · rw [hnext, hconns]
    exact h.nextConnId_
  · rw [hestablished, hconns]
    exact h.established
  · rw [hestablished, hdestroyed]
    exact h.fates.trans (hfates.append_right _)

/-- Neither the trace nor the connections change. -/
theorem Ledger.same (h : Ledger s) (htrace : s'.trace = s.trace)
    (hnext : s'.nextConnId_ = s.nextConnId_) (hconns : s'.conns = s.conns)
    (hlive : s'.live.map Prod.fst = s.live.map Prod.fst) (hclosed : s'.closed = s.closed) :
    Ledger s' :=
  h.close htrace hnext hconns (by rw [hlive, hclosed])

/-- What the trace gets is no connection, no call into nothing, and no `removeConnection` that
finds another connection. -/
theorem Ledger.of_append (h : Ledger s) {e : ClientEffect} (htrace : s'.trace = s.trace ++ [e])
    (hnext : s'.nextConnId_ = castInt (s'.conns + 1))
    (hestablished : s'.established = List.range' 1 s'.conns)
    (hids : ∀ (conn : Nat) connId sockfd, e = .established conn connId sockfd →
      connId = castInt conn)
    (hfates : s'.established.Perm (s'.live.map Prod.fst ++ s'.closed ++ s'.destroyedConns))
    (hremoved : ∀ conn connection, e = .removed conn connection → connection = some conn)
    (hdangling : e ≠ .dangling) : Ledger s' := by
  refine ⟨hnext, hestablished, fun conn connId sockfd he => ?_, hfates,
    fun conn connection he => ?_, fun he => ?_⟩
  · rw [htrace] at he
    rcases List.mem_append.mp he with he | he
    · exact h.ids conn connId sockfd he
    · exact hids conn connId sockfd (List.mem_singleton.mp he).symm
  · rw [htrace] at he
    rcases List.mem_append.mp he with he | he
    · exact h.removed conn connection he
    · exact hremoved conn connection (List.mem_singleton.mp he).symm
  · rw [htrace] at he
    rcases List.mem_append.mp he with he | he
    · exact h.dangling he
    · exact hdangling (List.mem_singleton.mp he).symm

/-- The trace gets something that is no event of a connection's life, as far as it is counted. -/
theorem Ledger.neutral (h : Ledger s) {e : ClientEffect} (htrace : s'.trace = s.trace ++ [e])
    (he : (∃ conn, e = .shutdown conn) ∨ (∃ conn, e = .forceClose conn) ∨
      ∃ conn, e = .removed conn (some conn))
    (hnext : s'.nextConnId_ = s.nextConnId_) (hconns : s'.conns = s.conns)
    (hfates : (s.live.map Prod.fst ++ s.closed).Perm (s'.live.map Prod.fst ++ s'.closed)) :
    Ledger s' := by
  have hestablished : s'.established = s.established := by
    rw [established_append htrace]
    rcases he with ⟨conn, rfl⟩ | ⟨conn, rfl⟩ | ⟨conn, rfl⟩ <;> exact List.append_nil _
  have hdestroyed : s'.destroyedConns = s.destroyedConns := by
    rw [destroyedConns_append htrace]
    rcases he with ⟨conn, rfl⟩ | ⟨conn, rfl⟩ | ⟨conn, rfl⟩ <;> exact List.append_nil _
  refine h.of_append htrace ?_ ?_ ?_ ?_ ?_ ?_
  · rw [hnext, hconns]
    exact h.nextConnId_
  · rw [hestablished, hconns]
    exact h.established
  · rintro conn connId sockfd rfl
    rcases he with ⟨conn', he⟩ | ⟨conn', he⟩ | ⟨conn', he⟩ <;> cases he
  · rw [hestablished, hdestroyed]
    exact h.fates.trans (hfates.append_right _)
  · rintro conn connection rfl
    rcases he with ⟨conn', he⟩ | ⟨conn', he⟩ | ⟨conn', he⟩ <;> cases he
    rfl
  · rintro rfl
    rcases he with ⟨conn', he⟩ | ⟨conn', he⟩ | ⟨conn', he⟩ <;> cases he

theorem Ledger.establish (h : Ledger s) {sockfd : Nat}
    (htrace : s'.trace = s.trace ++ [.established (s.conns + 1) s.nextConnId_ sockfd])
    (hnext : s'.nextConnId_ = castInt (s.nextConnId_ + 1)) (hconns : s'.conns = s.conns + 1)
    (hlive : s'.live.map Prod.fst = s.live.map Prod.fst ++ [s.conns + 1])
    (hclosed : s'.closed = s.closed) : Ledger s' := by
  have hestablished : s'.established = s.established ++ [s.conns + 1] :=
    established_append htrace
  have hdestroyed : s'.destroyedConns = s.destroyedConns :=
    (destroyedConns_append htrace).trans (List.append_nil _)
  refine h.of_append htrace ?_ ?_ ?_ ?_ nofun nofun
  · rw [hnext, h.nextConnId_, hconns, castInt_add_castInt, Nat.cast_add, Nat.cast_one]
  · rw [hestablished, h.established, hconns, List.range'_1_concat, Nat.add_comm 1]
  · rintro conn connId sockfd' ⟨⟩
    rw [h.nextConnId_, Nat.cast_add, Nat.cast_one]
  · rw [hestablished, hdestroyed, hlive, hclosed]
    refine (h.fates.append_right _).trans ?_
    rw [List.append_assoc, List.append_assoc, List.append_assoc, List.append_assoc]
    refine List.Perm.append_left _ ?_
    rw [← List.append_assoc]
    exact List.perm_append_comm

theorem Ledger.destroy (h : Ledger s) {conn : Nat}
    (htrace : s'.trace = s.trace ++ [.connectDestroyed conn])
    (hnext : s'.nextConnId_ = s.nextConnId_) (hconns : s'.conns = s.conns)
    (hlive : s'.live = s.live) (hclosed : s.closed = conn :: s'.closed) : Ledger s' := by
  have hestablished : s'.established = s.established :=
    (established_append htrace).trans (List.append_nil _)
  have hdestroyed : s'.destroyedConns = s.destroyedConns ++ [conn] := destroyedConns_append htrace
  refine h.of_append htrace ?_ ?_ nofun ?_ nofun nofun
  · rw [hnext, hconns]
    exact h.nextConnId_
  · rw [hestablished, hconns]
    exact h.established
  · have hfates := h.fates
    rw [hclosed] at hfates
    rw [hestablished, hdestroyed, hlive]
    refine hfates.trans ?_
    rw [List.append_assoc, List.append_assoc, List.cons_append, ← List.append_assoc s'.closed]
    exact (List.perm_append_singleton conn _).symm.append_left _

end Ledger

/-! ### A new connection -/

theorem single_handsOver {c : Connector τ} (h : c.Single) {e : Connector.Event τ} {sockfd : Nat}
    (hsockfd : handsOver c e = some sockfd) :
    c.handedOver = none ∧ c.pc.decided = true ∧ (c.step e).handedOver ≠ none := by
  cases e with
  | proceed =>
    rw [handsOver] at hsockfd
    split at hsockfd
    · next fd hpc =>
      refine ⟨h.handedOver_eq_none (by simp [hpc]), by rw [hpc]; rfl, ?_⟩
      rw [Connector.step, Connector.proceed, hpc]
      exact Option.some_ne_none _
    · cases hsockfd
  | _ => cases hsockfd

omit [DecidableEq τ] in
theorem Sound.newConnection {s : TcpClient τ} (h : Sound s) (halive : Alive s)
    {c : Connector τ} (hsingle : c.Single) (hnone : s.connector_.handedOver = none)
    (hover : c.handedOver ≠ none) (sockfd : Nat) :
    Sound ({ s with connector_ := c }.newConnection sockfd) := by
  have hconnection : s.connection_ = none := by
    by_contra hsome
    exact halive.handedOver hsome hnone
  have hlive : s.live = [] := by
    rw [halive.live, hconnection]
    rfl
  have hnot : ¬ s.destroyed = true := by
    rw [halive.destroyed]
    exact Bool.false_ne_true
  rw [TcpClient.newConnection, if_neg hnot]
  refine ⟨hsingle, h.ledger.establish rfl rfl rfl List.map_append rfl, .inl ⟨halive.destroyed,
    halive.removing, ?_, fun _ => hover⟩⟩
  show s.live ++ _ = _
  rw [hlive]
  rfl

omit [DecidableEq τ] in
theorem not_connectorGone {s : TcpClient τ} (h : s.destroyed = false ∨ s.removing = true) :
    ¬ s.connectorGone = true := by
  rcases h with h | h <;> simp [connectorGone, h]

/-- The connector goes on, and may hand over a connection. -/
theorem Sound.stepConnector {s : TcpClient τ} (h : Sound s) {e : Connector.Event τ}
    (hown : Own e = true) (hok : s.connector_.AttemptOk e) : Sound (s.stepConnector e) := by
  have hsingle := h.single.step hok
  rcases h.phase with halive | hgone
  · rw [TcpClient.stepConnector, if_neg (not_connectorGone (.inl halive.destroyed))]
    dsimp only
    split
    · next sockfd hhands =>
      obtain ⟨hnone, -, hover⟩ := single_handsOver h.single hhands
      exact h.newConnection halive hsingle hnone hover sockfd
    · exact ⟨hsingle, h.ledger.same rfl rfl rfl rfl rfl, .inl ⟨halive.destroyed, halive.removing,
        halive.live, fun hsome => handedOver_step (halive.handedOver hsome) hown⟩⟩
  · rcases hgone.connector_ with ⟨hremoving, hlive, hleaving⟩ | ⟨hremoving, hstill, hlive⟩
    · rw [TcpClient.stepConnector, if_neg (not_connectorGone (.inr hremoving))]
      dsimp only
      split
      · next sockfd hhands =>
        have htrue := (single_handsOver h.single hhands).2.1
        rw [hleaving.decided] at htrue
        cases htrue
      · exact ⟨hsingle, h.ledger.same rfl rfl rfl rfl rfl, .inr ⟨hgone.destroyed, hgone.calls,
          .inl ⟨hremoving, hlive, hleaving.step hown⟩⟩⟩
    · rw [TcpClient.stepConnector]
      split
      · next hnot =>
        simp only [connectorGone, Bool.and_eq_true, List.isEmpty_iff] at hnot
        rw [if_pos (hstill.step_eq hnot.1.1.2 hnot.1.2 hown)]
        exact h
      · split
        · next sockfd hhands =>
          have htrue := (single_handsOver h.single hhands).2.1
          rw [hstill.pc] at htrue
          cases htrue
        · exact ⟨hsingle, h.ledger.same rfl rfl rfl rfl rfl, .inr ⟨hgone.destroyed, hgone.calls,
            .inr ⟨hremoving, hstill.step hown, hlive⟩⟩⟩

/-- The timer of the destructor finds nothing queued for the connector. -/
theorem Sound.removeConnector {s : TcpClient τ} (h : Sound s)
    (hidle : s.connector_.loopIdle = true) (hremoving : s.removing = true)
    (hqueue : s.connector_.pendingFunctors_ = []) : Sound s.removeConnector := by
  refine ⟨h.single, h.ledger.same rfl rfl rfl rfl rfl, .inr ?_⟩
  rcases h.phase with halive | hgone
  · cases hremoving.symm.trans halive.removing
  · rcases hgone.connector_ with ⟨-, hlive, hleaving⟩ | ⟨hnot, -⟩
    · exact ⟨hgone.destroyed, hgone.calls,
        .inr ⟨rfl, hleaving.still h.single hidle hqueue, .inl hlive⟩⟩
    · cases hremoving.symm.trans hnot

/-! ### The end of a connection -/

omit [DecidableEq τ] in
/-- A connection that closes goes from the live ones to the closed ones. -/
theorem perm_close {live : List (Nat × CloseCallback)} {conn : Nat} {callback : CloseCallback}
    (hlive : live = [(conn, callback)]) (closed : List Nat) :
    (live.map Prod.fst ++ closed).Perm
      ((live.filter fun c => c.1 ≠ conn).map Prod.fst ++ (closed ++ [conn])) := by
  subst hlive
  simpa using (List.perm_append_singleton conn closed).symm

omit [DecidableEq τ] in
/-- The client forgets its connection, and may have the connector try again. -/
theorem Sound.close {s : TcpClient τ} (h : Sound s) (halive : Alive s) {conn : Nat}
    (hconnection : s.connection_ = some conn) (hlive : s.live = [(conn, .client)])
    (hended : s.connector_.handedOver = some 0) :
    Sound ({ s with live := s.live.filter fun c => c.1 ≠ conn }.removeConnection conn) := by
  have hnot : ¬ s.destroyed = true := by
    rw [halive.destroyed]
    exact Bool.false_ne_true
  have hempty : (s.live.filter fun c => c.1 ≠ conn) = [] := by
    rw [hlive]
    simp
  have htrace : s.trace ++ [.removed conn s.connection_] =
      s.trace ++ [.removed conn (some conn)] := by rw [hconnection]
  rw [TcpClient.removeConnection, if_neg hnot]
  dsimp only
  split
  · exact ⟨h.single.restart hended, h.ledger.neutral htrace (.inr (.inr ⟨conn, rfl⟩)) rfl rfl
      (perm_close hlive s.closed), .inl ⟨halive.destroyed, halive.removing, hempty,
        fun hsome => absurd rfl hsome⟩⟩
  · exact ⟨h.single, h.ledger.neutral htrace (.inr (.inr ⟨conn, rfl⟩)) rfl rfl
      (perm_close hlive s.closed), .inl ⟨halive.destroyed, halive.removing, hempty,
        fun hsome => absurd rfl hsome⟩⟩

omit [DecidableEq τ] in
theorem Sound.handleClose {s : TcpClient τ} (h : Sound s)
    (hended : s.connector_.handedOver = some 0) (conn : Nat) : Sound (s.handleClose conn) := by
  rw [TcpClient.handleClose]
  split
  · next c callback hfind =>
    have hconn : c = conn := by simpa using List.find?_some hfind
    have hmem := List.mem_of_find?_eq_some hfind
    subst hconn
    rcases h.phase with halive | hgone
    · have hlive := halive.live
      rcases Option.eq_none_or_eq_some s.connection_ with hconnection | ⟨conn, hconnection⟩
      · rw [hconnection] at hlive
        rw [show s.live = [] from hlive] at hmem
        cases hmem
      · rw [hconnection] at hlive
        have hlive' : s.live = [(conn, .client)] := hlive
        rw [hlive'] at hmem
        obtain ⟨rfl, rfl⟩ := Prod.mk.inj (List.mem_singleton.mp hmem)
        exact h.close halive hconnection hlive' hended
    · rcases hgone.connector_ with ⟨-, hlive, -⟩ | ⟨hnot, hstill, hlive | ⟨conn, hlive⟩⟩
      · rw [hlive] at hmem
        cases hmem
      · rw [hlive] at hmem
        cases hmem
      · have hmem' := hmem
        rw [hlive] at hmem'
        obtain ⟨rfl, rfl⟩ := Prod.mk.inj (List.mem_singleton.mp hmem')
        have hempty : (s.live.filter fun x => x.1 ≠ c) = [] := by
          rw [hlive]
          simp
        exact ⟨h.single, h.ledger.close rfl rfl rfl (perm_close hlive s.closed),
          .inr ⟨hgone.destroyed, hgone.calls, .inr ⟨hnot, hstill, .inl hempty⟩⟩⟩
  · exact h

omit [DecidableEq τ] in
theorem Sound.connectDestroyed {s : TcpClient τ} (h : Sound s) : Sound s.connectDestroyed := by
  unfold TcpClient.connectDestroyed
  split
  · next conn closed hclosed =>
    refine ⟨h.single, h.ledger.destroy rfl rfl rfl rfl hclosed, ?_⟩
    exact h.phase.imp (fun halive => ⟨halive.destroyed, halive.removing, halive.live,
      halive.handedOver⟩) fun hgone => ⟨hgone.destroyed, hgone.calls, hgone.connector_⟩
  · exact h

/-! ### Calls -/

theorem Sound.call {s : TcpClient τ} (h : Sound s) (t : τ) (c : ClientCall) :
    Sound (s.call t c) := by
  unfold TcpClient.call
  split
  · next hguard =>
    have hdestroyed : s.destroyed = false := by simpa using (Bool.and_eq_true_iff.mp hguard).2
    refine ⟨h.single, h.ledger.same rfl rfl rfl rfl rfl, .inl ?_⟩
    rcases h.phase with halive | hgone
    · exact ⟨halive.destroyed, halive.removing, halive.live, halive.handedOver⟩
    · rw [hgone.destroyed] at hdestroyed
      cases hdestroyed
  · exact h

omit [DecidableEq τ] in
/-- A client that is gone is in no call. -/
theorem Sound.alive_of_call {s : TcpClient τ} (h : Sound s) {c : τ × ClientCall}
    (hc : c ∈ s.calls) : Alive s := by
  rcases h.phase with halive | hgone
  · exact halive
  · rw [hgone.calls] at hc
    cases hc

theorem Sound.finish {s : TcpClient τ} (h : Sound s) (t : τ) (c : ClientCall)
    (hok : c = .connect → (t, c) ∈ s.calls → s.connector_.AttemptOk (.start t)) :
    Sound (s.finish t c) := by
  unfold TcpClient.finish
  split
  · next hmem =>
    have halive := h.alive_of_call hmem
    cases c with
    | connect =>
      have hover : (s.connector_.start t).handedOver = s.connector_.handedOver := by
        unfold Connector.start
        split <;> rfl
      exact ⟨h.single.start (hok rfl hmem), h.ledger.same rfl rfl rfl rfl rfl,
        .inl ⟨halive.destroyed, halive.removing, halive.live,
          fun hsome => hover ▸ halive.handedOver hsome⟩⟩
    | stop =>
      have hover : (s.connector_.stop t).handedOver = s.connector_.handedOver := by
        unfold Connector.stop
        split <;> rfl
      exact ⟨h.single.stop t, h.ledger.same rfl rfl rfl rfl rfl, .inl ⟨halive.destroyed,
        halive.removing, halive.live, fun hsome => hover ▸ halive.handedOver hsome⟩⟩
    | disconnect =>
      dsimp only
      split
      · next conn hconn =>
        exact ⟨h.single, h.ledger.neutral rfl (.inl ⟨conn, rfl⟩) rfl rfl (List.Perm.refl _),
          .inl ⟨halive.destroyed, halive.removing, halive.live, halive.handedOver⟩⟩
      · exact ⟨h.single, h.ledger.same rfl rfl rfl rfl rfl, .inl ⟨halive.destroyed,
          halive.removing, halive.live, halive.handedOver⟩⟩
  · exact h

/-! ### The destructor -/

/-- No thread is in a call of the client or its connector, and with a connection nothing is queued
for the connector, which goes with the client then. -/
def DestroyOk (s : TcpClient τ) : Prop :=
  s.calls = [] ∧ s.connector_.starting = [] ∧ s.connector_.stopping = [] ∧
    s.connector_.cancelling = [] ∧ (s.connection_ ≠ none → s.connector_.pendingFunctors_ = [])

omit [DecidableEq τ] in
/-- A connector whose connection was handed over has nothing left to do once its queue is empty. -/
theorem still_of_handedOver {c : Connector τ} (h : c.Single) (hover : c.handedOver ≠ none)
    (hstopping : c.stopping = []) (hcancelling : c.cancelling = [])
    (hqueue : c.pendingFunctors_ = []) : Still c := by
  obtain ⟨n, hn⟩ := Option.ne_none_iff_exists'.mp hover
  obtain ⟨hstate, hpc, -⟩ := h.handedOver n hn
  obtain ⟨hstarting, -, hawaited, hexpired⟩ :=
    Connector.sources_eq_zero (h.rest (by simp [Connector.busy, hstate]))
  have htimers : c.timers = [] := by simpa [Connector.awaited, hqueue] using hawaited
  have hchannel := h.channel
  rw [hqueue, Connector.live_of_state (by simp [hstate])] at hchannel
  exact ⟨hstarting, hstopping, hcancelling, hqueue, hchannel.eq_none, hpc, .inr ⟨htimers, hexpired⟩⟩

/-- The loop, which is in no function of the connector, tells it to stop. -/
theorem leaving_stop {c : Connector τ} (hidle : c.loopIdle = true) (hstarting : c.starting = [])
    (hstopping : c.stopping = []) (hcancelling : c.cancelling = []) :
    Leaving (c.stop c.loopThread) := by
  obtain ⟨hpc, hcall⟩ := Bool.and_eq_true_iff.mp hidle
  have hmay : c.mayCall c.loopThread = true := by
    simp only [Connector.mayCall, Bool.and_eq_true, Bool.or_eq_true]
    exact ⟨hcall, .inr hpc⟩
  have hnot : c.pc.decided = false := by
    rw [of_decide_eq_true hpc]
    rfl
  rw [Connector.stop, if_pos hmay]
  refine ⟨rfl, hnot, hstarting, ?_, .inl List.mem_cons_self⟩
  rintro t (ht | ht)
  · rw [hstopping] at ht
    exact List.mem_singleton.mp ht
  · rw [hcancelling] at ht
    cases ht

theorem Sound.destroy {s : TcpClient τ} (h : Sound s) (halive : s.destroyed = false)
    (hidle : s.connector_.loopIdle = true) (hok : DestroyOk s) (unique : Bool) :
    Sound (s.destroy unique) := by
  obtain ⟨hcalls, hstarting, hstopping, hcancelling, hqueue⟩ := hok
  have halive : Alive s := h.phase.resolve_right fun hgone => by
    rw [hgone.destroyed] at halive
    cases halive
  unfold TcpClient.destroy
  split
  -- with a connection the connector goes at once, without one after another second
  · next conn hconn =>
    have hsome : s.connection_ ≠ none := by rw [hconn]; exact Option.some_ne_none conn
    have hstill := still_of_handedOver h.single (halive.handedOver hsome) hstopping hcancelling
      (hqueue hsome)
    have hlive : s.live = [(conn, .client)] := by
      rw [halive.live, hconn]
      rfl
    have hlive' : (s.live.map fun c => if c.1 = conn then (conn, CloseCallback.detail) else c) =
        [(conn, .detail)] := by
      rw [hlive]
      simp
    have hids : (s.live.map fun c => if c.1 = conn then (conn, CloseCallback.detail) else c).map
        Prod.fst = s.live.map Prod.fst := by
      rw [hlive', hlive]
      rfl
    dsimp only
    split
    · have hfates : (s.live.map Prod.fst ++ s.closed).Perm
          ((s.live.map fun c => if c.1 = conn then (conn, CloseCallback.detail) else c).map
            Prod.fst ++ s.closed) := by rw [hids]
      exact ⟨h.single, h.ledger.neutral rfl (.inr (.inl ⟨conn, rfl⟩)) rfl rfl hfates,
        .inr ⟨rfl, hcalls, .inr ⟨halive.removing, hstill, .inr ⟨conn, hlive'⟩⟩⟩⟩
    · exact ⟨h.single, h.ledger.same rfl rfl rfl hids rfl, .inr ⟨rfl, hcalls,
        .inr ⟨halive.removing, hstill, .inr ⟨conn, hlive'⟩⟩⟩⟩
  · next hnone =>
    have hlive : s.live = [] := by
      rw [halive.live, hnone]
      rfl
    exact ⟨h.single.stop _, h.ledger.same rfl rfl rfl rfl rfl, .inr ⟨rfl, hcalls,
      .inl ⟨rfl, hlive, leaving_stop hidle hstarting hstopping hcancelling⟩⟩⟩

/-! ## Every run -/

/-- `start` and the retry timers find one attempt at a time, the destructor finds nobody in the
client or its connector and, with a connection, nothing queued for the connector; and without one
what was queued for it has been called when the second is over. -/
def ClientOk (s : TcpClient τ) : Event τ → Prop
  | .finish t .connect => (t, .connect) ∈ s.calls → s.connector_.AttemptOk (.start t)
  | .connector e => s.connector_.AttemptOk e
  | .destroy _ => s.DestroyOk
  | .removeConnector => s.removing = true → s.connector_.pendingFunctors_ = []
  | _ => True

instance (s : TcpClient τ) : (e : Event τ) → Decidable (s.ClientOk e)
  | .finish _ .connect => inferInstanceAs (Decidable (_ → _))
  | .connector e => inferInstanceAs (Decidable (s.connector_.AttemptOk e))
  | .destroy _ => inferInstanceAs (Decidable (_ ∧ _ ∧ _ ∧ _ ∧ (_ → _)))
  | .removeConnector => inferInstanceAs (Decidable (_ → _))
  | .finish _ .disconnect | .finish _ .stop | .call .. | .enableRetry | .handleClose _
  | .connectDestroyed => instDecidableTrue

theorem Sound.step {s : TcpClient τ} (h : Sound s) {e : Event τ} (hok : s.ClientOk e) :
    Sound (s.step e) := by
  cases e with
  | call t c => exact h.call t c
  | finish t c =>
    refine h.finish t c ?_
    rintro rfl
    exact hok
  | enableRetry =>
    refine ⟨h.single, h.ledger.same rfl rfl rfl rfl rfl, ?_⟩
    exact h.phase.imp (fun halive => ⟨halive.destroyed, halive.removing, halive.live,
      halive.handedOver⟩) fun hgone => ⟨hgone.destroyed, hgone.calls, hgone.connector_⟩
  | connector e =>
    rw [TcpClient.step]
    split
    · next hguard => exact h.stepConnector (Bool.and_eq_true_iff.mp hguard).1 hok
    · exact h
  | handleClose conn =>
    rw [TcpClient.step]
    split
    · next hguard =>
      have hended : s.connector_.handedOver = some 0 := by
        simpa using (Bool.and_eq_true_iff.mp hguard).2
      exact h.handleClose hended conn
    · exact h
  | connectDestroyed =>
    rw [TcpClient.step]
    split
    · exact h.connectDestroyed
    · exact h
  | destroy unique =>
    rw [TcpClient.step]
    split
    · next hguard =>
      obtain ⟨hidle, halive⟩ := Bool.and_eq_true_iff.mp hguard
      exact h.destroy (by simpa using halive) (Bool.and_eq_true_iff.mp hidle).1 hok unique
    · exact h
  | removeConnector =>
    rw [TcpClient.step]
    split
    · next hguard =>
      obtain ⟨hidle, hremoving⟩ := Bool.and_eq_true_iff.mp hguard
      exact h.removeConnector (Bool.and_eq_true_iff.mp hidle).1 hremoving (hok hremoving)
    · exact h

/-- In a run whose steps are `ClientOk`: there is one connection at a time, and as long as the
client is there it is the one in `connection_`, which `removeConnection` finds there when it closes.
No call goes to a client or connector that is gone. The connections are counted from 1 in the order
they are established, which is what their names say as far as an int goes, and each is live, or
closed with its `connectDestroyed` in the queue, or destroyed, and only once. -/
theorem one_connection (loopThread : τ) (es : List (Event τ))
    (hok : Meets ClientOk step (new loopThread) es) :
    let s := run step (new loopThread) es
    s.live.length ≤ 1 ∧
      (s.destroyed = false →
        s.live = (s.connection_.map fun conn => (conn, CloseCallback.client)).toList) ∧
      (∀ conn connection, .removed conn connection ∈ s.trace → connection = some conn) ∧
      .dangling ∉ s.trace ∧
      s.established = List.range' 1 s.conns ∧
      (∀ (conn : Nat) connId sockfd, .established conn connId sockfd ∈ s.trace →
        connId = castInt conn) ∧
      s.established.Perm (s.live.map Prod.fst ++ s.closed ++ s.destroyedConns) := by
  intro s
  have h : Sound s := run_invariant (fun _ _ h hok => h.step hok) (sound_new loopThread) hok
  refine ⟨?_, fun hthere => ?_, h.ledger.removed, h.ledger.dangling, h.ledger.established,
    h.ledger.ids, h.ledger.fates⟩
  · rcases h.phase with halive | hgone
    · rw [halive.live]
      cases s.connection_ <;> simp
    · rcases hgone.connector_ with ⟨-, hlive, -⟩ | ⟨-, -, hlive | ⟨conn, hlive⟩⟩ <;>
        simp [hlive]
  · rcases h.phase with halive | hgone
    · exact halive.live
    · rw [hgone.destroyed] at hthere
      cases hthere

/-- A connection that ends, and is tried again, and the destructor while the connector is
connecting, which it gives another second. -/
theorem one_connection_retry :
    let s := run step (new 0) [.enableRetry, .call 1 .connect, .finish 1 .connect,
      .connector (.runStart 1), .connector .callFunctor, .connector (.connect .EINPROGRESS),
      .connector (.handleWrite false false), .connector .proceed, .connector .proceed,
      .connector .callFunctor, .handleClose 1, .connector .proceed, .connector .proceed,
      .connector (.connect .EINPROGRESS), .connectDestroyed, .destroy true,
      .connector (.queueStop 0), .connector (.cancel 0), .connector .callFunctor,
      .connector .proceed, .connector .callFunctor, .removeConnector, .connector .callFunctor]
    s.established = [1] ∧ s.connectorGone = true ∧ .dangling ∉ s.trace := by
  intro s
  exact ⟨by decide +kernel, by decide +kernel,
    (one_connection 0 [.enableRetry, .call 1 .connect, .finish 1 .connect,
      .connector (.runStart 1), .connector .callFunctor, .connector (.connect .EINPROGRESS),
      .connector (.handleWrite false false), .connector .proceed, .connector .proceed,
      .connector .callFunctor, .handleClose 1, .connector .proceed, .connector .proceed,
      .connector (.connect .EINPROGRESS), .connectDestroyed, .destroy true,
      .connector (.queueStop 0), .connector (.cancel 0), .connector .callFunctor,
      .connector .proceed, .connector .callFunctor, .removeConnector, .connector .callFunctor]
      (by decide +kernel)).2.2.2.1⟩

/-- The destructor runs right after the connection is established. The connector goes with the
client, and the `resetChannel` it has queued is called all the same. Or it runs while the connector
is connecting, and the loop takes more than the second until it calls the `resetChannel`. -/
theorem one_connection_fails :
    (¬ ∀ (loopThread : Nat) (es : List (Event Nat)), .removeConnector ∉ es →
      .dangling ∉ (run step (new loopThread) es).trace) ∧
    ¬ ∀ (loopThread : Nat) (es : List (Event Nat)),
      (∀ e ∈ es, ∀ err selfConnect, e ≠ .connector (.handleWrite err selfConnect)) →
      .dangling ∉ (run step (new loopThread) es).trace := by
  constructor
  · intro hall
    have hdangling := hall 0 [.call 1 .connect, .finish 1 .connect, .connector (.runStart 1),
      .connector .callFunctor, .connector (.connect .EINPROGRESS),
      .connector (.handleWrite false false), .connector .proceed, .connector .proceed,
      .destroy true, .connector .callFunctor] (by simp)
    exact absurd hdangling (by decide +kernel)
  · intro hall
    have hdangling := hall 0 [.call 1 .connect, .finish 1 .connect, .connector (.runStart 1),
      .connector .callFunctor, .connector (.connect .EINPROGRESS), .destroy true,
      .connector (.queueStop 0), .connector (.cancel 0), .connector .callFunctor,
      .connector .proceed, .removeConnector, .connector .callFunctor] (by simp)
    exact absurd hdangling (by decide +kernel)

end TcpClient

end Mymuduo
