import Mymuduo.Lib.Transition

/-!
# `net/Connector`

A connector with what the loop holds for it: its functors in the queue, in the order they are
called, and its retry timers. `start` and `stop` are called by any thread, the one of the loop
included, and are one step for each access to what the threads share. So are the functions that run
in the loop: what they do for a `connect_` that they have found set is a step of its own, and
`connect_` may have changed by then. Whatever is in the queue besides, and the time that passes, is
left out: a retry timer may expire at any time after it was set.

A connection that was handed over ends in a later iteration of the loop, or by a functor that was
queued after it, so that the functors which were in the queue then have been called by that time.

The code is modelled as its release build runs it, without the assertions; the trace records what
they look at. Where the code would follow a null pointer, nothing happens.
-/

namespace Mymuduo

/-- `Connector::States` -/
inductive ConnectorState
  | kDisconnected
  | kConnecting
  | kConnected
  deriving DecidableEq, Repr

/-- `savedErrno` after `sockets::connect`. -/
inductive ConnectErrno
  | success
  | EINPROGRESS
  | EINTR
  | EISCONN
  | EAGAIN
  | EADDRINUSE
  | EADDRNOTAVAIL
  | ECONNREFUSED
  | ENETUNREACH
  | EACCES
  | EPERM
  | EAFNOSUPPORT
  | EALREADY
  | EBADF
  | EFAULT
  | ENOTSOCK
  | unexpected
  deriving DecidableEq, Repr

structure ConnectorChannel where
  fd : Nat
  /-- The poller knows the channel. -/
  registered : Bool
  deriving DecidableEq, Repr

structure RetryTimer where
  sequence : Nat
  delayMs : Nat
  deriving DecidableEq, Repr

inductive ConnectorFunctor
  | startInLoop
  | stopInLoop
  | resetChannel
  /-- `TimerQueue::cancelInLoop` -/
  | cancel (timerId : Option Nat)
  deriving DecidableEq, Repr

/-- Where the loop is in a function of the connector. -/
inductive ConnectorPc
  | idle
  /-- in `restart`, about to set `connect_` -/
  | restarting
  /-- in `restart`, about to call `startInLoop` -/
  | starting
  /-- in `startInLoop`, about to call `connect` -/
  | connecting
  /-- about to call `retry` -/
  | retrying (sockfd : Nat)
  /-- in `retry`, about to set the timer -/
  | delaying
  /-- in `handleWrite`, with a connection -/
  | connected (sockfd : Nat)
  /-- in `handleWrite`, about to call `newConnectionCallback_` -/
  | handingOver (sockfd : Nat)
  deriving DecidableEq, Repr

inductive ConnectorEffect
  /-- `startInLoop` is called in this state. -/
  | started (state : ConnectorState)
  /-- a new socket, and `sockets::connect` -/
  | connect (sockfd : Nat)
  /-- `connecting` finds this in `channel_`. -/
  | connecting (channel : Option ConnectorChannel)
  | destroyed (channel : ConnectorChannel)
  | newConnection (sockfd : Nat)
  | closed (sockfd : Nat)
  deriving DecidableEq, Repr

structure Connector (τ : Type*) where
  connect_ : Bool
  state_ : ConnectorState
  channel_ : Option ConnectorChannel
  retryDelayMs_ : Nat
  timerId_ : Option Nat
  loopThread : τ
  pendingFunctors_ : List ConnectorFunctor
  timers : List RetryTimer
  /-- the timers that `getExpired` has taken, which are still to be run -/
  expired : List RetryTimer
  pc : ConnectorPc
  /-- the threads in `start`, about to call `runInLoop` -/
  starting : List τ
  /-- the threads in `stop`, about to call `queueInLoop` -/
  stopping : List τ
  /-- the threads in `stop`, about to call `cancel` -/
  cancelling : List τ
  /-- how many functors are called before the connection that was handed over can end -/
  handedOver : Option Nat
  nextFd : Nat
  nextSequence : Nat
  trace : List ConnectorEffect
  deriving DecidableEq, Repr

namespace Connector

def kMaxRetryDelayMs : Nat := 30 * 1000
def kInitRetryDelayMs : Nat := 500

variable {τ : Type*}

def new (loopThread : τ) : Connector τ where
  connect_ := false
  state_ := .kDisconnected
  channel_ := none
  retryDelayMs_ := kInitRetryDelayMs
  timerId_ := none
  loopThread := loopThread
  pendingFunctors_ := []
  timers := []
  expired := []
  pc := .idle
  starting := []
  stopping := []
  cancelling := []
  handedOver := none
  nextFd := 0
  nextSequence := 0
  trace := []

def emit (s : Connector τ) (e : ConnectorEffect) : Connector τ :=
  { s with trace := s.trace ++ [e] }

def queueInLoop (s : Connector τ) (f : ConnectorFunctor) : Connector τ :=
  { s with pendingFunctors_ := s.pendingFunctors_ ++ [f] }

/-! ## In the loop -/

/-- What becomes of the channel in `channel_` when it is reset. -/
def destroyChannel (s : Connector τ) : Connector τ :=
  match s.channel_ with
  | some channel => { s with channel_ := none }.emit (.destroyed channel)
  | none => s

def resetChannel (s : Connector τ) : Connector τ := s.destroyChannel

/-- `enableWriting` registers the new channel. -/
def connecting (s : Connector τ) (sockfd : Nat) : Connector τ :=
  let s := { s with state_ := .kConnecting }.emit (.connecting s.channel_)
  { s.destroyChannel with channel_ := some ⟨sockfd, true⟩ }

def connect (s : Connector τ) (savedErrno : ConnectErrno) : Connector τ :=
  let sockfd := s.nextFd
  let s := { s with nextFd := sockfd + 1 }.emit (.connect sockfd)
  match savedErrno with
  | .success | .EINPROGRESS | .EINTR | .EISCONN => s.connecting sockfd
  | .EAGAIN | .EADDRINUSE | .EADDRNOTAVAIL | .ECONNREFUSED | .ENETUNREACH =>
    { s with pc := .retrying sockfd }
  | .EACCES | .EPERM | .EAFNOSUPPORT | .EALREADY | .EBADF | .EFAULT | .ENOTSOCK
  | .unexpected => s.emit (.closed sockfd)

def startInLoop (s : Connector τ) : Connector τ :=
  let s := s.emit (.started s.state_)
  if s.connect_ then { s with pc := .connecting } else s

/-- The rest of `startInLoop` -/
def callConnect (s : Connector τ) (savedErrno : ConnectErrno) : Connector τ :=
  match s.pc with
  | .connecting => { s with pc := .idle }.connect savedErrno
  | _ => s

/-- The caller goes on with the descriptor of the channel. -/
def removeAndResetChannel (s : Connector τ) (next : Nat → ConnectorPc) : Connector τ :=
  match s.channel_ with
  | some channel =>
    { s with channel_ := some { channel with registered := false }, pc := next channel.fd
      }.queueInLoop .resetChannel
  | none => s

def stopInLoop (s : Connector τ) : Connector τ :=
  if s.state_ = .kConnecting then
    { s with state_ := .kDisconnected }.removeAndResetChannel .retrying
  else s

def handleError (s : Connector τ) : Connector τ :=
  if s.state_ = .kConnecting then s.removeAndResetChannel .retrying else s

/-- `handleWrite`, with the `SO_ERROR` of the socket and what `isSelfConnect` says. -/
def handleWrite (s : Connector τ) (err selfConnect : Bool) : Connector τ :=
  if s.state_ = .kConnecting then
    s.removeAndResetChannel fun sockfd =>
      if err || selfConnect then .retrying sockfd else .connected sockfd
  else s

def retry (s : Connector τ) (sockfd : Nat) : Connector τ :=
  let s := { s with state_ := .kDisconnected, pc := .idle }.emit (.closed sockfd)
  if s.connect_ then { s with pc := .delaying } else s

/-- The rest of `retry`: `loop_->runAfter`, whose result goes to `timerId_` -/
def runAfter (s : Connector τ) : Connector τ :=
  { s with
    pc := .idle
    timers := s.timers ++ [⟨s.nextSequence, s.retryDelayMs_⟩]
    timerId_ := some s.nextSequence
    nextSequence := s.nextSequence + 1
    retryDelayMs_ := min (s.retryDelayMs_ * 2) kMaxRetryDelayMs }

/-- `handleWrite` goes on with a connection. -/
def connected (s : Connector τ) (sockfd : Nat) : Connector τ :=
  let s := { s with state_ := .kConnected, pc := .idle }
  if s.connect_ then { s with pc := .handingOver sockfd } else s.emit (.closed sockfd)

/-- `newConnectionCallback_(sockfd)` -/
def handOver (s : Connector τ) (sockfd : Nat) : Connector τ :=
  { s with pc := .idle, handedOver := some s.pendingFunctors_.length }.emit (.newConnection sockfd)

/-- `restart`, up to where it sets `connect_` -/
def restart (s : Connector τ) : Connector τ :=
  { s with
    state_ := .kDisconnected
    retryDelayMs_ := kInitRetryDelayMs
    pc := .restarting
    handedOver := none }

/-- The loop goes on with the function it is in, but for `connect`. -/
def proceed (s : Connector τ) : Connector τ :=
  match s.pc with
  | .idle | .connecting => s
  | .restarting => { s with connect_ := true, pc := .starting }
  | .starting => { s with pc := .idle }.startInLoop
  | .retrying sockfd => s.retry sockfd
  | .delaying => s.runAfter
  | .connected sockfd => s.connected sockfd
  | .handingOver sockfd => s.handOver sockfd

def cancelInLoop (s : Connector τ) (timerId : Option Nat) : Connector τ :=
  { s with timers := s.timers.filter fun timer => some timer.sequence ≠ timerId }

def runFunctor (s : Connector τ) : ConnectorFunctor → Connector τ
  | .startInLoop => s.startInLoop
  | .stopInLoop => s.stopInLoop
  | .resetChannel => s.resetChannel
  | .cancel timerId => s.cancelInLoop timerId

/-- `doPendingFunctors`, one functor a step -/
def callFunctor (s : Connector τ) : Connector τ :=
  match s.pendingFunctors_ with
  | f :: functors =>
    { s with
      pendingFunctors_ := functors
      handedOver := s.handedOver.map fun n => n - 1 }.runFunctor f
  | [] => s

/-- The timer of this number has expired. -/
def getExpired (s : Connector τ) (sequence : Nat) : Connector τ :=
  { s with
    timers := s.timers.filter fun timer => timer.sequence ≠ sequence
    expired := s.expired ++ s.timers.filter fun timer => timer.sequence = sequence }

def runTimer (s : Connector τ) : Connector τ :=
  match s.expired with
  | _ :: expired => { s with expired := expired }.startInLoop
  | [] => s

variable [DecidableEq τ]

/-! ## Calls -/

def inCall (s : Connector τ) (t : τ) : Bool :=
  t ∈ s.starting || t ∈ s.stopping || t ∈ s.cancelling

/-- Can the thread call a function of the connector? -/
def mayCall (s : Connector τ) (t : τ) : Bool :=
  !s.inCall t && (t ≠ s.loopThread || s.pc = .idle)

/-- Is the loop between two functions of the connector? -/
def loopIdle (s : Connector τ) : Bool := s.pc = .idle && !s.inCall s.loopThread

/-- `start`, up to the call of `runInLoop` -/
def start (s : Connector τ) (t : τ) : Connector τ :=
  if s.mayCall t then { s with connect_ := true, starting := t :: s.starting } else s

/-- `runInLoop` of `startInLoop` -/
def runStart (s : Connector τ) (t : τ) : Connector τ :=
  if t ∈ s.starting then
    let s := { s with starting := s.starting.erase t }
    if t = s.loopThread then s.startInLoop else s.queueInLoop .startInLoop
  else s

/-- `stop`, up to the call of `queueInLoop` -/
def stop (s : Connector τ) (t : τ) : Connector τ :=
  if s.mayCall t then { s with connect_ := false, stopping := t :: s.stopping } else s

def queueStop (s : Connector τ) (t : τ) : Connector τ :=
  if t ∈ s.stopping then
    { s with stopping := s.stopping.erase t, cancelling := t :: s.cancelling
      }.queueInLoop .stopInLoop
  else s

/-- `loop_->cancel(timerId_)` -/
def cancel (s : Connector τ) (t : τ) : Connector τ :=
  if t ∈ s.cancelling then
    let s := { s with cancelling := s.cancelling.erase t }
    if t = s.loopThread then s.cancelInLoop s.timerId_ else s.queueInLoop (.cancel s.timerId_)
  else s

/-! ## Runs -/

inductive Event (τ : Type*)
  | start (t : τ)
  | runStart (t : τ)
  | stop (t : τ)
  | queueStop (t : τ)
  | cancel (t : τ)
  /-- The connection that was handed over has ended. -/
  | restart
  | callFunctor
  | handleWrite (err selfConnect : Bool)
  | handleError
  | connect (savedErrno : ConnectErrno)
  | proceed
  | getExpired (sequence : Nat)
  | runTimer
  deriving DecidableEq, Repr

def step (s : Connector τ) : Event τ → Connector τ
  | .start t => s.start t
  | .runStart t => s.runStart t
  | .stop t => s.stop t
  | .queueStop t => s.queueStop t
  | .cancel t => s.cancel t
  | .restart => if s.loopIdle && s.handedOver = some 0 then s.restart else s
  | .callFunctor => if s.loopIdle then s.callFunctor else s
  | .handleWrite err selfConnect =>
    if s.loopIdle && s.channel_.isSome then s.handleWrite err selfConnect else s
  | .handleError => if s.loopIdle && s.channel_.isSome then s.handleError else s
  | .connect savedErrno => s.callConnect savedErrno
  | .proceed => s.proceed
  | .getExpired sequence => if s.loopIdle then s.getExpired sequence else s
  | .runTimer => if s.loopIdle then s.runTimer else s

end Connector

end Mymuduo
