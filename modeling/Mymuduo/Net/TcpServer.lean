import Mathlib.Logic.Function.Basic
import Mymuduo.Lib.CString
import Mymuduo.Net.TcpConnection

/-!
# `net/TcpServer`

The server and its loops: the base loop, which is loop 0, and the loops of the thread pool, which
are 1 to `numThreads_`. A connection is known by its number in `conns`, which lists every
connection made so far and stands for the objects that the `TcpConnectionPtr`s point to.

A loop has one queue for everything. A connection's step queues its functors in the connection's own
loop, and calls `closeCallback_`, which is `removeConnection`, when it closes. `runInLoop` calls at
once in the loop's own thread and queues in any other.

Of a connection's events those are modelled that come from the peer and from calls in the
connection's own loop. The sockets and addresses of a connection are left out, and so is a hang-up
that the poller reports without any input.
-/

namespace Mymuduo

open CString

/-- A connection as the server has made it. -/
structure Connection where
  name_ : Bytes
  loop_ : Nat
  conn : TcpConnection

namespace Connection

/-- What can happen to a connection in its loop. The poller reports input only to a channel that
reads. -/
def enabled (x : Connection) : TcpConnection.Event → Bool
  | .send _ _ => true
  | .shutdown => true
  | .forceClose => true
  | .forceCloseInLoop => true
  | .handleWrite _ => true
  | .handleRead _ => x.conn.channel_.isReading
  | _ => false

/-- The step `e`, with `pending` as the functors that are run. -/
def step (x : Connection) (pending : List Functor) (e : TcpConnection.Event) : TcpConnection :=
  { x.conn with pendingFunctors_ := pending }.step e

/-- The connection becomes `c`; what `c` has queued is for its loop. -/
def store (x : Connection) (c : TcpConnection) : Connection :=
  { x with conn := { c with pendingFunctors_ := [] } }

end Connection

/-- What a loop of the server can have in its queue. -/
inductive Task
  | connectEstablished (k : Nat)
  | removeConnectionInLoop (k : Nat)
  | connectDestroyed (k : Nat)
  | functor (k : Nat) (f : Functor)
  deriving DecidableEq, Repr

/-- The bookkeeping of the server, with the loop that does it. `n` is the number of entries that
`connections_.erase` removes. -/
inductive Record
  | newConnection (k : Nat)
  | connectEstablished (loop k : Nat)
  | removeConnection (loop k : Nat)
  | removeConnectionInLoop (loop k n : Nat)
  | connectDestroyed (loop k : Nat)
  deriving DecidableEq, Repr

structure TcpServer where
  name_ : Bytes
  writeCompleteCallback_ : Bool
  numThreads_ : Nat
  next_ : Nat
  nextConnId_ : Int
  connections_ : Bytes → Option Nat
  conns : List Connection
  queues : Nat → List Task
  records : List Record

namespace TcpServer

/-- A server with a pool of `numThreads` loops, after `start`. -/
def new (name : Bytes) (writeCompleteCallback : Bool) (numThreads : Nat) : TcpServer where
  name_ := name
  writeCompleteCallback_ := writeCompleteCallback
  numThreads_ := numThreads
  next_ := 0
  nextConnId_ := 1
  connections_ := fun _ => none
  conns := []
  queues := fun _ => []
  records := []

def record (s : TcpServer) (e : Record) : TcpServer := { s with records := s.records ++ [e] }

/-- Queue the tasks in the loop `l`. -/
def queueInLoop (s : TcpServer) (l : Nat) (ts : List Task) : TcpServer :=
  { s with queues := Function.update s.queues l (s.queues l ++ ts) }

/-- The loop `l` has taken a functor from its queue, and `ts` are left. -/
def setQueue (s : TcpServer) (l : Nat) (ts : List Task) : TcpServer :=
  { s with queues := Function.update s.queues l ts }

/-- `EventLoopThreadPool::getNextLoop` -/
def getNextLoop (s : TcpServer) : Nat :=
  if s.numThreads_ = 0 then 0 else s.next_ + 1

/-- What `getNextLoop` leaves in `next_`. -/
def advanceNext (s : TcpServer) : Nat :=
  if s.numThreads_ = 0 then s.next_
  else if s.numThreads_ ≤ s.next_ + 1 then 0
  else s.next_ + 1

/-! ## The end of a connection -/

def removeConnectionInLoop (s : TcpServer) (l k : Nat) : TcpServer :=
  match s.conns[k]? with
  | none => s
  | some x =>
    let n := if (s.connections_ x.name_).isSome then 1 else 0
    let s := { s with connections_ := Function.update s.connections_ x.name_ none }
    (s.record (.removeConnectionInLoop l k n)).queueInLoop x.loop_ [.connectDestroyed k]

def removeConnection (s : TcpServer) (l k : Nat) : TcpServer :=
  let s := s.record (.removeConnection l k)
  if l = 0 then s.removeConnectionInLoop l k else s.queueInLoop 0 [.removeConnectionInLoop k]

/-! ## The steps of a connection -/

/-- The connection `k` becomes `c`, and what it has queued goes to the queue of its loop. -/
def putBack (s : TcpServer) (k : Nat) (x : Connection) (c : TcpConnection) : TcpServer :=
  { s with conns := s.conns.set k (x.store c) }.queueInLoop x.loop_
    (c.pendingFunctors_.map (.functor k))

/-- The loop `l` takes the step `e` of the connection `k`, with `pending` as the functors it
runs. -/
def act (s : TcpServer) (l k : Nat) (pending : List Functor) (e : TcpConnection.Event) :
    TcpServer :=
  match s.conns[k]? with
  | none => s
  | some x =>
    let c := x.step pending e
    let s := s.putBack k x c
    if .closeCallback ∈ c.trace.drop x.conn.trace.length then s.removeConnection l k else s

def connectEstablished (s : TcpServer) (l k : Nat) : TcpServer :=
  (s.record (.connectEstablished l k)).act l k [] .connectEstablished

def connectDestroyed (s : TcpServer) (l k : Nat) : TcpServer :=
  (s.record (.connectDestroyed l k)).act l k [] .connectDestroyed

/-! ## The beginning of a connection -/

/-- The object that `newConnection` makes, with the default mark. -/
def makeConnection (s : TcpServer) : Connection where
  -- `char buf[32]`
  name_ := s.name_ ++ (ascii "#" ++ intText s.nextConnId_).take 31
  loop_ := s.getNextLoop
  conn := .new (64 * 1024 * 1024) false s.writeCompleteCallback_ fun _ => []

def newConnection (s : TcpServer) : TcpServer :=
  let x := s.makeConnection
  let k := s.conns.length
  let s :=
    { s with
      nextConnId_ := castInt (s.nextConnId_ + 1)
      next_ := s.advanceNext
      conns := s.conns ++ [x]
      connections_ := Function.update s.connections_ x.name_ (some k) }
  let s := s.record (.newConnection k)
  if x.loop_ = 0 then s.connectEstablished 0 k
  else s.queueInLoop x.loop_ [.connectEstablished k]

/-! ## The loops -/

def runTask (s : TcpServer) (l : Nat) (r : SysRet) : Task → TcpServer
  | .connectEstablished k => s.connectEstablished l k
  | .removeConnectionInLoop k => s.removeConnectionInLoop l k
  | .connectDestroyed k => s.connectDestroyed l k
  | .functor k f => s.act l k [f] (.doPendingFunctor r)

/-- The base loop accepts a connection, a connection's loop takes a step of it, or a loop runs the
first functor of its queue. -/
inductive Event
  | newConnection
  | conn (k : Nat) (e : TcpConnection.Event)
  | doPendingFunctor (l : Nat) (r : SysRet)
  deriving DecidableEq, Repr

def step (s : TcpServer) : Event → TcpServer
  | .newConnection => s.newConnection
  | .conn k e =>
    match s.conns[k]? with
    | none => s
    | some x => if x.enabled e then s.act x.loop_ k [] e else s
  | .doPendingFunctor l r =>
    match s.queues l with
    | [] => s
    | t :: ts => (s.setQueue l ts).runTask l r t

end TcpServer

end Mymuduo
