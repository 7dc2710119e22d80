import Mymuduo.Net.Buffer
import Mymuduo.Net.Channel
import Mathlib.Tactic.Simps.Basic

/-!
# `net/TcpConnection`

One connection in its loop thread. The record holds the members of `TcpConnection` and, after
them, the world its functions act on: the loop's queue of functors, what is left to read of each
open file, and the trace of everything the connection did that can be seen from outside.

A system call is answered by the kernel, so every function that makes one takes the answer as an
argument (`SysRet`, `ReadRet`). `write(2)` and `sendfile(2)` never report more bytes than they were
given, and `sendfile(2)` never more than the file still holds.

The code is modelled as its release build runs it (`-DNDEBUG`): an assertion does not stop it.
`handleClose` records the state it was entered in, which is what its assertion is about.
-/

namespace Mymuduo

open CString

inductive StateE
  | kConnecting
  | kConnected
  | kDisconnecting
  | kDisconnected
  deriving DecidableEq, Repr

inductive Errno
  | EWOULDBLOCK
  | EINTR
  | EPIPE
  | ECONNRESET
  | EBADF
  | other (code : Nat)
  deriving DecidableEq, Repr

/-- The answer to `write(2)` or `sendfile(2)`. -/
inductive SysRet
  | ok (n : Nat)
  | fail (e : Errno)
  deriving DecidableEq, Repr

/-- The answer to `readv(2)`: the bytes read, none of them at the end of the stream. -/
inductive ReadRet
  | ok (data : Bytes)
  | fail (e : Errno)
  deriving DecidableEq, Repr

/-- What `queueInLoop` can be given for a connection. -/
inductive Functor
  | shutdownInLoop
  | forceCloseInLoop
  | sendFileInLoop
  | sendInLoop (message : Bytes)
  | writeCompleteCallback
  | highWaterMarkCallback (len : Nat)
  deriving DecidableEq, Repr

/-- What a connection does to the outside. -/
inductive Effect
  | put (data : Bytes)
  | shutdownWrite
  | close (fd : Int)
  | handleClose (s : StateE)
  | messageCallback
  | connectionCallback (up : Bool)
  | closeCallback
  deriving DecidableEq, Repr

structure TcpConnection where
  state_ : StateE
  inputBuffer_ : Buffer
  outputBuffer_ : Buffer
  sendFd_ : Int
  sendLen_ : Nat
  channel_ : Channel
  highWaterMark_ : Nat
  highWaterMarkCallback_ : Bool
  writeCompleteCallback_ : Bool
  pendingFunctors_ : List Functor
  files : Int → Bytes
  trace : List Effect

/-- The bytes put on the socket. -/
def wire : List Effect → Bytes
  | [] => []
  | .put data :: es => data ++ wire es
  | _ :: es => wire es

namespace TcpConnection

/-- The constructor; the mark and which of the optional callbacks are set is up to the owner. -/
def new (highWaterMark : Nat) (highWaterMarkCallback writeCompleteCallback : Bool)
    (files : Int → Bytes) : TcpConnection where
  state_ := .kConnecting
  inputBuffer_ := Buffer.new kInitialSize
  outputBuffer_ := Buffer.new kInitialSize
  sendFd_ := -1
  sendLen_ := 0
  channel_ := ⟨Channel.kNoneEvent⟩
  highWaterMark_ := highWaterMark
  highWaterMarkCallback_ := highWaterMarkCallback
  writeCompleteCallback_ := writeCompleteCallback
  pendingFunctors_ := []
  files := files
  trace := []

@[simps] def emit (c : TcpConnection) (e : Effect) : TcpConnection :=
  { c with trace := c.trace ++ [e] }

@[simps] def queueInLoop (c : TcpConnection) (f : Functor) : TcpConnection :=
  { c with pendingFunctors_ := c.pendingFunctors_ ++ [f] }

@[simps] def setInput (c : TcpConnection) (buf : Buffer) : TcpConnection :=
  { c with inputBuffer_ := buf }

@[simps] def setState (c : TcpConnection) (s : StateE) : TcpConnection :=
  { c with state_ := s }

def isWriting (c : TcpConnection) : Bool := c.channel_.isWriting

@[simps] def enableWriting (c : TcpConnection) : TcpConnection :=
  { c with channel_ := c.channel_.enableWriting }

@[simps] def disableWriting (c : TcpConnection) : TcpConnection :=
  { c with channel_ := c.channel_.disableWriting }

@[simps] def enableReading (c : TcpConnection) : TcpConnection :=
  { c with channel_ := c.channel_.enableReading }

@[simps] def disableAll (c : TcpConnection) : TcpConnection :=
  { c with channel_ := c.channel_.disableAll }

@[simp] theorem isWriting_setState (c : TcpConnection) (s : StateE) :
    (c.setState s).isWriting = c.isWriting := rfl

@[simp] theorem isWriting_new (highWaterMark : Nat) (hcb wcb : Bool) (files : Int → Bytes) :
    (new highWaterMark hcb wcb files).isWriting = false := by
  show Events.test Channel.kNoneEvent Channel.kWriteEvent = false
  decide

@[simp] theorem isWriting_enableReading (c : TcpConnection) :
    c.enableReading.isWriting = c.isWriting :=
  Channel.isWriting_enableReading c.channel_

@[simp] theorem isWriting_emit (c : TcpConnection) (e : Effect) :
    (c.emit e).isWriting = c.isWriting := rfl

@[simp] theorem isWriting_queueInLoop (c : TcpConnection) (f : Functor) :
    (c.queueInLoop f).isWriting = c.isWriting := rfl

@[simp] theorem isWriting_enableWriting (c : TcpConnection) : c.enableWriting.isWriting = true :=
  Channel.isWriting_enableWriting c.channel_

@[simp] theorem isWriting_disableWriting (c : TcpConnection) :
    c.disableWriting.isWriting = false :=
  Channel.isWriting_disableWriting c.channel_

/-! ## System calls -/

/-- `write(2)` of `data` to the socket. -/
def write (c : TcpConnection) (data : Bytes) : SysRet → TcpConnection × Except Errno Nat
  | .ok n => (c.emit (.put (data.take n)), .ok (min n data.length))
  | .fail e => (c, .error e)

/-- What `sendfile(2)` takes from the file when it reports `n` bytes. -/
def fileBytes (c : TcpConnection) (n : Nat) : Bytes :=
  ((c.files c.sendFd_).take c.sendLen_).take n

/-- `sendfile(2)` moves the file's offset on. -/
@[simps!] def moveFile (c : TcpConnection) (data : Bytes) : TcpConnection :=
  let files fd := if fd = c.sendFd_ then (c.files fd).drop data.length else c.files fd
  { c with files := files }.emit (.put data)

/-- `sendfile(2)` of `sendLen_` bytes from the offset of `sendFd_`. -/
def sendfile (c : TcpConnection) : SysRet → TcpConnection × Except Errno Nat
  | .ok n =>
    if c.sendFd_ < 0 then (c, .error .EBADF)
    else (c.moveFile (c.fileBytes n), .ok (c.fileBytes n).length)
  | .fail e => (c, .error e)

/-- `::close(sendFd_);` -/
@[simps!] def closeSendFd (c : TcpConnection) : TcpConnection := c.emit (.close c.sendFd_)

/-- `sendLen_ -= n;` -/
@[simps] def advance (c : TcpConnection) (n : Nat) : TcpConnection :=
  { c with sendLen_ := c.sendLen_ - n }

@[simps] def setFile (c : TcpConnection) (fd : Int) (count : Nat) : TcpConnection :=
  { c with sendFd_ := fd, sendLen_ := count }

@[simp] theorem isWriting_moveFile (c : TcpConnection) (data : Bytes) :
    (c.moveFile data).isWriting = c.isWriting := rfl

@[simp] theorem isWriting_closeSendFd (c : TcpConnection) :
    c.closeSendFd.isWriting = c.isWriting := rfl

@[simp] theorem isWriting_advance (c : TcpConnection) (n : Nat) :
    (c.advance n).isWriting = c.isWriting := rfl

@[simp] theorem isWriting_setFile (c : TcpConnection) (fd : Int) (count : Nat) :
    (c.setFile fd count).isWriting = c.isWriting := rfl

/-! ## Sending -/

def shutdownInLoop (c : TcpConnection) : TcpConnection :=
  if !c.isWriting then c.emit .shutdownWrite else c

/-- `if (!channel_->isWriting()) channel_->enableWriting();` -/
def watchWritable (c : TcpConnection) : TcpConnection :=
  if !c.isWriting then c.enableWriting else c

/-- Queue `writeCompleteCallback_`, if it is set. -/
def noteWriteComplete (c : TcpConnection) : TcpConnection :=
  if c.writeCompleteCallback_ then c.queueInLoop .writeCompleteCallback else c

/-- Queue `highWaterMarkCallback_`, if `remaining` more bytes cross the mark. -/
def noteHighWater (c : TcpConnection) (remaining : Nat) : TcpConnection :=
  let oldlen := c.outputBuffer_.readableBytes
  if c.highWaterMark_ ≤ oldlen + remaining ∧ oldlen < c.highWaterMark_ ∧
      c.highWaterMarkCallback_ then
    c.queueInLoop (.highWaterMarkCallback (oldlen + remaining))
  else c

@[simps] def retrieveOutput (c : TcpConnection) (n : Nat) : TcpConnection :=
  { c with outputBuffer_ := c.outputBuffer_.retrieve n }

@[simps] def bufferOutput (c : TcpConnection) (data : Bytes) : TcpConnection :=
  { c with outputBuffer_ := c.outputBuffer_.append data }

/-- The tail of `sendInLoop`: keep what `write(2)` did not take and watch for writability. -/
def keepRemaining (c : TcpConnection) (data : Bytes) (nwrote : Nat) (faultError : Bool) :
    TcpConnection :=
  let remaining := data.length - nwrote
  if !faultError && 0 < remaining then
    ((c.noteHighWater remaining).bufferOutput (data.drop nwrote)).watchWritable
  else c

/-- Errors that `sendInLoop` and `sendFileInLoop` give up on. -/
def isFault : Errno → Bool
  | .EPIPE => true
  | .ECONNRESET => true
  | _ => false

def sendInLoop (c : TcpConnection) (data : Bytes) (r : SysRet) : TcpConnection :=
  if c.state_ = .kDisconnected then c
  else if !c.isWriting && c.outputBuffer_.readableBytes == 0 then
    match c.write data r with
    | (c, .ok nwrote) =>
      let c := if data.length - nwrote = 0 then c.noteWriteComplete else c
      c.keepRemaining data nwrote false
    | (c, .error e) => c.keepRemaining data 0 (isFault e)
  else c.keepRemaining data 0 false

/-- `send` in the loop thread. -/
def send (c : TcpConnection) (message : Bytes) (r : SysRet) : TcpConnection :=
  if c.state_ = .kConnected then c.sendInLoop message r else c

/-- The tail of `sendFileInLoop`. -/
def watchFile (c : TcpConnection) (faultError : Bool) : TcpConnection :=
  if !faultError && 0 < c.sendLen_ then c.watchWritable else c

def sendFileInLoop (c : TcpConnection) (r : SysRet) : TcpConnection :=
  if c.state_ = .kDisconnected then c
  else if !c.isWriting && c.outputBuffer_.readableBytes == 0 then
    match c.sendfile r with
    | (c, .ok nwrote) =>
      let c := c.advance nwrote
      -- `sendFd_` keeps its value
      let c := if c.sendLen_ = 0 then c.closeSendFd else c
      c.watchFile false
    | (c, .error e) => c.watchFile (isFault e)
  else c.watchFile false

/-- `sendFile` in the loop thread. -/
def sendFile (c : TcpConnection) (fd : Int) (count : Nat) (r : SysRet) : TcpConnection :=
  if c.state_ = .kConnected then
    (c.setFile fd count).sendFileInLoop r
  else c

/-- `sendFile` in another thread, in one step: the members are set there, the rest is queued. -/
def sendFileFromThread (c : TcpConnection) (fd : Int) (count : Nat) : TcpConnection :=
  if c.state_ = .kConnected then
    (c.setFile fd count).queueInLoop .sendFileInLoop
  else c

/-- `send` in another thread. -/
def sendFromThread (c : TcpConnection) (message : Bytes) : TcpConnection :=
  if c.state_ = .kConnected then c.queueInLoop (.sendInLoop message) else c

/-! ## Closing -/

/-- `shutdown` in the loop thread. -/
def shutdown (c : TcpConnection) : TcpConnection :=
  if c.state_ = .kConnected then (c.setState .kDisconnecting).shutdownInLoop else c

/-- `shutdown` in another thread. -/
def shutdownFromThread (c : TcpConnection) : TcpConnection :=
  if c.state_ = .kConnected then
    (c.setState .kDisconnecting).queueInLoop .shutdownInLoop
  else c

def handleClose (c : TcpConnection) : TcpConnection :=
  let c := c.emit (.handleClose c.state_)
  let c := (c.setState .kDisconnected).disableAll
  (c.emit (.connectionCallback false)).emit .closeCallback

@[simp] theorem isWriting_handleClose (c : TcpConnection) : c.handleClose.isWriting = false :=
  Channel.isWriting_disableAll c.channel_

/-- Going down: the state, the callbacks, and nothing on the socket. -/
@[simp] theorem trace_handleClose (c : TcpConnection) :
    c.handleClose.trace = c.trace ++
      [.handleClose c.state_, .connectionCallback false, .closeCallback] := by
  simp [handleClose]

def forceClose (c : TcpConnection) : TcpConnection :=
  if c.state_ = .kConnected ∨ c.state_ = .kDisconnecting then
    (c.setState .kDisconnecting).queueInLoop .forceCloseInLoop
  else c

def forceCloseInLoop (c : TcpConnection) : TcpConnection :=
  if c.state_ = .kConnected ∨ c.state_ = .kDisconnecting then c.handleClose else c

def connectEstablished (c : TcpConnection) : TcpConnection :=
  (c.setState .kConnected).enableReading.emit (.connectionCallback true)

/-- `connectDestroyed`, up to `channel_->remove()`, which concerns the poller only. -/
def connectDestroyed (c : TcpConnection) : TcpConnection :=
  if c.state_ = .kConnected then
    (c.setState .kDisconnected).disableAll.emit (.connectionCallback false)
  else c

/-! ## Events -/

/-- Everything is out: shut down the write side now, if `shutdown` had to wait. -/
def finishShutdown (c : TcpConnection) : TcpConnection :=
  if c.state_ = .kDisconnecting then c.shutdownInLoop else c

/-- The branch of `handleWrite` that drains the buffer. -/
def writeBuffer (c : TcpConnection) (r : SysRet) : TcpConnection :=
  match c.write c.outputBuffer_.readable r with
  | (c, .ok n) =>
    if 0 < n then
      let c := c.retrieveOutput n
      if c.outputBuffer_.readableBytes = 0 ∧ c.sendLen_ = 0 then
        c.disableWriting.noteWriteComplete.finishShutdown
      else c
    else c
  | (c, .error _) => c

/-- What `handleWrite` does when `sendfile(2)` makes no progress. -/
def abandonFile (c : TcpConnection) : TcpConnection :=
  -- no `finishShutdown` here: a shutdown that waits for the file goes on waiting
  (c.closeSendFd.setFile (-1) 0).disableWriting

/-- The branch of `handleWrite` that sends from the file. -/
def writeFile (c : TcpConnection) (r : SysRet) : TcpConnection :=
  match c.sendfile r with
  | (c, .ok n) =>
    if 0 < n then
      let c := c.advance n
      if c.sendLen_ = 0 then (c.disableWriting.closeSendFd.setFile (-1) 0).finishShutdown
      else c
    else c.abandonFile
  | (c, .error _) => c.abandonFile

def handleWrite (c : TcpConnection) (r : SysRet) : TcpConnection :=
  if c.isWriting then
    if c.outputBuffer_.readableBytes ≠ 0 then c.writeBuffer r else c.writeFile r
  else c

/-- `handleRead`; what the message callback does with the connection comes after it. -/
def handleRead (c : TcpConnection) : ReadRet → TcpConnection
  | .ok data =>
    if data = [] then c.handleClose
    else
      let got := data.take c.inputBuffer_.readLimit
      { c with inputBuffer_ := c.inputBuffer_.readFd got }.emit .messageCallback
  -- `handleError` only logs
  | .fail _ => c

/-! ## The loop -/

/-- The loop runs one queued functor. A callback of the user's has no effect of its own here: the
calls it makes are calls like any other. -/
def runFunctor (c : TcpConnection) (r : SysRet) : Functor → TcpConnection
  | .shutdownInLoop => c.shutdownInLoop
  | .forceCloseInLoop => c.forceCloseInLoop
  | .sendFileInLoop => c.sendFileInLoop r
  | .sendInLoop message => c.sendInLoop message r
  | .writeCompleteCallback => c
  | .highWaterMarkCallback _ => c

/-- What can happen to a connection, one call at a time: the user's calls in the loop thread, the
user's calls in other threads, and what the loop and the server do. -/
inductive Event
  | connectEstablished
  | send (message : Bytes) (r : SysRet)
  | sendFile (fd : Int) (count : Nat) (r : SysRet)
  | shutdown
  | forceClose
  | forceCloseInLoop
  | sendFromThread (message : Bytes)
  | sendFileFromThread (fd : Int) (count : Nat)
  | shutdownFromThread
  | handleRead (r : ReadRet)
  | handleWrite (r : SysRet)
  | handleClose
  | doPendingFunctor (r : SysRet)
  | connectDestroyed
  deriving DecidableEq, Repr

def step (c : TcpConnection) : Event → TcpConnection
  | .connectEstablished => c.connectEstablished
  | .send message r => c.send message r
  | .sendFile fd count r => c.sendFile fd count r
  | .shutdown => c.shutdown
  | .forceClose => c.forceClose
  | .forceCloseInLoop => c.forceCloseInLoop
  | .sendFromThread message => c.sendFromThread message
  | .sendFileFromThread fd count => c.sendFileFromThread fd count
  | .shutdownFromThread => c.shutdownFromThread
  | .handleRead r => c.handleRead r
  | .handleWrite r => c.handleWrite r
  | .handleClose => c.handleClose
  | .doPendingFunctor r =>
    match c.pendingFunctors_ with
    | [] => c
    | f :: fs => { c with pendingFunctors_ := fs }.runFunctor r f
  | .connectDestroyed => c.connectDestroyed

end TcpConnection

end Mymuduo
