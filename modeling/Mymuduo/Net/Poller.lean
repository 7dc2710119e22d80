import Mymuduo.Net.Channel
import Mathlib.Logic.Function.Basic
import Mathlib.Data.Set.Basic

/-!
# `net/poller`

The two pollers, `EPollPoller` and `PollPoller`, as far as they keep what the kernel watches. The
channels of the loop are those of a type `ι`, each with a descriptor `fd c` of its own; `index_` is
the field of a channel that its poller uses. `epollfd_` is the interest list in the kernel, and
`pollfds_` is what `poll(2)` is given.

The release build is modelled, without the assertions. Where the code would follow a null pointer
or leave the bounds of `pollfds_`, which the assertions exclude, nothing happens.
-/

namespace Mymuduo

/-- What the owner of a channel does to it. -/
inductive ChannelOp
  | enableReading
  | disableReading
  | enableWriting
  | disableWriting
  | disableAll
  | remove
  deriving DecidableEq, Repr

/-- What the operation does to `events_`, before `update()`. -/
def ChannelOp.apply : ChannelOp → Channel → Channel
  | .enableReading, ch => ch.enableReading
  | .disableReading, ch => ch.disableReading
  | .enableWriting, ch => ch.enableWriting
  | .disableWriting, ch => ch.disableWriting
  | .disableAll, ch => ch.disableAll
  | .remove, ch => ch

/-! ## `EPollPoller` -/

inductive EpollCtl
  | EPOLL_CTL_ADD
  | EPOLL_CTL_MOD
  | EPOLL_CTL_DEL
  deriving DecidableEq, Repr

structure EpollEvent (ι : Type*) where
  events : Events
  ptr : ι
  deriving DecidableEq, Repr

/-- `epoll_ctl(2)`: a descriptor is added once, and is there when it is modified or deleted. -/
def epoll_ctl {ι : Type*} (list : Nat → Option (EpollEvent ι)) (op : EpollCtl) (fd : Nat)
    (event : EpollEvent ι) : Option (Nat → Option (EpollEvent ι)) :=
  match op, list fd with
  | .EPOLL_CTL_ADD, none => some (Function.update list fd (some event))
  | .EPOLL_CTL_MOD, some _ => some (Function.update list fd (some event))
  | .EPOLL_CTL_DEL, some _ => some (Function.update list fd none)
  | _, _ => none

structure EPollPoller (ι : Type*) where
  channels : ι → Channel
  index_ : ι → Int
  channels_ : Nat → Option ι
  epollfd_ : Nat → Option (EpollEvent ι)
  /-- `LOG_SYSFATAL` ended the program. -/
  aborted : Bool

namespace EPollPoller

variable {ι : Type*} [DecidableEq ι]

def kNew : Int := -1
def kAdded : Int := 1
def kDeleted : Int := 2

def new : EPollPoller ι where
  channels := fun _ => ⟨Channel.kNoneEvent⟩
  index_ := fun _ => kNew
  channels_ := fun _ => none
  epollfd_ := fun _ => none
  aborted := false

def update (fd : ι → Nat) (p : EPollPoller ι) (operation : EpollCtl) (channel : ι) :
    EPollPoller ι :=
  match epoll_ctl p.epollfd_ operation (fd channel) ⟨(p.channels channel).events_, channel⟩ with
  | some list => { p with epollfd_ := list }
  | none => if operation = .EPOLL_CTL_DEL then p else { p with aborted := true }

def updateChannel (fd : ι → Nat) (p : EPollPoller ι) (channel : ι) : EPollPoller ι :=
  let index := p.index_ channel
  if index = kNew ∨ index = kDeleted then
    let p :=
      if index = kNew then
        { p with channels_ := Function.update p.channels_ (fd channel) (some channel) }
      else p
    update fd { p with index_ := Function.update p.index_ channel kAdded } .EPOLL_CTL_ADD channel
  else if (p.channels channel).isNoneEvent then
    let p := update fd p .EPOLL_CTL_DEL channel
    { p with index_ := Function.update p.index_ channel kDeleted }
  else update fd p .EPOLL_CTL_MOD channel

def removeChannel (fd : ι → Nat) (p : EPollPoller ι) (channel : ι) : EPollPoller ι :=
  let index := p.index_ channel
  let p := { p with channels_ := Function.update p.channels_ (fd channel) none }
  let p := if index = kAdded then update fd p .EPOLL_CTL_DEL channel else p
  { p with index_ := Function.update p.index_ channel kNew }

/-- One operation of a channel's owner. -/
def step (fd : ι → Nat) (p : EPollPoller ι) (e : ι × ChannelOp) : EPollPoller ι :=
  if e.2 = .remove then removeChannel fd p e.1
  else
    updateChannel fd
      { p with channels := Function.update p.channels e.1 (e.2.apply (p.channels e.1)) } e.1

/-- The descriptors the kernel is asked to watch, and the events. -/
def watched (p : EPollPoller ι) : Set (Nat × Events) :=
  {w | ∃ event, p.epollfd_ w.1 = some event ∧ event.events = w.2}

end EPollPoller

/-! ## `PollPoller` -/

/-- `struct pollfd`, without the `revents` that the kernel writes. -/
structure Pollfd where
  fd : Int
  events : BitVec 16
  deriving DecidableEq, Repr

structure PollPoller (ι : Type*) where
  channels : ι → Channel
  index_ : ι → Int
  channels_ : Nat → Option ι
  pollfds_ : List Pollfd

namespace PollPoller

variable {ι : Type*} [DecidableEq ι]

def new : PollPoller ι where
  channels := fun _ => ⟨Channel.kNoneEvent⟩
  index_ := fun _ => -1
  channels_ := fun _ => none
  pollfds_ := []

def updateChannel (fd : ι → Nat) (p : PollPoller ι) (channel : ι) : PollPoller ι :=
  let events := (p.channels channel).events_.setWidth 16
  if p.index_ channel < 0 then
    { p with
      pollfds_ := p.pollfds_ ++ [⟨fd channel, events⟩]
      index_ := Function.update p.index_ channel p.pollfds_.length
      channels_ := Function.update p.channels_ (fd channel) (some channel) }
  else
    let idx := (p.index_ channel).toNat
    { p with
      pollfds_ := p.pollfds_.modify idx fun pfd =>
        { fd := if (p.channels channel).isNoneEvent then -(fd channel) - 1 else pfd.fd
          events := events } }

/-- `std::iter_swap` -/
def iterSwap {α : Type*} (l : List α) (i j : Nat) : List α :=
  match l[i]?, l[j]? with
  | some a, some b => (l.set i b).set j a
  | _, _ => l

def removeChannel (fd : ι → Nat) (p : PollPoller ι) (channel : ι) : PollPoller ι :=
  let idx := (p.index_ channel).toNat
  let channels_ := Function.update p.channels_ (fd channel) none
  if idx = p.pollfds_.length - 1 then
    { p with channels_ := channels_, pollfds_ := p.pollfds_.dropLast }
  else
    match p.pollfds_.getLast? with
    | none => { p with channels_ := channels_ }
    | some back =>
      let channelAdEnd := if back.fd < 0 then -back.fd - 1 else back.fd
      { p with
        channels_ := channels_
        pollfds_ := (iterSwap p.pollfds_ idx (p.pollfds_.length - 1)).dropLast
        index_ :=
          match channels_ channelAdEnd.toNat with
          | some moved => Function.update p.index_ moved idx
          | none => p.index_ }

/-- One operation of a channel's owner. -/
def step (fd : ι → Nat) (p : PollPoller ι) (e : ι × ChannelOp) : PollPoller ι :=
  if e.2 = .remove then removeChannel fd p e.1
  else
    updateChannel fd
      { p with channels := Function.update p.channels e.1 (e.2.apply (p.channels e.1)) } e.1

/-- The descriptors the kernel is asked to watch, and the events: it skips the negative ones. -/
def watched (p : PollPoller ι) : Set (Nat × Events) :=
  {w | ∃ pfd ∈ p.pollfds_, pfd.fd = w.1 ∧ pfd.events.setWidth 32 = w.2}

end PollPoller

end Mymuduo
