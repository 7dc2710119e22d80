import Mathlib.Data.BitVec

/-!
# `net/Channel`

The interest set `events_` of a channel and the dispatch of `handleEventWithGuard`. The event bits
are those of `poll(2)`. The dispatch tests `revents_` only, which nothing changes while it runs, so
it is the list of the callbacks it invokes, in order; a channel's owner runs them one after the
other.
-/

namespace Mymuduo

/-- A set of `poll(2)` bits. -/
abbrev Events := BitVec 32

def POLLIN : Events := 0x0001
def POLLPRI : Events := 0x0002
def POLLOUT : Events := 0x0004
def POLLERR : Events := 0x0008
def POLLHUP : Events := 0x0010
def POLLNVAL : Events := 0x0020

/-- `ev & mask`, read as a condition. -/
def Events.test (ev mask : Events) : Bool := ev &&& mask != 0

structure Channel where
  events_ : Events
  deriving DecidableEq, Repr

namespace Channel

def kNoneEvent : Events := 0
def kReadEvent : Events := POLLIN ||| POLLPRI
def kWriteEvent : Events := POLLOUT

def enableReading (ch : Channel) : Channel := { ch with events_ := ch.events_ ||| kReadEvent }
def disableReading (ch : Channel) : Channel := { ch with events_ := ch.events_ &&& ~~~kReadEvent }
def enableWriting (ch : Channel) : Channel := { ch with events_ := ch.events_ ||| kWriteEvent }
def disableWriting (ch : Channel) : Channel := { ch with events_ := ch.events_ &&& ~~~kWriteEvent }
def disableAll (ch : Channel) : Channel := { ch with events_ := kNoneEvent }

def isWriting (ch : Channel) : Bool := ch.events_.test kWriteEvent
def isReading (ch : Channel) : Bool := ch.events_.test kReadEvent
def isNoneEvent (ch : Channel) : Bool := ch.events_ == kNoneEvent

theorem or_test (ev : Events) {mask : Events} (h : mask ≠ 0) :
    Events.test (ev ||| mask) mask = true := by
  have habsorb : (ev ||| mask) &&& mask = mask := by
    ext i hi
    simpa using Or.inr
  simpa [Events.test, habsorb] using h

theorem andNot_test (ev mask : Events) : Events.test (ev &&& ~~~mask) mask = false := by
  have hzero : (ev &&& ~~~mask) &&& mask = 0 := by
    ext i hi
    simp
  simp [Events.test, hzero]

theorem test_or (ev mask mask' : Events) :
    ev.test (mask ||| mask') = (ev.test mask || ev.test mask') := by
  simp only [Events.test, BitVec.and_or_distrib_left]
  rw [Bool.eq_iff_iff]
  simp only [bne_iff_ne, ne_eq, Bool.or_eq_true]
  rw [← not_and_or, not_iff_not]
  exact BitVec.or_eq_zero_iff

@[simp] theorem isWriting_enableWriting (ch : Channel) : ch.enableWriting.isWriting = true :=
  or_test ch.events_ (by decide)

@[simp] theorem isWriting_disableWriting (ch : Channel) : ch.disableWriting.isWriting = false :=
  andNot_test ch.events_ kWriteEvent

@[simp] theorem isWriting_disableAll (ch : Channel) : ch.disableAll.isWriting = false := by
  show Events.test kNoneEvent kWriteEvent = false
  decide

@[simp] theorem isWriting_enableReading (ch : Channel) :
    ch.enableReading.isWriting = ch.isWriting := by
  have hdisjoint : (ch.events_ ||| kReadEvent) &&& kWriteEvent = ch.events_ &&& kWriteEvent := by
    have hzero : kReadEvent &&& kWriteEvent = 0 := by decide
    rw [BitVec.and_or_distrib_right, hzero]
    exact BitVec.or_zero
  simp only [isWriting, Events.test, enableReading, hdisjoint]

/-- The callbacks a channel holds. -/
inductive Callback
  | close
  | error
  | read
  | write
  deriving DecidableEq, Repr

/-- `handleEventWithGuard`: the callbacks invoked for `revents_`, in order. -/
def handleEventWithGuard (revents : Events) : List Callback :=
  (if revents.test POLLHUP && !revents.test POLLIN then [.close] else []) ++
  (if revents.test (POLLERR ||| POLLNVAL) then [.error] else []) ++
  (if revents.test (POLLIN ||| POLLPRI ||| POLLHUP) then [.read] else []) ++
  (if revents.test POLLOUT then [.write] else [])

end Channel

end Mymuduo
