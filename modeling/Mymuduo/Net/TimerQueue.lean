import Mathlib.Data.Prod.Lex
import Mathlib.Logic.Function.Basic
import Mathlib.Tactic.Simps.Basic
import Mymuduo.Base.Timestamp
import Mymuduo.Lib.OrderedSet

/-!
# `net/TimerQueue`

The timers of one loop, in the loop's thread. Every reading of the clock is an argument, and so is
the address that `new Timer` returns.

A pointer is an address together with the object it was obtained for; the sets compare addresses
only, as the code does, while the heap answers for objects, so that a pointer to a freed timer
stays dangling when its address is used again. `dangling` is recorded wherever the code would read
or free a timer that is gone.

`handleRead` is taken apart at the callbacks of its batch, which may add and cancel timers:
`handleRead` up to the first callback, `runTimer` for each of them, and `endRead` for the rest.
The release build is modelled, without its assertions.
-/

namespace Mymuduo

open Timestamp

/-- `struct timespec`. -/
structure Timespec where
  tv_sec : Int
  tv_nsec : Int
  deriving DecidableEq, Repr

/-- A `Timer*`. -/
structure TimerPtr where
  addr : Nat
  object : Nat
  deriving DecidableEq, Repr

/-- A `Timer`. Of the `double interval_` the code uses whether it is positive, which is `repeat_`,
and the microseconds that `addTime` makes of it. -/
structure Timer where
  expiration_ : Timestamp
  interval_ : Int
  repeat_ : Bool
  sequence_ : Nat
  deriving DecidableEq, Repr

def Timer.restart (timer : Timer) (now : Timestamp) : Timer :=
  { timer with
    expiration_ := if timer.repeat_ then addTime now timer.interval_ else Timestamp.invalid }

structure TimerId where
  timer_ : TimerPtr
  sequence_ : Nat
  deriving DecidableEq, Repr

abbrev Entry := Timestamp × TimerPtr

/-- `operator<` of `std::pair<Timestamp, Timer *>`. -/
def Entry.key (it : Entry) : Int ×ₗ Nat := toLex (it.1, it.2.addr)

abbrev ActiveTimer := TimerPtr × Nat

/-- `operator<` of `std::pair<Timer *, int64_t>`. -/
def ActiveTimer.key (timer : ActiveTimer) : Nat ×ₗ Nat := toLex (timer.1.addr, timer.2)

/-- What a `timerfd_settime` asked for, and when. -/
structure Alarm where
  since : Timestamp
  it_value : Timespec
  deriving DecidableEq, Repr

/-- The instant at which the descriptor becomes readable. -/
def Alarm.instant (alarm : Alarm) : Timestamp :=
  alarm.since + alarm.it_value.tv_sec * kMicroSecondsPerSecond + alarm.it_value.tv_nsec / 1000

/-- The locals of `handleRead` while it runs its callbacks: `now`, `expired`, and the part of it
that is still to run. -/
structure Batch where
  now : Timestamp
  expired : List Entry
  todo : List Entry
  deriving DecidableEq, Repr

inductive TimerEffect
  | addTimer (id : TimerId)
  | run (sequence : Nat)
  | delete (sequence : Nat)
  | dangling (p : TimerPtr)
  | settime (it_value : Timespec)
  deriving DecidableEq, Repr

structure TimerQueue where
  callingExpiredTimers_ : Bool
  timers_ : OrderedSet Entry.key
  activeTimers_ : OrderedSet ActiveTimer.key
  cancelingTimers_ : OrderedSet ActiveTimer.key
  timerfd_ : Option Alarm
  s_numCreated_ : Nat
  heap : TimerPtr → Option Timer
  /-- The timers of the `addTimerInLoop` functors that wait in the loop. -/
  functors : List TimerPtr
  batch : Option Batch
  trace : List TimerEffect

namespace TimerQueue

def new : TimerQueue where
  callingExpiredTimers_ := false
  timers_ := .empty
  activeTimers_ := .empty
  cancelingTimers_ := .empty
  timerfd_ := none
  s_numCreated_ := 0
  heap := fun _ => none
  functors := []
  batch := none
  trace := []

@[simps] def emit (q : TimerQueue) (e : TimerEffect) : TimerQueue :=
  { q with trace := q.trace ++ [e] }

/-! ## The descriptor -/

def howMuchTimeFromNow (when' now : Timestamp) : Timespec :=
  let microseconds := int64 (when' - now)
  let microseconds := if microseconds < 100 then 100 else microseconds
  ⟨microseconds / kMicroSecondsPerSecond, microseconds % kMicroSecondsPerSecond * 1000⟩

/-- A successful `read(2)`: the descriptor has fired, once, and is armed no more. -/
@[simps] def readTimerfd (q : TimerQueue) : TimerQueue := { q with timerfd_ := none }

@[simps!] def resetTimerfd (q : TimerQueue) (expiration now : Timestamp) : TimerQueue :=
  { q with timerfd_ := some ⟨now, howMuchTimeFromNow expiration now⟩ }.emit
    (.settime (howMuchTimeFromNow expiration now))

/-! ## Timers -/

/-- `new Timer(cb, when, interval)` at the address `addr`. -/
def newTimer (q : TimerQueue) (addr : Nat) (when' : Timestamp) (interval : Int) (rep : Bool) :
    TimerQueue :=
  let sequence := q.s_numCreated_ + 1
  { q with
    s_numCreated_ := sequence
    heap := Function.update q.heap ⟨addr, sequence⟩ (some ⟨when', interval, rep, sequence⟩)
  }.emit (.addTimer ⟨⟨addr, sequence⟩, sequence⟩)

/-- `delete p` -/
def delete (q : TimerQueue) (p : TimerPtr) : TimerQueue :=
  match q.heap p with
  | none => q.emit (.dangling p)
  | some timer => { q with heap := Function.update q.heap p none }.emit (.delete timer.sequence_)

/-- Does a timer for `when` go to the front? -/
def earliestChanged (q : TimerQueue) (when' : Timestamp) : Bool :=
  match q.timers_.begin? with
  | none => true
  | some it => when' < it.1

def insert (q : TimerQueue) (p : TimerPtr) : TimerQueue × Bool :=
  match q.heap p with
  | none => (q.emit (.dangling p), false)
  | some timer =>
    ({ q with
      timers_ := q.timers_.insert (timer.expiration_, p)
      activeTimers_ := q.activeTimers_.insert (p, timer.sequence_) },
      q.earliestChanged timer.expiration_)

def addTimerInLoop (q : TimerQueue) (p : TimerPtr) (now : Timestamp) : TimerQueue :=
  match q.insert p with
  | (q, true) =>
    match q.heap p with
    | none => q.emit (.dangling p)
    | some timer => q.resetTimerfd timer.expiration_ now
  | (q, false) => q

/-- `addTimer` in the loop thread. -/
def addTimer (q : TimerQueue) (addr : Nat) (when' : Timestamp) (interval : Int) (rep : Bool)
    (now : Timestamp) : TimerQueue :=
  (q.newTimer addr when' interval rep).addTimerInLoop ⟨addr, q.s_numCreated_ + 1⟩ now

/-- `addTimer` in another thread: the rest is queued. The source reads `timer->sequence()` after
that, when the loop may have run and freed the timer already; here it is one step, so that the
`TimerId` has the number of the timer that was made. -/
def addTimerFromThread (q : TimerQueue) (addr : Nat) (when' : Timestamp) (interval : Int)
    (rep : Bool) : TimerQueue :=
  { q.newTimer addr when' interval rep with
    functors := q.functors ++ [⟨addr, q.s_numCreated_ + 1⟩] }

/-- The queued `addTimerInLoop` of `p`; no functor runs in the middle of a batch. -/
def runFunctor (q : TimerQueue) (p : TimerPtr) (now : Timestamp) : TimerQueue :=
  if q.batch = none ∧ p ∈ q.functors then
    { q with functors := q.functors.erase p }.addTimerInLoop p now
  else q

def cancelInLoop (q : TimerQueue) (timerId : TimerId) : TimerQueue :=
  let timer : ActiveTimer := (timerId.timer_, timerId.sequence_)
  match q.activeTimers_.find? timer.key with
  | some it =>
    match q.heap it.1 with
    | none => q.emit (.dangling it.1)
    | some t =>
      let q := { q with timers_ := q.timers_.eraseKey (Entry.key (t.expiration_, it.1)) }
      let q := q.delete it.1
      { q with activeTimers_ := q.activeTimers_.eraseKey it.key }
  | none =>
    if q.callingExpiredTimers_ then
      { q with cancelingTimers_ := q.cancelingTimers_.insert timer }
    else q

/-! ## Expiry -/

def UINTPTR_MAX : Nat := 2 ^ 64 - 1

def eraseActive (q : TimerQueue) (it : Entry) : TimerQueue :=
  match q.heap it.2 with
  | none => q.emit (.dangling it.2)
  | some timer =>
    { q with activeTimers_ := q.activeTimers_.eraseKey (ActiveTimer.key (it.2, timer.sequence_)) }

/-- `getExpired`; the second part is the vector it returns. -/
def getExpired (q : TimerQueue) (now : Timestamp) : TimerQueue × List Entry :=
  let sentry := Entry.key (now, ⟨UINTPTR_MAX, 0⟩)
  let expired := q.timers_.takeBelow sentry
  (expired.foldl eraseActive { q with timers_ := q.timers_.dropBelow sentry }, expired)

/-- `handleRead`, up to the first callback. -/
def handleRead (q : TimerQueue) (now : Timestamp) : TimerQueue :=
  if q.batch = none then
    let (q, expired) := q.readTimerfd.getExpired now
    { q with
      callingExpiredTimers_ := true
      cancelingTimers_ := .empty
      batch := some ⟨now, expired, expired⟩ }
  else q

/-- The next callback of the batch is started. -/
def runTimer (q : TimerQueue) : TimerQueue :=
  match q.batch with
  | some ⟨now, expired, it :: todo⟩ =>
    let q := { q with batch := some ⟨now, expired, todo⟩ }
    match q.heap it.2 with
    | none => q.emit (.dangling it.2)
    | some timer => q.emit (.run timer.sequence_)
  | _ => q

/-- The body of the loop in `reset`. -/
def resetOne (now : Timestamp) (q : TimerQueue) (it : Entry) : TimerQueue :=
  match q.heap it.2 with
  | none => q.emit (.dangling it.2)
  | some timer =>
    if timer.repeat_ ∧
        q.cancelingTimers_.find? (ActiveTimer.key (it.2, timer.sequence_)) = none then
      ({ q with heap := Function.update q.heap it.2 (some (timer.restart now)) }.insert it.2).1
    else q.delete it.2

/-- The tail of `reset`: `now'` is what the clock says by then. -/
def rearm (q : TimerQueue) (now' : Timestamp) : TimerQueue :=
  match q.timers_.begin? with
  | none => q
  | some it =>
    match q.heap it.2 with
    | none => q.emit (.dangling it.2)
    | some timer =>
      -- an invalid time point stands for "no timer" here
      if Timestamp.valid timer.expiration_ then q.resetTimerfd timer.expiration_ now' else q

def reset (q : TimerQueue) (expired : List Entry) (now now' : Timestamp) : TimerQueue :=
  (expired.foldl (resetOne now) q).rearm now'

/-- `handleRead`, after the last callback. -/
def endRead (q : TimerQueue) (now' : Timestamp) : TimerQueue :=
  match q.batch with
  | some ⟨now, expired, []⟩ =>
    { q with callingExpiredTimers_ := false, batch := none }.reset expired now now'
  | _ => q

/-! ## Runs -/

/-- What can happen to a timer queue: calls in the loop thread, from callbacks of the batch or
elsewhere, calls of `addTimer` in other threads, and the steps of `handleRead`. -/
inductive Event
  | addTimer (addr : Nat) (when' : Timestamp) (interval : Int) (rep : Bool) (now : Timestamp)
  | addTimerFromThread (addr : Nat) (when' : Timestamp) (interval : Int) (rep : Bool)
  | runFunctor (p : TimerPtr) (now : Timestamp)
  | cancelInLoop (timerId : TimerId)
  | handleRead (now : Timestamp)
  | runTimer
  | endRead (now' : Timestamp)
  deriving DecidableEq, Repr

def step (q : TimerQueue) : Event → TimerQueue
  | .addTimer addr when' interval rep now => q.addTimer addr when' interval rep now
  | .addTimerFromThread addr when' interval rep => q.addTimerFromThread addr when' interval rep
  | .runFunctor p now => q.runFunctor p now
  | .cancelInLoop timerId => q.cancelInLoop timerId
  | .handleRead now => q.handleRead now
  | .runTimer => q.runTimer
  | .endRead now' => q.endRead now'

/-- `operator new` does not hand out memory that is in use, nor the highest address. -/
def Allocates (q : TimerQueue) : Event → Prop
  | .addTimer addr _ _ _ _ | .addTimerFromThread addr _ _ _ =>
    addr < UINTPTR_MAX ∧ ∀ object ≤ q.s_numCreated_, q.heap ⟨addr, object⟩ = none
  | _ => True

instance (q : TimerQueue) : (e : Event) → Decidable (q.Allocates e)
  | .addTimer .. | .addTimerFromThread .. => inferInstanceAs (Decidable (_ ∧ _))
  | .runFunctor .. | .cancelInLoop .. | .handleRead .. | .runTimer | .endRead .. =>
    instDecidableTrue

end TimerQueue

end Mymuduo
