import Mathlib
import Mymuduo.Lib.Transition

/-!
# `net/EventLoop`

The loop, its queue of functors and its wakeup descriptor, with any number of threads. A step is
one access to what the threads share, so that a run is an interleaving of the threads: `LoopPc` says
where the loop thread is in `loop()`, and `CallPc` where each thread is in `queueInLoop` or `quit`.
A step of a thread that is somewhere else changes nothing.

The loop thread calls the functions of its own loop from the handlers of the channels and from the
functors. Of the channels only the one of the wakeup descriptor is looked into. What `poll` reports
is an argument, within what `poll` may report.
-/

namespace Mymuduo

/-- Where the loop thread is. -/
inductive LoopPc
  /-- `loop()` is not called yet. -/
  | outside
  /-- about to test `quit_` -/
  | testQuit
  | poll
  /-- in the handlers; is the one of the wakeup channel still to come? -/
  | handleEvents (wakeup : Bool)
  /-- `callingPendingFunctors_` is set. -/
  | swap
  | callFunctors
  /-- `loop()` has returned. -/
  | returned
  deriving DecidableEq, Repr

/-- Where a thread is in a call. -/
inductive CallPc
  | idle
  /-- The functor is in the queue, the test is still to come. -/
  | pushed
  /-- about to call `wakeup()` from `queueInLoop` -/
  | waking
  /-- about to call `wakeup()` from `quit` -/
  | quitting
  deriving DecidableEq, Repr

inductive LoopEffect (φ : Type*)
  | pushed (f : φ)
  | executed (f : φ)
  /-- `runInLoop` in the loop thread -/
  | inPlace (f : φ)
  /-- `loop()` starts over. -/
  | iteration
  | quitReturned
  deriving DecidableEq, Repr

structure EventLoop (τ φ : Type*) where
  looping_ : Bool
  quit_ : Bool
  callingPendingFunctors_ : Bool
  threadId_ : τ
  /-- the counter of the descriptor -/
  wakeupFd_ : Nat
  pendingFunctors_ : List φ
  pc : LoopPc
  /-- the local of `doPendingFunctors` -/
  functors : List φ
  calls : τ → CallPc
  trace : List (LoopEffect φ)

namespace EventLoop

variable {τ φ : Type*} [DecidableEq τ]

@[simp] def emit (s : EventLoop τ φ) (e : LoopEffect φ) : EventLoop τ φ :=
  { s with trace := s.trace ++ [e] }

/-- The loop thread runs code of the user. -/
def inUserCode (s : EventLoop τ φ) : Bool :=
  match s.pc with
  | .outside | .handleEvents _ | .callFunctors => true
  | _ => false

/-- Can the thread `t` start a call? -/
def mayCall (s : EventLoop τ φ) (t : τ) : Bool :=
  s.calls t = .idle && (t ≠ s.threadId_ || s.inUserCode)

/-- The loop thread is not in a call. -/
def ownIdle (s : EventLoop τ φ) : Bool := s.calls s.threadId_ = .idle

/-! ## Calls -/

/-- The counter after the `write` of `wakeup()`, which fails rather than overflow. -/
def writeEventfd (counter : Nat) : Nat := if counter < 2 ^ 64 - 2 then counter + 1 else counter

theorem writeEventfd_pos (counter : Nat) : 0 < writeEventfd counter := by
  rw [writeEventfd]
  split <;> omega

/-- `queueInLoop`, up to the end of its critical section. -/
def queueInLoop (s : EventLoop τ φ) (t : τ) (cb : φ) : EventLoop τ φ :=
  if s.mayCall t then
    { s with
      pendingFunctors_ := s.pendingFunctors_ ++ [cb]
      calls := Function.update s.calls t .pushed
    }.emit (.pushed cb)
  else s

/-- `if (!isInLoopThread() || callingPendingFunctors_)` -/
def testCalling (s : EventLoop τ φ) (t : τ) : EventLoop τ φ :=
  if s.calls t = .pushed then
    if t ≠ s.threadId_ || s.callingPendingFunctors_ then
      { s with calls := Function.update s.calls t .waking }
    else { s with calls := Function.update s.calls t .idle }
  else s

def wakeup (s : EventLoop τ φ) (t : τ) : EventLoop τ φ :=
  match s.calls t with
  | .waking =>
    { s with
      wakeupFd_ := writeEventfd s.wakeupFd_
      calls := Function.update s.calls t .idle }
  | .quitting =>
    { s with
      wakeupFd_ := writeEventfd s.wakeupFd_
      calls := Function.update s.calls t .idle
    }.emit .quitReturned
  | _ => s

def runInLoop (s : EventLoop τ φ) (t : τ) (cb : φ) : EventLoop τ φ :=
  if t = s.threadId_ then
    if s.mayCall t then s.emit (.inPlace cb) else s
  else s.queueInLoop t cb

/-- `quit`, up to the call of `wakeup()` in another thread. -/
def quit (s : EventLoop τ φ) (t : τ) : EventLoop τ φ :=
  if s.mayCall t then
    if t = s.threadId_ then { s with quit_ := true }.emit .quitReturned
    else { s with quit_ := true, calls := Function.update s.calls t .quitting }
  else s

/-! ## `loop` -/

/-- up to the `while` -/
def enter (s : EventLoop τ φ) : EventLoop τ φ :=
  if s.pc = .outside ∧ s.ownIdle then
    { s with looping_ := true, quit_ := false, pc := .testQuit }
  else s

/-- `while (!quit_)` -/
def testQuit (s : EventLoop τ φ) : EventLoop τ φ :=
  if s.pc = .testQuit then
    if s.quit_ then { s with looping_ := false, pc := .returned }
    else { s with pc := .poll }.emit .iteration
  else s

/-- `poll` returns; it reports the wakeup channel only when the counter is not zero. -/
def pollReturn (s : EventLoop τ φ) (wakeup : Bool) : EventLoop τ φ :=
  if s.pc = .poll ∧ (wakeup → 0 < s.wakeupFd_) then { s with pc := .handleEvents wakeup } else s

/-- The handler of the wakeup channel, whose `read` clears the counter. -/
def handleRead (s : EventLoop τ φ) : EventLoop τ φ :=
  if s.pc = .handleEvents true ∧ s.ownIdle then
    { s with wakeupFd_ := 0, pc := .handleEvents false }
  else s

/-- `doPendingFunctors`, up to its critical section -/
def doPendingFunctors (s : EventLoop τ φ) : EventLoop τ φ :=
  if s.pc = .handleEvents false ∧ s.ownIdle then
    { s with callingPendingFunctors_ := true, pc := .swap }
  else s

/-- its critical section -/
def swap (s : EventLoop τ φ) : EventLoop τ φ :=
  if s.pc = .swap then
    { s with functors := s.pendingFunctors_, pendingFunctors_ := [], pc := .callFunctors }
  else s

/-- `functors[i]()` -/
def callFunctor (s : EventLoop τ φ) : EventLoop τ φ :=
  match s.functors with
  | f :: functors =>
    if s.pc = .callFunctors ∧ s.ownIdle then { s with functors := functors }.emit (.executed f)
    else s
  | [] => s

/-- the rest of it, which leads back to the test of `quit_` -/
def endFunctors (s : EventLoop τ φ) : EventLoop τ φ :=
  if s.pc = .callFunctors ∧ s.functors.isEmpty ∧ s.ownIdle then
    { s with callingPendingFunctors_ := false, pc := .testQuit }
  else s

/-! ## Runs -/

inductive Event (τ φ : Type*)
  | queueInLoop (t : τ) (cb : φ)
  | testCalling (t : τ)
  | wakeup (t : τ)
  | runInLoop (t : τ) (cb : φ)
  | quit (t : τ)
  | enter
  | testQuit
  | pollReturn (wakeup : Bool)
  | handleRead
  | doPendingFunctors
  | swap
  | callFunctor
  | endFunctors
  deriving DecidableEq, Repr

def step (s : EventLoop τ φ) : Event τ φ → EventLoop τ φ
  | .queueInLoop t cb => s.queueInLoop t cb
  | .testCalling t => s.testCalling t
  | .wakeup t => s.wakeup t
  | .runInLoop t cb => s.runInLoop t cb
  | .quit t => s.quit t
  | .enter => s.enter
  | .testQuit => s.testQuit
  | .pollReturn wakeup => s.pollReturn wakeup
  | .handleRead => s.handleRead
  | .doPendingFunctors => s.doPendingFunctors
  | .swap => s.swap
  | .callFunctor => s.callFunctor
  | .endFunctors => s.endFunctors

/-! ## What a step does -/

/-- The steps that change something. -/
inductive StepCases (s : EventLoop τ φ) : Event τ φ → EventLoop τ φ → Prop
  | queueInLoop {t cb} : s.calls t = .idle → (t = s.threadId_ → s.inUserCode = true) →
    StepCases s (.queueInLoop t cb) ({ s with
      pendingFunctors_ := s.pendingFunctors_ ++ [cb]
      calls := Function.update s.calls t .pushed }.emit (.pushed cb))
  | runInLoopQueue {t cb} : s.calls t = .idle → t ≠ s.threadId_ →
    StepCases s (.runInLoop t cb) ({ s with
      pendingFunctors_ := s.pendingFunctors_ ++ [cb]
      calls := Function.update s.calls t .pushed }.emit (.pushed cb))
  | runInLoopInPlace {cb} : s.ownIdle = true → s.inUserCode = true →
    StepCases s (.runInLoop s.threadId_ cb) (s.emit (.inPlace cb))
  | testCallingWake {t} : s.calls t = .pushed →
    t ≠ s.threadId_ ∨ s.callingPendingFunctors_ = true →
    StepCases s (.testCalling t) { s with calls := Function.update s.calls t .waking }
  | testCallingDone : s.calls s.threadId_ = .pushed → s.callingPendingFunctors_ = false →
    StepCases s (.testCalling s.threadId_)
      { s with calls := Function.update s.calls s.threadId_ .idle }
  | wakeup {t} : s.calls t = .waking →
    StepCases s (.wakeup t) { s with
      wakeupFd_ := writeEventfd s.wakeupFd_
      calls := Function.update s.calls t .idle }
  | wakeupQuit {t} : s.calls t = .quitting →
    StepCases s (.wakeup t) ({ s with
      wakeupFd_ := writeEventfd s.wakeupFd_
      calls := Function.update s.calls t .idle }.emit .quitReturned)
  | quitOwn : s.ownIdle = true → s.inUserCode = true →
    StepCases s (.quit s.threadId_) ({ s with quit_ := true }.emit .quitReturned)
  | quit {t} : s.calls t = .idle → t ≠ s.threadId_ →
    StepCases s (.quit t)
      { s with quit_ := true, calls := Function.update s.calls t .quitting }
  | enter : s.pc = .outside → s.ownIdle = true →
    StepCases s .enter { s with looping_ := true, quit_ := false, pc := .testQuit }
  | leave : s.pc = .testQuit → s.quit_ = true →
    StepCases s .testQuit { s with looping_ := false, pc := .returned }
  | iterate : s.pc = .testQuit → s.quit_ = false →
    StepCases s .testQuit ({ s with pc := .poll }.emit .iteration)
  | pollReturn {wakeup} : s.pc = .poll → (wakeup = true → 0 < s.wakeupFd_) →
    StepCases s (.pollReturn wakeup) { s with pc := .handleEvents wakeup }
  | handleRead : s.pc = .handleEvents true → s.ownIdle = true →
    StepCases s .handleRead { s with wakeupFd_ := 0, pc := .handleEvents false }
  | doPendingFunctors : s.pc = .handleEvents false → s.ownIdle = true →
    StepCases s .doPendingFunctors { s with callingPendingFunctors_ := true, pc := .swap }
  | swap : s.pc = .swap →
    StepCases s .swap
      { s with functors := s.pendingFunctors_, pendingFunctors_ := [], pc := .callFunctors }
  | callFunctor {f functors} : s.pc = .callFunctors → s.ownIdle = true →
    s.functors = f :: functors →
    StepCases s .callFunctor ({ s with functors := functors }.emit (.executed f))
  | endFunctors : s.pc = .callFunctors → s.ownIdle = true → s.functors = [] →
    StepCases s .endFunctors { s with callingPendingFunctors_ := false, pc := .testQuit }

theorem mayCall_iff {s : EventLoop τ φ} {t : τ} :
    s.mayCall t = true ↔ s.calls t = .idle ∧ (t = s.threadId_ → s.inUserCode = true) := by
  simp only [mayCall, Bool.and_eq_true, decide_eq_true_eq, Bool.or_eq_true, ne_eq, imp_iff_not_or]

omit [DecidableEq τ] in
theorem ownIdle_iff {s : EventLoop τ φ} : s.ownIdle = true ↔ s.calls s.threadId_ = .idle := by
  rw [ownIdle, decide_eq_true_eq]

theorem queueInLoop_cases (s : EventLoop τ φ) (t : τ) (cb : φ) :
    s.queueInLoop t cb = s ∨ s.calls t = .idle ∧ (t = s.threadId_ → s.inUserCode = true) ∧
      s.queueInLoop t cb = { s with
        pendingFunctors_ := s.pendingFunctors_ ++ [cb]
        calls := Function.update s.calls t .pushed }.emit (.pushed cb) := by
  unfold queueInLoop
  split
  · next h =>
    obtain ⟨hidle, huser⟩ := mayCall_iff.mp h
    exact .inr ⟨hidle, huser, rfl⟩
  · exact .inl rfl

/-- A step does what one of the cases says, or nothing. -/
theorem step_cases (s : EventLoop τ φ) (e : Event τ φ) :
    s.step e = s ∨ StepCases s e (s.step e) := by
  cases e with
  | queueInLoop t cb =>
    rcases queueInLoop_cases s t cb with h | ⟨hidle, huser, h⟩
    · exact .inl h
    · right
      rw [step, h]
      exact .queueInLoop hidle huser
  | testCalling t =>
    simp only [step, testCalling]
    split
    · next hp =>
      split
      · next hw => exact .inr (.testCallingWake hp (by simpa using hw))
      · next hw =>
        obtain ⟨rfl, hcalling⟩ : t = s.threadId_ ∧ s.callingPendingFunctors_ = false := by
          simpa using hw
        exact .inr (.testCallingDone hp hcalling)
    · exact .inl rfl
  | wakeup t =>
    simp only [step, wakeup]
    split
    · next h => exact .inr (.wakeup h)
    · next h => exact .inr (.wakeupQuit h)
    · exact .inl rfl
  | runInLoop t cb =>
    simp only [step, runInLoop]
    split
    · next h =>
      subst h
      split
      · next hm =>
        obtain ⟨hidle, huser⟩ := mayCall_iff.mp hm
        exact .inr (.runInLoopInPlace (ownIdle_iff.mpr hidle) (huser rfl))
      · exact .inl rfl
    · next hne =>
      rcases queueInLoop_cases s t cb with h | ⟨hidle, -, h⟩
      · exact .inl h
      · right
        rw [h]
        exact .runInLoopQueue hidle hne
  | quit t =>
    simp only [step, quit]
    split
    · next hm =>
      obtain ⟨hidle, huser⟩ := mayCall_iff.mp hm
      split
      · next h =>
        subst h
        exact .inr (.quitOwn (ownIdle_iff.mpr hidle) (huser rfl))
      · next hne => exact .inr (.quit hidle hne)
    · exact .inl rfl
  | enter =>
    simp only [step, enter]
    split
    · next h => exact .inr (.enter h.1 h.2)
    · exact .inl rfl
  | testQuit =>
    simp only [step, testQuit]
    split
    · next h =>
      split
      · next hq => exact .inr (.leave h hq)
      · next hq => exact .inr (.iterate h (by simpa using hq))
    · exact .inl rfl
  | pollReturn wakeup =>
    simp only [step, pollReturn]
    split
    · next h => exact .inr (.pollReturn h.1 h.2)
    · exact .inl rfl
  | handleRead =>
    simp only [step, handleRead]
    split
    · next h => exact .inr (.handleRead h.1 h.2)
    · exact .inl rfl
  | doPendingFunctors =>
    simp only [step, doPendingFunctors]
    split
    · next h => exact .inr (.doPendingFunctors h.1 h.2)
    · exact .inl rfl
  | swap =>
    simp only [step, swap]
    split
    · next h => exact .inr (.swap h)
    · exact .inl rfl
  | callFunctor =>
    simp only [step, callFunctor]
    split
    · next f functors hf =>
      split
      · next h => exact .inr (.callFunctor h.1 h.2 hf)
      · exact .inl rfl
    · exact .inl rfl
  | endFunctors =>
    simp only [step, endFunctors]
    split
    · next h => exact .inr (.endFunctors h.1 h.2.2 (by simpa using h.2.1))
    · exact .inl rfl

end EventLoop

end Mymuduo
