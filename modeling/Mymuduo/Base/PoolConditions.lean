import Mymuduo.Base.ThreadPool
import Mymuduo.Lib.CondVar

/-!
# The condition variables of `base/ThreadPool`

`base/ThreadPool` with `notEmpty_` and `notFull_`. A thread that finds nothing to take, or no room,
waits until a notification, or without one; it then takes the lock again and tests its condition
again. `notify` wakes one of the threads that wait, no matter which, and nobody if none does. A
caller is one call of `run` at a time, so a worker that calls `run` in a task is both.

* `pool_step`: without the condition variables this is the pool of `base/ThreadPool`.
* `disciplined_step`: the bound, the order and the notifications, step by step.
* `queue_discipline`: the same in every run.
* `taken_accounted`: what was taken is executed, or in the hand of one worker.
-/

namespace Mymuduo

open CondVar Tally Transition

/-- Where a worker is in `runInThread`. -/
inductive PoolThread (φ : Type*)
  /-- about to test `running_` -/
  | test
  /-- in `take`, on its way to the lock -/
  | taking
  /-- in `notEmpty_.wait()` -/
  | waiting
  /-- still in `notEmpty_.wait()` -/
  | notified
  | running (task : φ)
  | done
  deriving DecidableEq, Repr

/-- Where a caller is in `run`. -/
inductive PoolCaller (φ : Type*)
  | outside
  /-- on its way to the lock -/
  | entering (task : φ)
  /-- in `notFull_.wait()` -/
  | waiting (task : φ)
  /-- still in `notFull_.wait()` -/
  | notified (task : φ)
  deriving DecidableEq, Repr

variable {ω π φ : Type*}

/-- What a worker is to `notEmpty_`. -/
def PoolThread.role : PoolThread φ → Role
  | .waiting => .asleep
  | .taking | .notified => .awake
  | .test | .running _ | .done => .away

def PoolThread.wake : PoolThread φ → PoolThread φ
  | .waiting => .notified
  | w => w

theorem PoolThread.role_wake (t : PoolThread φ) (h : t.role = .asleep) : t.wake.role = .awake := by
  cases t with
  | waiting => rfl
  | _ => cases h

theorem PoolThread.role_wake_ne (t : PoolThread φ) : t.wake.role ≠ .asleep := by
  cases t <;> exact nofun

def PoolThread.pc : PoolThread φ → WorkerPc φ
  | .test => .test
  | .taking | .waiting | .notified => .taking
  | .running task => .running task
  | .done => .done

/-- What a caller is to `notFull_`. -/
def PoolCaller.role : PoolCaller φ → Role
  | .waiting _ => .asleep
  | .entering _ | .notified _ => .awake
  | .outside => .away

def PoolCaller.wake : PoolCaller φ → PoolCaller φ
  | .waiting task => .notified task
  | p => p

theorem PoolCaller.role_wake (p : PoolCaller φ) (h : p.role = .asleep) : p.wake.role = .awake := by
  cases p with
  | waiting task => rfl
  | _ => cases h

theorem PoolCaller.role_wake_ne (p : PoolCaller φ) : p.wake.role ≠ .asleep := by
  cases p <;> exact nofun

structure SyncPool (ω π φ : Type*) where
  maxQueueSize_ : Nat
  running_ : Bool
  queue_ : List φ
  workers : ω → PoolThread φ
  callers : π → PoolCaller φ
  trace : List (PoolEffect φ)
  /-- what `take` has returned so far -/
  taken : List φ

namespace SyncPool

/-- `start` has returned. -/
def started (maxQueueSize : Nat) : SyncPool ω π φ where
  maxQueueSize_ := maxQueueSize
  running_ := true
  queue_ := []
  workers := fun _ => .test
  callers := fun _ => .outside
  trace := []
  taken := []

/-- The pool without its condition variables: a worker that waits is in `take`. -/
def pool (s : SyncPool ω π φ) : ThreadPool ω φ where
  maxQueueSize_ := s.maxQueueSize_
  running_ := s.running_
  queue_ := s.queue_
  workers := fun w => (s.workers w).pc
  trace := s.trace

/-- The tasks that `run` put into the queue. -/
def pushed (s : SyncPool ω π φ) : List φ := s.pool.pushed

def emit (s : SyncPool ω π φ) (e : PoolEffect φ) : SyncPool ω π φ :=
  { s with trace := s.trace ++ [e] }

def isFull (s : SyncPool ω π φ) : Bool :=
  0 < s.maxQueueSize_ && s.maxQueueSize_ ≤ s.queue_.length

/-- The critical section of `stop`. -/
def stop (s : SyncPool ω π φ) : SyncPool ω π φ :=
  { s with
    running_ := false
    workers := notifyAll PoolThread.wake s.workers
    callers := notifyAll PoolCaller.wake s.callers }

section Workers

variable [DecidableEq ω]

def setWorker (s : SyncPool ω π φ) (w : ω) (t : PoolThread φ) : SyncPool ω π φ :=
  { s with workers := Function.update s.workers w t }

/-- `while (running_)` -/
def testRunning (s : SyncPool ω π φ) (w : ω) : SyncPool ω π φ :=
  match s.workers w with
  | .test => if s.running_ then s.setWorker w .taking else s.setWorker w .done
  | _ => s

/-- `notEmpty_.wait()` returns, notified or not. -/
def wakeWorker (s : SyncPool ω π φ) (w : ω) : SyncPool ω π φ :=
  match s.workers w with
  | .waiting | .notified => s.setWorker w .taking
  | _ => s

/-- `task();` -/
def call (s : SyncPool ω π φ) (w : ω) : SyncPool ω π φ :=
  match s.workers w with
  | .running task => (s.setWorker w .test).emit (.executed task)
  | _ => s

variable [DecidableEq π] [Fintype π]

/-- `take` under the lock; the notification goes to `who`. -/
def take (s : SyncPool ω π φ) (w : ω) (who : Option π) : SyncPool ω π φ :=
  match s.workers w with
  | .taking =>
    match s.queue_ with
    | task :: queue =>
      let s' := { s.setWorker w (.running task) with queue_ := queue, taken := s.taken ++ [task] }
      if 0 < s.maxQueueSize_ then
        if Reaches PoolCaller.role s.callers who then
          { s' with callers := notify PoolCaller.wake s.callers who }
        else s
      else s'
    | [] => if s.running_ then s.setWorker w .waiting else s.setWorker w .test
  | _ => s

end Workers

section Callers

variable [DecidableEq π]

def setCaller (s : SyncPool ω π φ) (p : π) (c : PoolCaller φ) : SyncPool ω π φ :=
  { s with callers := Function.update s.callers p c }

/-- `notFull_.wait()` returns, notified or not. -/
def wakeCaller (s : SyncPool ω π φ) (p : π) : SyncPool ω π φ :=
  match s.callers p with
  | .waiting task | .notified task => s.setCaller p (.entering task)
  | _ => s

variable [Fintype ω]

/-- `run`, up to the lock. -/
def run (s : SyncPool ω π φ) (p : π) (task : φ) : SyncPool ω π φ :=
  match s.callers p with
  | .outside =>
    if Fintype.card ω = 0 then s.emit (.inPlace task) else s.setCaller p (.entering task)
  | _ => s

variable [DecidableEq ω]

/-- `run` under the lock; the notification goes to `who`. -/
def push (s : SyncPool ω π φ) (p : π) (who : Option ω) : SyncPool ω π φ :=
  match s.callers p with
  | .entering task =>
    if s.isFull && s.running_ then s.setCaller p (.waiting task)
    else if !s.running_ then s.setCaller p .outside
    else if Reaches PoolThread.role s.workers who then
      { s.setCaller p .outside with
        queue_ := s.queue_ ++ [task]
        workers := notify PoolThread.wake s.workers who }.emit (.pushed task)
    else s
  | _ => s

end Callers

inductive Event (ω π φ : Type*)
  | run (p : π) (task : φ)
  | push (p : π) (who : Option ω)
  | wakeCaller (p : π)
  | stop
  | testRunning (w : ω)
  | take (w : ω) (who : Option π)
  | wakeWorker (w : ω)
  | call (w : ω)
  deriving DecidableEq, Repr

variable [DecidableEq ω] [Fintype ω] [DecidableEq π] [Fintype π]

def step (s : SyncPool ω π φ) : Event ω π φ → SyncPool ω π φ
  | .run p task => s.run p task
  | .push p who => s.push p who
  | .wakeCaller p => s.wakeCaller p
  | .stop => s.stop
  | .testRunning w => s.testRunning w
  | .take w who => s.take w who
  | .wakeWorker w => s.wakeWorker w
  | .call w => s.call w

/-! ## What a step does -/

/-- The steps that change something. -/
inductive StepCases (s : SyncPool ω π φ) : Event ω π φ → SyncPool ω π φ → Prop
  | inPlace {p task} : Fintype.card ω = 0 → StepCases s (.run p task) (s.emit (.inPlace task))
  | enter {p task} : s.callers p = .outside → Fintype.card ω ≠ 0 →
    StepCases s (.run p task) (s.setCaller p (.entering task))
  | waitNotFull {p who task} : s.callers p = .entering task → s.isFull = true →
    s.running_ = true → StepCases s (.push p who) (s.setCaller p (.waiting task))
  | giveUp {p who task} : s.callers p = .entering task → s.running_ = false →
    StepCases s (.push p who) (s.setCaller p .outside)
  | push {p who task} : s.callers p = .entering task → s.isFull = false → s.running_ = true →
    Reaches PoolThread.role s.workers who →
    StepCases s (.push p who)
      ({ s.setCaller p .outside with
        queue_ := s.queue_ ++ [task]
        workers := notify PoolThread.wake s.workers who }.emit (.pushed task))
  | wakeCaller {p task} : s.callers p = .waiting task ∨ s.callers p = .notified task →
    StepCases s (.wakeCaller p) (s.setCaller p (.entering task))
  | stop : StepCases s .stop s.stop
  | goOn {w} : s.workers w = .test → s.running_ = true →
    StepCases s (.testRunning w) (s.setWorker w .taking)
  | leave {w} : s.workers w = .test → s.running_ = false →
    StepCases s (.testRunning w) (s.setWorker w .done)
  | take {w who task queue} : s.workers w = .taking → s.queue_ = task :: queue →
    0 < s.maxQueueSize_ → Reaches PoolCaller.role s.callers who →
    StepCases s (.take w who)
      { s.setWorker w (.running task) with
        queue_ := queue
        taken := s.taken ++ [task]
        callers := notify PoolCaller.wake s.callers who }
  | takeUnbounded {w who task queue} : s.workers w = .taking → s.queue_ = task :: queue →
    s.maxQueueSize_ = 0 →
    StepCases s (.take w who)
      { s.setWorker w (.running task) with queue_ := queue, taken := s.taken ++ [task] }
  | waitNotEmpty {w who} : s.workers w = .taking → s.queue_ = [] → s.running_ = true →
    StepCases s (.take w who) (s.setWorker w .waiting)
  | takeNone {w who} : s.workers w = .taking → s.queue_ = [] → s.running_ = false →
    StepCases s (.take w who) (s.setWorker w .test)
  | wakeWorker {w} : s.workers w = .waiting ∨ s.workers w = .notified →
    StepCases s (.wakeWorker w) (s.setWorker w .taking)
  | call {w task} : s.workers w = .running task →
    StepCases s (.call w) ((s.setWorker w .test).emit (.executed task))

/-- A step does what one of the cases says, or nothing. -/
theorem step_cases (s : SyncPool ω π φ) (e : Event ω π φ) :
    s.step e = s ∨ StepCases s e (s.step e) := by
  cases e with
  | run p task =>
    simp only [step, run]
    split
    · next houtside =>
      split
      · next hcard => exact .inr (.inPlace hcard)
      · next hcard => exact .inr (.enter houtside hcard)
    · exact .inl rfl
  | push p who =>
    simp only [step, push]
    split
    · next task hentering =>
      split
      · next hwait =>
        obtain ⟨hfull, hrunning⟩ := Bool.and_eq_true_iff.mp hwait
        exact .inr (.waitNotFull hentering hfull hrunning)
      · next hgo =>
        split
        · next hrunning => exact .inr (.giveUp hentering (by simpa using hrunning))
        · next hrunning =>
          have hrunning : s.running_ = true := by simpa using hrunning
          split
          · next hwho => exact .inr (.push hentering (by simpa [hrunning] using hgo) hrunning hwho)
          · exact .inl rfl
    · exact .inl rfl
  | wakeCaller p =>
    simp only [step, wakeCaller]
    split
    · next task hwaiting => exact .inr (.wakeCaller (.inl hwaiting))
    · next task hnotified => exact .inr (.wakeCaller (.inr hnotified))
    · exact .inl rfl
  | stop => exact .inr .stop
  | testRunning w =>
    simp only [step, testRunning]
    split
    · next htest =>
      split
      · next hrunning => exact .inr (.goOn htest hrunning)
      · next hrunning => exact .inr (.leave htest (by simpa using hrunning))
    · exact .inl rfl
  | take w who =>
    simp only [step, take]
    split
    · next htaking =>
      split
      · next task queue hqueue =>
        split
        · next hbounded =>
          split
          · next hwho => exact .inr (.take htaking hqueue hbounded hwho)
          · exact .inl rfl
        · next hbounded =>
          exact .inr (.takeUnbounded htaking hqueue (Nat.eq_zero_of_not_pos hbounded))
      · next hqueue =>
        split
        · next hrunning => exact .inr (.waitNotEmpty htaking hqueue hrunning)
        · next hrunning => exact .inr (.takeNone htaking hqueue (by simpa using hrunning))
    · exact .inl rfl
  | wakeWorker w =>
    simp only [step, wakeWorker]
    split
    · next hwaiting => exact .inr (.wakeWorker (.inl hwaiting))
    · next hnotified => exact .inr (.wakeWorker (.inr hnotified))
    · exact .inl rfl
  | call w =>
    simp only [step, call]
    split
    · next task hrunning => exact .inr (.call hrunning)
    · exact .inl rfl

/-! ## The pool without the condition variables -/

omit [Fintype ω] [DecidableEq π] [Fintype π] in
theorem pool_setWorker (s : SyncPool ω π φ) (w : ω) (t : PoolThread φ) :
    (s.setWorker w t).pool = s.pool.setWorker w t.pc := by
  have hworkers : (fun v => ((s.setWorker w t).workers v).pc) =
      Function.update (fun v => (s.workers v).pc) w t.pc :=
    Function.comp_update PoolThread.pc s.workers w t
  unfold pool
  rw [hworkers]
  rfl

omit [Fintype ω] [DecidableEq π] [Fintype π] in
/-- A worker that stays in `take`. -/
theorem pool_setWorker_taking {s : SyncPool ω π φ} {w : ω} {t : PoolThread φ}
    (hw : (s.workers w).pc = t.pc) : (s.setWorker w t).pool = s.pool := by
  have hsame : s.pool.workers w = t.pc := hw
  rw [pool_setWorker, ThreadPool.setWorker, ← hsame, Function.update_eq_self]

omit [DecidableEq ω] [Fintype ω] in
theorem pc_wake (t : PoolThread φ) : t.wake.pc = t.pc := by
  cases t <;> rfl

omit [Fintype ω] in
theorem pc_notify (f : ω → PoolThread φ) (who : Option ω) (w : ω) :
    (notify PoolThread.wake f who w).pc = (f w).pc := by
  cases who with
  | none => rfl
  | some v =>
    by_cases hv : w = v
    · rw [hv, notify, Function.update_self, pc_wake]
    · rw [notify, Function.update_of_ne hv]

/-- Without workers nobody comes to the lock. -/
def Entered (s : SyncPool ω π φ) : Prop :=
  Fintype.card ω = 0 → ∀ p, s.callers p = .outside

theorem entered_step {s : SyncPool ω π φ} (h : Entered s) (e : Event ω π φ) :
    Entered (s.step e) := by
  rcases step_cases s e with heq | hs
  · rwa [heq]
  intro hcard
  have hout := h hcard
  have hnobody : ∀ w : ω, False := (Fintype.card_eq_zero_iff.mp hcard).false
  generalize s.step e = s' at hs
  cases hs with
  | inPlace => exact hout
  | enter _ hsome => exact absurd hcard hsome
  | @waitNotFull p _ _ hp | @giveUp p _ _ hp | @push p _ _ hp => cases (hout p).symm.trans hp
  | @wakeCaller p _ hp =>
    rcases hp with hp | hp
    · cases (hout p).symm.trans hp
    · cases (hout p).symm.trans hp
  | stop =>
    intro p
    exact congrArg PoolCaller.wake (hout p)
  | goOn | leave | take | takeUnbounded | waitNotEmpty | takeNone | wakeWorker | call =>
    exact (hnobody ‹ω›).elim

/-- A step of the pool is one of the pool without condition variables, or changes nothing there. -/
theorem pool_step {s : SyncPool ω π φ} (h : Entered s) (e : Event ω π φ) :
    (s.step e).pool = s.pool ∨ ∃ e', (s.step e).pool = s.pool.step e' := by
  rcases step_cases s e with heq | hs
  · exact .inl (congrArg pool heq)
  generalize s.step e = s' at hs
  cases hs with
  | @inPlace p task hcard => exact .inr ⟨.run task, (if_pos hcard).symm⟩
  | enter | waitNotFull | giveUp | wakeCaller => exact .inl rfl
  | @push p who task hp hfull hrunning hwho =>
    have hcard : Fintype.card ω ≠ 0 := fun hcard => by cases (h hcard p).symm.trans hp
    have hfull' : s.pool.isFull = false := hfull
    have hrunning' : s.pool.running_ = true := hrunning
    have hworkers : (fun w => (notify PoolThread.wake s.workers who w).pc) =
        fun w => (s.workers w).pc := funext (pc_notify s.workers who)
    have hrun : s.pool.run task =
        { s.pool with queue_ := s.queue_ ++ [task] }.emit (.pushed task) := by
      rw [ThreadPool.run, if_neg hcard, if_neg (by simp [hfull']), if_neg (by simp [hrunning'])]
      rfl
    refine .inr ⟨.run task, ?_⟩
    rw [ThreadPool.step, hrun]
    exact congrArg (fun f => ThreadPool.emit
      { s.pool with queue_ := s.queue_ ++ [task], workers := f } (.pushed task)) hworkers
  | stop =>
    have hworkers : (fun w => (notifyAll PoolThread.wake s.workers w).pc) =
        fun w => (s.workers w).pc := funext fun w => pc_wake (s.workers w)
    refine .inr ⟨.stop, ?_⟩
    unfold pool stop
    rw [hworkers]
    rfl
  | @goOn w hw hrunning =>
    have hw' : s.pool.workers w = .test := congrArg PoolThread.pc hw
    have hrunning' : s.pool.running_ = true := hrunning
    exact .inr ⟨.testRunning w, by
      rw [pool_setWorker, ThreadPool.step, ThreadPool.testRunning, hw', hrunning']; rfl⟩
  | @leave w hw hrunning =>
    have hw' : s.pool.workers w = .test := congrArg PoolThread.pc hw
    have hrunning' : s.pool.running_ = false := hrunning
    exact .inr ⟨.testRunning w, by
      rw [pool_setWorker, ThreadPool.step, ThreadPool.testRunning, hw', hrunning']; rfl⟩
  | @take w _ task queue hw hqueue | @takeUnbounded w _ task queue hw hqueue =>
    have hw' : s.pool.workers w = .taking := congrArg PoolThread.pc hw
    have hqueue' : s.pool.queue_ = task :: queue := hqueue
    have hset := pool_setWorker s w (.running task)
    refine .inr ⟨.take w, ?_⟩
    rw [ThreadPool.step, ThreadPool.take, hw', hqueue']
    exact congrArg (fun t : ThreadPool ω φ => { t with queue_ := queue }) hset
  | @takeNone w _ hw hqueue hrunning =>
    have hw' : s.pool.workers w = .taking := congrArg PoolThread.pc hw
    have hqueue' : s.pool.queue_ = [] := hqueue
    have hrunning' : s.pool.running_ = false := hrunning
    exact .inr ⟨.take w, by
      rw [pool_setWorker, ThreadPool.step, ThreadPool.take, hw', hqueue', hrunning']; rfl⟩
  | waitNotEmpty hw =>
    exact .inl (pool_setWorker_taking (by rw [hw]; rfl))
  | wakeWorker hw =>
    rcases hw with hw | hw
    · exact .inl (pool_setWorker_taking (by rw [hw]; rfl))
    · exact .inl (pool_setWorker_taking (by rw [hw]; rfl))
  | @call w task hw =>
    have hw' : s.pool.workers w = .running task := congrArg PoolThread.pc hw
    have hset := pool_setWorker s w .test
    refine .inr ⟨.call w, ?_⟩
    rw [ThreadPool.step, ThreadPool.call, hw']
    exact congrArg (fun t : ThreadPool ω φ => t.emit (.executed task)) hset

/-- Every run is one of the pool without condition variables. -/
theorem pool_run (maxQueueSize : Nat) (es : List (Event ω π φ)) :
    ∃ es', (Transition.run step (started maxQueueSize) es).pool =
      Transition.run ThreadPool.step (ThreadPool.started maxQueueSize) es' := by
  have hrun : Entered (Transition.run step (started maxQueueSize) es) ∧ ∃ es',
      (Transition.run step (started maxQueueSize) es).pool =
        Transition.run ThreadPool.step (ThreadPool.started maxQueueSize) es' := by
    refine run_preserves (I := fun s => Entered s ∧ ∃ es', s.pool =
      Transition.run ThreadPool.step (ThreadPool.started maxQueueSize) es') ?_ es
      ⟨fun _ _ => rfl, [], rfl⟩
    rintro s e ⟨hentered, es', hpool⟩
    refine ⟨entered_step hentered e, ?_⟩
    rcases pool_step hentered e with hsame | ⟨e', hstep⟩
    · exact ⟨es', hsame.trans hpool⟩
    · exact ⟨es' ++ [e'], by rw [run_append, ← hpool]; exact hstep⟩
  exact hrun.2

/-! ## The bound, the order, the notifications -/

theorem maxQueueSize_step (s : SyncPool ω π φ) (e : Event ω π φ) :
    (s.step e).maxQueueSize_ = s.maxQueueSize_ := by
  rcases step_cases s e with heq | hs
  · rw [heq]
  generalize s.step e = s' at hs
  cases hs <;> rfl

theorem queueSize_step {s : SyncPool ω π φ}
    (h : 0 < s.maxQueueSize_ → s.queue_.length ≤ s.maxQueueSize_) (e : Event ω π φ) :
    0 < s.maxQueueSize_ → (s.step e).queue_.length ≤ s.maxQueueSize_ := by
  intro hbounded
  have hsize := h hbounded
  rcases step_cases s e with heq | hs
  · rwa [heq]
  generalize s.step e = s' at hs
  cases hs with
  | @push p who task _ hfull =>
    have hroom : s.queue_.length < s.maxQueueSize_ := by simpa [isFull, hbounded] using hfull
    show (s.queue_ ++ [task]).length ≤ s.maxQueueSize_
    rw [List.length_append]
    exact hroom
  | take _ hqueue | takeUnbounded _ hqueue =>
    rw [hqueue] at hsize
    exact (Nat.le_succ _).trans hsize
  | _ => exact hsize

theorem inOrder_step {s : SyncPool ω π φ} (h : s.pushed = s.taken ++ s.queue_)
    (e : Event ω π φ) : (s.step e).pushed = (s.step e).taken ++ (s.step e).queue_ := by
  rcases step_cases s e with heq | hs
  · rwa [heq]
  generalize s.step e = s' at hs
  cases hs with
  | @inPlace p task =>
    have hpushed : (s.emit (.inPlace task)).pushed = s.pushed ++ [] :=
      ThreadPool.pushed_emit s.pool (.inPlace task)
    rw [hpushed, List.append_nil]
    exact h
  | @call w task =>
    have hpushed : ((s.setWorker w .test).emit (.executed task)).pushed = s.pushed ++ [] :=
      ThreadPool.pushed_emit (s.setWorker w .test).pool (.executed task)
    rw [hpushed, List.append_nil]
    exact h
  | @push p who task =>
    have hpushed := ThreadPool.pushed_emit s.pool (.pushed task)
    show (s.pool.emit (.pushed task)).pushed = s.taken ++ (s.queue_ ++ [task])
    rw [hpushed, ← List.append_assoc, ← h]
    rfl
  | @take w who task queue _ hqueue | @takeUnbounded w who task queue _ hqueue =>
    show s.pushed = s.taken ++ [task] ++ queue
    rw [h, hqueue, List.append_assoc, List.singleton_append]
  | _ => exact h

theorem notEmpty_step {s : SyncPool ω π φ}
    (h : NoneLost PoolThread.role s.workers s.queue_.length) (e : Event ω π φ) :
    NoneLost PoolThread.role (s.step e).workers (s.step e).queue_.length := by
  rcases step_cases s e with heq | hs
  · rwa [heq]
  generalize s.step e = s' at hs
  cases hs with
  | inPlace | enter | waitNotFull | giveUp | wakeCaller => exact h
  | @push p who task _ _ _ hwho =>
    show NoneLost PoolThread.role (notify PoolThread.wake s.workers who)
      (s.queue_ ++ [task]).length
    rw [List.length_append]
    exact h.notify hwho PoolThread.role_wake
  | stop => exact noneLost_notifyAll PoolThread.role_wake_ne
  | take hw hqueue | takeUnbounded hw hqueue =>
    rw [hqueue] at h
    exact h.update nofun (by rw [hw]; exact Nat.le_refl _)
  | waitNotEmpty _ hqueue | takeNone _ hqueue =>
    show NoneLost PoolThread.role _ s.queue_.length
    rw [hqueue]
    exact noneLost_zero
  | goOn hw | leave hw | call hw =>
    exact h.update nofun (by rw [hw]; exact Nat.le_add_right _ _)
  | wakeWorker => exact h.update nofun (Nat.add_le_add_left (Role.count_le_one _) _)

/-- After `stop` no caller waits for room. -/
def NoneWaits (s : SyncPool ω π φ) : Prop :=
  s.running_ = false → ∀ p, (s.callers p).role ≠ .asleep

theorem noneWaits_step {s : SyncPool ω π φ} (h : NoneWaits s) (e : Event ω π φ) :
    NoneWaits (s.step e) := by
  rcases step_cases s e with heq | hs
  · rwa [heq]
  generalize s.step e = s' at hs
  cases hs with
  | inPlace | goOn | leave | takeUnbounded | waitNotEmpty | takeNone | wakeWorker | call => exact h
  | enter | giveUp | push | wakeCaller =>
    exact fun hrunning => no_sleeper_update (h hrunning) nofun
  | waitNotFull _ _ hrunning => exact fun hno => Bool.noConfusion (hrunning.symm.trans hno)
  | stop => exact fun _ p => PoolCaller.role_wake_ne (s.callers p)
  | @take w who task queue _ _ _ hwho =>
    intro hrunning
    cases who with
    | none => exact hwho
    | some p => exact absurd hwho (h hrunning p)

theorem notFull_step {s : SyncPool ω π φ} (hnone : NoneWaits s) (hbounded : 0 < s.maxQueueSize_)
    (h : NoneLost PoolCaller.role s.callers (s.maxQueueSize_ - s.queue_.length))
    (e : Event ω π φ) :
    NoneLost PoolCaller.role (s.step e).callers (s.maxQueueSize_ - (s.step e).queue_.length) := by
  rcases step_cases s e with heq | hs
  · rwa [heq]
  have hnone' := noneWaits_step hnone e
  generalize s.step e = s' at hs hnone'
  cases hs with
  | inPlace | goOn | leave | waitNotEmpty | takeNone | wakeWorker | call => exact h
  | enter hp _ => exact h.update nofun (by rw [hp]; exact Nat.le_add_right _ _)
  | waitNotFull _ hfull =>
    have hroom : s.maxQueueSize_ - s.queue_.length = 0 := by
      simpa [isFull, hbounded, Nat.sub_eq_zero_iff_le] using hfull
    show NoneLost PoolCaller.role _ (s.maxQueueSize_ - s.queue_.length)
    rw [hroom]
    exact noneLost_zero
  | giveUp _ hrunning => exact noneLost_of_no_sleeper (hnone' hrunning)
  | @push p who task hp hfull =>
    have hroom : s.queue_.length < s.maxQueueSize_ := by simpa [isFull, hbounded] using hfull
    show NoneLost PoolCaller.role (Function.update s.callers p .outside)
      (s.maxQueueSize_ - (s.queue_ ++ [task]).length)
    refine h.update nofun ?_
    rw [hp, List.length_append, ← Nat.sub_sub]
    exact (Nat.sub_add_cancel (Nat.sub_pos_of_lt hroom)).le
  | wakeCaller => exact h.update nofun (Nat.add_le_add_left (Role.count_le_one _) _)
  | stop => exact noneLost_notifyAll PoolCaller.role_wake_ne
  | @take w who task queue _ hqueue _ hwho =>
    have htold : NoneLost PoolCaller.role (notify PoolCaller.wake s.callers who)
        (s.maxQueueSize_ - s.queue_.length + 1) := h.notify hwho PoolCaller.role_wake
    refine htold.mono ?_
    rw [hqueue, List.length_cons, ← Nat.sub_sub]
    exact Nat.sub_le_iff_le_add.mp (Nat.le_refl _)
  | takeUnbounded _ _ hzero => exact absurd hzero hbounded.ne'

/-- What `mutex_` and the condition variables keep. -/
structure Disciplined (maxQueueSize : Nat) (s : SyncPool ω π φ) : Prop where
  maxQueueSize_ : s.maxQueueSize_ = maxQueueSize
  queueSize : 0 < maxQueueSize → s.queue_.length ≤ maxQueueSize
  inOrder : s.pushed = s.taken ++ s.queue_
  notEmpty_ : NoneLost PoolThread.role s.workers s.queue_.length
  noneWaits : NoneWaits s
  notFull_ : 0 < maxQueueSize →
    NoneLost PoolCaller.role s.callers (maxQueueSize - s.queue_.length)

omit [DecidableEq ω] [DecidableEq π] in
theorem disciplined_started (maxQueueSize : Nat) :
    Disciplined maxQueueSize (started maxQueueSize : SyncPool ω π φ) where
  maxQueueSize_ := rfl
  queueSize _ := Nat.zero_le _
  inOrder := rfl
  notEmpty_ := noneLost_zero
  noneWaits _ _ := nofun
  notFull_ _ := noneLost_of_no_sleeper fun _ => nofun

theorem disciplined_step {maxQueueSize : Nat} {s : SyncPool ω π φ}
    (h : Disciplined maxQueueSize s) (e : Event ω π φ) : Disciplined maxQueueSize (s.step e) := by
  obtain ⟨rfl, hsize, horder, hempty, hnone, hfull⟩ := h
  exact ⟨maxQueueSize_step s e, queueSize_step hsize e, inOrder_step horder e,
    notEmpty_step hempty e, noneWaits_step hnone e,
    fun hbounded => notFull_step hnone hbounded (hfull hbounded) e⟩

theorem disciplined_run (maxQueueSize : Nat) (es : List (Event ω π φ)) :
    Disciplined maxQueueSize (Transition.run step (started maxQueueSize) es) :=
  run_preserves (I := Disciplined maxQueueSize) (fun _ e h => disciplined_step h e) es
    (disciplined_started maxQueueSize)

/-- In every interleaving the queue keeps its bound, the tasks are taken in the order of their
`push`, and while a worker waits for a task, or a caller for room, without a notification, there are
as many others on their way as there are tasks, or free places. -/
theorem queue_discipline (maxQueueSize : Nat) (es : List (Event ω π φ)) :
    let s := Transition.run step (started maxQueueSize) es
    (0 < maxQueueSize → s.queue_.length ≤ maxQueueSize) ∧
      s.pushed = s.taken ++ s.queue_ ∧
      ((∃ w, s.workers w = .waiting) → s.queue_.length ≤ awake PoolThread.role s.workers) ∧
      (0 < maxQueueSize → (∃ p task, s.callers p = .waiting task) →
        maxQueueSize - s.queue_.length ≤ awake PoolCaller.role s.callers) := by
  intro s
  have h : Disciplined maxQueueSize s := disciplined_run maxQueueSize es
  refine ⟨h.queueSize, h.inOrder, ?_, ?_⟩
  · rintro ⟨w, hw⟩
    exact h.notEmpty_ ⟨w, by rw [hw]; rfl⟩
  · rintro hbounded ⟨p, task, hp⟩
    exact h.notFull_ hbounded ⟨p, by rw [hp]; rfl⟩

/-- Three workers wait; two tasks are pushed and two callers wait for room; one task is taken. -/
theorem queue_discipline_three :
    let s := Transition.run step (started 2 : SyncPool (Fin 3) (Fin 4) Nat) [
      .testRunning 0, .take 0 none, .testRunning 1, .take 1 none, .testRunning 2, .take 2 none,
      .run 0 10, .push 0 (some 0), .run 1 11, .push 1 (some 1), .run 2 12, .push 2 none,
      .run 3 13, .push 3 none, .wakeWorker 0, .take 0 (some 2)]
    s.taken = [10] ∧ s.queue_ = [11] ∧ s.queue_.length ≤ 2 ∧
      s.queue_.length ≤ awake PoolThread.role s.workers ∧
      2 - s.queue_.length ≤ awake PoolCaller.role s.callers := by
  intro s
  have h := queue_discipline (ω := Fin 3) (π := Fin 4) (φ := Nat) 2 [
    .testRunning 0, .take 0 none, .testRunning 1, .take 1 none, .testRunning 2, .take 2 none,
    .run 0 10, .push 0 (some 0), .run 1 11, .push 1 (some 1), .run 2 12, .push 2 none,
    .run 3 13, .push 3 none, .wakeWorker 0, .take 0 (some 2)]
  exact ⟨by decide +kernel, by decide +kernel, h.1 (by decide),
    h.2.2.1 ⟨2, by decide +kernel⟩, h.2.2.2 (by decide) ⟨3, 13, by decide +kernel⟩⟩

/-- What was taken is executed, or one worker is at it. -/
theorem taken_accounted (maxQueueSize : Nat) (es : List (Event ω π φ)) :
    let s := Transition.run step (started maxQueueSize) es
    (s.taken : Multiset φ) = s.pool.executed + tally ThreadPool.held s.pool.workers := by
  intro s
  have horder : s.pushed = s.taken ++ s.queue_ := (disciplined_run maxQueueSize es).inOrder
  obtain ⟨es', hpool⟩ := pool_run maxQueueSize es
  have haccount : s.pool.Accounted := by
    rw [hpool]
    exact run_preserves (I := ThreadPool.Accounted) (fun _ e h => ThreadPool.accounted_step h e)
      es' (ThreadPool.accounted_started maxQueueSize)
  have hpushed : (s.pushed : Multiset φ) =
      s.pool.executed + tally ThreadPool.held s.pool.workers + s.queue_ := haccount
  rw [horder, ← Multiset.coe_add] at hpushed
  exact add_right_cancel hpushed

end SyncPool

end Mymuduo
