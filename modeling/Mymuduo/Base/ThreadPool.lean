import Mymuduo.Lib.Tally
import Mymuduo.Lib.Transition

/-!
# `base/ThreadPool`

The pool between `start` and the end of `stop`. A step is one access to what the threads share: the
critical sections of `run`, `take` and `stop` are one step each, and so is the test of `running_` in
`runInThread`, which takes no lock. A thread that has to wait for a condition variable tries again
in a later step. `run` is called by any thread, a worker in a task included; the tasks are those
that can be called.

`take` hands out what is queued also when `running_` is `false`, but a worker that is in a task when
`stop` sets it does not come to another `take`.

* `accounted_step`: every task pushed is queued, in a worker's hand, or executed.
* `stop_runs_tasks`: when `stop` returns, every task has been executed exactly if enough workers
  were in `take` for what was queued.
* `stop_runs_tasks_fails`: one worker, in a task, and another task queued.
-/

namespace Mymuduo

open Tally Transition

/-- Where a worker is in `runInThread`. -/
inductive WorkerPc (φ : Type*)
  /-- about to test `running_` -/
  | test
  /-- in `take`, or about to call it -/
  | taking
  | running (task : φ)
  | done
  deriving DecidableEq, Repr

inductive PoolEffect (φ : Type*)
  | pushed (task : φ)
  | executed (task : φ)
  /-- by the caller of `run`, for want of workers -/
  | inPlace (task : φ)
  deriving DecidableEq, Repr

structure ThreadPool (ω φ : Type*) where
  maxQueueSize_ : Nat
  running_ : Bool
  queue_ : List φ
  workers : ω → WorkerPc φ
  trace : List (PoolEffect φ)

namespace ThreadPool

variable {ω φ : Type*}

/-- `start` has returned. -/
def started (maxQueueSize : Nat) : ThreadPool ω φ where
  maxQueueSize_ := maxQueueSize
  running_ := true
  queue_ := []
  workers := fun _ => .test
  trace := []

def emit (s : ThreadPool ω φ) (e : PoolEffect φ) : ThreadPool ω φ :=
  { s with trace := s.trace ++ [e] }

/-- The tasks that `run` put into the queue. -/
def pushed (s : ThreadPool ω φ) : List φ :=
  s.trace.filterMap fun
    | .pushed task => some task
    | _ => none

/-- The tasks that the workers have executed. -/
def executed (s : ThreadPool ω φ) : List φ :=
  s.trace.filterMap fun
    | .executed task => some task
    | _ => none

/-- `maxQueueSize_ == 0` stands for a queue without bound. -/
def isFull (s : ThreadPool ω φ) : Bool :=
  0 < s.maxQueueSize_ && s.maxQueueSize_ ≤ s.queue_.length

def stop (s : ThreadPool ω φ) : ThreadPool ω φ := { s with running_ := false }

variable [DecidableEq ω]

def setWorker (s : ThreadPool ω φ) (w : ω) (pc : WorkerPc φ) : ThreadPool ω φ :=
  { s with workers := Function.update s.workers w pc }

/-- `while (running_)` -/
def testRunning (s : ThreadPool ω φ) (w : ω) : ThreadPool ω φ :=
  match s.workers w with
  | .test => if s.running_ then s.setWorker w .taking else s.setWorker w .done
  | _ => s

/-- The critical section of `take`. The worker waits while the queue is empty and the pool runs. -/
def take (s : ThreadPool ω φ) (w : ω) : ThreadPool ω φ :=
  match s.workers w with
  | .taking =>
    match s.queue_ with
    | task :: queue => { s.setWorker w (.running task) with queue_ := queue }
    | [] => if s.running_ then s else s.setWorker w .test
  | _ => s

/-- `task();` -/
def call (s : ThreadPool ω φ) (w : ω) : ThreadPool ω φ :=
  match s.workers w with
  | .running task => (s.setWorker w .test).emit (.executed task)
  | _ => s

variable [Fintype ω]

/-- `run`; the caller waits while the queue is full and the pool runs. -/
def run (s : ThreadPool ω φ) (task : φ) : ThreadPool ω φ :=
  if Fintype.card ω = 0 then s.emit (.inPlace task)
  else if s.isFull && s.running_ then s
  else if !s.running_ then s
  else { s with queue_ := s.queue_ ++ [task] }.emit (.pushed task)

inductive Event (ω φ : Type*)
  | run (task : φ)
  | stop
  | testRunning (w : ω)
  | take (w : ω)
  | call (w : ω)
  deriving DecidableEq, Repr

def step (s : ThreadPool ω φ) : Event ω φ → ThreadPool ω φ
  | .run task => s.run task
  | .stop => s.stop
  | .testRunning w => s.testRunning w
  | .take w => s.take w
  | .call w => s.call w

/-! ## What a step does -/

/-- The steps that change something. -/
inductive StepCases (s : ThreadPool ω φ) : Event ω φ → ThreadPool ω φ → Prop
  | inPlace {task} : StepCases s (.run task) (s.emit (.inPlace task))
  | push {task} : s.running_ = true →
    StepCases s (.run task) ({ s with queue_ := s.queue_ ++ [task] }.emit (.pushed task))
  | stop : StepCases s .stop { s with running_ := false }
  | goOn {w} : s.workers w = .test → s.running_ = true →
    StepCases s (.testRunning w) (s.setWorker w .taking)
  | leave {w} : s.workers w = .test → s.running_ = false →
    StepCases s (.testRunning w) (s.setWorker w .done)
  | take {w task queue} : s.workers w = .taking → s.queue_ = task :: queue →
    StepCases s (.take w) { s.setWorker w (.running task) with queue_ := queue }
  | takeNone {w} : s.workers w = .taking → s.queue_ = [] → s.running_ = false →
    StepCases s (.take w) (s.setWorker w .test)
  | call {w task} : s.workers w = .running task →
    StepCases s (.call w) ((s.setWorker w .test).emit (.executed task))

/-- A step does what one of the cases says, or nothing. -/
theorem step_cases (s : ThreadPool ω φ) (e : Event ω φ) :
    s.step e = s ∨ StepCases s e (s.step e) := by
  cases e with
  | run task =>
    simp only [step, run]
    split
    · exact .inr .inPlace
    · split
      · exact .inl rfl
      · split
        · exact .inl rfl
        · next hrunning => exact .inr (.push (by simpa using hrunning))
  | stop => exact .inr .stop
  | testRunning w =>
    simp only [step, testRunning]
    split
    · next htest =>
      split
      · next hrunning => exact .inr (.goOn htest hrunning)
      · next hrunning => exact .inr (.leave htest (by simpa using hrunning))
    · exact .inl rfl
  | take w =>
    simp only [step, take]
    split
    · next htaking =>
      split
      · next task queue hqueue => exact .inr (.take htaking hqueue)
      · next hqueue =>
        split
        · exact .inl rfl
        · next hrunning => exact .inr (.takeNone htaking hqueue (by simpa using hrunning))
    · exact .inl rfl
  | call w =>
    simp only [step, call]
    split
    · next task hrunning => exact .inr (.call hrunning)
    · exact .inl rfl

/-! ## Where the tasks are -/

/-- The task that a worker has taken and not finished. -/
def held : WorkerPc φ → Multiset φ
  | .running task => {task}
  | _ => 0

def inTake : WorkerPc φ → Nat
  | .taking => 1
  | _ => 0

/-- The workers that come to the critical section of `take` whatever `running_` says. -/
def takers (s : ThreadPool ω φ) : Nat := tally inTake s.workers

/-- Every task pushed is in exactly one place. -/
def Accounted (s : ThreadPool ω φ) : Prop :=
  (s.pushed : Multiset φ) = s.executed + tally held s.workers + s.queue_

omit [DecidableEq ω] in
theorem accounted_started (maxQueueSize : Nat) :
    Accounted (started maxQueueSize : ThreadPool ω φ) := by
  have hheld : tally held (started maxQueueSize : ThreadPool ω φ).workers = 0 :=
    tally_eq_zero fun _ => rfl
  rw [Accounted, hheld]
  rfl

omit [DecidableEq ω] [Fintype ω] in
theorem pushed_emit (s : ThreadPool ω φ) (e : PoolEffect φ) :
    (s.emit e).pushed = s.pushed ++ (match e with | .pushed task => [task] | _ => []) := by
  cases e <;> simp [emit, pushed]

omit [DecidableEq ω] [Fintype ω] in
theorem executed_emit (s : ThreadPool ω φ) (e : PoolEffect φ) :
    (s.emit e).executed = s.executed ++ (match e with | .executed task => [task] | _ => []) := by
  cases e <;> simp [emit, executed]

/-- What all workers hold together, after one of them went on. -/
theorem held_setWorker {s : ThreadPool ω φ} {w : ω} {pc : WorkerPc φ} (hw : s.workers w = pc)
    (pc' : WorkerPc φ) :
    tally held (s.setWorker w pc').workers + held pc = tally held s.workers + held pc' := by
  rw [← hw]
  exact tally_update held s.workers w pc'

theorem takers_setWorker {s : ThreadPool ω φ} {w : ω} {pc : WorkerPc φ} (hw : s.workers w = pc)
    (pc' : WorkerPc φ) : (s.setWorker w pc').takers + inTake pc = s.takers + inTake pc' := by
  rw [← hw]
  exact tally_update inTake s.workers w pc'

/-- A worker that holds no task before and after goes on. -/
theorem held_setWorker_idle {s : ThreadPool ω φ} {w : ω} {pc pc' : WorkerPc φ}
    (hw : s.workers w = pc) (hpc : held pc = 0) (hpc' : held pc' = 0) :
    tally held (s.setWorker w pc').workers = tally held s.workers := by
  simpa [hpc, hpc'] using held_setWorker hw pc'

theorem accounted_step {s : ThreadPool ω φ} (h : Accounted s) (e : Event ω φ) :
    Accounted (s.step e) := by
  rcases step_cases s e with heq | hs
  · rwa [heq]
  generalize s.step e = s' at hs
  rw [Accounted] at h
  cases hs with
  | inPlace =>
    rw [Accounted, pushed_emit, executed_emit, List.append_nil, List.append_nil]
    exact h
  | @push task hrunning =>
    rw [Accounted, pushed_emit, executed_emit, List.append_nil, ← Multiset.coe_add]
    change (s.pushed : Multiset φ) + ([task] : List φ) =
      s.executed + tally held s.workers + ((s.queue_ ++ [task] : List φ) : Multiset φ)
    rw [h, ← Multiset.coe_add, add_assoc]
  | stop => exact h
  | goOn hw | leave hw | takeNone hw =>
    rw [Accounted, held_setWorker_idle hw rfl rfl]
    exact h
  | @take w task queue hw hqueue =>
    have hheld : tally held (s.setWorker w (.running task)).workers =
        tally held s.workers + {task} := by
      simpa [held] using held_setWorker hw (.running task)
    rw [Accounted]
    change (s.pushed : Multiset φ) =
      s.executed + tally held (s.setWorker w (.running task)).workers + queue
    rw [h, hheld, hqueue, ← Multiset.cons_coe, ← Multiset.singleton_add, ← add_assoc, ← add_assoc]
  | @call w task hw =>
    have hheld : tally held (s.setWorker w .test).workers + {task} = tally held s.workers := by
      simpa [held] using held_setWorker hw .test
    rw [Accounted, pushed_emit, executed_emit, List.append_nil, ← Multiset.coe_add]
    change (s.pushed : Multiset φ) =
      s.executed + ([task] : List φ) + tally held (s.setWorker w .test).workers + s.queue_
    rw [h, ← hheld, Multiset.coe_singleton]
    ac_rfl

/-! ## `stop` -/

/-- The `stop` finds no more in the queue than there are workers in `take`. -/
def StopOk (s : ThreadPool ω φ) : Event ω φ → Prop
  | .stop => s.running_ = true → s.queue_.length ≤ s.takers
  | _ => True

instance (s : ThreadPool ω φ) : (e : Event ω φ) → Decidable (s.StopOk e)
  | .stop => inferInstanceAs (Decidable (_ → _))
  | .run _ | .testRunning _ | .take _ | .call _ => instDecidableTrue

/-- What is queued after `stop` will be taken. -/
def Served (s : ThreadPool ω φ) : Prop := s.running_ = false → s.queue_.length ≤ s.takers

/-- Some of what is queued will not. -/
structure Stranded (s : ThreadPool ω φ) : Prop where
  running_ : s.running_ = false
  queue_ : s.takers < s.queue_.length

/-- After `stop` the queue and `take` empty together. -/
theorem takers_step {s : ThreadPool ω φ} (hrunning : s.running_ = false) (e : Event ω φ) :
    (s.step e).running_ = false ∧
      ((s.step e).queue_.length = s.queue_.length ∧ (s.step e).takers = s.takers ∨
        (s.step e).queue_.length + 1 = s.queue_.length ∧ (s.step e).takers + 1 = s.takers ∨
        s.queue_ = [] ∧ (s.step e).queue_ = []) := by
  rcases step_cases s e with heq | hs
  · rw [heq]
    exact ⟨hrunning, .inl ⟨rfl, rfl⟩⟩
  generalize s.step e = s' at hs
  cases hs with
  | inPlace => exact ⟨hrunning, .inl ⟨rfl, rfl⟩⟩
  | stop => exact ⟨rfl, .inl ⟨rfl, rfl⟩⟩
  | push hyes | goOn _ hyes => simp [hrunning] at hyes
  | leave hw | call hw => exact ⟨hrunning, .inl ⟨rfl, takers_setWorker hw _⟩⟩
  | take hw hqueue =>
    exact ⟨hrunning, .inr (.inl ⟨by rw [hqueue]; rfl, takers_setWorker hw (.running _)⟩)⟩
  | takeNone hw hqueue => exact ⟨hrunning, .inr (.inr ⟨hqueue, hqueue⟩)⟩

theorem Served.step {s : ThreadPool ω φ} (h : Served s) {e : Event ω φ} (hok : s.StopOk e) :
    Served (s.step e) := by
  intro hrunning'
  cases hrunning : s.running_ with
  | false =>
    have hserved := h hrunning
    rcases (takers_step hrunning e).2 with ⟨hqueue, htakers⟩ | ⟨hqueue, htakers⟩ | ⟨-, hqueue⟩
    · rwa [hqueue, htakers]
    · exact Nat.le_of_succ_le_succ (by rwa [← hqueue, ← htakers] at hserved)
    · rw [hqueue]
      exact Nat.zero_le _
  | true =>
    rcases step_cases s e with heq | hs
    · rw [heq, hrunning] at hrunning'
      cases hrunning'
    generalize s.step e = s' at hs hrunning'
    cases hs with
    | stop => exact hok hrunning
    | leave _ hno | takeNone _ _ hno => simp [hrunning] at hno
    | inPlace | push | goOn | take | call => cases hrunning.symm.trans hrunning'

theorem Stranded.step {s : ThreadPool ω φ} (h : Stranded s) (e : Event ω φ) :
    Stranded (s.step e) := by
  obtain ⟨hrunning, hstep⟩ := takers_step h.running_ e
  have hleft := h.queue_
  refine ⟨hrunning, ?_⟩
  rcases hstep with ⟨hqueue, htakers⟩ | ⟨hqueue, htakers⟩ | ⟨hqueue, -⟩
  · rwa [hqueue, htakers]
  · exact Nat.lt_of_succ_lt_succ (by rwa [← hqueue, ← htakers] at hleft)
  · simp [hqueue] at hleft

/-- A `stop` that is not `StopOk` strands what it finds. -/
theorem stranded_of_not_stopOk {s : ThreadPool ω φ} {e : Event ω φ} (h : ¬ s.StopOk e) :
    Stranded (s.step e) := by
  cases e with
  | stop =>
    simp only [StopOk, not_forall, Nat.not_le, exists_prop] at h
    exact ⟨rfl, h.2⟩
  | _ => exact absurd trivial h

/-! ## Every interleaving -/

/-- When `stop` has joined the workers, they have executed exactly the tasks pushed, each once, if
and only if the `stop` was `StopOk`. -/
theorem stop_runs_tasks (maxQueueSize : Nat) (es : List (Event ω φ)) :
    let s := Transition.run step (started maxQueueSize) es
    s.running_ = false → (∀ w, s.workers w = .done) →
      (s.executed.Perm s.pushed ↔ Meets StopOk step (started maxQueueSize) es) := by
  intro s hrunning hdone
  have haccount : Accounted s :=
    run_preserves (I := Accounted) (fun _ e h => accounted_step h e) es
      (accounted_started maxQueueSize)
  have hheld : tally held s.workers = 0 := tally_eq_zero fun w => by rw [hdone w]; rfl
  have htakers : s.takers = 0 := tally_eq_zero fun w => by rw [hdone w]; rfl
  have hall : (s.pushed : Multiset φ) = s.executed + s.queue_ := by
    rw [haccount, hheld, add_zero]
  constructor
  · intro hperm
    by_contra hnot
    have hstranded : Stranded s :=
      run_of_not_meets (I := fun _ => True) (p := fun _ => True) (fun _ _ _ _ => trivial)
        (fun _ _ _ _ hbad => stranded_of_not_stopOk hbad) (fun _ e _ _ h => h.step e) trivial
        (fun _ _ => trivial) hnot
    have hleft := hstranded.queue_
    have hlength := congrArg Multiset.card hall
    rw [← Multiset.coe_eq_coe.mpr hperm, Multiset.card_add, Multiset.coe_card,
      Multiset.coe_card] at hlength
    omega
  · intro hmeets
    have hserved : Served s := run_invariant (fun _ _ h hok => h.step hok) nofun hmeets
    have hqueue : s.queue_ = [] :=
      List.eq_nil_of_length_eq_zero (Nat.le_zero.mp (htakers ▸ hserved hrunning))
    rw [hqueue, Multiset.coe_nil, add_zero] at hall
    exact Multiset.coe_eq_coe.mp hall.symm

/-- Two workers, one of them in a task; the other one takes what was queued before the `stop`. -/
theorem stop_runs_tasks_two :
    let s := Transition.run step (started 0 : ThreadPool (Fin 2) Nat) [.testRunning 0, .run 1,
      .take 0, .testRunning 1, .run 2, .stop, .take 1, .call 0, .testRunning 0, .call 1,
      .testRunning 1]
    s.executed = [1, 2] ∧ s.executed.Perm s.pushed := by
  intro s
  have h := stop_runs_tasks (ω := Fin 2) (φ := Nat) 0 [.testRunning 0, .run 1, .take 0,
    .testRunning 1, .run 2, .stop, .take 1, .call 0, .testRunning 0, .call 1, .testRunning 1]
  exact ⟨by decide +kernel, (h (by decide +kernel) (by decide +kernel)).mpr (by decide +kernel)⟩

/-- The only worker is in a task when `stop` comes: it finishes the task, finds `running_` `false`
and leaves the other task in the queue. -/
theorem stop_runs_tasks_fails :
    ¬ ∀ (maxQueueSize : Nat) (es : List (Event (Fin 1) Nat)),
      let s := Transition.run step (started maxQueueSize) es
      s.running_ = false → (∀ w, s.workers w = .done) → s.executed.Perm s.pushed := by
  intro hall
  have hperm := hall 0 [.testRunning 0, .run 1, .run 2, .take 0, .stop, .call 0, .testRunning 0]
    (by decide +kernel) (by decide +kernel)
  revert hperm
  decide +kernel

end ThreadPool

end Mymuduo
