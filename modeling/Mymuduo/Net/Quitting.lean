import Mymuduo.Net.EventLoopThread
import Mymuduo.Net.WakeUp

/-!
# What `quit` leaves in the queue

`loop()` tests `quit_` after `doPendingFunctors` and returns with whatever was pushed since the
`swap`. `Quitting` follows the functors by the number of their `push_back`: those whose
`queueInLoop` has returned are promised to run when `quit` is called. `QuitOk` says that the `quit`
comes early enough for them, so that the loop still comes to a `swap`, or that none of them is in
the queue.

* `Safe.step`, `Doomed.step`: after a `quit` that comes early enough, and after one that does not.
* `quit_runs_queue`: `loop()` returns with everything promised executed exactly in the runs whose
  `quit`s are all `QuitOk`.
* `quit_runs_queue_fails`: a functor that queues another one and quits.
-/

namespace Mymuduo

open Transition

/-- The functors that `doPendingFunctors` has taken out of the queue. -/
def EventLoop.taken {τ φ : Type*} (s : EventLoop τ φ) : Nat :=
  s.executed.length + s.functors.length

/-- A loop, and what has become of the functors given to `queueInLoop`. -/
structure Quitting (τ φ : Type*) where
  loop : EventLoop τ φ
  /-- the number of the functor whose `queueInLoop` the thread is in -/
  queueing : τ → Option Nat
  /-- the functors whose `queueInLoop` has returned -/
  returned : List Nat
  /-- those whose `queueInLoop` had returned when `quit` was called -/
  promised : List Nat

namespace Quitting

variable {τ φ : Type*}

def new (threadId : τ) (callingPendingFunctors : Bool) : Quitting τ φ where
  loop := (EventLoopThread.new threadId callingPendingFunctors).loop
  queueing := fun _ => none
  returned := []
  promised := []

/-- The numbers are those of functors that were pushed. -/
structure Numbered (s : Quitting τ φ) : Prop where
  ordered : s.loop.Ordered
  queueing : ∀ t i, s.queueing t = some i → i < s.loop.pushed.length
  returned : ∀ i ∈ s.returned, i < s.loop.pushed.length
  promised : ∀ i ∈ s.promised, i ∈ s.returned

theorem numbered_new (threadId : τ) (callingPendingFunctors : Bool) :
    Numbered (new threadId callingPendingFunctors : Quitting τ φ) :=
  ⟨⟨rfl, fun _ => rfl⟩, nofun, nofun, nofun⟩

/-- The functor that is called is out of the queue already. -/
theorem taken_callFunctor {s : EventLoop τ φ} {f : φ} {functors : List φ}
    (hf : s.functors = f :: functors) :
    ({ s with functors := functors }.emit (.executed f)).taken = s.taken := by
  have hexecuted : ({ s with functors := functors }.emit (.executed f)).executed =
      s.executed ++ [f] := EventLoop.executed_emit _ _
  rw [EventLoop.taken, hexecuted, EventLoop.taken, hf, List.length_append, List.length_cons]
  show s.executed.length + 1 + functors.length = s.executed.length + (functors.length + 1)
  omega

theorem taken_emit (s : EventLoop τ φ) {e : LoopEffect φ} (he : ∀ f, e ≠ .executed f) :
    (s.emit e).taken = s.taken := by
  rw [EventLoop.taken, EventLoop.executed_emit]
  cases e with
  | executed f => exact absurd rfl (he f)
  | _ => simp [EventLoop.taken]

variable [DecidableEq τ]

/-- The thread starts a `queueInLoop`, if the loop lets it. -/
def startQueueing (s : Quitting τ φ) (t : τ) (loop : EventLoop τ φ) : Quitting τ φ :=
  if s.loop.calls t = .idle ∧ loop.calls t = .pushed then
    { s with
      loop := loop
      queueing := Function.update s.queueing t (some s.loop.pushed.length) }
  else { s with loop := loop }

/-- The thread goes on with its call, which may end it. -/
def goOn (s : Quitting τ φ) (t : τ) (loop : EventLoop τ φ) : Quitting τ φ :=
  if loop.calls t = .idle then
    { s with
      loop := loop
      queueing := Function.update s.queueing t none
      returned := s.returned ++ (s.queueing t).toList }
  else { s with loop := loop }

/-- Nothing is promised to a `quit` that comes after the loop. -/
def step (s : Quitting τ φ) (e : EventLoop.Event τ φ) : Quitting τ φ :=
  match e with
  | .queueInLoop t _ | .runInLoop t _ => s.startQueueing t (s.loop.step e)
  | .testCalling t | .wakeup t => s.goOn t (s.loop.step e)
  | .quit t =>
    { s with
      loop := s.loop.step e
      promised := if s.loop.mayCall t ∧ s.loop.pc ≠ .returned then s.returned else s.promised }
  | _ => { s with loop := s.loop.step e }

/-- A `quit` that falls between the `swap` and the test of `quit_` finds nothing in the queue whose
`queueInLoop` has returned. -/
def QuitOk (s : Quitting τ φ) : EventLoop.Event τ φ → Prop
  | .quit t =>
    s.loop.mayCall t = true → s.loop.pc = .callFunctors ∨ s.loop.pc = .testQuit →
      ∀ i ∈ s.returned, i < s.loop.taken
  | _ => True

instance (s : Quitting τ φ) : (e : EventLoop.Event τ φ) → Decidable (s.QuitOk e)
  | .quit _ => inferInstanceAs (Decidable (_ → _ → _))
  | .queueInLoop .. | .testCalling _ | .wakeup _ | .runInLoop .. | .enter | .testQuit
  | .pollReturn _ | .handleRead | .doPendingFunctors | .swap | .callFunctor | .endFunctors =>
    instDecidableTrue

/-- `loop()` has executed everything promised by the time it returns. -/
def KeepsPromise (s : Quitting τ φ) : Prop :=
  s.loop.pc = .returned → ∀ i ∈ s.promised, i < s.loop.executed.length

/-! ## The numbers -/

theorem loop_step (s : Quitting τ φ) (e : EventLoop.Event τ φ) :
    (s.step e).loop = s.loop.step e := by
  cases e with
  | queueInLoop t cb | runInLoop t cb =>
    rw [step, startQueueing]
    split <;> rfl
  | testCalling t | wakeup t =>
    rw [step, goOn]
    split <;> rfl
  | _ => rfl

theorem pushed_step (s : EventLoop τ φ) (e : EventLoop.Event τ φ) :
    s.pushed <+: (s.step e).pushed := by
  rcases EventLoop.step_cases s e with heq | hs
  · have hpushed := congrArg EventLoop.pushed heq
    exact hpushed ▸ List.prefix_rfl
  generalize s.step e = s' at hs
  cases hs with
  | queueInLoop | runInLoopQueue | runInLoopInPlace | wakeupQuit | quitOwn | iterate
    | callFunctor =>
    rw [EventLoop.pushed_emit]
    exact List.prefix_append ..
  | _ => exact List.prefix_rfl

/-- A thread gets into a `queueInLoop` by a `push_back`. -/
theorem length_pushed_step {s : EventLoop τ φ} {e : EventLoop.Event τ φ} {t : τ}
    (hidle : s.calls t = .idle) (hpushed : (s.step e).calls t = .pushed) :
    s.pushed.length < (s.step e).pushed.length := by
  rcases EventLoop.step_cases s e with heq | hs
  · rw [heq, hidle] at hpushed
    cases hpushed
  have hsame : s.calls t ≠ .pushed := by simp [hidle]
  have hother : ∀ {u : τ} {c : CallPc}, c ≠ .pushed → Function.update s.calls u c t ≠ .pushed := by
    intro u c hc
    rw [Function.update_apply]
    split
    · exact hc
    · exact hsame
  generalize s.step e = s' at hs hpushed
  cases hs with
  | queueInLoop | runInLoopQueue =>
    rw [EventLoop.pushed_emit, List.length_append]
    exact Nat.lt_add_one _
  | testCallingWake | testCallingDone | wakeup | wakeupQuit | quit =>
    exact absurd hpushed (hother (by nofun))
  | _ => exact absurd hpushed hsame

/-- The numbers stay those of functors that were pushed. -/
theorem Numbered.loop {s : Quitting τ φ} (h : Numbered s) (e : EventLoop.Event τ φ) :
    Numbered { s with loop := s.loop.step e } := by
  have hmono : ∀ i, i < s.loop.pushed.length → i < (s.loop.step e).pushed.length := fun i hi =>
    Nat.lt_of_lt_of_le hi (pushed_step s.loop e).length_le
  exact ⟨h.ordered.step e, fun t i ht => hmono i (h.queueing t i ht),
    fun i hi => hmono i (h.returned i hi), h.promised⟩

theorem Numbered.startQueueing {s : Quitting τ φ} (h : Numbered s) (t : τ)
    {e : EventLoop.Event τ φ} : Numbered (s.startQueueing t (s.loop.step e)) := by
  have hloop := h.loop e
  unfold Quitting.startQueueing
  split
  · next hstart =>
    refine ⟨hloop.ordered, ?_, hloop.returned, h.promised⟩
    intro u i hu
    simp only [Function.update_apply] at hu
    split at hu
    · obtain rfl : s.loop.pushed.length = i := by simpa using hu
      exact length_pushed_step hstart.1 hstart.2
    · exact hloop.queueing u i hu
  · exact hloop

theorem Numbered.goOn {s : Quitting τ φ} (h : Numbered s) (t : τ)
    {e : EventLoop.Event τ φ} : Numbered (s.goOn t (s.loop.step e)) := by
  have hloop := h.loop e
  unfold Quitting.goOn
  split
  · refine ⟨hloop.ordered, ?_, ?_, fun i hi => List.mem_append_left _ (h.promised i hi)⟩
    · intro u i hu
      simp only [Function.update_apply] at hu
      split at hu
      · cases hu
      · exact hloop.queueing u i hu
    · intro i hi
      rcases List.mem_append.mp hi with hi | hi
      · exact hloop.returned i hi
      · exact hloop.queueing t i (Option.mem_toList.mp hi)
  · exact hloop

theorem Numbered.step {s : Quitting τ φ} (h : Numbered s) (e : EventLoop.Event τ φ) :
    Numbered (s.step e) := by
  have hloop := h.loop e
  cases e with
  | queueInLoop t cb | runInLoop t cb => exact h.startQueueing t
  | testCalling t | wakeup t => exact h.goOn t
  | quit t =>
    refine ⟨hloop.ordered, hloop.queueing, hloop.returned, ?_⟩
    intro i hi
    simp only [Quitting.step] at hi
    split at hi
    · exact hi
    · exact h.promised i hi
  | _ => exact hloop

/-! ## After a `quit` -/

/-- Only `quit` promises anything. -/
theorem promised_step {s : Quitting τ φ} {e : EventLoop.Event τ φ} (he : ∀ t, e ≠ .quit t) :
    (s.step e).promised = s.promised := by
  cases e with
  | queueInLoop t cb | runInLoop t cb =>
    rw [step, startQueueing]
    split <;> rfl
  | testCalling t | wakeup t =>
    rw [step, goOn]
    split <;> rfl
  | quit t => exact absurd rfl (he t)
  | _ => rfl

/-- `loop()` is past its last `swap`, or will be when it tests `quit_`. -/
def Leaving (s : EventLoop τ φ) : Prop :=
  s.pc = .callFunctors ∨ s.pc = .returned ∨ s.pc = .testQuit ∧ s.quit_ = true

/-- Everything promised is out of the queue, or the `swap` is still to come. -/
def Safe (s : Quitting τ φ) : Prop :=
  Leaving s.loop → ∀ i ∈ s.promised, i < s.loop.taken

/-- Something promised stays in the queue. -/
structure Doomed (s : Quitting τ φ) : Prop where
  quit_ : s.loop.quit_ = true
  leaving : Leaving s.loop
  left : ∃ i ∈ s.promised, s.loop.taken ≤ i

/-- A loop that is leaving was so before, and took nothing out of the queue since, or it comes from
the `swap` and has taken everything. -/
theorem leaving_step {s : EventLoop τ φ} (h : s.Ordered) {e : EventLoop.Event τ φ}
    (he : ∀ t, e ≠ .quit t) (hleaving : Leaving (s.step e)) :
    Leaving s ∧ (s.step e).taken = s.taken ∨ (s.step e).taken = s.pushed.length := by
  rcases EventLoop.step_cases s e with heq | hs
  · rw [heq] at hleaving ⊢
    exact .inl ⟨hleaving, rfl⟩
  generalize s.step e = s' at hs hleaving
  cases hs with
  | queueInLoop | runInLoopQueue | runInLoopInPlace | wakeupQuit =>
    exact .inl ⟨hleaving, taken_emit _ (by nofun)⟩
  | testCallingWake | testCallingDone | wakeup => exact .inl ⟨hleaving, rfl⟩
  | quitOwn | quit => exact absurd rfl (he _)
  | leave hpc hquit => exact .inl ⟨.inr (.inr ⟨hpc, hquit⟩), rfl⟩
  | enter | iterate | pollReturn | handleRead | doPendingFunctors => simp [Leaving] at hleaving
  | swap hpc =>
    right
    have hnil : s.functors = [] := h.rest (by simp [hpc])
    rw [h.order, hnil, List.append_nil, List.length_append]
    rfl
  | callFunctor hpc hown hf => exact .inl ⟨.inl hpc, taken_callFunctor hf⟩
  | endFunctors hpc => exact .inl ⟨.inl hpc, rfl⟩

/-- With `quit_` set a loop that is leaving takes nothing more out of the queue. -/
theorem leaving_stays {s : EventLoop τ φ} (h : Leaving s) (hquit : s.quit_ = true)
    (e : EventLoop.Event τ φ) :
    Leaving (s.step e) ∧ (s.step e).quit_ = true ∧ (s.step e).taken = s.taken := by
  rcases EventLoop.step_cases s e with heq | hs
  · rw [heq]
    exact ⟨h, hquit, rfl⟩
  generalize s.step e = s' at hs
  cases hs with
  | queueInLoop | runInLoopQueue | runInLoopInPlace | wakeupQuit =>
    exact ⟨h, hquit, taken_emit _ (by nofun)⟩
  | testCallingWake | testCallingDone | wakeup => exact ⟨h, hquit, rfl⟩
  | quitOwn => exact ⟨h.imp_right (Or.imp_right fun h => ⟨h.1, rfl⟩), rfl, taken_emit _ (by nofun)⟩
  | quit => exact ⟨h.imp_right (Or.imp_right fun h => ⟨h.1, rfl⟩), rfl, rfl⟩
  | leave hpc => exact ⟨.inr (.inl rfl), hquit, rfl⟩
  | iterate hpc hno => simp [hquit] at hno
  | enter hpc | pollReturn hpc | handleRead hpc | doPendingFunctors hpc | swap hpc =>
    simp [Leaving, hpc] at h
  | callFunctor hpc hown hf => exact ⟨h, hquit, taken_callFunctor hf⟩
  | endFunctors hpc => exact ⟨.inr (.inr ⟨rfl, hquit⟩), hquit, rfl⟩

theorem pc_quit (s : EventLoop τ φ) (t : τ) : (s.quit t).pc = s.pc := by
  unfold EventLoop.quit
  split
  · split <;> rfl
  · rfl

theorem taken_quit (s : EventLoop τ φ) (t : τ) : (s.quit t).taken = s.taken := by
  unfold EventLoop.quit
  split
  · split
    · exact taken_emit _ (by simp)
    · rfl
  · rfl

theorem Safe.step {s : Quitting τ φ} (h : Safe s) (hn : Numbered s) {e : EventLoop.Event τ φ}
    (hok : s.QuitOk e) : Safe (s.step e) := by
  by_cases he : ∃ t, e = .quit t
  · obtain ⟨t, rfl⟩ := he
    intro hleaving
    have hpc : (s.step (.quit t)).loop.pc = s.loop.pc := pc_quit s.loop t
    have htaken : (s.step (.quit t)).loop.taken = s.loop.taken := taken_quit s.loop t
    rw [htaken]
    by_cases hnew : s.loop.mayCall t = true ∧ s.loop.pc ≠ .returned
    · have hpromised : (s.step (.quit t)).promised = s.returned := if_pos hnew
      rw [hpromised]
      refine hok hnew.1 ?_
      rcases hleaving with hin | hout | ⟨htest, -⟩
      · exact .inl (hpc ▸ hin)
      · exact absurd (hpc ▸ hout) hnew.2
      · exact .inr (hpc ▸ htest)
    · have hpromised : (s.step (.quit t)).promised = s.promised := if_neg hnew
      rw [hpromised]
      refine h ?_
      by_cases hmay : s.loop.mayCall t = true
      · exact .inr (.inl (not_not.mp fun hin => hnew ⟨hmay, hin⟩))
      · -- nothing happens
        have hsame : (s.step (.quit t)).loop = s.loop := if_neg hmay
        rwa [hsame] at hleaving
  · have he' : ∀ t, e ≠ .quit t := fun t ht => he ⟨t, ht⟩
    intro hleaving
    rw [promised_step he', loop_step]
    rw [loop_step] at hleaving
    rcases leaving_step hn.ordered he' hleaving with ⟨hbefore, htaken⟩ | htaken
    · rw [htaken]
      exact h hbefore
    · rw [htaken]
      exact fun i hi => hn.returned i (hn.promised i hi)

/-- What was promised stays promised. -/
theorem Numbered.promised_subset {s : Quitting τ φ} (h : Numbered s) (e : EventLoop.Event τ φ) :
    s.promised ⊆ (s.step e).promised := by
  by_cases he : ∃ t, e = .quit t
  · obtain ⟨t, rfl⟩ := he
    simp only [Quitting.step]
    split
    · exact fun i hi => h.promised i hi
    · exact List.Subset.refl _
  · rw [promised_step fun t ht => he ⟨t, ht⟩]
    exact List.Subset.refl _

theorem Doomed.step {s : Quitting τ φ} (h : Doomed s) (hn : Numbered s)
    (e : EventLoop.Event τ φ) : Doomed (s.step e) := by
  obtain ⟨hleaving, hquit, htaken⟩ := leaving_stays h.leaving h.quit_ e
  obtain ⟨i, hi, hleft⟩ := h.left
  rw [← loop_step] at hleaving hquit htaken
  exact ⟨hquit, hleaving, i, hn.promised_subset e hi, by rwa [htaken]⟩

/-- A `quit` that is not `QuitOk` dooms what it promises. -/
theorem doomed_of_not_quitOk {s : Quitting τ φ} {e : EventLoop.Event τ φ} (h : ¬ s.QuitOk e) :
    Doomed (s.step e) := by
  cases e with
  | quit t =>
    simp only [QuitOk, not_forall, Nat.not_lt, exists_prop] at h
    obtain ⟨hmay, hpc, i, hi, hleft⟩ := h
    have hin : s.loop.pc ≠ .returned := by rcases hpc with hpc | hpc <;> simp [hpc]
    have hpromised : (s.step (.quit t)).promised = s.returned := if_pos ⟨hmay, hin⟩
    have hquit : (s.step (.quit t)).loop.quit_ = true := by
      simp only [step, EventLoop.step, EventLoop.quit, hmay, if_true]
      split <;> rfl
    refine ⟨hquit, ?_, i, by rwa [hpromised], ?_⟩
    · rw [Leaving, show (s.step (.quit t)).loop.pc = s.loop.pc from pc_quit s.loop t]
      exact hpc.imp_right fun htest => .inr ⟨htest, hquit⟩
    · rw [show (s.step (.quit t)).loop.taken = s.loop.taken from taken_quit s.loop t]
      exact hleft
  | _ => exact absurd trivial h

/-! ## Every interleaving -/

/-- When `loop()` has returned, the functors whose `queueInLoop` had returned before a call of
`quit` have been executed if and only if every `quit` came early enough for them. -/
theorem quit_runs_queue (threadId : τ) (callingPendingFunctors : Bool)
    (es : List (EventLoop.Event τ φ)) :
    let s := run step (new threadId callingPendingFunctors) es
    s.loop.executed <+: s.loop.pushed ∧ (s.loop.pc = .returned →
      ((∀ i ∈ s.promised, i < s.loop.executed.length) ↔
        Meets QuitOk step (new threadId callingPendingFunctors) es)) := by
  intro s
  have hnew : Numbered (new threadId callingPendingFunctors : Quitting τ φ) :=
    numbered_new threadId callingPendingFunctors
  have hn : Numbered s := run_preserves (fun _ e h => h.step e) es hnew
  have hord : s.loop.Ordered := hn.ordered
  refine ⟨⟨s.loop.functors ++ s.loop.pendingFunctors_, ?_⟩, fun hpc => ?_⟩
  · rw [hord.order, List.append_assoc]
  have htaken : s.loop.taken = s.loop.executed.length := by
    rw [EventLoop.taken, hord.rest (by simp [hpc]), List.length_nil, Nat.add_zero]
  constructor
  · intro hkept
    by_contra hnot
    have hdoomed : Doomed s :=
      run_of_not_meets (p := fun _ => True) (fun _ e h _ => h.step e)
        (fun _ _ _ _ hbad => doomed_of_not_quitOk hbad) (fun _ e h _ hd => hd.step h e) hnew
        (fun _ _ => trivial) hnot
    obtain ⟨i, hi, hleft⟩ := hdoomed.left
    exact absurd (hkept i hi) (by omega)
  · intro hmeets
    have hsafe : Numbered s ∧ Safe s :=
      run_invariant (I := fun s : Quitting τ φ => Numbered s ∧ Safe s)
        (fun _ e h hok => ⟨h.1.step e, h.2.step h.1 hok⟩) ⟨hnew, fun _ => nofun⟩ hmeets
    rw [← htaken]
    exact hsafe.2 (.inr (.inl hpc))

/-- A functor of another thread and the `quit` after it find the loop in `poll`. -/
theorem quit_runs_queue_poll :
    let s := run step (new 0 false : Quitting Nat Nat) [.enter, .testQuit, .queueInLoop 1 10,
      .testCalling 1, .wakeup 1, .quit 1, .pollReturn true, .handleRead, .doPendingFunctors, .swap,
      .callFunctor, .endFunctors, .testQuit]
    s.loop.executed = [10] ∧ ∀ i ∈ s.promised, i < s.loop.executed.length := by
  intro s
  have h := quit_runs_queue (φ := Nat) 0 false [.enter, .testQuit, .queueInLoop 1 10,
    .testCalling 1, .wakeup 1, .quit 1, .pollReturn true, .handleRead, .doPendingFunctors, .swap,
    .callFunctor, .endFunctors, .testQuit]
  exact ⟨by decide +kernel, (h.2 (by decide +kernel)).mpr (by decide +kernel)⟩

/-- A functor queues another one and quits: `loop()` returns and leaves it in the queue. -/
theorem quit_runs_queue_fails :
    ¬ ∀ (threadId : Nat) (callingPendingFunctors : Bool) (es : List (EventLoop.Event Nat Nat)),
      KeepsPromise (run step (new threadId callingPendingFunctors) es) := by
  intro hall
  have hkept := hall 0 false [.queueInLoop 0 10, .testCalling 0, .enter, .testQuit,
    .pollReturn false, .doPendingFunctors, .swap, .callFunctor, .queueInLoop 0 11, .testCalling 0,
    .wakeup 0, .quit 0, .endFunctors, .testQuit] (by decide +kernel) 1 (by decide +kernel)
  revert hkept
  decide +kernel

end Quitting

end Mymuduo
