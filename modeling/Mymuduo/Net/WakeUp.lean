import Mymuduo.Net.EventLoop

/-!
# Queued functors

Between the `push_back` of a functor and its execution there is always somebody who sees to it: the
loop thread is on its way to the `swap`, the counter of the wakeup descriptor keeps `poll` from
blocking, or a thread is about to write to it (`Served.awake`). The test of
`callingPendingFunctors_` leaves out the `write` only where the `swap` is still to come.

* `functors_served`: in every interleaving, what was executed, what `doPendingFunctors` holds and
  what is queued are what was pushed, in this order, and no functor waits behind a sleeping `poll`.
-/

namespace Mymuduo

open Transition

namespace EventLoop

variable {τ φ : Type*}

/-- The functors in the order of their `push_back`s. -/
def pushed (s : EventLoop τ φ) : List φ :=
  s.trace.filterMap fun
    | .pushed f => some f
    | _ => none

/-- The functors in the order in which `doPendingFunctors` called them. -/
def executed (s : EventLoop τ φ) : List φ :=
  s.trace.filterMap fun
    | .executed f => some f
    | _ => none

/-- `loop()` has just been entered, with an empty queue. -/
structure Entered (s : EventLoop τ φ) : Prop where
  pc : s.pc = .testQuit
  quit_ : s.quit_ = false
  pendingFunctors_ : s.pendingFunctors_ = []
  functors : s.functors = []
  own : s.calls s.threadId_ = .idle
  trace : s.trace = []

/-- The thread has pushed and is still about to call `wakeup()`. -/
def AboutToWake (s : EventLoop τ φ) (t : τ) : Prop :=
  s.calls t = .waking ∨ s.calls t = .pushed ∧ (t ≠ s.threadId_ ∨ s.pc = .callFunctors)

/-- The loop thread comes to the `swap` before it polls. -/
def WillSwap (s : EventLoop τ φ) : Prop :=
  (∃ wakeup, s.pc = .handleEvents wakeup) ∨ s.pc = .swap

/-- The next `poll` does not block, or not for long. -/
def WillWake (s : EventLoop τ φ) : Prop :=
  0 < s.wakeupFd_ ∨ ∃ t, s.AboutToWake t

/-- Functors are executed in the order of their `push_back`s. -/
structure Ordered (s : EventLoop τ φ) : Prop where
  order : s.pushed = s.executed ++ s.functors ++ s.pendingFunctors_
  rest : s.pc ≠ .callFunctors → s.functors = []

/-- The invariant of a run. -/
structure Served (s : EventLoop τ φ) : Prop where
  order : s.pushed = s.executed ++ s.functors ++ s.pendingFunctors_
  calling : s.pc = .swap ∨ s.pc = .callFunctors → s.callingPendingFunctors_ = true
  rest : s.pc ≠ .callFunctors → s.functors = []
  own : s.calls s.threadId_ ≠ .idle → s.inUserCode = true
  inside : s.pc ≠ .outside
  awake : s.pendingFunctors_ ≠ [] → s.WillSwap ∨ s.WillWake

theorem Entered.served {s : EventLoop τ φ} (h : Entered s) : Served s := by
  refine ⟨?_, ?_, fun _ => h.functors, fun hne => absurd h.own hne, ?_, ?_⟩
  · simp [pushed, executed, h.trace, h.functors, h.pendingFunctors_]
  · simp [h.pc]
  · simp [h.pc]
  · simp [h.pendingFunctors_]

/-- Inside `loop()`, user code runs in the handlers and in the functors. -/
theorem Served.userCode {s : EventLoop τ φ} (h : Served s) (huser : s.inUserCode = true) :
    (∃ wakeup, s.pc = .handleEvents wakeup) ∨ s.pc = .callFunctors := by
  have hin := h.inside
  revert huser hin
  rw [inUserCode]
  cases s.pc <;> simp

/-! ## The order -/

theorem pushed_emit (s : EventLoop τ φ) (e : LoopEffect φ) :
    (s.emit e).pushed = s.pushed ++ (match e with | .pushed f => [f] | _ => []) := by
  cases e <;> simp [pushed]

theorem executed_emit (s : EventLoop τ φ) (e : LoopEffect φ) :
    (s.emit e).executed = s.executed ++ (match e with | .executed f => [f] | _ => []) := by
  cases e <;> simp [executed]

variable [DecidableEq τ]

/-- The functors move from the queue to the local of `doPendingFunctors`, and from there they are
executed. -/
theorem Ordered.order_step {s s' : EventLoop τ φ} {e : Event τ φ} (h : Ordered s)
    (hs : StepCases s e s') : s'.pushed = s'.executed ++ s'.functors ++ s'.pendingFunctors_ := by
  have horder := h.order
  cases hs with
  | queueInLoop | runInLoopQueue =>
    rw [pushed_emit, executed_emit]
    simpa [pushed, executed] using congrArg (· ++ [_]) horder
  | runInLoopInPlace | wakeupQuit | quitOwn | iterate =>
    rw [pushed_emit, executed_emit]
    simpa [pushed, executed] using horder
  | swap hpc =>
    have hnil : s.functors = [] := h.rest (by simp [hpc])
    simpa [pushed, executed, hnil] using horder
  | callFunctor hpc hown hf =>
    rw [pushed_emit, executed_emit]
    simpa [pushed, executed, hf] using horder
  | testCallingWake | testCallingDone | wakeup | quit | enter | leave | pollReturn | handleRead
    | doPendingFunctors | endFunctors => exact horder

theorem Ordered.step {s : EventLoop τ φ} (h : Ordered s) (e : Event τ φ) : Ordered (s.step e) := by
  rcases step_cases s e with heq | hs
  · rwa [heq]
  refine ⟨h.order_step hs, ?_⟩
  generalize s.step e = s' at hs
  cases hs with
  | swap => exact fun hne => absurd rfl hne
  | callFunctor hpc => exact fun hne => absurd hpc hne
  | endFunctors hpc hown hnil => exact fun _ => hnil
  | enter hpc | leave hpc | iterate hpc | pollReturn hpc | handleRead hpc
    | doPendingFunctors hpc => exact fun _ => h.rest (by simp [hpc])
  | _ => exact h.rest

/-! ## The wakeup -/

/-- Another thread that starts a call takes nobody's wakeup away. -/
theorem WillWake.update {s s' : EventLoop τ φ} (h : s.WillWake) {t : τ} (hidle : s.calls t = .idle)
    {c : CallPc} (hcalls : s'.calls = Function.update s.calls t c) (hpc : s'.pc = s.pc)
    (hfd : s'.wakeupFd_ = s.wakeupFd_) (hid : s'.threadId_ = s.threadId_) : s'.WillWake := by
  rcases h with hpos | ⟨u, hu⟩
  · exact .inl (hfd ▸ hpos)
  · refine .inr ⟨u, ?_⟩
    have hne : u ≠ t := by
      rintro rfl
      rcases hu with hu | ⟨hu, -⟩ <;> simp [hidle] at hu
    simpa only [AboutToWake, hcalls, Function.update_of_ne hne, hpc, hid] using hu

theorem WillWake.of_eq {s s' : EventLoop τ φ} (h : s.WillWake) (hcalls : s'.calls = s.calls)
    (hpc : s.pc = .callFunctors → s'.pc = .callFunctors ∨ s.calls s.threadId_ = .idle)
    (hfd : s'.wakeupFd_ = s.wakeupFd_) (hid : s'.threadId_ = s.threadId_) : s'.WillWake := by
  rcases h with hpos | ⟨u, hu⟩
  · exact .inl (hfd ▸ hpos)
  · refine .inr ⟨u, ?_⟩
    rw [AboutToWake, hcalls, hid]
    refine hu.imp_right fun ⟨hpushed, hwhere⟩ => ⟨hpushed, ?_⟩
    by_cases hne : u = s.threadId_
    · subst hne
      rcases hpc (hwhere.resolve_left fun h => h rfl) with hin | hidle
      · exact .inr hin
      · simp [hpushed] at hidle
    · exact .inl hne

/-- A functor that is pushed finds the `swap` still to come or is followed by a `write`. -/
theorem Served.awake_push {s s' : EventLoop τ φ} (h : Served s) {t : τ}
    (huser : t = s.threadId_ → s.inUserCode = true)
    (hcalls : s'.calls = Function.update s.calls t .pushed) (hpc : s'.pc = s.pc)
    (hid : s'.threadId_ = s.threadId_) : s'.WillSwap ∨ s'.WillWake := by
  have hpushed : s'.calls t = .pushed := by rw [hcalls, Function.update_self]
  by_cases hown : t = s.threadId_
  · rcases h.userCode (huser hown) with ⟨wakeup, hin⟩ | hin
    · exact .inl (.inl ⟨wakeup, hpc ▸ hin⟩)
    · exact .inr (.inr ⟨t, .inr ⟨hpushed, .inr (hpc ▸ hin)⟩⟩)
  · exact .inr (.inr ⟨t, .inr ⟨hpushed, .inl (hid ▸ hown)⟩⟩)

theorem Served.awake_step {s s' : EventLoop τ φ} {e : Event τ φ} (h : Served s)
    (hs : StepCases s e s') (hne : s'.pendingFunctors_ ≠ []) : s'.WillSwap ∨ s'.WillWake := by
  cases hs with
  | queueInLoop hcall huser => exact h.awake_push huser rfl rfl rfl
  | runInLoopQueue hcall hother => exact h.awake_push (fun heq => absurd heq hother) rfl rfl rfl
  | runInLoopInPlace => exact h.awake hne
  | testCallingWake hp hw => exact .inr (.inr ⟨_, .inl (Function.update_self ..)⟩)
  | testCallingDone hp hcalling =>
    -- the test failed: this is not the execution of a functor
    left
    rcases h.userCode (h.own (by simp [hp])) with hin | hin
    · exact .inl hin
    · simp [h.calling (.inr hin)] at hcalling
  | wakeup | wakeupQuit => exact .inr (.inl (writeEventfd_pos _))
  | quitOwn => exact h.awake hne
  | quit hcall hother =>
    exact (h.awake hne).imp_right fun hw => hw.update hcall rfl rfl rfl rfl
  | enter hpc => exact absurd hpc h.inside
  | leave hpc | iterate hpc =>
    rcases h.awake hne with (⟨wakeup, hin⟩ | hin) | hw
    · simp [hpc] at hin
    · simp [hpc] at hin
    · exact .inr (hw.of_eq rfl (by simp [hpc]) rfl rfl)
  | pollReturn => exact .inl (.inl ⟨_, rfl⟩)
  | handleRead => exact .inl (.inl ⟨_, rfl⟩)
  | doPendingFunctors => exact .inl (.inr rfl)
  | swap => exact absurd rfl hne
  | callFunctor => exact h.awake hne
  | endFunctors hpc hown =>
    rcases h.awake hne with (⟨wakeup, hin⟩ | hin) | hw
    · simp [hpc] at hin
    · simp [hpc] at hin
    · exact .inr (hw.of_eq rfl (fun _ => .inr (ownIdle_iff.mp hown)) rfl rfl)

/-! ## One step -/

/-- Only in code of the user is the loop thread in a call. -/
theorem Served.own_step {s s' : EventLoop τ φ} {e : Event τ φ} (h : Served s)
    (hs : StepCases s e s') (hne : s'.calls s'.threadId_ ≠ .idle) : s'.inUserCode = true := by
  have hcall : ∀ {t : τ} {c : CallPc}, (t = s.threadId_ → s.inUserCode = true) →
      Function.update s.calls t c s.threadId_ ≠ .idle → s.inUserCode = true := by
    intro t c huser hne
    by_cases heq : t = s.threadId_
    · exact huser heq
    · rw [Function.update_of_ne (Ne.symm heq)] at hne
      exact h.own hne
  have hpcs : s.calls s.threadId_ ≠ .idle → s.pc ≠ .testQuit ∧ s.pc ≠ .poll ∧ s.pc ≠ .swap := by
    intro hne
    rcases h.userCode (h.own hne) with ⟨wakeup, hin⟩ | hin <;> simp [hin]
  cases hs with
  | queueInLoop hidle huser => exact hcall huser hne
  | runInLoopQueue hidle hother => exact hcall (fun heq => absurd heq hother) hne
  | runInLoopInPlace => exact h.own hne
  | @testCallingWake t hp =>
    exact hcall (fun heq => h.own (by rw [← heq, hp]; nofun)) hne
  | testCallingDone hp => simp at hne
  | @wakeup t hw => exact hcall (t := t) (fun heq => h.own (by rw [← heq, hw]; nofun)) hne
  | @wakeupQuit t hw => exact hcall (t := t) (fun heq => h.own (by rw [← heq, hw]; nofun)) hne
  | quitOwn => exact h.own hne
  | quit hidle hother => exact hcall (fun heq => absurd heq hother) hne
  | enter hpc => exact absurd hpc h.inside
  | leave hpc | iterate hpc => exact absurd hpc (hpcs hne).1
  | pollReturn hpc => exact absurd hpc (hpcs hne).2.1
  | swap hpc => exact absurd hpc (hpcs hne).2.2
  | handleRead hpc hown | doPendingFunctors hpc hown | endFunctors hpc hown =>
    exact absurd (ownIdle_iff.mp hown) hne
  | callFunctor hpc hown hf => exact h.own hne

theorem Served.step {s : EventLoop τ φ} (h : Served s) (e : Event τ φ) : Served (s.step e) := by
  rcases step_cases s e with heq | hs
  · rw [heq]
    exact h
  · have hordered := Ordered.step ⟨h.order, h.rest⟩ e
    refine ⟨hordered.order, ?_, hordered.rest, h.own_step hs, ?_, h.awake_step hs⟩
    · generalize s.step e = s' at hs
      cases hs with
      | swap hpc => exact fun _ => h.calling (.inl hpc)
      | doPendingFunctors => exact fun _ => rfl
      | enter | leave | iterate | pollReturn | handleRead | endFunctors => simp
      | _ => exact h.calling
    · generalize s.step e = s' at hs
      cases hs with
      | enter | leave | iterate | pollReturn | handleRead | doPendingFunctors | swap
        | endFunctors => simp
      | _ => exact h.inside

/-! ## Every interleaving -/

/-- From the moment `loop()` has been entered with an empty queue: the functors executed are a
prefix of those pushed, the rest is where it belongs, and while the loop thread is in `poll` and the
queue is not empty, the wakeup descriptor is readable or another thread is about to write to it. -/
theorem functors_served (s : EventLoop τ φ) (h : Entered s) (es : List (Event τ φ)) :
    let s' := run step s es
    s'.executed <+: s'.pushed ∧
      s'.pushed = s'.executed ++ s'.functors ++ s'.pendingFunctors_ ∧
      (s'.pc = .poll → s'.pendingFunctors_ ≠ [] → 0 < s'.wakeupFd_ ∨
        ∃ t ≠ s'.threadId_, s'.calls t = .pushed ∨ s'.calls t = .waking) := by
  intro s'
  have hserved : Served s' := run_preserves (fun _ e h => h.step e) es h.served
  refine ⟨⟨s'.functors ++ s'.pendingFunctors_, ?_⟩, hserved.order, ?_⟩
  · rw [hserved.order, List.append_assoc]
  · intro hpoll hne
    rcases hserved.awake hne with (⟨wakeup, hin⟩ | hin) | hpos | ⟨t, ht⟩
    · simp [hpoll] at hin
    · simp [hpoll] at hin
    · exact .inl hpos
    · -- the loop thread is in no call while it polls
      have hown : s'.calls s'.threadId_ = .idle := by
        by_contra hcall
        have huser := hserved.own hcall
        simp [inUserCode, hpoll] at huser
      refine .inr ⟨t, ?_, ?_⟩
      · rintro rfl
        rcases ht with ht | ⟨ht, -⟩ <;> simp [hown] at ht
      · exact ht.symm.imp_left And.left

/-- A functor pushed by another thread in the middle of a `poll`, and one that it queues itself. -/
theorem functors_served_requeue :
    let s := run step (⟨true, false, false, 0, 0, [], .testQuit, [], fun _ => .idle, []⟩ :
      EventLoop Nat Nat) [.testQuit, .queueInLoop 1 10, .testCalling 1, .wakeup 1, .pollReturn true,
        .handleRead, .doPendingFunctors, .swap, .callFunctor, .queueInLoop 0 11, .testCalling 0,
        .wakeup 0, .endFunctors, .testQuit]
    s.pc = .poll ∧ s.executed = [10] ∧ s.executed <+: s.pushed ∧ 0 < s.wakeupFd_ := by
  intro s
  have hserved := functors_served
    (⟨true, false, false, 0, 0, [], .testQuit, [], fun _ => .idle, []⟩ : EventLoop Nat Nat)
    ⟨rfl, rfl, rfl, rfl, rfl, rfl⟩ [.testQuit, .queueInLoop 1 10, .testCalling 1, .wakeup 1,
      .pollReturn true, .handleRead, .doPendingFunctors, .swap, .callFunctor, .queueInLoop 0 11,
      .testCalling 0, .wakeup 0, .endFunctors, .testQuit]
  exact ⟨by decide +kernel, by decide +kernel, hserved.1, by decide +kernel⟩

end EventLoop

end Mymuduo
