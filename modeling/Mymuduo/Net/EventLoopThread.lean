import Mymuduo.Net.EventLoop

/-!
# `net/EventLoopThread`

The thread that constructs a loop, publishes it in `loop_` and enters it. Other threads reach the
loop through `loop_`, from `startLoop` on and until `loop()` returns, when the loop is destroyed;
`~EventLoopThread` is one of them and calls `quit`. The loop's own thread may call its functions
from the `ThreadInitCallback`, too.

`loop()` clears `quit_` when it is entered, and with it a `quit` of before.

* `quit_remembered`: a `quit` that comes after the entry is not forgotten.
* `quit_remembered_fails`: the `quit` of a destructor that runs right after `startLoop`.
-/

namespace Mymuduo

open Transition

structure EventLoopThread (τ φ : Type*) where
  loop : EventLoop τ φ
  /-- Has `loop_` been set? -/
  loop_ : Bool

namespace EventLoopThread

variable {τ φ : Type*} [DecidableEq τ]

/-- `threadFunc` once `loop` is constructed; nothing initializes `callingPendingFunctors_`. -/
def new (threadId : τ) (callingPendingFunctors : Bool) : EventLoopThread τ φ where
  loop :=
    { looping_ := false
      quit_ := false
      callingPendingFunctors_ := callingPendingFunctors
      threadId_ := threadId
      wakeupFd_ := 0
      pendingFunctors_ := []
      pc := .outside
      functors := []
      calls := fun _ => .idle
      trace := [] }
  loop_ := false

/-- `loop_ = &loop`, after the callback -/
def publish (s : EventLoopThread τ φ) : EventLoopThread τ φ :=
  if s.loop.pc = .outside ∧ s.loop.ownIdle then { s with loop_ := true } else s

/-- Can the thread `t` reach the loop? -/
def reaches (s : EventLoopThread τ φ) (t : τ) : Bool :=
  t = s.loop.threadId_ || (s.loop_ && s.loop.pc ≠ .returned)

inductive Event (τ φ : Type*)
  | publish
  | loop (e : EventLoop.Event τ φ)
  deriving DecidableEq, Repr

/-- A call needs the loop to be there, and the loop is entered when it has been published. -/
def enabled (s : EventLoopThread τ φ) : EventLoop.Event τ φ → Bool
  | .queueInLoop t _ | .runInLoop t _ | .quit t => s.reaches t
  | .enter => s.loop_
  | _ => true

def step (s : EventLoopThread τ φ) : Event τ φ → EventLoopThread τ φ
  | .publish => s.publish
  | .loop e => if s.enabled e then { s with loop := s.loop.step e } else s

/-! ## The loop thread by itself -/

end EventLoopThread

namespace EventLoop

variable {τ φ : Type*} [DecidableEq τ]

/-- A step of the loop thread, which starts no call. It does not wait for anything: `poll` returns
for the wakeup descriptor. -/
def Event.isOwn (threadId : τ) : Event τ φ → Bool
  | .testCalling t | .wakeup t => t = threadId
  | .pollReturn ready => ready
  | .queueInLoop .. | .runInLoop .. | .quit _ | .enter => false
  | _ => true

/-- Nothing keeps `loop()` from returning. -/
def CanReturn (s : EventLoop τ φ) : Prop :=
  ∃ es : List (Event τ φ), (∀ e ∈ es, e.isOwn s.threadId_ = true) ∧ (run step s es).pc = .returned

theorem threadId_step (s : EventLoop τ φ) (e : Event τ φ) :
    (s.step e).threadId_ = s.threadId_ := by
  rcases step_cases s e with heq | hs
  · rw [heq]
  · generalize s.step e = s' at hs
    cases hs <;> rfl

theorem CanReturn.of_step {s : EventLoop τ φ} {e : Event τ φ} (he : e.isOwn s.threadId_ = true)
    (h : CanReturn (s.step e)) : CanReturn s := by
  obtain ⟨es, hes, hpc⟩ := h
  rw [threadId_step] at hes
  exact ⟨e :: es, List.forall_mem_cons.mpr ⟨he, hes⟩, hpc⟩

theorem canReturn_testQuit {s : EventLoop τ φ} (hpc : s.pc = .testQuit) (hquit : s.quit_ = true) :
    CanReturn s :=
  ⟨[.testQuit], by simp [Event.isOwn], by simp [step, testQuit, hpc, hquit]⟩

theorem canReturn_callFunctors {s : EventLoop τ φ} (hpc : s.pc = .callFunctors)
    (hown : s.ownIdle = true) (hquit : s.quit_ = true) : CanReturn s := by
  generalize hf : s.functors = functors
  induction functors generalizing s with
  | nil =>
    have hnext : s.step .endFunctors =
        { s with callingPendingFunctors_ := false, pc := .testQuit } := by
      simp [step, endFunctors, hpc, hf, hown]
    refine .of_step (e := .endFunctors) rfl ?_
    rw [hnext]
    exact canReturn_testQuit rfl hquit
  | cons f functors ih =>
    have hnext : s.step .callFunctor = { s with functors := functors }.emit (.executed f) := by
      simp [step, callFunctor, hpc, hf, hown]
    refine .of_step (e := .callFunctor) rfl ?_
    rw [hnext]
    exact ih hpc hown hquit rfl

theorem canReturn_swap {s : EventLoop τ φ} (hpc : s.pc = .swap) (hown : s.ownIdle = true)
    (hquit : s.quit_ = true) : CanReturn s := by
  have hnext : s.step .swap =
      { s with functors := s.pendingFunctors_, pendingFunctors_ := [], pc := .callFunctors } := by
    simp [step, swap, hpc]
  refine .of_step (e := .swap) rfl ?_
  rw [hnext]
  exact canReturn_callFunctors rfl hown hquit

theorem canReturn_handleEvents {s : EventLoop τ φ} {wakeup : Bool}
    (hpc : s.pc = .handleEvents wakeup) (hown : s.ownIdle = true) (hquit : s.quit_ = true) :
    CanReturn s := by
  have hdone : ∀ {s : EventLoop τ φ}, s.pc = .handleEvents false → s.ownIdle = true →
      s.quit_ = true → CanReturn s := by
    intro s hpc hown hquit
    have hnext : s.step .doPendingFunctors =
        { s with callingPendingFunctors_ := true, pc := .swap } := by
      simp [step, doPendingFunctors, hpc, hown]
    refine .of_step (e := .doPendingFunctors) rfl ?_
    rw [hnext]
    exact canReturn_swap rfl hown hquit
  cases wakeup with
  | false => exact hdone hpc hown hquit
  | true =>
    have hnext : s.step .handleRead = { s with wakeupFd_ := 0, pc := .handleEvents false } := by
      simp [step, handleRead, hpc, hown]
    refine .of_step (e := .handleRead) rfl ?_
    rw [hnext]
    exact hdone rfl hown hquit

/-- With `quit_` set the loop thread gets from anywhere to the end of `loop()`, provided the wakeup
descriptor is readable when it polls. -/
theorem canReturn_of_ownIdle {s : EventLoop τ φ} (hown : s.ownIdle = true) (hquit : s.quit_ = true)
    (hin : s.pc ≠ .outside) (hpoll : s.pc = .poll → 0 < s.wakeupFd_) : CanReturn s := by
  cases hpc : s.pc with
  | outside => exact absurd hpc hin
  | testQuit => exact canReturn_testQuit hpc hquit
  | poll =>
    have hnext : s.step (.pollReturn true) = { s with pc := .handleEvents true } := by
      simp [step, pollReturn, hpc, hpoll hpc]
    refine .of_step (e := .pollReturn true) rfl ?_
    rw [hnext]
    exact canReturn_handleEvents rfl hown hquit
  | handleEvents wakeup => exact canReturn_handleEvents hpc hown hquit
  | swap => exact canReturn_swap hpc hown hquit
  | callFunctors => exact canReturn_callFunctors hpc hown hquit
  | returned => exact ⟨[], by simp, hpc⟩

theorem canReturn {s : EventLoop τ φ} (hquit : s.quit_ = true) (hin : s.pc ≠ .outside)
    (hpoll : s.pc = .poll → 0 < s.wakeupFd_) : CanReturn s := by
  -- a call in progress is finished first
  have hwrite : ∀ {s : EventLoop τ φ}, s.calls s.threadId_ = .waking ∨
      s.calls s.threadId_ = .quitting → s.quit_ = true → s.pc ≠ .outside → CanReturn s := by
    intro s hcall hquit hin
    refine .of_step (e := .wakeup s.threadId_) (by simp [Event.isOwn]) ?_
    rcases hcall with hcall | hcall
    · simp only [step, wakeup, hcall]
      exact canReturn_of_ownIdle (by simp [ownIdle]) hquit hin fun _ => writeEventfd_pos _
    · simp only [step, wakeup, hcall]
      exact canReturn_of_ownIdle (by simp [ownIdle]) hquit hin fun _ => writeEventfd_pos _
  cases hcall : s.calls s.threadId_ with
  | idle => exact canReturn_of_ownIdle (ownIdle_iff.mpr hcall) hquit hin hpoll
  | waking => exact hwrite (.inl hcall) hquit hin
  | quitting => exact hwrite (.inr hcall) hquit hin
  | pushed =>
    refine .of_step (e := .testCalling s.threadId_) (by simp [Event.isOwn]) ?_
    simp only [step, testCalling, hcall, if_true]
    split
    · exact hwrite (.inl (Function.update_self ..)) hquit hin
    · exact canReturn_of_ownIdle (by simp [ownIdle]) hquit hin hpoll

/-! ## What a `quit` leaves behind -/

/-- The invariant of a run whose `quit`s come after the entry. -/
structure Kept (s : EventLoop τ φ) : Prop where
  returned : .quitReturned ∈ s.trace → s.quit_ = true ∧ s.pc ≠ .outside
  quitting : ∀ t, s.calls t = .quitting → s.quit_ = true ∧ s.pc ≠ .outside
  poll : s.pc = .poll → .quitReturned ∈ s.trace → 0 < s.wakeupFd_
  after : ∀ l₁ l₂, s.trace = l₁ ++ l₂ → .quitReturned ∈ l₁ → .iteration ∉ l₂

/-- The traces in which no iteration follows a `quit` stay so when something else is added, or when
there was no `quit`. -/
theorem after_append {trace : List (LoopEffect φ)} {e : LoopEffect φ}
    (h : ∀ l₁ l₂, trace = l₁ ++ l₂ → .quitReturned ∈ l₁ → .iteration ∉ l₂)
    (he : e = .iteration → .quitReturned ∉ trace) :
    ∀ l₁ l₂, trace ++ [e] = l₁ ++ l₂ → .quitReturned ∈ l₁ → .iteration ∉ l₂ := by
  intro l₁ l₂ heq hquit
  rcases List.eq_nil_or_concat l₂ with rfl | ⟨l, e', rfl⟩
  · simp
  · rw [List.concat_eq_append, ← List.append_assoc] at heq
    obtain ⟨hfront, hlast⟩ := List.append_inj' heq rfl
    obtain rfl : e = e' := by simpa using hlast
    intro hm
    rcases List.mem_append.mp (List.concat_eq_append ▸ hm) with hm | hm
    · exact h l₁ l hfront hquit hm
    · refine he (List.mem_singleton.mp hm).symm ?_
      rw [hfront]
      exact List.mem_append_left _ hquit

theorem Kept.step {s : EventLoop τ φ} (h : Kept s) {e : Event τ φ}
    (hentry : ∀ t, e = .quit t → s.pc ≠ .outside) : Kept (s.step e) := by
  rcases step_cases s e with heq | hs
  · rwa [heq]
  generalize s.step e = s' at hs
  have hcall : ∀ {t u : τ} {c : CallPc}, c ≠ .quitting →
      Function.update s.calls t c u = .quitting → s.calls u = .quitting := by
    intro t u c hc hu
    rw [Function.update_apply] at hu
    split at hu
    · exact absurd hu hc
    · exact hu
  cases hs with
  | queueInLoop | runInLoopQueue =>
    refine ⟨?_, fun t ht => h.quitting t (hcall (by simp) ht), ?_, after_append h.after nofun⟩
    · simpa using h.returned
    · simpa using h.poll
  | runInLoopInPlace =>
    refine ⟨?_, h.quitting, ?_, after_append h.after nofun⟩
    · simpa using h.returned
    · simpa using h.poll
  | testCallingWake | testCallingDone =>
    exact ⟨h.returned, fun t ht => h.quitting t (hcall (by simp) ht), h.poll, h.after⟩
  | wakeup =>
    exact ⟨h.returned, fun t ht => h.quitting t (hcall (by simp) ht),
      fun _ _ => writeEventfd_pos _, h.after⟩
  | wakeupQuit hq =>
    exact ⟨fun _ => h.quitting _ hq, fun t ht => h.quitting t (hcall (by simp) ht),
      fun _ _ => writeEventfd_pos _, after_append h.after nofun⟩
  | quitOwn hown huser =>
    have hin := hentry _ rfl
    refine ⟨fun _ => ⟨rfl, hin⟩, fun _ _ => ⟨rfl, hin⟩, ?_, after_append h.after nofun⟩
    intro hpoll
    simp [inUserCode, show s.pc = .poll from hpoll] at huser
  | quit =>
    have hin := hentry _ rfl
    exact ⟨fun hm => ⟨rfl, hin⟩, fun _ _ => ⟨rfl, hin⟩, h.poll, h.after⟩
  | enter hpc =>
    exact ⟨fun hm => absurd hpc (h.returned hm).2, fun t ht => absurd hpc (h.quitting t ht).2,
      nofun, h.after⟩
  | leave | handleRead | doPendingFunctors | swap | endFunctors | pollReturn =>
    exact ⟨fun hm => ⟨(h.returned hm).1, nofun⟩, fun t ht => ⟨(h.quitting t ht).1, nofun⟩, nofun,
      h.after⟩
  | iterate hpc hquit =>
    have hnot : .quitReturned ∉ s.trace := fun hm => by simp [(h.returned hm).1] at hquit
    refine ⟨fun hm => ?_, fun t ht => ⟨(h.quitting t ht).1, nofun⟩, fun _ hm => ?_,
      after_append h.after fun _ => hnot⟩
    · exact absurd (by simpa using hm) hnot
    · exact absurd (by simpa using hm) hnot
  | callFunctor hpc =>
    refine ⟨?_, h.quitting, fun hpoll => ?_, after_append h.after nofun⟩
    · simpa using h.returned
    · simp [hpc] at hpoll

end EventLoop

/-! ## Every interleaving -/

namespace EventLoopThread

variable {τ φ : Type*} [DecidableEq τ]

/-- `quit` is called when `loop()` has been entered. -/
def AfterEntry (s : EventLoopThread τ φ) : Event τ φ → Prop
  | .loop (.quit _) => s.loop.pc ≠ .outside
  | _ => True

instance (s : EventLoopThread τ φ) : (e : Event τ φ) → Decidable (s.AfterEntry e)
  | .loop (.quit _) => inferInstanceAs (Decidable (_ ≠ _))
  | .publish | .loop (.queueInLoop ..) | .loop (.testCalling _) | .loop (.wakeup _)
  | .loop (.runInLoop ..) | .loop .enter | .loop .testQuit | .loop (.pollReturn _)
  | .loop .handleRead | .loop .doPendingFunctors | .loop .swap | .loop .callFunctor
  | .loop .endFunctors => instDecidableTrue

/-- Once a call of `quit` has returned: `quit_` is set until `loop()` returns, no further iteration
was started since, and nothing keeps `loop()` from returning, so that `join()` can complete. -/
structure QuitRemembered (s : EventLoop τ φ) : Prop where
  quit_ : .quitReturned ∈ s.trace → s.pc ≠ .returned → s.quit_ = true
  iteration : ∀ l₁ l₂, s.trace = l₁ ++ l₂ → .quitReturned ∈ l₁ → .iteration ∉ l₂
  join : .quitReturned ∈ s.trace → s.CanReturn

/-- A `quit` that comes after the entry is remembered in every interleaving. -/
theorem quit_remembered (threadId : τ) (callingPendingFunctors : Bool) (es : List (Event τ φ))
    (hok : Meets AfterEntry step (new threadId callingPendingFunctors) es) :
    QuitRemembered (run step (new threadId callingPendingFunctors) es).loop := by
  have hstep : ∀ (s : EventLoopThread τ φ) e, s.loop.Kept → s.AfterEntry e →
      (s.step e).loop.Kept := by
    intro s e h hok
    cases e with
    | publish =>
      simp only [step, publish]
      split
      · exact h
      · exact h
    | loop e =>
      simp only [step]
      split
      · exact h.step fun t he => by subst he; exact hok
      · exact h
  have hkept := run_invariant (I := fun s : EventLoopThread τ φ => s.loop.Kept) hstep
    (s := new threadId callingPendingFunctors) ⟨nofun, nofun, nofun, by simp [new]⟩ hok
  refine ⟨fun hm _ => (hkept.returned hm).1, hkept.after, ?_⟩
  intro hm
  obtain ⟨hquit, hin⟩ := hkept.returned hm
  exact EventLoop.canReturn hquit hin fun hpoll => hkept.poll hpoll hm

/-- A destructor that runs while the loop thread polls. -/
theorem quit_remembered_poll :
    QuitRemembered (run step (new 0 false : EventLoopThread Nat Nat)
      [.publish, .loop .enter, .loop .testQuit, .loop (.quit 1), .loop (.wakeup 1)]).loop :=
  quit_remembered 0 false
    [.publish, .loop .enter, .loop .testQuit, .loop (.quit 1), .loop (.wakeup 1)]
    (by decide +kernel)

/-- `startLoop` returns and `~EventLoopThread` calls `quit` before the thread has entered `loop()`,
which forgets it, wakes up once and polls again. -/
theorem quit_remembered_fails :
    ¬ ∀ (threadId : Nat) (callingPendingFunctors : Bool) (es : List (Event Nat Nat)),
      QuitRemembered (run step (new threadId callingPendingFunctors) es).loop := by
  intro hall
  have hquit := (hall 0 false [.publish, .loop (.quit 1), .loop (.wakeup 1), .loop .enter]).quit_
    (by decide +kernel) (by decide +kernel)
  revert hquit
  decide +kernel

end EventLoopThread

end Mymuduo
