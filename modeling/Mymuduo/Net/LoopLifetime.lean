import Mymuduo.Net.EventLoopThread

/-!
# How long `loop_` is valid

The loop is a local of `threadFunc` and `loop_` is never reset, so the pointer outlives the loop
whenever `loop()` comes to an end. `LoopOwner` is an `EventLoopThread` with its owner, the thread
`owner` that calls `startLoop` and runs the destructor; the destructor's call of `quit` is two
accesses to the loop, as in `EventLoop`. What becomes of the memory of a destroyed loop is not
looked into: `usedDead` records that the destructor has accessed it.

* `Fresh`: what `loop_` points to is there.
* `loop_pointer_fresh`: this is so in every state exactly as long as `threadFunc` does not return,
  and the destructor accesses no destroyed loop exactly if it is over with `quit` by then.
* `loop_pointer_fresh_fails`: a functor that calls `quit`, and the destructor after it.
-/

namespace Mymuduo

open Transition

/-- Where the owner is in `~EventLoopThread`. -/
inductive DtorPc
  | notCalled
  /-- `loop_ != NULL` -/
  | nonNull
  /-- in `quit`, about to call `wakeup()` -/
  | quitting
  | joining
  | done
  deriving DecidableEq, Repr

structure LoopOwner (τ φ : Type*) where
  thread : EventLoopThread τ φ
  started : Bool
  /-- `threadFunc` has returned, and the loop is destroyed. -/
  exited : Bool
  dtor : DtorPc
  usedDead : Bool

namespace LoopOwner

variable {τ φ : Type*} [DecidableEq τ]

def new (threadId : τ) (callingPendingFunctors : Bool) : LoopOwner τ φ where
  thread := .new threadId callingPendingFunctors
  started := false
  exited := false
  dtor := .notCalled
  usedDead := false

inductive Event (τ φ : Type*)
  | startLoop
  /-- the thread, and the calls of all threads but the one of the destructor -/
  | thread (e : EventLoopThread.Event τ φ)
  /-- the end of `threadFunc` -/
  | exit
  /-- `if (loop_ != NULL)` -/
  | testLoop
  /-- `quit`, up to its call of `wakeup()` -/
  | quitLoop
  | wakeupLoop
  | join
  deriving DecidableEq, Repr

/-- The destructor does something to the loop. -/
def useLoop (s : LoopOwner τ φ) (e : EventLoop.Event τ φ) : LoopOwner τ φ :=
  if s.exited then { s with usedDead := true }
  else { s with thread.loop := s.thread.loop.step e }

/-- The destructor does not run before `startLoop` has returned. -/
def step (owner : τ) (s : LoopOwner τ φ) : Event τ φ → LoopOwner τ φ
  | .startLoop => if s.dtor = .notCalled then { s with started := true } else s
  | .thread e => if s.started ∧ ¬ s.exited then { s with thread := s.thread.step e } else s
  | .exit => if s.thread.loop.pc = .returned then { s with exited := true } else s
  | .testLoop =>
    if s.dtor = .notCalled ∧ (s.started → s.thread.loop_) then
      { s with dtor := if s.thread.loop_ then .nonNull else .done }
    else s
  | .quitLoop =>
    if s.dtor = .nonNull then { s.useLoop (.quit owner) with dtor := .quitting } else s
  | .wakeupLoop =>
    if s.dtor = .quitting then { s.useLoop (.wakeup owner) with dtor := .joining } else s
  | .join => if s.dtor = .joining ∧ s.exited then { s with dtor := .done } else s

/-- If `loop_` is not null, the loop is there. -/
def Fresh (s : LoopOwner τ φ) : Prop := s.thread.loop_ = true → s.exited = false

/-- `threadFunc` does not return. -/
def Stays (s : LoopOwner τ φ) : Event τ φ → Prop
  | .exit => s.thread.loop.pc ≠ .returned
  | _ => True

/-- `threadFunc` does not return before the destructor is over with `quit`. -/
def QuitFirst (s : LoopOwner τ φ) : Event τ φ → Prop
  | .exit => s.thread.loop.pc = .returned → s.dtor = .joining ∨ s.dtor = .done
  | _ => True

instance (s : LoopOwner τ φ) : (e : Event τ φ) → Decidable (s.Stays e)
  | .exit => inferInstanceAs (Decidable (_ ≠ _))
  | .startLoop | .thread _ | .testLoop | .quitLoop | .wakeupLoop | .join => instDecidableTrue

instance (s : LoopOwner τ φ) : (e : Event τ φ) → Decidable (s.QuitFirst e)
  | .exit => inferInstanceAs (Decidable (_ → _ ∨ _))
  | .startLoop | .thread _ | .testLoop | .quitLoop | .wakeupLoop | .join => instDecidableTrue

/-! ## The order of things -/

/-- The loop is entered when it has been published, and destroyed when `loop()` has returned. -/
structure Ordered (s : LoopOwner τ φ) : Prop where
  entered : s.thread.loop.pc ≠ .outside → s.thread.loop_ = true
  exited : s.exited = true → s.thread.loop.pc = .returned

omit [DecidableEq τ] in
theorem ordered_new (threadId : τ) (callingPendingFunctors : Bool) :
    Ordered (new threadId callingPendingFunctors : LoopOwner τ φ) :=
  ⟨fun h => absurd rfl h, nofun⟩

omit [DecidableEq τ] in
theorem Ordered.fresh_iff {s : LoopOwner τ φ} (h : Ordered s) : Fresh s ↔ s.exited = false := by
  constructor
  · intro hfresh
    by_contra hexited
    have hpc := h.exited (by simpa using hexited)
    exact hexited (hfresh (h.entered (by simp [hpc])))
  · exact fun hexited _ => hexited

theorem outside_of_step {s : EventLoop τ φ} {e : EventLoop.Event τ φ} (he : e ≠ .enter)
    (h : s.pc = .outside) : (s.step e).pc = .outside := by
  rcases EventLoop.step_cases s e with heq | hs
  · rwa [heq]
  generalize s.step e = s' at hs
  cases hs with
  | enter => exact absurd rfl he
  | leave hpc | iterate hpc | pollReturn hpc | handleRead hpc | doPendingFunctors hpc | swap hpc
    | endFunctors hpc => simp [h] at hpc
  | _ => exact h

theorem entered_step {s : EventLoopThread τ φ} (h : s.loop.pc ≠ .outside → s.loop_ = true)
    (e : EventLoopThread.Event τ φ) : (s.step e).loop.pc ≠ .outside → (s.step e).loop_ = true := by
  cases e with
  | publish =>
    simp only [EventLoopThread.step, EventLoopThread.publish]
    split
    · exact fun _ => rfl
    · exact h
  | loop e =>
    simp only [EventLoopThread.step]
    split
    · next hen =>
      intro hpc
      by_cases he : e = .enter
      · subst he
        exact hen
      · exact h fun hout => hpc (outside_of_step he hout)
    · exact h

theorem Ordered.useLoop {s : LoopOwner τ φ} (h : Ordered s) {e : EventLoop.Event τ φ}
    (he : e ≠ .enter) : Ordered (s.useLoop e) := by
  unfold LoopOwner.useLoop
  split
  · exact ⟨h.entered, h.exited⟩
  · next hexited =>
    refine ⟨fun hpc => h.entered fun hout => hpc (outside_of_step he hout), fun hexited' => ?_⟩
    exact absurd hexited' hexited

theorem Ordered.step {s : LoopOwner τ φ} (h : Ordered s) (owner : τ) (e : Event τ φ) :
    Ordered (s.step owner e) := by
  cases e with
  | startLoop | testLoop | join =>
    rw [LoopOwner.step]
    split <;> exact ⟨h.entered, h.exited⟩
  | thread e =>
    rw [LoopOwner.step]
    split
    · next hthread =>
      exact ⟨entered_step h.entered e, fun hexited => absurd hexited hthread.2⟩
    · exact h
  | exit =>
    rw [LoopOwner.step]
    split
    · next hpc => exact ⟨h.entered, fun _ => hpc⟩
    · exact h
  | quitLoop =>
    rw [LoopOwner.step]
    split
    · have huse := h.useLoop (e := .quit owner) nofun
      exact ⟨huse.entered, huse.exited⟩
    · exact h
  | wakeupLoop =>
    rw [LoopOwner.step]
    split
    · have huse := h.useLoop (e := .wakeup owner) nofun
      exact ⟨huse.entered, huse.exited⟩
    · exact h

theorem exited_useLoop (s : LoopOwner τ φ) (e : EventLoop.Event τ φ) :
    (s.useLoop e).exited = s.exited := by
  rw [useLoop]
  split <;> rfl

theorem loop_useLoop (s : LoopOwner τ φ) (e : EventLoop.Event τ φ) :
    (s.useLoop e).thread.loop_ = s.thread.loop_ := by
  rw [useLoop]
  split <;> rfl

/-- Only the end of `threadFunc` destroys the loop. -/
theorem exited_step {s : LoopOwner τ φ} (owner : τ) {e : Event τ φ} (he : e ≠ .exit) :
    (s.step owner e).exited = s.exited := by
  cases e with
  | exit => exact absurd rfl he
  | quitLoop | wakeupLoop =>
    rw [step]
    split
    · exact exited_useLoop ..
    · rfl
  | _ =>
    rw [step]
    split <;> rfl

/-- A step keeps the loop if and only if it is not the end of `threadFunc`. -/
theorem stays_iff {s : LoopOwner τ φ} (h : s.exited = false) (owner : τ) (e : Event τ φ) :
    (s.step owner e).exited = false ↔ s.Stays e := by
  by_cases he : e = .exit
  · subst he
    rw [step, Stays]
    split
    · next hpc => simp [hpc]
    · next hpc => simp [hpc, h]
  · rw [exited_step owner he, h]
    cases e with
    | exit => exact absurd rfl he
    | _ => simp [Stays]

/-! ## The destructor -/

/-- The destructor has accessed no destroyed loop, and will not. -/
structure Safe (s : LoopOwner τ φ) : Prop where
  usedDead : s.usedDead = false
  exited : s.exited = true → s.dtor = .joining ∨ s.dtor = .done

/-- The loop is destroyed before the destructor is over with `quit`. -/
structure Doomed (s : LoopOwner τ φ) : Prop where
  exited : s.exited = true
  loop_ : s.thread.loop_ = true
  usedDead : s.usedDead = true ∨ s.dtor ≠ .joining ∧ s.dtor ≠ .done

theorem usedDead_useLoop (s : LoopOwner τ φ) (e : EventLoop.Event τ φ) :
    (s.useLoop e).usedDead = (s.usedDead || s.exited) := by
  unfold useLoop
  split
  · next hexited => simp [hexited]
  · next hexited => simp [hexited]

/-- The destructor goes on with its `quit` on a loop that is there. -/
theorem Safe.useLoop {s : LoopOwner τ φ} (h : Safe s) (hpc : s.dtor ≠ .joining ∧ s.dtor ≠ .done)
    (e : EventLoop.Event τ φ) :
    (s.useLoop e).usedDead = false ∧ (s.useLoop e).exited = false := by
  have hexited : s.exited = false := by
    by_contra hexited
    rcases h.exited (by simpa using hexited) with hjoin | hdone
    · exact hpc.1 hjoin
    · exact hpc.2 hdone
  rw [usedDead_useLoop, exited_useLoop, h.usedDead, hexited]
  exact ⟨rfl, rfl⟩

theorem Safe.step {s : LoopOwner τ φ} (h : Safe s) (owner : τ) {e : Event τ φ}
    (hok : s.QuitFirst e) : Safe (s.step owner e) := by
  cases e with
  | startLoop | thread e =>
    rw [LoopOwner.step]
    split <;> exact ⟨h.usedDead, h.exited⟩
  | exit =>
    rw [LoopOwner.step]
    split
    · next hpc => exact ⟨h.usedDead, fun _ => hok hpc⟩
    · exact h
  | testLoop =>
    rw [LoopOwner.step]
    split
    · next htest =>
      refine ⟨h.usedDead, fun hexited => ?_⟩
      rcases h.exited hexited with hjoin | hdone
      · simp [htest.1] at hjoin
      · simp [htest.1] at hdone
    · exact h
  | quitLoop =>
    rw [LoopOwner.step]
    split
    · next hpc =>
      obtain ⟨hused, hexited⟩ := h.useLoop (by simp [hpc]) (.quit owner)
      exact ⟨hused, fun hexited' => by simp [hexited] at hexited'⟩
    · exact h
  | wakeupLoop =>
    rw [LoopOwner.step]
    split
    · next hpc =>
      obtain ⟨hused, hexited⟩ := h.useLoop (by simp [hpc]) (.wakeup owner)
      exact ⟨hused, fun _ => .inl rfl⟩
    · exact h
  | join =>
    rw [LoopOwner.step]
    split
    · exact ⟨h.usedDead, fun _ => .inr rfl⟩
    · exact h

/-- The destructor goes on with its `quit` on a loop that is destroyed. -/
theorem Doomed.useLoop {s : LoopOwner τ φ} (h : Doomed s) (e : EventLoop.Event τ φ)
    (dtor : DtorPc) : Doomed { s.useLoop e with dtor := dtor } := by
  refine ⟨(exited_useLoop s e).trans h.exited, (loop_useLoop s e).trans h.loop_, .inl ?_⟩
  exact (usedDead_useLoop s e).trans (by rw [h.exited, Bool.or_true])

theorem Doomed.step {s : LoopOwner τ φ} (h : Doomed s) (owner : τ) (e : Event τ φ) :
    Doomed (s.step owner e) := by
  cases e with
  | startLoop =>
    rw [LoopOwner.step]
    split <;> exact ⟨h.exited, h.loop_, h.usedDead⟩
  | thread e =>
    rw [LoopOwner.step, if_neg (by simp [h.exited])]
    exact h
  | exit =>
    rw [LoopOwner.step]
    split
    · exact ⟨rfl, h.loop_, h.usedDead⟩
    · exact h
  | testLoop =>
    rw [LoopOwner.step]
    split
    · refine ⟨h.exited, h.loop_, .inr ?_⟩
      simp [h.loop_]
    · exact h
  | quitLoop =>
    rw [LoopOwner.step]
    split
    · exact h.useLoop (.quit owner) .quitting
    · exact h
  | wakeupLoop =>
    rw [LoopOwner.step]
    split
    · exact h.useLoop (.wakeup owner) .joining
    · exact h
  | join =>
    rw [LoopOwner.step]
    split
    · next hpc =>
      exact ⟨h.exited, h.loop_, .inl (h.usedDead.resolve_right fun hnot => hnot.1 hpc.1)⟩
    · exact h

/-- A `threadFunc` that returns too early dooms the destructor. -/
theorem doomed_of_not_quitFirst {s : LoopOwner τ φ} (h : Ordered s) (owner : τ) {e : Event τ φ}
    (hnot : ¬ s.QuitFirst e) : Doomed (s.step owner e) := by
  cases e with
  | exit =>
    simp only [QuitFirst, not_forall, not_or, exists_prop] at hnot
    obtain ⟨hpc, hdtor⟩ := hnot
    rw [LoopOwner.step, if_pos hpc]
    exact ⟨rfl, h.entered (by simp [hpc]), .inr hdtor⟩
  | _ => exact absurd trivial hnot

/-! ## Every interleaving -/

/-- What `loop_` points to is there in every state of a run if and only if `threadFunc` does not
return in it; and a destructor that is done has accessed no destroyed loop if and only if
`threadFunc` did not return before it was over with `quit`. -/
theorem loop_pointer_fresh (owner threadId : τ) (callingPendingFunctors : Bool)
    (es : List (Event τ φ)) :
    ((∀ pre, pre <+: es → Fresh (run (step owner) (new threadId callingPendingFunctors) pre)) ↔
        Meets Stays (step owner) (new threadId callingPendingFunctors) es) ∧
      let s := run (step owner) (new threadId callingPendingFunctors) es
      s.dtor = .done → (s.usedDead = false ↔
        Meets QuitFirst (step owner) (new threadId callingPendingFunctors) es) := by
  have hnew : Ordered (new threadId callingPendingFunctors : LoopOwner τ φ) :=
    ordered_new threadId callingPendingFunctors
  have hordered : ∀ es', Ordered (run (step owner) (new threadId callingPendingFunctors) es') :=
    fun es' => run_preserves (fun _ e h => h.step owner e) es' hnew
  refine ⟨?_, fun hdone => ⟨?_, ?_⟩⟩
  · have hiff : (∀ pre, pre <+: es →
        (run (step owner) (new threadId callingPendingFunctors) pre).exited = false) ↔
          Meets Stays (step owner) (new threadId callingPendingFunctors) es :=
      run_invariant_iff (I := fun s : LoopOwner τ φ => s.exited = false) (p := fun _ => True)
        (fun _ e h _ => stays_iff h owner e) rfl fun _ _ => trivial
    rw [← hiff]
    exact forall₂_congr fun pre _ => (hordered pre).fresh_iff
  · intro hused
    by_contra hnot
    have hdoomed : Doomed (run (step owner) (new threadId callingPendingFunctors) es) :=
      run_of_not_meets (p := fun _ => True) (fun _ e h _ => h.step owner e)
        (fun _ _ h _ hbad => doomed_of_not_quitFirst h owner hbad)
        (fun _ e _ _ h => h.step owner e) hnew (fun _ _ => trivial) hnot
    rcases hdoomed.usedDead with hyes | hpc
    · simp [hused] at hyes
    · exact hpc.2 hdone
  · intro hmeets
    have hsafe : Safe (run (step owner) (new threadId callingPendingFunctors) es) :=
      run_invariant (fun _ _ h hok => h.step owner hok) ⟨rfl, nofun⟩ hmeets
    exact hsafe.usedDead

/-- The destructor ends the loop. -/
theorem loop_pointer_fresh_dtor :
    (run (step 1) (new 0 false : LoopOwner Nat Nat) [.startLoop, .thread .publish,
      .thread (.loop .enter), .thread (.loop .testQuit), .testLoop, .quitLoop, .wakeupLoop,
      .thread (.loop (.pollReturn true)), .thread (.loop .handleRead),
      .thread (.loop .doPendingFunctors), .thread (.loop .swap), .thread (.loop .endFunctors),
      .thread (.loop .testQuit), .exit, .join]).usedDead = false :=
  ((loop_pointer_fresh (φ := Nat) 1 0 false [.startLoop, .thread .publish,
    .thread (.loop .enter), .thread (.loop .testQuit), .testLoop, .quitLoop, .wakeupLoop,
    .thread (.loop (.pollReturn true)), .thread (.loop .handleRead),
    .thread (.loop .doPendingFunctors), .thread (.loop .swap), .thread (.loop .endFunctors),
    .thread (.loop .testQuit), .exit, .join]).2 (by decide +kernel)).mpr (by decide +kernel)

/-- A functor calls `quit` and `threadFunc` returns: the destructor finds `loop_` set and calls
`quit` on the destroyed loop. -/
theorem loop_pointer_fresh_fails :
    ¬ ∀ (owner threadId : Nat) (callingPendingFunctors : Bool) (es : List (Event Nat Nat)),
      let s := run (step owner) (new threadId callingPendingFunctors) es
      Fresh s ∧ s.usedDead = false := by
  intro hall
  have hused := (hall 1 0 false [.startLoop, .thread .publish, .thread (.loop .enter),
    .thread (.loop .testQuit), .thread (.loop (.runInLoop 1 10)), .thread (.loop (.testCalling 1)),
    .thread (.loop (.wakeup 1)), .thread (.loop (.pollReturn true)), .thread (.loop .handleRead),
    .thread (.loop .doPendingFunctors), .thread (.loop .swap), .thread (.loop .callFunctor),
    .thread (.loop (.quit 0)), .thread (.loop .endFunctors), .thread (.loop .testQuit), .exit,
    .testLoop, .quitLoop]).2
  revert hused
  decide +kernel

end LoopOwner

end Mymuduo
