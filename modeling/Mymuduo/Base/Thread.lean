import Mymuduo.Base.Mutex

/-!
# `base/Thread` and `base/CountDownLatch`

`Thread::start` and the thread that it creates. The two meet at the latch of the `Thread` object:
the new thread stores its tid and counts down, through pointers into the object, and `start` waits
for the count. Every call of the latch's mutex and condition is a step, as in `base/Mutex`, and the
two threads take theirs in any order. A thread that waits for the condition goes on when it was
notified, or when it wakes up by itself. Once `start` has returned the object may be destroyed at
any time, whether the new thread still runs or not.

* `start_handshake`: the new thread keeps off the object when it is gone, and `start` returns with
  the tid.
-/

namespace Mymuduo

open Transition

/-- The thread that calls `start`, and the new one. -/
inductive Party
  | creator
  | child
  deriving DecidableEq, Repr

/-- Where the creator is with the `Thread`. -/
inductive CreatorPc
  | constructed
  /-- in `latch_.wait()` -/
  | inWait
  /-- `start` has returned -/
  | started
  | joined
  | destroyed
  /-- `pthread_create` has failed -/
  | aborted
  deriving DecidableEq, Repr

/-- Where the new thread is in `runInThread`. -/
inductive ChildPc
  | notCreated
  | begun
  /-- in `countDown`, up to `--count_` -/
  | counting
  /-- in `countDown`, behind `--count_` -/
  | counted
  /-- in `countDown`, behind the notification -/
  | notified
  /-- `countDown` has returned -/
  | released
  /-- in `func_` -/
  | running
  | finished
  deriving DecidableEq, Repr

namespace ChildPc

def hasTid : ChildPc → Bool
  | .notCreated | .begun => false
  | _ => true

def hasCounted : ChildPc → Bool
  | .notCreated | .begun | .counting => false
  | _ => true

/-- The new thread has no pointer into the object any more. -/
def past : ChildPc → Bool
  | .released | .running | .finished => true
  | _ => false

def hasCalled : ChildPc → Bool
  | .running | .finished => true
  | _ => false

theorem hasTid_of_past {child : ChildPc} (h : child.past = true) : child.hasTid = true := by
  cases child with
  | released | running | finished => rfl
  | _ => cases h

theorem hasCounted_of_past {child : ChildPc} (h : child.past = true) :
    child.hasCounted = true := by
  cases child with
  | released | running | finished => rfl
  | _ => cases h

end ChildPc

inductive ThreadEffect
  /-- the new thread gets at the object, which is there or not -/
  | touched (alive : Bool)
  /-- `func_()` -/
  | called
  | detached
  deriving DecidableEq, Repr

structure StartedThread where
  started_ : Bool
  joined_ : Bool
  tid_ : Nat
  /-- the latch, with its `count_` as what the mutex guards -/
  latch_ : Guarded Party Int
  /-- the creator waits for the condition, and was not woken up -/
  asleep : Bool
  alive : Bool
  creator : CreatorPc
  child : ChildPc
  trace : List ThreadEffect

namespace StartedThread

def new : StartedThread where
  started_ := false
  joined_ := false
  tid_ := 0
  latch_ := .new 1
  asleep := false
  alive := true
  creator := .constructed
  child := .notCreated
  trace := []

def emit (s : StartedThread) (e : ThreadEffect) : StartedThread :=
  { s with trace := s.trace ++ [e] }

def touch (s : StartedThread) : StartedThread := s.emit (.touched s.alive)

/-- `start`, up to `latch_.wait()`. -/
def start (s : StartedThread) (created : Bool) : StartedThread :=
  match s.creator with
  | .constructed =>
    if created then { s with started_ := true, creator := .inWait, child := .begun }
    else { s with creator := .aborted }
  | _ => s

/-- `pthread_join` returns when the thread has ended. -/
def join (s : StartedThread) : StartedThread :=
  match s.creator, s.child with
  | .started, .finished => { s with joined_ := true, creator := .joined }
  | _, _ => s

def destroy (s : StartedThread) : StartedThread :=
  match s.creator with
  | .constructed | .started | .joined =>
    let s' := { s with alive := false, creator := .destroyed }
    if s.started_ && !s.joined_ then s'.emit .detached else s'
  | _ => s

variable (tid : Party → Nat)

/-- The next call in `CountDownLatch::wait`. -/
def waitCall (s : StartedThread) : Guarded.Event Party Int :=
  match s.latch_.pcs .creator with
  | .outside | .relocking => .mutexLock .creator
  | .locked | .reacquired => .assignHolder .creator
  | .inside => if 0 < s.latch_.data then .wait .creator else .unlock .creator
  | .toWait => .condWait .creator
  | .waiting => .condReturn .creator
  | .unlocking => .mutexUnlock .creator

/-- The creator goes on in `latch_.wait()`. -/
def wait (s : StartedThread) : StartedThread :=
  match s.creator with
  | .inWait =>
    let s' := { s with latch_ := s.latch_.step tid s.waitCall }
    match s.latch_.pcs .creator with
    | .toWait => { s' with asleep := true }
    | .waiting => if s.asleep then s else s'
    | .unlocking => { s' with creator := .started }
    | _ => s'
  | _ => s

/-- The creator wakes up without a notification. -/
def wakeUp (s : StartedThread) : StartedThread := { s with asleep := false }

/-- The new thread goes on with a call of the latch's mutex. -/
def lockCall (s : StartedThread) (e : Guarded.Event Party Int) (child : ChildPc) : StartedThread :=
  { s with latch_ := s.latch_.step tid e, child := child }.touch

/-- The new thread goes on in `runInThread`. -/
def runInThread (s : StartedThread) : StartedThread :=
  match s.child with
  | .notCreated | .finished => s
  | .begun => { s with tid_ := tid .child, child := .counting }.touch
  | .counting =>
    match s.latch_.pcs .child with
    | .outside => s.lockCall tid (.mutexLock .child) .counting
    | .locked => s.lockCall tid (.assignHolder .child) .counting
    | .inside => s.lockCall tid (.access .child (· - 1)) .counted
    | _ => s
  | .counted => { s with asleep := s.asleep && s.latch_.data ≠ 0, child := .notified }.touch
  | .notified =>
    match s.latch_.pcs .child with
    | .inside => s.lockCall tid (.unlock .child) .notified
    | .unlocking => s.lockCall tid (.mutexUnlock .child) .released
    | _ => s
  | .released => { s with child := .running }.emit .called
  | .running => { s with child := .finished }

inductive Event
  | start (created : Bool)
  | wait
  | wakeUp
  | runInThread
  | join
  | destroy
  deriving DecidableEq, Repr

def step (s : StartedThread) : Event → StartedThread
  | .start created => s.start created
  | .wait => s.wait tid
  | .wakeUp => s.wakeUp
  | .runInThread => s.runInThread tid
  | .join => s.join
  | .destroy => s.destroy

/-! ## What each of the two knows of the other -/

/-- Where the new thread is with the mutex. -/
def ChildLock (child : ChildPc) (pc : LockPc) : Prop :=
  match child with
  | .counting => pc = .outside ∨ pc = .locked ∨ pc = .inside
  | .counted => pc = .inside
  | .notified => pc = .inside ∨ pc = .unlocking
  | _ => pc = .outside

/-- What the creator relies on, by where it is in `latch_.wait()`. -/
def Waits (child : ChildPc) (asleep : Bool) : LockPc → Prop
  | .toWait => child.hasCounted = false
  | .waiting => asleep = true → child.hasCounted = false ∨ child = .counted
  | .unlocking => child.past = true
  | .relocking => False
  | _ => True

def CreatorLock (creator : CreatorPc) (child : ChildPc) (asleep : Bool) (pc : LockPc) : Prop :=
  match creator with
  | .constructed | .aborted => child = .notCreated ∧ pc = .outside
  | .inWait => child ≠ .notCreated ∧ Waits child asleep pc
  | .started => child.past = true ∧ pc = .outside
  | .joined => child = .finished ∧ pc = .outside
  | .destroyed => (child = .notCreated ∨ child.past = true) ∧ pc = .outside

structure Handshake (s : StartedThread) : Prop where
  held : Guarded.Held tid s.latch_
  childLock : ChildLock s.child (s.latch_.pcs .child)
  creatorLock : CreatorLock s.creator s.child s.asleep (s.latch_.pcs .creator)
  count : s.latch_.data = if s.child.hasCounted then 0 else 1
  stored : s.child.hasTid = true → s.tid_ = tid .child
  alive : s.creator ≠ .destroyed → s.alive = true
  touches : ∀ e ∈ s.trace, e ≠ .touched false
  calls : s.trace.count .called = if s.child.hasCalled then 1 else 0

theorem handshake_new : Handshake tid new where
  held := Guarded.held_new tid 1
  childLock := rfl
  creatorLock := ⟨rfl, rfl⟩
  count := rfl
  stored := by simp [new, ChildPc.hasTid]
  alive _ := rfl
  touches := by simp [new]
  calls := rfl

variable {tid} {s : StartedThread}

theorem CreatorLock.advance {creator : CreatorPc} {child child' : ChildPc} {asleep asleep' : Bool}
    {pc : LockPc} (h : CreatorLock creator child asleep pc) (hcreated : child ≠ .notCreated)
    (hcreated' : child' ≠ .notCreated) (hpast : child.past = true → child'.past = true)
    (hfinished : child ≠ .finished) (hwaits : Waits child asleep pc → Waits child' asleep' pc) :
    CreatorLock creator child' asleep' pc := by
  cases creator with
  | constructed | aborted => exact absurd h.1 hcreated
  | inWait => exact ⟨hcreated', hwaits h.2⟩
  | started => exact ⟨hpast h.1, h.2⟩
  | joined => exact absurd h.1 hfinished
  | destroyed => exact ⟨.inr (hpast (h.1.resolve_left hcreated)), h.2⟩

/-- The new thread goes on while the creator is in `latch_.wait()`. -/
theorem Waits.advance {child child' : ChildPc} {asleep asleep' : Bool} {pc : LockPc}
    (h : Waits child asleep pc) (hpast : child.past = true → child'.past = true)
    (htoWait : pc = .toWait → child.hasCounted = false → child'.hasCounted = false)
    (hwaiting : asleep' = true → (asleep = true → child.hasCounted = false ∨ child = .counted) →
      child'.hasCounted = false ∨ child' = .counted) : Waits child' asleep' pc := by
  cases pc with
  | toWait => exact htoWait rfl h
  | waiting => exact fun hasleep => hwaiting hasleep h
  | unlocking => exact hpast h
  | relocking => exact h
  | outside | locked | inside | reacquired => trivial

/-- The new thread is in its dealings with the object, which is there. -/
theorem Handshake.alive_of_busy (h : Handshake tid s) (hcreated : s.child ≠ .notCreated)
    (hbusy : s.child.past = false) : s.alive = true := by
  refine h.alive fun hdestroyed => ?_
  have hcreator := h.creatorLock
  rw [hdestroyed] at hcreator
  have hpast := hcreator.1.resolve_left hcreated
  rw [hbusy] at hpast
  cases hpast

theorem touches_emit (h : ∀ e ∈ s.trace, e ≠ .touched false) {e : ThreadEffect}
    (he : e ≠ .touched false) : ∀ e' ∈ (s.emit e).trace, e' ≠ .touched false := by
  intro e' he'
  rcases List.mem_append.mp he' with he' | he'
  · exact h e' he'
  · rw [List.mem_singleton.mp he']
    exact he

/-! ## The creator goes on -/

theorem waitCall_thread (s : StartedThread) : s.waitCall.thread = .creator := by
  unfold waitCall
  split
  · rfl
  · rfl
  · rfl
  · rfl
  · split <;> rfl
  · rfl
  · rfl
  · rfl

theorem waitCall_write (s : StartedThread) (pc : LockPc) (d : Int) :
    s.waitCall.write pc d = d := by
  unfold waitCall
  split
  · rfl
  · rfl
  · rfl
  · rfl
  · split <;> rfl
  · rfl
  · rfl
  · rfl

/-- Where the creator gets in `latch_.wait()`. -/
theorem pcs_waitCall (tid : Party → Nat) (s : StartedThread) :
    (s.latch_.step tid s.waitCall).pcs .creator =
      s.waitCall.next s.latch_.lock_.mutex_.isNone (s.latch_.pcs .creator) := by
  have hpcs := s.latch_.pcs_step tid s.waitCall
  rwa [waitCall_thread] at hpcs

/-- The creator takes a step with the mutex and comes to a place where its assumptions hold. -/
theorem Handshake.creatorMoves (h : Handshake tid s) {asleep : Bool} {creator : CreatorPc}
    (halive : s.alive = true)
    (hcreator : CreatorLock creator s.child asleep
      ((s.latch_.step tid s.waitCall).pcs .creator)) :
    Handshake tid { s with
      latch_ := s.latch_.step tid s.waitCall, asleep := asleep, creator := creator } := by
  refine ⟨h.held.step _, ?_, hcreator, ?_, h.stored, fun _ => halive, h.touches, h.calls⟩
  · have hpcs : (s.latch_.step tid s.waitCall).pcs .child = s.latch_.pcs .child :=
      s.latch_.pcs_step_of_ne tid (by rw [waitCall_thread]; decide)
    rw [hpcs]
    exact h.childLock
  · rw [Guarded.data_step, waitCall_write]
    exact h.count

/-- With the mutex, the creator sees the count down only when the new thread has left the latch. -/
theorem Handshake.past_of_inside (h : Handshake tid s) (hpc : s.latch_.pcs .creator = .inside)
    (hcount : ¬ 0 < s.latch_.data) : s.child.past = true := by
  have hcounted : s.child.hasCounted = true := by
    by_contra hnot
    rw [h.count, if_neg hnot] at hcount
    exact hcount (by decide)
  have hfree : (s.latch_.pcs .child).holds = false :=
    h.held.others (by rw [hpc]; rfl) _ (by decide)
  have hlock := h.childLock
  cases hchild : s.child with
  | notCreated | begun | counting => rw [hchild] at hcounted; cases hcounted
  | counted =>
    rw [hchild] at hlock
    rw [show s.latch_.pcs .child = .inside from hlock] at hfree
    cases hfree
  | notified =>
    rw [hchild] at hlock
    rcases hlock with hlock | hlock
    · rw [hlock] at hfree
      cases hfree
    · rw [hlock] at hfree
      cases hfree
  | released | running | finished => rfl

theorem Handshake.wait (h : Handshake tid s) : Handshake tid (s.wait tid) := by
  cases hcreator : s.creator with
  | inWait =>
    have hlock := h.creatorLock
    rw [hcreator] at hlock
    obtain ⟨hcreated, hwaits⟩ := hlock
    have halive := h.alive (by rw [hcreator]; decide)
    have hnext := pcs_waitCall tid s
    have hgo (asleep : Bool) (hwaits' : Waits s.child asleep
        ((s.latch_.step tid s.waitCall).pcs .creator)) : Handshake tid
          { s with latch_ := s.latch_.step tid s.waitCall, asleep := asleep, creator := .inWait } :=
      h.creatorMoves halive ⟨hcreated, hwaits'⟩
    unfold StartedThread.wait
    rw [hcreator]
    cases hpc : s.latch_.pcs .creator with
    | outside =>
      refine hgo s.asleep ?_
      rw [hnext, waitCall, hpc, Guarded.Event.next]
      split <;> trivial
    | locked | reacquired =>
      refine hgo s.asleep ?_
      rw [hnext, waitCall, hpc]
      trivial
    | inside =>
      refine hgo s.asleep ?_
      rw [hnext, waitCall, hpc]
      dsimp only
      split
      -- a count that is not 0 was not counted down yet, so the notification is still to come
      · next hcount =>
        change s.child.hasCounted = false
        by_contra hcounted
        rw [h.count, if_pos (by simpa using hcounted)] at hcount
        exact absurd hcount (by decide)
      · next hcount => exact h.past_of_inside hpc hcount
    | relocking =>
      rw [hpc] at hwaits
      exact hwaits.elim
    | toWait =>
      rw [hpc] at hwaits
      refine hgo true ?_
      rw [hnext, waitCall, hpc]
      exact fun _ => .inl hwaits
    | waiting =>
      rw [hpc] at hwaits
      dsimp only
      split
      · exact h
      · refine hgo s.asleep ?_
        rw [hnext, waitCall, hpc, Guarded.Event.next]
        split
        · trivial
        · exact hwaits
    | unlocking =>
      rw [hpc] at hwaits
      refine h.creatorMoves halive ⟨hwaits, ?_⟩
      rw [hnext, waitCall, hpc]
      rfl
  | constructed | started | joined | destroyed | aborted =>
    unfold StartedThread.wait
    rw [hcreator]
    exact h

theorem Handshake.wakeUp (h : Handshake tid s) : Handshake tid s.wakeUp := by
  have hwaits {child : ChildPc} {pc : LockPc} (hwas : Waits child s.asleep pc) :
      Waits child false pc := by
    cases pc with
    | waiting => exact nofun
    | _ => exact hwas
  refine ⟨h.held, h.childLock, ?_, h.count, h.stored, h.alive, h.touches, h.calls⟩
  have hlock := h.creatorLock
  change CreatorLock s.creator s.child false (s.latch_.pcs .creator)
  cases hcreator : s.creator with
  | inWait =>
    rw [hcreator] at hlock
    exact ⟨hlock.1, hwaits hlock.2⟩
  | _ =>
    rw [hcreator] at hlock
    exact hlock

/-! ## The new thread goes on -/

/-- The new thread takes a step in its dealings with the object. -/
theorem Handshake.childTouches (h : Handshake tid s) (hcreated : s.child ≠ .notCreated)
    (hbusy : s.child.past = false) (latch : Guarded Party Int) (child : ChildPc) (asleep : Bool)
    (hcreated' : child.hasTid = true) (hcalled : child.hasCalled = false)
    (hheld : Guarded.Held tid latch) (hpcs : latch.pcs .creator = s.latch_.pcs .creator)
    (hlock : ChildLock child (latch.pcs .child))
    (hcount : latch.data = if child.hasCounted then 0 else 1)
    (hwaits : Waits s.child s.asleep (s.latch_.pcs .creator) →
      Waits child asleep (s.latch_.pcs .creator)) :
    Handshake tid { s with
      latch_ := latch, tid_ := tid .child, child := child, asleep := asleep }.touch := by
  have halive := h.alive_of_busy hcreated hbusy
  have hnever : s.child.hasCalled = false := by
    cases hchild : s.child with
    | running | finished => rw [hchild] at hbusy; cases hbusy
    | _ => rfl
  refine ⟨hheld, hlock, ?_, hcount, fun _ => rfl, h.alive, ?_, ?_⟩
  · change CreatorLock s.creator child asleep (latch.pcs .creator)
    rw [hpcs]
    refine h.creatorLock.advance hcreated ?_ ?_ ?_ hwaits
    · rintro rfl
      cases hcreated'
    · intro hpast
      rw [hbusy] at hpast
      cases hpast
    · intro hfinished
      rw [hfinished] at hbusy
      cases hbusy
  · refine touches_emit h.touches ?_
    change ThreadEffect.touched s.alive ≠ _
    rw [halive]
    decide
  · change (s.trace ++ [ThreadEffect.touched s.alive]).count ThreadEffect.called = _
    rw [List.count_append, h.calls, hnever]
    change _ = if child.hasCalled then 1 else 0
    rw [hcalled]
    rfl

theorem Handshake.lockCall (h : Handshake tid s) (e : Guarded.Event Party Int) (child : ChildPc)
    (hcreated : s.child.hasTid = true) (hbusy : s.child.past = false)
    (hcreated' : child.hasTid = true) (hcalled : child.hasCalled = false) (he : e.thread = .child)
    (hlock : ChildLock child (e.next s.latch_.lock_.mutex_.isNone (s.latch_.pcs .child)))
    (hcount : e.write (s.latch_.pcs .child) s.latch_.data = if child.hasCounted then 0 else 1)
    (hwaits : Waits s.child s.asleep (s.latch_.pcs .creator) →
      Waits child s.asleep (s.latch_.pcs .creator)) :
    Handshake tid (s.lockCall tid e child) := by
  have hpcs : (s.latch_.step tid e).pcs .creator = s.latch_.pcs .creator :=
    s.latch_.pcs_step_of_ne tid (by rw [he]; decide)
  have hown := s.latch_.pcs_step tid e
  have hdata := s.latch_.data_step tid e
  rw [he] at hown hdata
  have hcreated'' : s.child ≠ .notCreated := fun heq => by
    rw [heq] at hcreated
    cases hcreated
  have hmoves := h.childTouches hcreated'' hbusy (s.latch_.step tid e) child s.asleep hcreated'
    hcalled (h.held.step e) hpcs (by rw [hown]; exact hlock) (by rw [hdata]; exact hcount) hwaits
  rw [← h.stored hcreated] at hmoves
  exact hmoves

/-- The new thread goes on away from the object. -/
theorem Handshake.childLeaves (h : Handshake tid s) (hpast : s.child.past = true)
    (hfinished : s.child ≠ .finished) {child : ChildPc} (hpast' : child.past = true)
    {trace : List ThreadEffect} (htouches : ∀ e ∈ trace, e ≠ .touched false)
    (hcalls : trace.count .called = if child.hasCalled then 1 else 0) :
    Handshake tid { s with child := child, trace := trace } := by
  have hlock := h.childLock
  have hcount := h.count
  have hstored := h.stored
  cases hchild : s.child with
  | released | running =>
    rw [hchild] at hlock hcount hstored
    refine ⟨h.held, ?_, h.creatorLock.advance ?_ ?_ (fun _ => hpast') hfinished ?_, ?_,
      fun _ => hstored rfl, h.alive, htouches, hcalls⟩
    · cases child with
      | released | running | finished => exact hlock
      | _ => cases hpast'
    · rw [hchild]
      decide
    · rintro rfl
      cases hpast'
    · intro hwaits
      rw [hchild] at hwaits
      refine hwaits.advance (fun _ => hpast') (fun _ hnot => by cases hnot) fun hasleep hwas => ?_
      rcases hwas hasleep with hnot | hnot
      · cases hnot
      · cases hnot
    · cases child with
      | released | running | finished => exact hcount
      | _ => cases hpast'
  | finished => exact absurd hchild hfinished
  | _ => rw [hchild] at hpast; cases hpast

theorem Handshake.runInThread (h : Handshake tid s) : Handshake tid (s.runInThread tid) := by
  have hlock := h.childLock
  have hcount := h.count
  have hcalls := h.calls
  unfold StartedThread.runInThread
  cases hchild : s.child with
  | notCreated | finished => exact h
  | begun =>
    rw [hchild] at hlock hcount
    refine h.childTouches (by rw [hchild]; decide) (by rw [hchild]; rfl) s.latch_ .counting s.asleep
      rfl rfl h.held rfl (.inl hlock) hcount fun hwaits => ?_
    rw [hchild] at hwaits
    exact hwaits.advance (fun hpast => by cases hpast) (fun _ _ => rfl) fun _ _ => .inl rfl
  | counting =>
    rw [hchild] at hlock hcount
    have hgo (e : Guarded.Event Party Int) (child : ChildPc) := h.lockCall e child
      (by rw [hchild]; rfl) (by rw [hchild]; rfl)
    have hstay (hwaits : Waits s.child s.asleep (s.latch_.pcs .creator)) :
        Waits .counting s.asleep (s.latch_.pcs .creator) := hchild ▸ hwaits
    rcases hlock with hpc | hpc | hpc
    · rw [hpc]
      refine hgo _ .counting rfl rfl rfl ?_ (by rw [hpc]; exact hcount) hstay
      rw [hpc, Guarded.Event.next]
      split
      · exact .inr (.inl rfl)
      · exact .inl rfl
    · rw [hpc]
      exact hgo _ .counting rfl rfl rfl (by rw [hpc]; exact .inr (.inr rfl))
        (by rw [hpc]; exact hcount) hstay
    · rw [hpc]
      refine hgo _ .counted rfl rfl rfl (by rw [hpc]; rfl) ?_ fun hwaits => ?_
      · rw [hpc]
        change s.latch_.data - 1 = 0
        rw [hcount]
        rfl
      · refine (hstay hwaits).advance (fun hpast => by cases hpast) (fun hto => ?_)
          fun _ _ => .inr rfl
        -- the creator has the mutex between its test and `pthread_cond_wait`
        have hfree := h.held.others (t := .child) (by rw [hpc]; rfl) .creator (by decide)
        rw [hto] at hfree
        cases hfree
  | counted =>
    rw [hchild] at hlock hcount
    -- the count is 0, and whoever waits for it is woken up
    have htold := h.childTouches (by rw [hchild]; decide) (by rw [hchild]; rfl) s.latch_ .notified
      (s.asleep && s.latch_.data ≠ 0) rfl rfl h.held rfl (.inl hlock) hcount fun hwaits => ?_
    · rw [← h.stored (by rw [hchild]; rfl)] at htold
      exact htold
    rw [hchild] at hwaits
    refine hwaits.advance (fun hpast => by cases hpast) (fun _ hnot => by cases hnot)
      fun hasleep _ => ?_
    rw [hcount] at hasleep
    simp only [Bool.and_eq_true, decide_eq_true_eq] at hasleep
    exact absurd rfl hasleep.2
  | notified =>
    rw [hchild] at hlock hcount
    have hgo (e : Guarded.Event Party Int) (child : ChildPc) := h.lockCall e child
      (by rw [hchild]; rfl) (by rw [hchild]; rfl)
    have hstay {child : ChildPc} (hwaits : Waits s.child s.asleep (s.latch_.pcs .creator)) :
        Waits child s.asleep (s.latch_.pcs .creator) := by
      rw [hchild] at hwaits
      refine hwaits.advance (fun hpast => by cases hpast) (fun _ hnot => by cases hnot)
        fun hasleep hwas => ?_
      rcases hwas hasleep with hnot | hnot
      · cases hnot
      · cases hnot
    rcases hlock with hpc | hpc
    · rw [hpc]
      exact hgo _ .notified rfl rfl rfl (by rw [hpc]; exact .inr rfl) (by rw [hpc]; exact hcount)
        hstay
    · rw [hpc]
      exact hgo _ .released rfl rfl rfl (by rw [hpc]; rfl) (by rw [hpc]; exact hcount) hstay
  | released =>
    rw [hchild] at hcalls
    refine h.childLeaves (by rw [hchild]; rfl) (by rw [hchild]; decide) rfl
      (touches_emit h.touches (by decide)) ?_
    rw [List.count_append, hcalls]
    rfl
  | running =>
    rw [hchild] at hcalls
    exact h.childLeaves (by rw [hchild]; rfl) (by rw [hchild]; decide) rfl h.touches hcalls

/-! ## Every run -/

theorem Handshake.start (h : Handshake tid s) (created : Bool) :
    Handshake tid (s.start created) := by
  unfold StartedThread.start
  split
  · next hcreator =>
    have hlock := h.creatorLock
    rw [hcreator] at hlock
    obtain ⟨hchild, hpc⟩ := hlock
    have hchildLock := h.childLock
    have hcount := h.count
    have hcalls := h.calls
    rw [hchild] at hchildLock hcount hcalls
    have halive : s.alive = true := h.alive (by rw [hcreator]; decide)
    split
    · refine ⟨h.held, hchildLock, ⟨by simp, ?_⟩, hcount, (fun hnot => by cases hnot),
        fun _ => halive, h.touches, hcalls⟩
      rw [hpc]
      trivial
    · exact ⟨h.held, h.childLock, ⟨hchild, hpc⟩, h.count, h.stored, fun _ => halive, h.touches,
        h.calls⟩
  · exact h

theorem Handshake.join (h : Handshake tid s) : Handshake tid s.join := by
  unfold StartedThread.join
  split
  · next hcreator hchild =>
    have hlock := h.creatorLock
    rw [hcreator] at hlock
    exact ⟨h.held, h.childLock, ⟨hchild, hlock.2⟩, h.count, h.stored,
      fun _ => h.alive (by rw [hcreator]; decide), h.touches, h.calls⟩
  · exact h

theorem Handshake.goes (h : Handshake tid s)
    (hgone : CreatorLock .destroyed s.child s.asleep (s.latch_.pcs .creator)) :
    Handshake tid { s with alive := false, creator := .destroyed } :=
  ⟨h.held, h.childLock, hgone, h.count, h.stored, fun hnot => absurd rfl hnot, h.touches, h.calls⟩

theorem Handshake.detached (h : Handshake tid s) : Handshake tid (s.emit .detached) := by
  refine ⟨h.held, h.childLock, h.creatorLock, h.count, h.stored, h.alive,
    touches_emit h.touches (by decide), ?_⟩
  change (s.trace ++ [ThreadEffect.detached]).count ThreadEffect.called = _
  rw [List.count_append]
  exact h.calls

theorem Handshake.destroy (h : Handshake tid s) : Handshake tid s.destroy := by
  have hlock := h.creatorLock
  have hgone : s.creator = .constructed ∨ s.creator = .started ∨ s.creator = .joined →
      CreatorLock .destroyed s.child s.asleep (s.latch_.pcs .creator) := by
    rintro (hcreator | hcreator | hcreator)
    · rw [hcreator] at hlock
      exact ⟨.inl hlock.1, hlock.2⟩
    · rw [hcreator] at hlock
      exact ⟨.inr hlock.1, hlock.2⟩
    · rw [hcreator] at hlock
      exact ⟨.inr (by rw [hlock.1]; rfl), hlock.2⟩
  have hends : s.creator = .constructed ∨ s.creator = .started ∨ s.creator = .joined →
      Handshake tid (if s.started_ && !s.joined_ then
        StartedThread.emit { s with alive := false, creator := .destroyed } .detached
        else { s with alive := false, creator := .destroyed }) := fun hcreator => by
    split
    · exact (h.goes (hgone hcreator)).detached
    · exact h.goes (hgone hcreator)
  unfold StartedThread.destroy
  split
  · next hcreator => exact hends (.inl hcreator)
  · next hcreator => exact hends (.inr (.inl hcreator))
  · next hcreator => exact hends (.inr (.inr hcreator))
  · exact h

theorem Handshake.step (h : Handshake tid s) (e : Event) : Handshake tid (s.step tid e) := by
  cases e with
  | start created => exact h.start created
  | wait => exact h.wait
  | wakeUp => exact h.wakeUp
  | runInThread => exact h.runInThread
  | join => exact h.join
  | destroy => exact h.destroy

/-- How far the creator is from the end of `latch_.wait()` once the count is down. -/
def toGo : LockPc → Nat
  | .outside | .waiting => 4
  | .locked | .reacquired => 3
  | .inside => 2
  | .unlocking => 1
  | .toWait | .relocking => 0

/-- The new thread being past the latch, the creator was notified if it waited. -/
theorem Handshake.awake (h : Handshake tid s) (hpast : s.child.past = true)
    (hcreator : s.creator = .inWait) (hpc : s.latch_.pcs .creator = .waiting) :
    s.asleep = false := by
  have hlock := h.creatorLock
  rw [hcreator] at hlock
  have hwaits := hlock.2
  rw [hpc] at hwaits
  by_contra hasleep
  rcases hwaits (by simpa using hasleep) with hnot | hcounted
  · rw [ChildPc.hasCounted_of_past hpast] at hnot
    cases hnot
  · rw [hcounted] at hpast
    cases hpast

/-- The new thread being past the latch, the creator comes closer to its return. -/
theorem Handshake.closer (h : Handshake tid s) (hpast : s.child.past = true)
    (hcreator : s.creator = .inWait) :
    (s.wait tid).child = s.child ∧ 0 < toGo (s.latch_.pcs .creator) ∧
      ((s.wait tid).creator = .started ∨ (s.wait tid).creator = .inWait ∧
        toGo ((s.wait tid).latch_.pcs .creator) < toGo (s.latch_.pcs .creator)) := by
  have hlock := h.creatorLock
  rw [hcreator] at hlock
  have hwaits := hlock.2
  have hcounted := ChildPc.hasCounted_of_past hpast
  have hdata : s.latch_.data = 0 := by rw [h.count, if_pos hcounted]
  have hnext := pcs_waitCall tid s
  -- past the latch the new thread has no mutex, so the creator gets it at the first try
  have hfree (hout : (s.latch_.pcs .creator).holds = false) :
      s.latch_.lock_.mutex_.isNone = true := by
    rw [Option.isNone_iff_eq_none, Option.eq_none_iff_forall_ne_some]
    intro t howner
    have hholds := (h.held.owner t).mpr howner
    cases t with
    | creator =>
      rw [hout] at hholds
      cases hholds
    | child =>
      have hchildLock := h.childLock
      cases hchild : s.child with
      | released | running | finished =>
        rw [hchild] at hchildLock
        rw [show s.latch_.pcs .child = .outside from hchildLock] at hholds
        cases hholds
      | _ => rw [hchild] at hpast; cases hpast
  unfold StartedThread.wait
  rw [hcreator]
  cases hpc : s.latch_.pcs .creator with
  | outside =>
    refine ⟨rfl, (by decide : 0 < 4), .inr ⟨rfl, ?_⟩⟩
    dsimp only
    rw [hnext, hfree (by rw [hpc]; rfl), waitCall, hpc]
    exact (by decide : 3 < 4)
  | waiting =>
    -- the notification was there before, and no other will come
    have hawake : ¬ s.asleep = true := by
      rw [h.awake hpast hcreator hpc]
      exact Bool.false_ne_true
    dsimp only
    rw [if_neg hawake]
    refine ⟨rfl, (by decide : 0 < 4), .inr ⟨rfl, ?_⟩⟩
    dsimp only
    rw [hnext, hfree (by rw [hpc]; rfl), waitCall, hpc]
    exact (by decide : 3 < 4)
  | locked | reacquired =>
    refine ⟨rfl, (by decide : 0 < 3), .inr ⟨rfl, ?_⟩⟩
    dsimp only
    rw [hnext, waitCall, hpc]
    exact (by decide : 2 < 3)
  | inside =>
    refine ⟨rfl, (by decide : 0 < 2), .inr ⟨rfl, ?_⟩⟩
    dsimp only
    rw [hnext, waitCall, hpc, hdata]
    exact (by decide : 1 < 2)
  | unlocking => exact ⟨rfl, (by decide : 0 < 1), .inl rfl⟩
  | toWait =>
    rw [hpc] at hwaits
    cases hcounted.symm.trans hwaits
  | relocking =>
    rw [hpc] at hwaits
    exact hwaits.elim

theorem Handshake.returns (h : Handshake tid s) (hpast : s.child.past = true) {n : Nat}
    (hn : s.creator = .started ∨ s.creator = .inWait ∧ toGo (s.latch_.pcs .creator) ≤ n) :
    (run (StartedThread.step tid) s (List.replicate n .wait)).creator = .started := by
  induction n generalizing s with
  | zero =>
    refine hn.elim id fun ⟨hcreator, hle⟩ => ?_
    obtain ⟨-, hpos, -⟩ := h.closer hpast hcreator
    exact absurd hpos (Nat.not_lt.mpr hle)
  | succ n ih =>
    rw [List.replicate_succ, run_cons]
    rcases hn with hcreator | ⟨hcreator, hle⟩
    · have hsame : s.step tid .wait = s := by
        rw [StartedThread.step, StartedThread.wait, hcreator]
      rw [hsame]
      exact ih h hpast (.inl hcreator)
    · obtain ⟨hchild, -, hnext⟩ := h.closer hpast hcreator
      refine ih h.wait (hchild.symm ▸ hpast) (hnext.imp_right fun ⟨hcreator', hlt⟩ => ?_)
      exact ⟨hcreator', Nat.le_of_lt_succ (Nat.lt_of_lt_of_le hlt hle)⟩

theorem toGo_le (pc : LockPc) : toGo pc ≤ 4 := by
  cases pc <;> decide

/-- In every interleaving of the creator and the new thread, with waits that end notified or not
and the object destroyed at any time after `start`: the new thread never gets at the object when it
is gone; when `start` has returned, `tid_` is the new thread's and that is past the latch; `join`
returns when it has ended; `func_` is called once at most, behind the store of `tid_`; and once the
new thread is past the latch, the creator does not wait for a notification any more, and `start`
returns after four more calls at most, none of which wakes up by itself. -/
theorem start_handshake (tid : Party → Nat) (es : List Event) :
    let s := run (step tid) new es
    (∀ e ∈ s.trace, e ≠ .touched false) ∧
      (s.creator = .started ∨ s.creator = .joined →
        s.tid_ = tid .child ∧ s.child.past = true) ∧
      (s.creator = .joined → s.child = .finished) ∧
      s.trace.count .called ≤ 1 ∧ (.called ∈ s.trace → s.tid_ = tid .child) ∧
      (s.creator = .inWait → s.child.past = true →
        (s.latch_.pcs .creator = .waiting → s.asleep = false) ∧
          (run (step tid) s [.wait, .wait, .wait, .wait]).creator = .started) := by
  intro s
  have h : Handshake tid s := run_preserves (fun _ e h => h.step e) es (handshake_new tid)
  have hlock := h.creatorLock
  refine ⟨h.touches, ?_, fun hjoined => ?_, ?_, fun hcalled => ?_, fun hcreator hpast => ?_⟩
  · have hstored : s.child.past = true → s.tid_ = tid .child ∧ s.child.past = true :=
      fun hpast => ⟨h.stored (ChildPc.hasTid_of_past hpast), hpast⟩
    rintro (hstarted | hjoined)
    · rw [hstarted] at hlock
      exact hstored hlock.1
    · rw [hjoined] at hlock
      exact hstored (by rw [hlock.1]; rfl)
  · rw [hjoined] at hlock
    exact hlock.1
  · rw [h.calls]
    split <;> decide
  · have hpos := List.count_pos_iff.mpr hcalled
    rw [h.calls] at hpos
    refine h.stored ?_
    cases hchild : s.child with
    | notCreated | begun => rw [hchild] at hpos; cases hpos
    | _ => rfl
  · exact ⟨h.awake hpast hcreator, h.returns (n := 4) hpast (.inr ⟨hcreator, toGo_le _⟩)⟩

end StartedThread

end Mymuduo
