import Mathlib.Logic.Function.Basic
import Mymuduo.Lib.Transition

/-!
# `base/Mutex` and `base/Condition`

The `MutexLock` with its `holder_`, and the `Condition` that belongs to it, call by call:
`pthread_mutex_lock` and `assignHolder` are two steps, and so are `unassignHolder` and
`pthread_mutex_unlock`; `Condition::wait` gives the mutex up and has it again in between, its
`UnassignGuard` before and after. The threads get the mutex in any order, and `pthread_cond_wait`
returns notified or not. `data` is what the mutex guards, and a thread gets to it between its
`MutexLockGuard` and the end of that, except while it waits.

* `holder_tells`: `isLockedByThisThread` is true to the thread in its section and to no other.
* `sections_serial`: the guarded data is what the sections make of it one after the other.
-/

namespace Mymuduo

open Transition

variable {τ δ : Type*}

/-- Where a thread is with the mutex. -/
inductive LockPc
  | outside
  /-- in `lock`: `pthread_mutex_lock` has returned -/
  | locked
  | inside
  /-- in `lock` of a mutex that it has locked: it never gets on -/
  | relocking
  /-- in `unlock`: `unassignHolder` has returned -/
  | unlocking
  /-- in `wait`: the `UnassignGuard` is there -/
  | toWait
  /-- in `pthread_cond_wait` -/
  | waiting
  /-- in `wait`: `pthread_cond_wait` has returned -/
  | reacquired
  deriving DecidableEq, Repr

namespace LockPc

/-- The thread has the `pthread_mutex_t`. -/
def holds : LockPc → Bool
  | .locked | .inside | .relocking | .unlocking | .toWait | .reacquired => true
  | .outside | .waiting => false

/-- The thread is between `assignHolder` and `unassignHolder`. -/
def assigned : LockPc → Bool
  | .inside | .relocking => true
  | _ => false

theorem holds_of_assigned {pc : LockPc} (h : pc.assigned = true) : pc.holds = true := by
  cases pc with
  | inside | relocking => rfl
  | _ => cases h

end LockPc

structure MutexLock (τ : Type*) where
  /-- the thread that has the `pthread_mutex_t` -/
  mutex_ : Option τ
  holder_ : Nat

def MutexLock.new : MutexLock τ where
  mutex_ := none
  holder_ := 0

inductive LockEffect (τ δ : Type*)
  | entered (t : τ)
  | accessed (t : τ) (f : δ → δ)
  | left (t : τ)

/-- A mutex and what it guards. -/
structure Guarded (τ δ : Type*) where
  lock_ : MutexLock τ
  pcs : τ → LockPc
  data : δ
  trace : List (LockEffect τ δ)

namespace Guarded

def new (d : δ) : Guarded τ δ where
  lock_ := .new
  pcs := fun _ => .outside
  data := d
  trace := []

def emit (s : Guarded τ δ) (e : LockEffect τ δ) : Guarded τ δ :=
  { s with trace := s.trace ++ [e] }

/-- Thread `t` goes to `pc`, with the mutex and `holder_` as given. -/
def move [DecidableEq τ] (s : Guarded τ δ) (t : τ) (pc : LockPc) (lock : MutexLock τ) :
    Guarded τ δ :=
  { s with lock_ := lock, pcs := Function.update s.pcs t pc }

theorem move_pcs_self [DecidableEq τ] (s : Guarded τ δ) (t : τ) (pc : LockPc)
    (lock : MutexLock τ) : (s.move t pc lock).pcs t = pc := Function.update_self ..

theorem move_pcs_of_ne [DecidableEq τ] (s : Guarded τ δ) {t t' : τ} (hne : t' ≠ t) (pc : LockPc)
    (lock : MutexLock τ) : (s.move t pc lock).pcs t' = s.pcs t' := Function.update_of_ne hne ..

section Calls

variable [DecidableEq τ] (tid : τ → Nat)

/-- What `CurrentThread::tid()` gives to `t` is compared with `holder_`. -/
def isLockedByThisThread (s : Guarded τ δ) (t : τ) : Bool := s.lock_.holder_ = tid t

/-- `pthread_mutex_lock` of a `PTHREAD_MUTEX_NORMAL` -/
def mutexLock (s : Guarded τ δ) (t : τ) : Guarded τ δ :=
  match s.pcs t, s.lock_.mutex_ with
  | .outside, none => s.move t .locked { s.lock_ with mutex_ := some t }
  | .inside, _ => s.move t .relocking s.lock_
  | _, _ => s

/-- `assignHolder`, in `lock` or in the destructor of `UnassignGuard` -/
def assignHolder (s : Guarded τ δ) (t : τ) : Guarded τ δ :=
  match s.pcs t with
  | .locked | .reacquired =>
    (s.move t .inside { s.lock_ with holder_ := tid t }).emit (.entered t)
  | _ => s

/-- The thread reads or writes the guarded data. -/
def access (s : Guarded τ δ) (t : τ) (f : δ → δ) : Guarded τ δ :=
  match s.pcs t with
  | .inside => { s with data := f s.data }.emit (.accessed t f)
  | _ => s

/-- `unassignHolder`, in `unlock` or, for `pc = .toWait`, in the constructor of `UnassignGuard` -/
def unassignHolder (s : Guarded τ δ) (t : τ) (pc : LockPc) : Guarded τ δ :=
  match s.pcs t with
  | .inside => (s.move t pc { s.lock_ with holder_ := 0 }).emit (.left t)
  | _ => s

def unlock (s : Guarded τ δ) (t : τ) : Guarded τ δ := s.unassignHolder t .unlocking

def mutexUnlock (s : Guarded τ δ) (t : τ) : Guarded τ δ :=
  match s.pcs t with
  | .unlocking => s.move t .outside { s.lock_ with mutex_ := none }
  | _ => s

/-- `Condition::wait`, its `UnassignGuard` -/
def wait (s : Guarded τ δ) (t : τ) : Guarded τ δ := s.unassignHolder t .toWait

def condWait (s : Guarded τ δ) (t : τ) : Guarded τ δ :=
  match s.pcs t with
  | .toWait => s.move t .waiting { s.lock_ with mutex_ := none }
  | _ => s

/-- `pthread_cond_wait` returns, notified or not. -/
def condReturn (s : Guarded τ δ) (t : τ) : Guarded τ δ :=
  match s.pcs t, s.lock_.mutex_ with
  | .waiting, none => s.move t .reacquired { s.lock_ with mutex_ := some t }
  | _, _ => s

inductive Event (τ δ : Type*)
  | mutexLock (t : τ)
  | assignHolder (t : τ)
  | access (t : τ) (f : δ → δ)
  | unlock (t : τ)
  | mutexUnlock (t : τ)
  | wait (t : τ)
  | condWait (t : τ)
  | condReturn (t : τ)

def step (s : Guarded τ δ) : Event τ δ → Guarded τ δ
  | .mutexLock t => s.mutexLock t
  | .assignHolder t => s.assignHolder tid t
  | .access t f => s.access t f
  | .unlock t => s.unlock t
  | .mutexUnlock t => s.mutexUnlock t
  | .wait t => s.wait t
  | .condWait t => s.condWait t
  | .condReturn t => s.condReturn t

/-- The thread that takes the step. -/
def Event.thread : Event τ δ → τ
  | .mutexLock t | .assignHolder t | .access t _ | .unlock t | .mutexUnlock t | .wait t
  | .condWait t | .condReturn t => t

/-! ## What a step does to a thread -/

/-- Where a thread gets with a call, the mutex being free or not. -/
def Event.next (free : Bool) : Event τ δ → LockPc → LockPc
  | .mutexLock _, .outside => if free then .locked else .outside
  | .mutexLock _, .inside => .relocking
  | .assignHolder _, .locked | .assignHolder _, .reacquired => .inside
  | .unlock _, .inside => .unlocking
  | .mutexUnlock _, .unlocking => .outside
  | .wait _, .inside => .toWait
  | .condWait _, .toWait => .waiting
  | .condReturn _, .waiting => if free then .reacquired else .waiting
  | _, pc => pc

theorem pcs_step (s : Guarded τ δ) (e : Event τ δ) :
    (s.step tid e).pcs e.thread = e.next s.lock_.mutex_.isNone (s.pcs e.thread) := by
  cases e with
  | mutexLock t =>
    rw [step, mutexLock, Event.thread]
    cases hpc : s.pcs t <;> cases hfree : s.lock_.mutex_ <;>
      simp [Event.next, hpc, move_pcs_self]
  | assignHolder t =>
    rw [step, assignHolder, Event.thread]
    cases hpc : s.pcs t <;> simp [Event.next, hpc, emit, move_pcs_self]
  | access t f =>
    rw [step, access, Event.thread]
    cases hpc : s.pcs t <;> simp [Event.next, hpc, emit]
  | unlock t =>
    rw [step, unlock, unassignHolder, Event.thread]
    cases hpc : s.pcs t <;> simp [Event.next, hpc, emit, move_pcs_self]
  | mutexUnlock t =>
    rw [step, mutexUnlock, Event.thread]
    cases hpc : s.pcs t <;> simp [Event.next, hpc, move_pcs_self]
  | wait t =>
    rw [step, wait, unassignHolder, Event.thread]
    cases hpc : s.pcs t <;> simp [Event.next, hpc, emit, move_pcs_self]
  | condWait t =>
    rw [step, condWait, Event.thread]
    cases hpc : s.pcs t <;> simp [Event.next, hpc, move_pcs_self]
  | condReturn t =>
    rw [step, condReturn, Event.thread]
    cases hpc : s.pcs t <;> cases hfree : s.lock_.mutex_ <;>
      simp [Event.next, hpc, move_pcs_self]

/-- What a call writes into the guarded data. -/
def Event.write : Event τ δ → LockPc → δ → δ
  | .access _ f, .inside, d => f d
  | _, _, d => d

theorem data_step (s : Guarded τ δ) (e : Event τ δ) :
    (s.step tid e).data = e.write (s.pcs e.thread) s.data := by
  cases e with
  | mutexLock t | assignHolder t | mutexUnlock t | condWait t | condReturn t =>
    simp only [step, mutexLock, assignHolder, mutexUnlock, condWait, condReturn]
    split <;> rfl
  | access t f =>
    rw [step, access, Event.thread]
    cases hpc : s.pcs t <;> rfl
  | unlock t | wait t =>
    simp only [step, unlock, wait, unassignHolder]
    split <;> rfl

theorem pcs_unassignHolder_of_ne (s : Guarded τ δ) {t t' : τ} (hne : t' ≠ t) (pc : LockPc) :
    (s.unassignHolder t pc).pcs t' = s.pcs t' := by
  unfold unassignHolder
  split
  · exact Function.update_of_ne hne ..
  · rfl

theorem pcs_step_of_ne (s : Guarded τ δ) {e : Event τ δ} {t : τ} (hne : t ≠ e.thread) :
    (s.step tid e).pcs t = s.pcs t := by
  cases e with
  | mutexLock t' =>
    rw [step, mutexLock]
    split
    · exact Function.update_of_ne hne ..
    · exact Function.update_of_ne hne ..
    · rfl
  | assignHolder t' =>
    rw [step, assignHolder]
    split
    · exact Function.update_of_ne hne ..
    · exact Function.update_of_ne hne ..
    · rfl
  | access t' f =>
    rw [step, access]
    split <;> rfl
  | unlock t' => exact s.pcs_unassignHolder_of_ne hne _
  | mutexUnlock t' =>
    rw [step, mutexUnlock]
    split
    · exact Function.update_of_ne hne ..
    · rfl
  | wait t' => exact s.pcs_unassignHolder_of_ne hne _
  | condWait t' =>
    rw [step, condWait]
    split
    · exact Function.update_of_ne hne ..
    · rfl
  | condReturn t' =>
    rw [step, condReturn]
    split
    · exact Function.update_of_ne hne ..
    · rfl

end Calls

/-! ## Who has the mutex -/

/-- The mutex is with the thread that holds it, and `holder_` tells whether that is in its
section. -/
structure Held (tid : τ → Nat) (s : Guarded τ δ) : Prop where
  owner : ∀ t, (s.pcs t).holds = true ↔ s.lock_.mutex_ = some t
  holder : ∀ t, (s.pcs t).holds = true →
    s.lock_.holder_ = if (s.pcs t).assigned then tid t else 0
  free : s.lock_.mutex_ = none → s.lock_.holder_ = 0

variable {tid : τ → Nat} {s : Guarded τ δ}

theorem held_new (tid : τ → Nat) (d : δ) : Held tid (new d) where
  owner _ := ⟨nofun, nofun⟩
  holder _ := nofun
  free _ := rfl

theorem Held.unique (h : Held tid s) {t t' : τ} (ht : (s.pcs t).holds = true)
    (ht' : (s.pcs t').holds = true) : t = t' :=
  Option.some.inj (((h.owner t).mp ht).symm.trans ((h.owner t').mp ht'))

theorem Held.of_same {s' : Guarded τ δ} (h : Held tid s) (hlock : s'.lock_ = s.lock_)
    (hpcs : s'.pcs = s.pcs) : Held tid s' := by
  constructor
  · rw [hlock, hpcs]
    exact h.owner
  · rw [hlock, hpcs]
    exact h.holder
  · rw [hlock]
    exact h.free

theorem Held.emit (h : Held tid s) (e : LockEffect τ δ) : Held tid (s.emit e) :=
  h.of_same rfl rfl

theorem Held.others (h : Held tid s) {t : τ} (ht : (s.pcs t).holds = true) (t' : τ)
    (hne : t' ≠ t) : (s.pcs t').holds = false :=
  Bool.eq_false_iff.mpr fun ht' => hne (h.unique ht' ht)

theorem Held.nobody (h : Held tid s) (hfree : s.lock_.mutex_ = none) (t : τ) :
    (s.pcs t).holds = false :=
  Bool.eq_false_iff.mpr fun ht => by
    have howner := (h.owner t).mp ht
    rw [hfree] at howner
    cases howner

variable [DecidableEq τ]

/-- A thread moves while no other thread has the mutex. -/
theorem held_move {t : τ} {pc : LockPc} {lock : MutexLock τ}
    (hothers : ∀ t', t' ≠ t → (s.pcs t').holds = false)
    (howner : lock.mutex_ = if pc.holds then some t else none)
    (hholder : lock.holder_ = if pc.assigned then tid t else 0) :
    Held tid (s.move t pc lock) := by
  have hself := s.move_pcs_self t pc lock
  have hother : ∀ t', t' ≠ t → ((s.move t pc lock).pcs t').holds = false := fun t' hne => by
    rw [s.move_pcs_of_ne hne]
    exact hothers t' hne
  refine ⟨fun t' => ?_, fun t' ht' => ?_, fun hfree => ?_⟩
  · change _ ↔ lock.mutex_ = some t'
    rw [howner]
    by_cases hne : t' = t
    · rw [hne, hself]
      cases pc.holds <;> simp
    · rw [hother t' hne]
      cases pc.holds <;> simp [Ne.symm hne]
  · have heq : t' = t := by
      by_contra hne
      rw [hother t' hne] at ht'
      cases ht'
    rw [heq, hself]
    exact hholder
  · change lock.holder_ = 0
    have hnot : pc.holds = false := by
      cases hpc : pc.holds with
      | false => rfl
      | true =>
        rw [hpc] at howner
        cases howner.symm.trans hfree
    rw [hholder, if_neg]
    intro hassigned
    rw [LockPc.holds_of_assigned hassigned] at hnot
    cases hnot

/-- The thread with the mutex goes on. -/
theorem Held.move (h : Held tid s) {t : τ} (ht : (s.pcs t).holds = true) {pc : LockPc}
    {lock : MutexLock τ} (howner : lock.mutex_ = if pc.holds then some t else none)
    (hholder : lock.holder_ = if pc.assigned then tid t else 0) : Held tid (s.move t pc lock) :=
  held_move (h.others ht) howner hholder

/-- A thread gets the mutex. -/
theorem Held.acquire (h : Held tid s) (hfree : s.lock_.mutex_ = none) (t : τ) {pc : LockPc}
    (hpc : pc.holds = true) (hnot : pc.assigned = false) :
    Held tid (s.move t pc { s.lock_ with mutex_ := some t }) := by
  refine held_move (fun t' _ => h.nobody hfree t') ?_ ?_
  · rw [hpc, if_pos rfl]
  · rw [hnot]
    exact h.free hfree

/-- The thread with the mutex gives it up, out of its section. -/
theorem Held.release (h : Held tid s) {t : τ} (ht : (s.pcs t).holds = true)
    (hout : (s.pcs t).assigned = false) {pc : LockPc} (hpc : pc.holds = false) :
    Held tid (s.move t pc { s.lock_ with mutex_ := none }) := by
  have hnot : pc.assigned = false := Bool.eq_false_iff.mpr fun hassigned => by
    rw [LockPc.holds_of_assigned hassigned] at hpc
    cases hpc
  refine h.move ht (by rw [hpc]; rfl) ?_
  have hholder := h.holder t ht
  rw [hout] at hholder
  rw [hnot]
  exact hholder

theorem Held.unassignHolder (h : Held tid s) (t : τ) {pc : LockPc} (hpc : pc.holds = true)
    (hnot : pc.assigned = false) : Held tid (s.unassignHolder t pc) := by
  unfold Guarded.unassignHolder
  split
  · next hin =>
    have ht : (s.pcs t).holds = true := by rw [hin]; rfl
    refine (h.move ht ?_ ?_).emit _
    · rw [hpc, if_pos rfl]
      exact (h.owner t).mp ht
    · rw [hnot, if_neg Bool.false_ne_true]
  · exact h

theorem Held.step (h : Held tid s) (e : Event τ δ) : Held tid (s.step tid e) := by
  cases e with
  | mutexLock t =>
    rw [Guarded.step, Guarded.mutexLock]
    split
    · next _ _ _ hfree => exact h.acquire hfree t rfl rfl
    · next hin =>
      have ht : (s.pcs t).holds = true := by rw [hin]; rfl
      have hholder := h.holder t ht
      rw [hin] at hholder
      exact h.move ht ((h.owner t).mp ht) hholder
    · exact h
  | assignHolder t =>
    have hassign (ht : (s.pcs t).holds = true) :
        Held tid ((s.move t .inside { s.lock_ with holder_ := tid t }).emit (.entered t)) :=
      (h.move ht ((h.owner t).mp ht) rfl).emit _
    rw [Guarded.step, Guarded.assignHolder]
    split
    · next hpc => exact hassign (by rw [hpc]; rfl)
    · next hpc => exact hassign (by rw [hpc]; rfl)
    · exact h
  | access t f =>
    rw [Guarded.step, Guarded.access]
    split
    · have hwritten : Held tid { s with data := f s.data } := h.of_same rfl rfl
      exact hwritten.emit _
    · exact h
  | unlock t => exact h.unassignHolder t rfl rfl
  | mutexUnlock t =>
    rw [Guarded.step, Guarded.mutexUnlock]
    split
    · next hpc => exact h.release (by rw [hpc]; rfl) (by rw [hpc]; rfl) rfl
    · exact h
  | wait t => exact h.unassignHolder t rfl rfl
  | condWait t =>
    rw [Guarded.step, Guarded.condWait]
    split
    · next hpc => exact h.release (by rw [hpc]; rfl) (by rw [hpc]; rfl) rfl
    · exact h
  | condReturn t =>
    rw [Guarded.step, Guarded.condReturn]
    split
    · next _ _ _ hfree => exact h.acquire hfree t rfl rfl
    · exact h

theorem held_run (tid : τ → Nat) (d : δ) (es : List (Event τ δ)) :
    Held tid (run (step tid) (new d) es) :=
  run_preserves (fun _ e h => h.step e) es (held_new tid d)

theorem holder_unassignHolder (s : Guarded τ δ) (t : τ) (pc : LockPc) :
    (s.unassignHolder t pc).lock_.holder_ = s.lock_.holder_ ∨ (s.pcs t).holds = true := by
  unfold Guarded.unassignHolder
  split
  · next hin => exact .inr (by rw [hin]; rfl)
  · exact .inl rfl

/-- Only a thread with the mutex writes `holder_`. -/
theorem holder_step (tid : τ → Nat) (s : Guarded τ δ) (e : Event τ δ) :
    (s.step tid e).lock_.holder_ = s.lock_.holder_ ∨ (s.pcs e.thread).holds = true := by
  cases e with
  | mutexLock t => exact .inl (by rw [Guarded.step, Guarded.mutexLock]; split <;> rfl)
  | assignHolder t =>
    rw [Guarded.step, Guarded.assignHolder, Event.thread]
    split
    · next hpc => exact .inr (by rw [hpc]; rfl)
    · next hpc => exact .inr (by rw [hpc]; rfl)
    · exact .inl rfl
  | access t f => exact .inl (by rw [Guarded.step, Guarded.access]; split <;> rfl)
  | unlock t => exact holder_unassignHolder s t _
  | mutexUnlock t => exact .inl (by rw [Guarded.step, Guarded.mutexUnlock]; split <;> rfl)
  | wait t => exact holder_unassignHolder s t _
  | condWait t => exact .inl (by rw [Guarded.step, Guarded.condWait]; split <;> rfl)
  | condReturn t => exact .inl (by rw [Guarded.step, Guarded.condReturn]; split <;> rfl)

omit [DecidableEq τ] in
theorem Held.isLocked_iff (h : Held tid s) (hinj : Function.Injective tid)
    (hpos : ∀ t, tid t ≠ 0) (t : τ) :
    s.isLockedByThisThread tid t = true ↔ (s.pcs t).assigned = true := by
  rw [isLockedByThisThread, decide_eq_true_iff]
  constructor
  · intro heq
    obtain ⟨t', howner⟩ : ∃ t', s.lock_.mutex_ = some t' :=
      Option.ne_none_iff_exists'.mp fun hfree => hpos t (heq.symm.trans (h.free hfree))
    have hholder := h.holder t' ((h.owner t').mpr howner)
    split at hholder
    · next hassigned =>
      rw [hinj (heq.symm.trans hholder)]
      exact hassigned
    · exact absurd (heq.symm.trans hholder) (hpos t)
  · intro hassigned
    rw [h.holder t (LockPc.holds_of_assigned hassigned), if_pos hassigned]

/-- In every interleaving of the calls of any threads, with waits that end notified or not: a thread
has `isLockedByThisThread` exactly in its section, there is one thread at most with the mutex,
`holder_` is written by it alone, and is 0 when there is none. -/
theorem holder_tells (tid : τ → Nat) (hinj : Function.Injective tid) (hpos : ∀ t, tid t ≠ 0)
    (d : δ) (es : List (Event τ δ)) :
    let s := run (step tid) (new d) es
    (∀ t, s.isLockedByThisThread tid t = true ↔ (s.pcs t).assigned = true) ∧
      (∀ t t', (s.pcs t).holds = true → (s.pcs t').holds = true → t = t') ∧
      (∀ e, (s.step tid e).lock_.holder_ ≠ s.lock_.holder_ → s.lock_.mutex_ = some e.thread) ∧
      ((∀ t, (s.pcs t).holds = false) → s.lock_.holder_ = 0) := by
  intro s
  have h : Held tid s := held_run tid d es
  refine ⟨h.isLocked_iff hinj hpos, fun t t' => h.unique, fun e hwrite => ?_, fun hnone => ?_⟩
  · exact (h.owner _).mp ((holder_step tid s e).resolve_left hwrite)
  · refine h.free (Option.eq_none_iff_forall_ne_some.mpr fun t howner => ?_)
    have ht := (h.owner t).mpr howner
    rw [hnone t] at ht
    cases ht

/-- Two threads, and the second locks the mutex, writes and waits. -/
theorem holder_tells_two :
    let s := run (step fun t : Bool => t.toNat + 1) (new (0 : Nat))
      [.mutexLock true, .assignHolder true, .access true (· + 1), .wait true]
    (∀ t, s.isLockedByThisThread (fun t => t.toNat + 1) t = true ↔
      (s.pcs t).assigned = true) ∧
      (∀ t t', (s.pcs t).holds = true → (s.pcs t').holds = true → t = t') ∧
      (∀ e, (s.step (fun t => t.toNat + 1) e).lock_.holder_ ≠ s.lock_.holder_ →
        s.lock_.mutex_ = some e.thread) ∧
      ((∀ t, (s.pcs t).holds = false) → s.lock_.holder_ = 0) :=
  holder_tells (fun t : Bool => t.toNat + 1) (by intro t t'; cases t <;> cases t' <;> decide)
    (by decide) 0 _

/-! ## One section after the other -/

/-- What a thread does between `assignHolder` and `unassignHolder`. -/
structure CriticalSection (τ δ : Type*) where
  thread : τ
  accesses : List (δ → δ)

namespace CriticalSection

def effects (c : CriticalSection τ δ) : List (LockEffect τ δ) :=
  .entered c.thread :: c.accesses.map (.accessed c.thread)

def whole (c : CriticalSection τ δ) : List (LockEffect τ δ) := c.effects ++ [.left c.thread]

/-- The section on its own. -/
def perform (d : δ) (c : CriticalSection τ δ) : δ := c.accesses.foldl (fun d f => f d) d

end CriticalSection

/-- The sections so far, and the one that is under way. -/
structure Serial (d : δ) (s : Guarded τ δ) (done : List (CriticalSection τ δ))
    (current : Option (CriticalSection τ δ)) : Prop where
  trace : s.trace = done.flatMap CriticalSection.whole ++
    current.elim [] CriticalSection.effects
  data : s.data = (done ++ current.toList).foldl CriticalSection.perform d
  thread : ∀ t, (s.pcs t).assigned = true ↔ current.map CriticalSection.thread = some t

omit [DecidableEq τ] in
theorem serial_new (d : δ) : Serial d (new d : Guarded τ δ) [] none where
  trace := rfl
  data := rfl
  thread _ := ⟨nofun, nofun⟩


variable {d : δ} {done : List (CriticalSection τ δ)} {current : Option (CriticalSection τ δ)}

omit [DecidableEq τ] in
/-- Nobody enters or leaves a section. -/
theorem Serial.quiet (h : Serial d s done current) {s' : Guarded τ δ} (htrace : s'.trace = s.trace)
    (hdata : s'.data = s.data) (hpcs : ∀ t, (s'.pcs t).assigned = (s.pcs t).assigned) :
    Serial d s' done current := by
  refine ⟨htrace.trans h.trace, hdata.trans h.data, fun t => ?_⟩
  rw [hpcs t]
  exact h.thread t

theorem Serial.move (h : Serial d s done current) {t : τ} {pc : LockPc}
    (hpc : pc.assigned = (s.pcs t).assigned) (lock : MutexLock τ) :
    Serial d (s.move t pc lock) done current := by
  refine h.quiet rfl rfl fun t' => ?_
  by_cases heq : t' = t
  · rw [heq, s.move_pcs_self, hpc]
  · rw [s.move_pcs_of_ne heq]

theorem Serial.enter (h : Serial d s done current) (hheld : Held tid s) {t : τ}
    (ht : (s.pcs t).holds = true) (hout : (s.pcs t).assigned = false) :
    Serial d ((s.move t .inside { s.lock_ with holder_ := tid t }).emit (.entered t)) done
      (some ⟨t, []⟩) := by
  have hnone : current = none := by
    cases hcurrent : current with
    | none => rfl
    | some c =>
      have hassigned : (s.pcs c.thread).assigned = true := (h.thread _).mpr (by rw [hcurrent]; rfl)
      have heq := hheld.unique (LockPc.holds_of_assigned hassigned) ht
      rw [heq, hout] at hassigned
      cases hassigned
  subst hnone
  refine ⟨?_, ?_, fun t' => ?_⟩
  · exact congrArg (· ++ [LockEffect.entered t]) (h.trace.trans (List.append_nil _))
  · rw [Option.toList_some, List.foldl_append]
    exact h.data.trans (by rw [Option.toList_none, List.append_nil]; rfl)
  · change ((s.move t .inside { s.lock_ with holder_ := tid t }).pcs t').assigned = true ↔ _
    by_cases heq : t' = t
    · rw [heq, s.move_pcs_self]
      exact iff_of_true rfl rfl
    · rw [s.move_pcs_of_ne heq]
      refine iff_of_false (fun hassigned => ?_) fun hsome => heq (Option.some.inj hsome).symm
      cases (h.thread t').mp hassigned

omit [DecidableEq τ] in
theorem Serial.current_eq (h : Serial d s done current) {t : τ} (ht : s.pcs t = .inside) :
    ∃ accesses, current = some ⟨t, accesses⟩ := by
  have hthread := (h.thread t).mp (by rw [ht]; rfl)
  obtain ⟨c, rfl, rfl⟩ := Option.map_eq_some_iff.mp hthread
  exact ⟨c.accesses, rfl⟩

omit [DecidableEq τ] in
theorem Serial.access (h : Serial d s done current) {t : τ} {accesses : List (δ → δ)}
    (hcurrent : current = some ⟨t, accesses⟩) (f : δ → δ) :
    Serial d ({ s with data := f s.data }.emit (.accessed t f)) done
      (some ⟨t, accesses ++ [f]⟩) := by
  subst hcurrent
  refine ⟨?_, ?_, h.thread⟩
  · refine (congrArg (· ++ [LockEffect.accessed t f]) h.trace).trans ?_
    simp [CriticalSection.effects]
  · have hdata := h.data
    rw [Option.toList_some, List.foldl_append] at hdata ⊢
    change f s.data = _
    rw [hdata]
    simp [CriticalSection.perform]

theorem Serial.leave (h : Serial d s done current) {t : τ} {accesses : List (δ → δ)}
    (hcurrent : current = some ⟨t, accesses⟩) {pc : LockPc} (hpc : pc.assigned = false)
    (lock : MutexLock τ) :
    Serial d ((s.move t pc lock).emit (.left t)) (done ++ [⟨t, accesses⟩]) none := by
  subst hcurrent
  refine ⟨?_, ?_, fun t' => ?_⟩
  · refine (congrArg (· ++ [LockEffect.left t]) h.trace).trans ?_
    simp [CriticalSection.whole]
  · rw [Option.toList_none, List.append_nil]
    exact h.data
  · change ((s.move t pc lock).pcs t').assigned = true ↔ _
    refine iff_of_false (fun hassigned => ?_) (by simp)
    by_cases heq : t' = t
    · rw [heq, s.move_pcs_self, hpc] at hassigned
      cases hassigned
    · rw [s.move_pcs_of_ne heq] at hassigned
      exact heq (Option.some.inj ((h.thread t').mp hassigned)).symm

theorem Serial.unassignHolder (h : Serial d s done current) (t : τ) {pc : LockPc}
    (hpc : pc.assigned = false) :
    ∃ done' current', Serial d (s.unassignHolder t pc) done' current' := by
  unfold Guarded.unassignHolder
  split
  · next hin =>
    obtain ⟨accesses, hcurrent⟩ := h.current_eq hin
    exact ⟨_, _, h.leave hcurrent hpc _⟩
  · exact ⟨_, _, h⟩

theorem Serial.step (h : Serial d s done current) (hheld : Held tid s) (e : Event τ δ) :
    ∃ done' current', Serial d (s.step tid e) done' current' := by
  cases e with
  | mutexLock t =>
    rw [Guarded.step, Guarded.mutexLock]
    split
    · next hpc _ => exact ⟨_, _, h.move (by rw [hpc]; rfl) _⟩
    · next hpc => exact ⟨_, _, h.move (by rw [hpc]; rfl) _⟩
    · exact ⟨_, _, h⟩
  | assignHolder t =>
    rw [Guarded.step, Guarded.assignHolder]
    split
    · next hpc => exact ⟨_, _, h.enter hheld (by rw [hpc]; rfl) (by rw [hpc]; rfl)⟩
    · next hpc => exact ⟨_, _, h.enter hheld (by rw [hpc]; rfl) (by rw [hpc]; rfl)⟩
    · exact ⟨_, _, h⟩
  | access t f =>
    rw [Guarded.step, Guarded.access]
    split
    · next hin =>
      obtain ⟨accesses, hcurrent⟩ := h.current_eq hin
      exact ⟨_, _, h.access hcurrent f⟩
    · exact ⟨_, _, h⟩
  | unlock t => exact h.unassignHolder t rfl
  | mutexUnlock t =>
    rw [Guarded.step, Guarded.mutexUnlock]
    split
    · next hpc => exact ⟨_, _, h.move (by rw [hpc]; rfl) _⟩
    · exact ⟨_, _, h⟩
  | wait t => exact h.unassignHolder t rfl
  | condWait t =>
    rw [Guarded.step, Guarded.condWait]
    split
    · next hpc => exact ⟨_, _, h.move (by rw [hpc]; rfl) _⟩
    · exact ⟨_, _, h⟩
  | condReturn t =>
    rw [Guarded.step, Guarded.condReturn]
    split
    · next hpc _ => exact ⟨_, _, h.move (by rw [hpc]; rfl) _⟩
    · exact ⟨_, _, h⟩

/-- In every interleaving: what the threads do to the guarded data is one whole section after the
other, in the order in which they get the mutex, and at most one that is under way, of the thread
that `isLockedByThisThread`; the data is what these make of it on their own in this order. -/
theorem sections_serial (tid : τ → Nat) (d : δ) (es : List (Event τ δ)) :
    let s := run (step tid) (new d) es
    ∃ (done : List (CriticalSection τ δ)) (current : Option (CriticalSection τ δ)),
      s.trace = done.flatMap CriticalSection.whole ++ current.elim [] CriticalSection.effects ∧
        s.data = (done ++ current.toList).foldl CriticalSection.perform d ∧
        ∀ t, (s.pcs t).assigned = true ↔ current.map CriticalSection.thread = some t := by
  intro s
  have h : Held tid s ∧ ∃ done current, Serial d s done current :=
    run_preserves (I := fun s => Held tid s ∧ ∃ done current, Serial d s done current)
      (fun _ e ⟨hheld, _, _, hserial⟩ => ⟨hheld.step e, hserial.step hheld e⟩) es
      ⟨held_new tid d, [], none, serial_new d⟩
  obtain ⟨-, done, current, hserial⟩ := h
  exact ⟨done, current, hserial.trace, hserial.data, hserial.thread⟩

end Guarded

end Mymuduo
