import Mymuduo.Net.TimerHeap
import Mymuduo.Lib.Transition

/-!
# The sets of a timer queue

Over whole runs, what is loose is the batch and the timers whose functors wait (`Coherent`). A
timer that was cancelled is `Doomed`: it is freed, or it is in the batch and `reset` will free it.

* `timer_sets_consistent`: what the two sets, the heap and the batch look like in every reachable
  state, whatever addresses are used again.
-/

namespace Mymuduo

open Transition

open Timestamp

/-- What `timerfd_settime` accepts, other than the request to disarm. -/
def Timespec.Arms (it_value : Timespec) : Prop :=
  it_value ≠ ⟨0, 0⟩ ∧ 0 ≤ it_value.tv_nsec ∧ it_value.tv_nsec ≤ 999999999

/-- Not the start of a callback; and if it arms the descriptor, it does so properly. -/
def TimerEffect.IsQuiet : TimerEffect → Prop
  | .run _ => False
  | .settime it_value => it_value.Arms
  | _ => True

namespace TimerQueue

/-! ## What starts a callback -/

/-- No callback was started between `q` and `q'`. -/
def Quiet (q q' : TimerQueue) : Prop :=
  ∃ es, q'.trace = q.trace ++ es ∧ ∀ e ∈ es, e.IsQuiet

theorem Quiet.of_eq {q q' : TimerQueue} (h : q'.trace = q.trace) : Quiet q q' :=
  ⟨[], by simp [h], by simp⟩

theorem Quiet.trans {q₁ q₂ q₃ : TimerQueue} (h : Quiet q₁ q₂) (h' : Quiet q₂ q₃) :
    Quiet q₁ q₃ := by
  obtain ⟨es, htr, hes⟩ := h
  obtain ⟨es', htr', hes'⟩ := h'
  refine ⟨es ++ es', by rw [htr', htr, List.append_assoc], ?_⟩
  intro e hm
  rcases List.mem_append.mp hm with hm | hm
  · exact hes e hm
  · exact hes' e hm

theorem quiet_emit (q : TimerQueue) {e : TimerEffect} (he : e.IsQuiet) : Quiet q (q.emit e) :=
  ⟨[e], rfl, fun _ hm => (List.mem_singleton.mp hm) ▸ he⟩

theorem quiet_delete (q : TimerQueue) (p : TimerPtr) : Quiet q (q.delete p) := by
  unfold TimerQueue.delete
  split
  · exact quiet_emit q trivial
  · exact quiet_emit { q with heap := Function.update q.heap p none } trivial

theorem quiet_insert (q : TimerQueue) (p : TimerPtr) : Quiet q (q.insert p).1 := by
  unfold TimerQueue.insert
  split
  · exact quiet_emit q trivial
  · exact .of_eq rfl

/-- Whatever the time, the descriptor is armed, and no sooner than after 100 microseconds. -/
theorem howMuchTimeFromNow_arms (when' now : Timestamp) : (howMuchTimeFromNow when' now).Arms := by
  have hle : 100 ≤ if int64 (when' - now) < 100 then 100 else int64 (when' - now) := by
    split <;> omega
  simp only [howMuchTimeFromNow, kMicroSecondsPerSecond]
  generalize (if int64 (when' - now) < 100 then 100 else int64 (when' - now)) = m at hle
  have hnsec : 0 ≤ m % (1000 * 1000) * 1000 ∧ m % (1000 * 1000) * 1000 ≤ 999999999 := by omega
  refine ⟨?_, hnsec⟩
  intro heq
  have hsec : m / (1000 * 1000) = 0 := congrArg Timespec.tv_sec heq
  have hnsec : m % (1000 * 1000) * 1000 = 0 := congrArg Timespec.tv_nsec heq
  omega

theorem quiet_resetTimerfd (q : TimerQueue) (expiration now : Timestamp) :
    Quiet q (q.resetTimerfd expiration now) :=
  quiet_emit { q with timerfd_ := some ⟨now, howMuchTimeFromNow expiration now⟩ }
    (howMuchTimeFromNow_arms expiration now)

theorem quiet_addTimerInLoop (q : TimerQueue) (p : TimerPtr) (now : Timestamp) :
    Quiet q (q.addTimerInLoop p now) := by
  have hins := quiet_insert q p
  rw [TimerQueue.addTimerInLoop]
  generalize q.insert p = r at hins ⊢
  obtain ⟨q', changed⟩ := r
  cases changed with
  | false => exact hins
  | true =>
    refine hins.trans ?_
    dsimp only
    split
    · exact quiet_emit q' trivial
    · exact quiet_resetTimerfd q' _ now

theorem quiet_foldl {f : TimerQueue → Entry → TimerQueue} (hf : ∀ q it, Quiet q (f q it))
    (l : List Entry) (q : TimerQueue) : Quiet q (l.foldl f q) := by
  induction l generalizing q with
  | nil => exact .of_eq rfl
  | cons it l ih => exact (hf q it).trans (ih (f q it))

theorem quiet_eraseActive (q : TimerQueue) (it : Entry) : Quiet q (q.eraseActive it) := by
  unfold TimerQueue.eraseActive
  split
  · exact quiet_emit q trivial
  · exact .of_eq rfl

theorem quiet_resetOne (now : Timestamp) (q : TimerQueue) (it : Entry) :
    Quiet q (TimerQueue.resetOne now q it) := by
  unfold TimerQueue.resetOne
  split
  · exact quiet_emit q trivial
  · split
    · exact Quiet.trans (.of_eq rfl) (quiet_insert _ it.2)
    · exact quiet_delete q it.2

theorem quiet_rearm (q : TimerQueue) (now' : Timestamp) : Quiet q (q.rearm now') := by
  unfold TimerQueue.rearm
  split
  · exact .of_eq rfl
  · split
    · exact quiet_emit q trivial
    · split
      · exact quiet_resetTimerfd q _ now'
      · exact .of_eq rfl

theorem quiet_cancelInLoop (q : TimerQueue) (timerId : TimerId) :
    Quiet q (q.cancelInLoop timerId) := by
  rw [TimerQueue.cancelInLoop]
  dsimp only
  split
  · split
    · exact quiet_emit q trivial
    · refine Quiet.trans (Quiet.trans ?_ (quiet_delete _ _)) (.of_eq rfl)
      exact .of_eq rfl
  · split <;> exact .of_eq rfl

/-- Only `runTimer` starts callbacks. -/
theorem quiet_step (q : TimerQueue) {e : Event} (he : e ≠ .runTimer) : Quiet q (q.step e) := by
  have hnew : ∀ addr when' interval rep, Quiet q (q.newTimer addr when' interval rep) := by
    intro addr when' interval rep
    exact Quiet.trans (.of_eq rfl) (quiet_emit { q with s_numCreated_ := _, heap := _ } trivial)
  cases e with
  | addTimer addr when' interval rep now =>
    exact (hnew addr when' interval rep).trans (quiet_addTimerInLoop _ _ now)
  | addTimerFromThread addr when' interval rep =>
    exact (hnew addr when' interval rep).trans (.of_eq rfl)
  | runFunctor p now =>
    simp only [TimerQueue.step, TimerQueue.runFunctor]
    split
    · exact Quiet.trans (.of_eq rfl) (quiet_addTimerInLoop _ p now)
    · exact .of_eq rfl
  | cancelInLoop timerId => exact quiet_cancelInLoop q timerId
  | handleRead now =>
    simp only [TimerQueue.step, TimerQueue.handleRead]
    split
    · refine Quiet.trans ?_ (.of_eq rfl)
      exact Quiet.trans (.of_eq rfl) (quiet_foldl quiet_eraseActive _ _)
    · exact .of_eq rfl
  | runTimer => exact absurd rfl he
  | endRead now' =>
    simp only [TimerQueue.step, TimerQueue.endRead, TimerQueue.reset]
    split
    · next now expired hb =>
      refine Quiet.trans ?_ (quiet_rearm _ now')
      exact Quiet.trans (.of_eq rfl) (quiet_foldl (quiet_resetOne now) expired _)
    · exact .of_eq rfl

/-- `runTimer` does nothing but start a callback. -/
theorem trace_runTimer (q : TimerQueue) :
    ∃ es, q.runTimer.trace = q.trace ++ es ∧ ∀ e ∈ es, ∀ it_value, e ≠ .settime it_value := by
  unfold TimerQueue.runTimer
  split
  · dsimp only
    split
    · exact ⟨[_], rfl, by simp⟩
    · exact ⟨[_], rfl, by simp⟩
  · exact ⟨[], by simp, by simp⟩

/-! ## One step -/

/-- The invariant of a run: what is loose is the batch and what the functors hold. -/
structure Coherent (q : TimerQueue) : Prop where
  sound : Sound q (q.inBatch ++ q.functors)
  calling : q.callingExpiredTimers_ = q.batch.isSome
  todo : ∀ b, q.batch = some b → b.todo <:+ b.expired

theorem SameBatch.inBatch {q q' : TimerQueue} (h : SameBatch q q') : q'.inBatch = q.inBatch := by
  rw [TimerQueue.inBatch, TimerQueue.inBatch, h.batch]

theorem Coherent.of_same {q q' : TimerQueue} (h : Coherent q) (hs : SameBatch q q')
    (hsound : Sound q' (q.inBatch ++ q.functors)) : Coherent q' :=
  ⟨by rw [hs.inBatch, hs.functors]; exact hsound, by rw [hs.calling, hs.batch]; exact h.calling,
    by rw [hs.batch]; exact h.todo⟩

theorem coherent_new : Coherent new := by
  refine ⟨⟨⟨?_, ?_, ?_, ?_, ?_, ?_, ?_, ?_, ?_⟩, ?_, ?_, ?_, ?_, .nil, ?_⟩, rfl, ?_⟩ <;>
    simp [new, inBatch]

theorem Coherent.addTimer {q : TimerQueue} (h : Coherent q) {addr : Nat} (hlt : addr < UINTPTR_MAX)
    (hfree : ∀ object ≤ q.s_numCreated_, q.heap ⟨addr, object⟩ = none) (when' : Timestamp)
    (interval : Int) (rep : Bool) (now : Timestamp) :
    Coherent (q.addTimer addr when' interval rep now) := by
  have hnew := h.sound.newTimer hfree hlt when' interval rep
  obtain ⟨hsound, hsame, -⟩ := hnew.addTimerInLoop now
  have hfirst : SameBatch q (q.newTimer addr when' interval rep) := ⟨rfl, rfl, rfl, rfl⟩
  exact h.of_same (hfirst.trans hsame) hsound

theorem Coherent.addTimerFromThread {q : TimerQueue} (h : Coherent q) {addr : Nat}
    (hlt : addr < UINTPTR_MAX)
    (hfree : ∀ object ≤ q.s_numCreated_, q.heap ⟨addr, object⟩ = none) (when' : Timestamp)
    (interval : Int) (rep : Bool) : Coherent (q.addTimerFromThread addr when' interval rep) := by
  have hnew := h.sound.newTimer hfree hlt when' interval rep
  refine ⟨?_, h.calling, h.todo⟩
  refine Sound.of_neutral (hnew.perm ?_) rfl rfl rfl rfl []
    (List.append_nil _).symm (by simp)
  show List.Perm _ (q.inBatch ++ (q.functors ++ [_]))
  rw [← List.append_assoc]
  exact (List.perm_append_singleton _ _).symm

theorem inBatch_of_none {q : TimerQueue} (h : q.batch = none) : q.inBatch = [] := by
  simp [inBatch, h]

/-- The timer of a functor that is about to run is loose. -/
theorem Coherent.popFunctor {q : TimerQueue} (h : Coherent q) (hnone : q.batch = none)
    {p : TimerPtr} (hp : p ∈ q.functors) :
    Sound { q with functors := q.functors.erase p } (p :: q.functors.erase p) := by
  have hperm : (q.inBatch ++ q.functors).Perm (p :: q.functors.erase p) := by
    rw [inBatch_of_none hnone]
    exact List.perm_cons_erase hp
  exact (h.sound.perm hperm).of_neutral rfl rfl rfl rfl [] (by simp) (by simp)

theorem Coherent.runFunctor {q : TimerQueue} (h : Coherent q) (p : TimerPtr) (now : Timestamp) :
    Coherent (q.runFunctor p now) := by
  unfold TimerQueue.runFunctor
  split
  · next hc =>
    obtain ⟨hsound, hsame, -⟩ := (h.popFunctor hc.1 hc.2).addTimerInLoop now
    refine ⟨?_, by rw [hsame.calling, hsame.batch]; exact h.calling, by
      rw [hsame.batch]; exact h.todo⟩
    rw [hsame.inBatch, hsame.functors]
    show Sound _ (q.inBatch ++ q.functors.erase p)
    rw [inBatch_of_none hc.1]
    exact hsound
  · exact h

theorem Coherent.cancelInLoop {q : TimerQueue} (h : Coherent q) (timerId : TimerId) :
    Coherent (q.cancelInLoop timerId) := by
  have hsound := h.sound.cancelInLoop timerId
  by_cases hpending : ∃ p, (p, timerId.sequence_) ∈ q.activeTimers_ ∧ p.addr = timerId.timer_.addr
  · obtain ⟨p, hact, haddr⟩ := hpending
    have hc := (h.sound.cancelInLoop_pending hact haddr).1
    exact h.of_same ⟨hc.functors, hc.batch, hc.calling, hc.canceling⟩ hsound
  · rw [cancelInLoop_not_pending fun p hact haddr => hpending ⟨p, hact, haddr⟩] at hsound ⊢
    split
    · next hcalling =>
      rw [if_pos hcalling] at hsound
      exact ⟨hsound, h.calling, h.todo⟩
    · exact h

/-- `handleRead`, up to the first callback, takes the timers that are due out of the sets. -/
theorem Coherent.handleRead_eq {q : TimerQueue} (h : Coherent q) (hnone : q.batch = none)
    (now : Timestamp) :
    ∃ timers active expired, q.handleRead now = { q with
        callingExpiredTimers_ := true
        timers_ := timers
        activeTimers_ := active
        cancelingTimers_ := .empty
        timerfd_ := none
        batch := some ⟨now, expired, expired⟩ } ∧
      (∀ w p, (w, p) ∈ timers ↔ (w, p) ∈ q.timers_ ∧ now < w) ∧
      (∀ it, it ∈ expired ↔ it ∈ q.timers_ ∧ it.1 ≤ now) ∧
      Sound { q with timers_ := timers, activeTimers_ := active }
        (expired.map Prod.snd ++ q.functors) := by
  have hread : Sound q.readTimerfd q.functors := by
    have hsound := h.sound
    rw [inBatch_of_none hnone] at hsound
    exact hsound.of_neutral rfl rfl rfl rfl [] (by simp) (by simp)
  obtain ⟨timers, active, heq, htimers, hexpired, hsound⟩ := hread.getExpired now
  refine ⟨timers, active, (q.readTimerfd.getExpired now).2, ?_, htimers, hexpired, ?_⟩
  · simp only [TimerQueue.handleRead, if_pos hnone, heq]
    rfl
  · rw [heq] at hsound
    exact hsound.of_neutral rfl rfl rfl rfl [] (by simp) (by simp)

theorem handleRead_of_batch {q : TimerQueue} (hb : q.batch ≠ none) (now : Timestamp) :
    q.handleRead now = q := by
  rw [handleRead, if_neg hb]

theorem Coherent.handleRead {q : TimerQueue} (h : Coherent q) (now : Timestamp) :
    Coherent (q.handleRead now) := by
  by_cases hnone : q.batch = none
  · obtain ⟨timers, active, expired, heq, -, -, hsound⟩ := h.handleRead_eq hnone now
    rw [heq]
    refine ⟨hsound.of_neutral rfl rfl rfl rfl [] (by simp) (by simp), rfl, ?_⟩
    rintro b hb
    obtain rfl := Option.some.inj hb
    exact List.suffix_refl _
  · rw [handleRead_of_batch hnone]
    exact h

/-- What starting the next callback does. -/
theorem Coherent.runTimer_cons {q : TimerQueue} (h : Coherent q) {now : Timestamp}
    {expired todo : List Entry} {it : Entry} (hb : q.batch = some ⟨now, expired, it :: todo⟩) :
    ∃ t, q.heap it.2 = some t ∧
      q.runTimer = { q with batch := some ⟨now, expired, todo⟩ }.emit (.run t.sequence_) := by
  have hmem : it ∈ expired := (h.todo _ hb).subset List.mem_cons_self
  obtain ⟨t, ht⟩ := h.sound.live it.2 (List.mem_append_left _ (by
    simp only [inBatch, hb]
    exact List.mem_map_of_mem hmem))
  exact ⟨t, ht, by simp [runTimer, hb, ht]⟩

theorem runTimer_of_nil {q : TimerQueue}
    (hb : ∀ now expired it todo, q.batch ≠ some ⟨now, expired, it :: todo⟩) : q.runTimer = q := by
  unfold runTimer
  split
  · next h => exact absurd h (hb _ _ _ _)
  · rfl

theorem Coherent.runTimer {q : TimerQueue} (h : Coherent q) : Coherent q.runTimer := by
  by_cases hb : ∃ now expired it todo, q.batch = some ⟨now, expired, it :: todo⟩
  · obtain ⟨now, expired, it, todo, hb⟩ := hb
    obtain ⟨t, ht, hdef⟩ := h.runTimer_cons hb
    have hin : ({ q with batch := some ⟨now, expired, todo⟩ } : TimerQueue).inBatch =
        q.inBatch := by
      simp [inBatch, hb]
    rw [hdef]
    refine ⟨?_, by simp [h.calling, hb], ?_⟩
    · show Sound _ (({ q with batch := some ⟨now, expired, todo⟩ } : TimerQueue).inBatch ++ _)
      rw [hin]
      exact h.sound.of_neutral rfl rfl rfl rfl _ rfl (by simp [TimerEffect.isNeutral])
    · intro b hb'
      obtain rfl : ⟨now, expired, todo⟩ = b := by simpa using hb'
      exact (List.suffix_cons it todo).trans (h.todo _ hb)
  · rw [runTimer_of_nil fun now expired it todo h => hb ⟨now, expired, it, todo, h⟩]
    exact h

/-- The loop in `reset` starts with the batch loose. -/
theorem Coherent.leaveBatch {q : TimerQueue} (h : Coherent q) {now : Timestamp}
    {expired todo : List Entry} (hb : q.batch = some ⟨now, expired, todo⟩) :
    Sound { q with callingExpiredTimers_ := false, batch := none }
      (expired.map Prod.snd ++ q.functors) := by
  have hin : q.inBatch = expired.map Prod.snd := by simp [inBatch, hb]
  rw [← hin]
  exact h.sound.of_neutral rfl rfl rfl rfl [] (by simp) (by simp)

theorem Coherent.endRead {q : TimerQueue} (h : Coherent q) (now' : Timestamp) :
    Coherent (q.endRead now') := by
  unfold TimerQueue.endRead
  split
  · next now expired hb =>
    obtain ⟨hsound, hsame⟩ := (h.leaveBatch hb).foldl_resetOne now
    obtain ⟨hsound', hsame'⟩ := hsound.rearm now'
    have hboth := hsame.trans hsame'
    refine ⟨?_, ?_, ?_⟩
    · rw [TimerQueue.reset, hboth.inBatch, hboth.functors]
      exact hsound'
    · rw [TimerQueue.reset, hboth.calling, hboth.batch]
      rfl
    · rw [TimerQueue.reset, hboth.batch]
      nofun
  · exact h

/-- Every step keeps the invariant. -/
theorem Coherent.step {q : TimerQueue} (h : Coherent q) {e : Event} (hok : Allocates q e) :
    Coherent (q.step e) := by
  cases e with
  | addTimer addr when' interval rep now => exact h.addTimer hok.1 hok.2 when' interval rep now
  | addTimerFromThread addr when' interval rep =>
    exact h.addTimerFromThread hok.1 hok.2 when' interval rep
  | runFunctor p now => exact h.runFunctor p now
  | cancelInLoop timerId => exact h.cancelInLoop timerId
  | handleRead now => exact h.handleRead now
  | runTimer => exact h.runTimer
  | endRead now' => exact h.endRead now'

theorem coherent_run {es : List Event} (hok : Meets Allocates step new es) :
    Coherent (run step new es) :=
  run_invariant (fun _ _ h hok => h.step hok) coherent_new hok

/-! ## Cancelled timers -/

theorem isCanceled_iff {q : TimerQueue} {p : TimerPtr} {s : Nat} :
    q.isCanceled p s = true ↔
      ∃ timer ∈ q.cancelingTimers_, ActiveTimer.key timer = ActiveTimer.key (p, s) := by
  rw [isCanceled, Option.isSome_iff_exists]
  simp only [OrderedSet.find?_eq_some]

/-- The timer is freed, or it is in the batch and marked to be. -/
def Doomed (q : TimerQueue) (timerId : TimerId) : Prop :=
  q.heap timerId.timer_ = none ∨
    timerId.timer_ ∈ q.inBatch ∧ q.isCanceled timerId.timer_ timerId.sequence_ = true

theorem Doomed.of_same {q q' : TimerQueue} {timerId : TimerId} (h : Doomed q timerId)
    (hs : SameBatch q q')
    (hheap : q.heap timerId.timer_ = none → q'.heap timerId.timer_ = none) :
    Doomed q' timerId := by
  refine h.imp hheap fun hmark => ?_
  rw [hs.inBatch, isCanceled, hs.canceling]
  exact hmark

/-- A doomed timer is in neither set. -/
theorem Coherent.notMem_of_doomed {q : TimerQueue} (h : Coherent q) {timerId : TimerId}
    (hd : Doomed q timerId) :
    (∀ when', (when', timerId.timer_) ∉ q.timers_) ∧
      ∀ s, (timerId.timer_, s) ∉ q.activeTimers_ := by
  have hactive : ∀ s, (timerId.timer_, s) ∉ q.activeTimers_ := by
    intro s hm
    rcases hd with hnone | ⟨hin, -⟩
    · obtain ⟨t, ht, -⟩ := h.sound.active _ s hm
      simp [hnone] at ht
    · exact h.sound.apart _ (List.mem_append_left _ hin) s hm
  refine ⟨?_, hactive⟩
  intro w hm
  obtain ⟨t, -, -, hact⟩ := h.sound.timers w _ hm
  exact hactive _ hact

theorem resetOne_heap_ne {q : TimerQueue} {it : Entry} {t : Timer} (ht : q.heap it.2 = some t)
    (now : Timestamp) {p : TimerPtr} (hne : p ≠ it.2) :
    (resetOne now q it).heap p = q.heap p := by
  have hcases := resetOne_cases ht now
  generalize resetOne now q it = q' at hcases ⊢
  cases hcases with
  | restarted t ht => simp [TimerQueue.insert, hne]
  | freed t ht =>
    rw [delete_eq ht]
    simp [hne]

theorem Sound.foldl_resetOne_none {expired : List Entry} {q : TimerQueue} {loose : List TimerPtr}
    (h : Sound q (expired.map Prod.snd ++ loose)) (now : Timestamp) {p : TimerPtr}
    (hnone : q.heap p = none) : (expired.foldl (TimerQueue.resetOne now) q).heap p = none := by
  induction expired generalizing q with
  | nil => exact hnone
  | cons it expired ih =>
    obtain ⟨t, ht⟩ := h.live it.2 List.mem_cons_self
    have hne : p ≠ it.2 := by
      rintro rfl
      simp [hnone] at ht
    exact ih (h.resetOne now).1 ((resetOne_heap_ne ht now hne).trans hnone)

/-- `reset` frees what was cancelled during the batch. -/
theorem Sound.foldl_resetOne_canceled {expired : List Entry} {q : TimerQueue}
    {loose : List TimerPtr} (h : Sound q (expired.map Prod.snd ++ loose)) (now : Timestamp)
    {p : TimerPtr} (hp : p ∈ expired.map Prod.snd) (hmark : q.isCanceled p p.object = true) :
    (expired.foldl (TimerQueue.resetOne now) q).heap p = none := by
  induction expired generalizing q with
  | nil => cases hp
  | cons it expired ih =>
    obtain ⟨t, ht⟩ := h.live it.2 List.mem_cons_self
    obtain ⟨hsound, hsame⟩ := h.resetOne now
    rw [List.foldl_cons]
    rcases eq_or_ne p it.2 with rfl | hne
    · refine hsound.foldl_resetOne_none now ?_
      have hcases := resetOne_cases ht now
      generalize TimerQueue.resetOne now q it = q' at hcases ⊢
      cases hcases with
      | restarted t ht hrep hno =>
        rw [← h.object_eq ht, hmark] at hno
        cases hno
      | freed t ht hwhy =>
        rw [delete_eq ht]
        simp
    · have htail : p ∈ expired.map Prod.snd := (List.mem_cons.mp hp).resolve_left hne
      refine ih hsound htail ?_
      rw [isCanceled, hsame.canceling]
      exact hmark

/-- The ids that were handed out stay so. -/
theorem addTimer_mem_step {q : TimerQueue} {timerId : TimerId}
    (hid : .addTimer timerId ∈ q.trace) (e : Event) : .addTimer timerId ∈ (q.step e).trace := by
  obtain ⟨es, htr⟩ : ∃ es, (q.step e).trace = q.trace ++ es := by
    by_cases he : e = .runTimer
    · subst he
      obtain ⟨es, htr, -⟩ := trace_runTimer q
      exact ⟨es, htr⟩
    · obtain ⟨es, htr, -⟩ := quiet_step q he
      exact ⟨es, htr⟩
  rw [htr]
  exact List.mem_append_left es hid

theorem Coherent.gone_newTimer {q : TimerQueue} (h : Coherent q) {timerId : TimerId}
    (hid : .addTimer timerId ∈ q.trace) (hnone : q.heap timerId.timer_ = none) (addr : Nat)
    (when' : Timestamp) (interval : Int) (rep : Bool) :
    (q.newTimer addr when' interval rep).heap timerId.timer_ = none := by
  obtain ⟨hobj, hle⟩ := h.sound.object _ _ hid
  refine Option.eq_none_iff_forall_ne_some.mpr fun t ht => ?_
  rcases h.sound.toHeapOk.heap_newTimer.mp ht with ⟨hptr, -⟩ | hold
  · rw [hptr] at hobj
    exact Nat.not_succ_le_self _ (hobj.trans_le hle)
  · rw [hnone] at hold
    cases hold

theorem Coherent.doomed_cancelInLoop {q : TimerQueue} (h : Coherent q) {timerId : TimerId}
    (hd : Doomed q timerId) (timerId' : TimerId) : Doomed (q.cancelInLoop timerId') timerId := by
  by_cases hpending : ∃ p, (p, timerId'.sequence_) ∈ q.activeTimers_ ∧
      p.addr = timerId'.timer_.addr
  · obtain ⟨p, hact, haddr⟩ := hpending
    have hc := (h.sound.cancelInLoop_pending hact haddr).1
    refine hd.of_same ⟨hc.functors, hc.batch, hc.calling, hc.canceling⟩ fun hnone => ?_
    rw [hc.heap, Function.update_apply]
    split
    · rfl
    · exact hnone
  · rw [cancelInLoop_not_pending fun p hact haddr => hpending ⟨p, hact, haddr⟩]
    split
    · refine hd.imp id (And.imp_right fun hmark => ?_)
      rw [isCanceled_iff] at hmark ⊢
      exact OrderedSet.exists_key_insert.mpr (.inr hmark)
    · exact hd

/-- `reset` frees what is doomed. -/
theorem Coherent.doomed_endRead {q : TimerQueue} (h : Coherent q) {timerId : TimerId}
    (hid : .addTimer timerId ∈ q.trace) (hd : Doomed q timerId) (now' : Timestamp) :
    Doomed (q.endRead now') timerId := by
  unfold TimerQueue.endRead
  split
  · next now expired hb =>
    have hin : q.inBatch = expired.map Prod.snd := by simp [inBatch, hb]
    have hstart := h.leaveBatch hb
    have hgone : (expired.foldl (TimerQueue.resetOne now)
        { q with callingExpiredTimers_ := false, batch := none }).heap timerId.timer_ = none := by
      rcases hd with hnone | ⟨hmem, hmark⟩
      · exact hstart.foldl_resetOne_none now hnone
      · rw [hin] at hmem
        refine hstart.foldl_resetOne_canceled now hmem ?_
        rw [(h.sound.object _ _ hid).1]
        exact hmark
    refine .inl ?_
    rw [TimerQueue.reset, ((hstart.foldl_resetOne now).1.heap_rearm now')]
    exact hgone
  · exact hd

/-- Once a timer is doomed it stays so. -/
theorem Coherent.doomed_step {q : TimerQueue} (h : Coherent q) {timerId : TimerId}
    (hid : .addTimer timerId ∈ q.trace) (hd : Doomed q timerId) {e : Event}
    (hok : Allocates q e) : Doomed (q.step e) timerId := by
  cases e with
  | addTimer addr when' interval rep now =>
    have hsound := h.sound.newTimer hok.2 hok.1 when' interval rep
    obtain ⟨-, hsame, hheap⟩ := hsound.addTimerInLoop now
    have hfirst : SameBatch q (q.newTimer addr when' interval rep) := ⟨rfl, rfl, rfl, rfl⟩
    refine hd.of_same (hfirst.trans hsame) fun hnone => ?_
    show ((q.newTimer addr when' interval rep).addTimerInLoop _ now).heap _ = none
    rw [hheap]
    exact h.gone_newTimer hid hnone addr when' interval rep
  | addTimerFromThread addr when' interval rep =>
    exact hd.imp (fun hnone => h.gone_newTimer hid hnone addr when' interval rep) id
  | runFunctor p now =>
    simp only [TimerQueue.step, TimerQueue.runFunctor]
    split
    · next hc =>
      have hnone : q.heap timerId.timer_ = none := by
        refine hd.resolve_right fun hin => ?_
        simp [inBatch_of_none hc.1] at hin
      obtain ⟨-, -, hheap⟩ := (h.popFunctor hc.1 hc.2).addTimerInLoop now
      exact .inl (by rw [hheap]; exact hnone)
    · exact hd
  | cancelInLoop timerId' => exact h.doomed_cancelInLoop hd timerId'
  | handleRead now =>
    simp only [TimerQueue.step]
    by_cases hnone : q.batch = none
    · obtain ⟨timers, active, expired, heq, -⟩ := h.handleRead_eq hnone now
      rw [heq]
      refine .inl (hd.resolve_right fun hin => ?_)
      simp [inBatch, hnone] at hin
    · rw [handleRead_of_batch hnone]
      exact hd
  | runTimer =>
    simp only [TimerQueue.step]
    by_cases hb : ∃ now expired it todo, q.batch = some ⟨now, expired, it :: todo⟩
    · obtain ⟨now, expired, it, todo, hb⟩ := hb
      obtain ⟨t, -, hdef⟩ := h.runTimer_cons hb
      rw [hdef]
      refine hd.imp id (And.imp_left fun hin => ?_)
      simpa [inBatch, hb] using hin
    · rw [runTimer_of_nil fun now expired it todo h => hb ⟨now, expired, it, todo, h⟩]
      exact hd
  | endRead now' => exact h.doomed_endRead hid hd now'

theorem Coherent.doomed_run {q : TimerQueue} (h : Coherent q) {timerId : TimerId}
    (hid : .addTimer timerId ∈ q.trace) (hd : Doomed q timerId) {es : List Event}
    (hok : Meets Allocates TimerQueue.step q es) :
    Coherent (run TimerQueue.step q es) ∧ Doomed (run TimerQueue.step q es) timerId := by
  have hrun := run_invariant
    (I := fun q => Coherent q ∧ .addTimer timerId ∈ q.trace ∧ Doomed q timerId)
    (fun q e hq hok => ⟨hq.1.step hok, addTimer_mem_step hq.2.1 e,
      hq.1.doomed_step hq.2.1 hq.2.2 hok⟩) ⟨h, hid, hd⟩ hok
  exact ⟨hrun.1, hrun.2.2⟩

/-- The pending timer that an issued id names, if there is one, is the id's own. -/
theorem HeapOk.eq_of_issued {q : TimerQueue} (h : HeapOk q) {timerId : TimerId}
    (hid : .addTimer timerId ∈ q.trace) {p : TimerPtr} {t : Timer} (ht : q.heap p = some t)
    (hs : t.sequence_ = timerId.sequence_) : p = timerId.timer_ := by
  have hborn := h.born p t ht
  rw [hs] at hborn
  exact h.unique _ _ _ hborn hid

/-- Cancelling a timer that was inserted dooms it. -/
theorem Coherent.doomed_cancel {q : TimerQueue} (h : Coherent q) {timerId : TimerId}
    (hid : .addTimer timerId ∈ q.trace) (hwait : timerId.timer_ ∉ q.functors) :
    Doomed (q.cancelInLoop timerId) timerId := by
  by_cases hact : (timerId.timer_, timerId.sequence_) ∈ q.activeTimers_
  · refine .inl ?_
    rw [(h.sound.cancelInLoop_pending hact rfl).1.heap]
    exact Function.update_self ..
  · have hnot : ∀ p, (p, timerId.sequence_) ∈ q.activeTimers_ →
        p.addr ≠ timerId.timer_.addr := by
      intro p hm haddr
      obtain ⟨t, ht, hs, -⟩ := h.sound.active p _ hm
      exact hact (h.sound.eq_of_issued hid ht hs ▸ hm)
    rw [cancelInLoop_not_pending hnot]
    cases hl : q.heap timerId.timer_ with
    | none =>
      refine .inl ?_
      split <;> exact hl
    | some t =>
      have hs : t.sequence_ = timerId.sequence_ :=
        (h.sound.object_eq hl).symm.trans (h.sound.object _ _ hid).1
      -- a live timer that is neither pending nor waiting is in the batch
      have hin : timerId.timer_ ∈ q.inBatch := by
        rcases h.sound.covered _ t hl with hm | hm
        · exact (List.mem_append.mp hm).resolve_right hwait
        · exact absurd (hs ▸ hm) hact
      have hcalling : q.callingExpiredTimers_ = true := by
        rw [h.calling]
        cases hb : q.batch with
        | none => simp [inBatch, hb] at hin
        | some b => rfl
      rw [if_pos hcalling]
      refine .inr ⟨hin, ?_⟩
      rw [isCanceled_iff]
      exact OrderedSet.exists_key_insert.mpr (.inl rfl)

/-! ## Every reachable state -/

/-- What the sets, the heap and the batch look like. -/
structure SetsConsistent (q : TimerQueue) : Prop where
  same : (q.timers_.toList.map Prod.snd).Perm (q.activeTimers_.toList.map Prod.fst)
  expiration : ∀ when' p, (when', p) ∈ q.timers_ →
    ∃ t, q.heap p = some t ∧ t.expiration_ = when'
  sequence : ∀ p s, (p, s) ∈ q.activeTimers_ → ∃ t, q.heap p = some t ∧ t.sequence_ = s
  place : ∀ p t, q.heap p = some t → p ∉ q.functors →
    Xor ((t.expiration_, p) ∈ q.timers_ ∧ (p, t.sequence_) ∈ q.activeTimers_) (p ∈ q.inBatch)
  once : q.inBatch.Nodup
  freed : ∀ timerId, .addTimer timerId ∈ q.trace →
    q.trace.count (.delete timerId.sequence_) = if q.heap timerId.timer_ = none then 1 else 0
  unused : ∀ p, .dangling p ∉ q.trace

/-- `q'` is `q` without the timer that `timerId` names, which is freed if it was pending. -/
structure CancelsExactly (q q' : TimerQueue) (timerId : TimerId) : Prop where
  timers : ∀ when' p, (when', p) ∈ q'.timers_ ↔ (when', p) ∈ q.timers_ ∧ p ≠ timerId.timer_
  active : ∀ p s, (p, s) ∈ q'.activeTimers_ ↔ (p, s) ∈ q.activeTimers_ ∧ s ≠ timerId.sequence_
  freed : (timerId.timer_, timerId.sequence_) ∈ q.activeTimers_ → q'.heap timerId.timer_ = none
  others : ∀ p, p ≠ timerId.timer_ ∨ (p, timerId.sequence_) ∉ q.activeTimers_ →
    q'.heap p = q.heap p

/-- The timer `timerId` names is in neither set. -/
def NotInserted (q : TimerQueue) (timerId : TimerId) : Prop :=
  (∀ when', (when', timerId.timer_) ∉ q.timers_) ∧ ∀ s, (timerId.timer_, s) ∉ q.activeTimers_

theorem Coherent.same {q : TimerQueue} (h : Coherent q) :
    (q.timers_.toList.map Prod.snd).Perm (q.activeTimers_.toList.map Prod.fst) := by
  have hleft : (q.timers_.toList.map Prod.snd).Nodup := by
    refine List.Nodup.map_on ?_ q.timers_.nodup_toList
    rintro ⟨w, p⟩ hm ⟨w', p'⟩ hm' rfl
    obtain ⟨t, ht, hw, -⟩ := h.sound.timers w p hm
    obtain ⟨t', ht', hw', -⟩ := h.sound.timers w' p hm'
    obtain rfl : t = t' := Option.some.inj (ht.symm.trans ht')
    rw [← hw, ← hw']
  have hright : (q.activeTimers_.toList.map Prod.fst).Nodup := by
    refine List.Nodup.map_on ?_ q.activeTimers_.nodup_toList
    rintro ⟨p, s⟩ hm ⟨p', s'⟩ hm' rfl
    obtain ⟨t, ht, hs, -⟩ := h.sound.active p s hm
    obtain ⟨t', ht', hs', -⟩ := h.sound.active p s' hm'
    obtain rfl : t = t' := Option.some.inj (ht.symm.trans ht')
    rw [← hs, ← hs']
  rw [List.perm_ext_iff_of_nodup hleft hright]
  intro p
  simp only [List.mem_map, Prod.exists, exists_eq_right, exists_and_right]
  constructor
  · rintro ⟨w, hm⟩
    obtain ⟨t, -, -, hact⟩ := h.sound.timers w p hm
    exact ⟨_, hact⟩
  · rintro ⟨s, hm⟩
    obtain ⟨t, -, -, htm⟩ := h.sound.active p s hm
    exact ⟨_, htm⟩

theorem Coherent.setsConsistent {q : TimerQueue} (h : Coherent q) : SetsConsistent q := by
  refine ⟨h.same, ?_, ?_, ?_, ?_, ?_, h.sound.clean⟩
  · intro w p hm
    obtain ⟨t, ht, hw, -⟩ := h.sound.timers w p hm
    exact ⟨t, ht, hw⟩
  · intro p s hm
    obtain ⟨t, ht, hs, -⟩ := h.sound.active p s hm
    exact ⟨t, ht, hs⟩
  · intro p t ht hwait
    by_cases hin : p ∈ q.inBatch
    · exact .inr ⟨hin, fun hset => h.sound.apart p (List.mem_append_left _ hin) _ hset.2⟩
    · have hact : (p, t.sequence_) ∈ q.activeTimers_ := by
        refine (h.sound.covered p t ht).resolve_left fun hm => ?_
        rcases List.mem_append.mp hm with hm | hm
        · exact hin hm
        · exact hwait hm
      obtain ⟨t', ht', -, htm⟩ := h.sound.active p _ hact
      obtain rfl : t = t' := Option.some.inj (ht.symm.trans ht')
      exact .inl ⟨⟨htm, hact⟩, hin⟩
  · exact (List.nodup_append.mp h.sound.nodup).1
  · rintro ⟨p, s⟩ hid
    split
    · next hnone => exact h.sound.deleted p s hid hnone
    · next hsome =>
      obtain ⟨t, ht⟩ := Option.ne_none_iff_exists'.mp hsome
      obtain rfl : t.sequence_ = s :=
        (h.sound.object_eq ht).symm.trans (h.sound.object _ _ hid).1
      exact List.count_eq_zero_of_not_mem (h.sound.undeleted p t ht)

theorem Coherent.cancelsExactly {q : TimerQueue} (h : Coherent q) {timerId : TimerId}
    (hid : .addTimer timerId ∈ q.trace) :
    CancelsExactly q (q.cancelInLoop timerId) timerId := by
  -- among the pending timers the number is the id's own
  have hown : ∀ p s, (p, s) ∈ q.activeTimers_ → (p = timerId.timer_ ↔ s = timerId.sequence_) := by
    intro p s hm
    obtain ⟨t, ht, rfl, -⟩ := h.sound.active p s hm
    constructor
    · rintro rfl
      exact (h.sound.object_eq ht).symm.trans (h.sound.object _ _ hid).1
    · exact h.sound.eq_of_issued hid ht
  by_cases hact : (timerId.timer_, timerId.sequence_) ∈ q.activeTimers_
  · have hc := (h.sound.cancelInLoop_pending hact rfl).1
    refine ⟨hc.timers, ?_, ?_, ?_⟩
    · intro p s
      rw [hc.active]
      exact and_congr_right fun hm => not_congr (hown p s hm)
    · intro _
      rw [hc.heap]
      exact Function.update_self ..
    · intro p hp
      rw [hc.heap]
      refine Function.update_of_ne ?_ ..
      rintro rfl
      exact (hp.resolve_left fun hne => hne rfl) hact
  · have hnot : ∀ p, (p, timerId.sequence_) ∉ q.activeTimers_ := by
      intro p hm
      exact hact ((hown p _ hm).mpr rfl ▸ hm)
    have hactive : ∀ p s, (p, s) ∈ q.activeTimers_ → s ≠ timerId.sequence_ := by
      rintro p _ hm rfl
      exact hnot p hm
    have htimers : ∀ w p, (w, p) ∈ q.timers_ → p ≠ timerId.timer_ := by
      intro w p hm heq
      obtain ⟨t, -, -, hm⟩ := h.sound.timers w p hm
      exact hactive p _ hm ((hown p _ hm).mp heq)
    rw [cancelInLoop_not_pending fun p hm => absurd hm (hnot p)]
    have hkeep : CancelsExactly q q timerId :=
      ⟨fun w p => (and_iff_left_of_imp (htimers w p)).symm,
        fun p s => (and_iff_left_of_imp (hactive p s)).symm, fun hm => absurd hm hact,
        fun _ _ => rfl⟩
    split
    · exact ⟨hkeep.timers, hkeep.active, hkeep.freed, hkeep.others⟩
    · exact hkeep

/-- In every reachable state, whatever addresses are used again: the two sets hold the same timers,
each under its current key; a timer is in both or in the batch, is freed once and not used after;
a cancel takes out the one timer it names; and a timer cancelled during its batch never comes
back. -/
theorem timer_sets_consistent (es : List Event) (hok : Meets Allocates step new es) :
    let q := run step new es
    q.SetsConsistent ∧
      (∀ timerId, .addTimer timerId ∈ q.trace →
        CancelsExactly q (q.cancelInLoop timerId) timerId) ∧
      ∀ timerId, .addTimer timerId ∈ q.trace → timerId.timer_ ∈ q.inBatch → ∀ es',
        Meets Allocates step (q.cancelInLoop timerId) es' →
        NotInserted (run step (q.cancelInLoop timerId) es') timerId := by
  intro q
  have h : Coherent q := coherent_run hok
  refine ⟨h.setsConsistent, fun timerId hid => h.cancelsExactly hid, ?_⟩
  intro timerId hid hin es' hok'
  have hwait : timerId.timer_ ∉ q.functors := fun hm =>
    (List.nodup_append.mp h.sound.nodup).2.2 _ hin _ hm rfl
  have hdoomed := h.doomed_cancel hid hwait
  have hid' : .addTimer timerId ∈ (q.cancelInLoop timerId).trace :=
    addTimer_mem_step hid (.cancelInLoop timerId)
  obtain ⟨hcoh, hd⟩ := (h.cancelInLoop timerId).doomed_run hid' hdoomed hok'
  exact hcoh.notMem_of_doomed hd

/-- Two timers at the same address, one after the other, and a repeating one that is cancelled by
a callback of its batch. -/
theorem timer_sets_consistent_reuse :
    let q := run step new
      [.addTimer 16 100 50 true 0, .addTimer 32 100 0 false 0, .cancelInLoop ⟨⟨32, 2⟩, 2⟩,
        .addTimer 32 90 0 false 0, .handleRead 100, .runTimer]
    q.inBatch = [⟨32, 3⟩, ⟨16, 1⟩] ∧ q.SetsConsistent ∧
      NotInserted (run step (q.cancelInLoop ⟨⟨16, 1⟩, 1⟩) [.runTimer, .endRead 100])
        ⟨⟨16, 1⟩, 1⟩ := by
  intro q
  obtain ⟨hsets, -, hnever⟩ := timer_sets_consistent
    [.addTimer 16 100 50 true 0, .addTimer 32 100 0 false 0, .cancelInLoop ⟨⟨32, 2⟩, 2⟩,
      .addTimer 32 90 0 false 0, .handleRead 100, .runTimer] (by decide +kernel)
  have hin : q.inBatch = [⟨32, 3⟩, ⟨16, 1⟩] := by decide +kernel
  refine ⟨hin, hsets, hnever ⟨⟨16, 1⟩, 1⟩ (by decide +kernel) ?_ _ (by decide +kernel)⟩
  decide +kernel

end TimerQueue

end Mymuduo
