import Mymuduo.Net.TimerSets

/-!
# What a cancel stops

`cancelInLoop` frees a timer that is pending, and `reset` does not start one again that was
cancelled during its batch. Two stages of a timer's life are missed: while the `addTimerInLoop` of
the timer still waits in the loop, `cancelInLoop` finds nothing and remembers nothing, and nobody
asks `cancelingTimers_` before the callbacks of the batch are started.

* `cancelled_never_runs`: a cancel stops a timer for good if and only if the timer is in neither
  of the two stages.
* `cancelled_never_runs_fails`: a timer cancelled by the callback before its own runs.
-/

namespace Mymuduo

open Transition

namespace TimerQueue

/-- The timers of the batch whose callbacks are still to be started. -/
def toRun (q : TimerQueue) : List TimerPtr :=
  match q.batch with
  | none => []
  | some b => b.todo.map Prod.snd

/-- The timer's callback is not started any more, whatever happens. -/
def NeverRuns (q : TimerQueue) (timerId : TimerId) : Prop :=
  ∀ es, Meets Allocates step q es →
    ∃ tr, (run step q es).trace = q.trace ++ tr ∧ .run timerId.sequence_ ∉ tr

/-! ## What keeps the batch -/

theorem batch_addTimerInLoop (q : TimerQueue) (p : TimerPtr) (now : Timestamp) :
    (q.addTimerInLoop p now).batch = q.batch := by
  cases hp : q.heap p with
  | none => simp [addTimerInLoop, TimerQueue.insert, hp]
  | some t =>
    rw [addTimerInLoop_eq hp]
    split <;> simp [TimerQueue.insert, hp]

theorem delete_frame (q : TimerQueue) (p : TimerPtr) :
    (q.delete p).batch = q.batch ∧ (q.delete p).functors = q.functors := by
  unfold delete
  split
  · exact ⟨rfl, rfl⟩
  · exact ⟨rfl, rfl⟩

theorem cancelInLoop_frame (q : TimerQueue) (timerId : TimerId) :
    (q.cancelInLoop timerId).batch = q.batch ∧
      (q.cancelInLoop timerId).functors = q.functors := by
  rw [cancelInLoop]
  dsimp only
  split
  · split
    · exact ⟨rfl, rfl⟩
    · exact delete_frame _ _
  · split
    · exact ⟨rfl, rfl⟩
    · exact ⟨rfl, rfl⟩

theorem toRun_of_batch {q q' : TimerQueue} (h : q'.batch = q.batch) : q'.toRun = q.toRun := by
  rw [toRun, toRun, h]

theorem Coherent.endRead_frame {q : TimerQueue} (h : Coherent q) {now : Timestamp}
    {expired : List Entry} (hb : q.batch = some ⟨now, expired, []⟩) (now' : Timestamp) :
    (q.endRead now').batch = none ∧ (q.endRead now').functors = q.functors := by
  obtain ⟨hsound, hsame⟩ := (h.leaveBatch hb).foldl_resetOne now
  have hboth := hsame.trans (hsound.rearm now').2
  simp only [TimerQueue.endRead, hb, reset]
  exact ⟨hboth.batch, hboth.functors⟩

/-- A timer comes to be run by expiring. -/
theorem Coherent.toRun_step {q : TimerQueue} (h : Coherent q) (e : Event) {p : TimerPtr}
    (hp : p ∈ (q.step e).toRun) : p ∈ q.toRun ∨ ∃ when', (when', p) ∈ q.timers_ := by
  cases e with
  | addTimer addr when' interval rep now =>
    left
    rwa [TimerQueue.step, TimerQueue.addTimer, toRun_of_batch (batch_addTimerInLoop _ _ _)] at hp
  | addTimerFromThread addr when' interval rep => exact .inl hp
  | runFunctor p' now =>
    left
    simp only [TimerQueue.step, TimerQueue.runFunctor] at hp
    split at hp
    · rwa [toRun_of_batch (batch_addTimerInLoop _ _ _)] at hp
    · exact hp
  | cancelInLoop timerId =>
    left
    rwa [TimerQueue.step, toRun_of_batch (cancelInLoop_frame q timerId).1] at hp
  | handleRead now =>
    simp only [TimerQueue.step] at hp
    by_cases hnone : q.batch = none
    · obtain ⟨timers, active, expired, heq, -, hexp, -⟩ := h.handleRead_eq hnone now
      rw [heq] at hp
      obtain ⟨⟨w, p'⟩, hm, rfl⟩ := List.mem_map.mp hp
      exact .inr ⟨w, ((hexp _).mp hm).1⟩
    · left
      rwa [handleRead_of_batch hnone] at hp
  | runTimer =>
    left
    simp only [TimerQueue.step] at hp
    by_cases hb : ∃ now expired it todo, q.batch = some ⟨now, expired, it :: todo⟩
    · obtain ⟨now, expired, it, todo, hb⟩ := hb
      obtain ⟨t, -, hdef⟩ := h.runTimer_cons hb
      rw [hdef] at hp
      simp only [toRun, hb]
      exact List.mem_cons_of_mem _ hp
    · rwa [runTimer_of_nil fun now expired it todo h => hb ⟨now, expired, it, todo, h⟩] at hp
  | endRead now' =>
    simp only [TimerQueue.step] at hp
    by_cases hb : ∃ now expired, q.batch = some ⟨now, expired, []⟩
    · obtain ⟨now, expired, hb⟩ := hb
      simp [toRun, (h.endRead_frame hb now').1] at hp
    · left
      rw [TimerQueue.endRead] at hp
      split at hp
      · next now expired hb' => exact absurd ⟨now, expired, hb'⟩ hb
      · exact hp

/-! ## What a cancel stops -/

/-- The callback that a step starts is that of a timer still to be run. -/
theorem Coherent.trace_step {q : TimerQueue} (h : Coherent q) (e : Event) :
    ∃ tr, (q.step e).trace = q.trace ++ tr ∧
      ∀ s, .run s ∈ tr → ∃ p t, p ∈ q.toRun ∧ q.heap p = some t ∧ t.sequence_ = s := by
  by_cases he : e = .runTimer
  · subst he
    by_cases hb : ∃ now expired it todo, q.batch = some ⟨now, expired, it :: todo⟩
    · obtain ⟨now, expired, it, todo, hb⟩ := hb
      obtain ⟨t, ht, hdef⟩ := h.runTimer_cons hb
      refine ⟨[.run t.sequence_], by simp [TimerQueue.step, hdef], ?_⟩
      intro s hs
      obtain rfl : s = t.sequence_ := by simpa using hs
      exact ⟨it.2, t, by simp [toRun, hb], ht, rfl⟩
    · refine ⟨[], ?_, by simp⟩
      simp [TimerQueue.step,
        runTimer_of_nil fun now expired it todo h => hb ⟨now, expired, it, todo, h⟩]
  · obtain ⟨tr, htr, hno⟩ := quiet_step q he
    exact ⟨tr, htr, fun s hs => absurd (hno _ hs) id⟩

/-- A doomed timer that is not still to be run never runs. -/
theorem Coherent.neverRuns {q : TimerQueue} (h : Coherent q) {timerId : TimerId}
    (hid : .addTimer timerId ∈ q.trace) (hd : Doomed q timerId)
    (hnot : timerId.timer_ ∉ q.toRun) : NeverRuns q timerId := by
  intro es hok
  induction es generalizing q with
  | nil => exact ⟨[], by simp, by simp⟩
  | cons e es ih =>
    have hnot' : timerId.timer_ ∉ (q.step e).toRun := by
      intro hm
      rcases h.toRun_step e hm with hm | ⟨w, hm⟩
      · exact hnot hm
      · exact (h.notMem_of_doomed hd).1 w hm
    obtain ⟨tr, htr, hstarted⟩ := h.trace_step e
    obtain ⟨tr', htr', hno⟩ := ih (h.step hok.1) (addTimer_mem_step hid e)
      (h.doomed_step hid hd hok.1) hnot' hok.2
    refine ⟨tr ++ tr', by rw [run_cons, htr', htr, List.append_assoc], ?_⟩
    intro hm
    rcases List.mem_append.mp hm with hm | hm
    · obtain ⟨p, t, hp, ht, hs⟩ := hstarted _ hm
      exact hnot (h.sound.eq_of_issued hid ht hs ▸ hp)
    · exact hno hm

/-! ## What it does not stop -/

/-- Some run starts the callback. -/
def CanRun (q : TimerQueue) (s : Nat) : Prop :=
  ∃ es, Meets Allocates step q es ∧
    ∃ tr, (run step q es).trace = q.trace ++ tr ∧ .run s ∈ tr

theorem CanRun.not_neverRuns {q : TimerQueue} {timerId : TimerId}
    (h : CanRun q timerId.sequence_) : ¬ NeverRuns q timerId := by
  intro hnever
  obtain ⟨es, hok, tr, htr, hm⟩ := h
  obtain ⟨tr', htr', hno⟩ := hnever es hok
  exact hno (List.append_cancel_left (htr'.symm.trans htr) ▸ hm)

theorem CanRun.of_step {q : TimerQueue} (h : Coherent q) {e : Event} {s : Nat}
    (hok : Allocates q e) (hstep : CanRun (q.step e) s) : CanRun q s := by
  obtain ⟨es, hoks, tr', htr', hm⟩ := hstep
  obtain ⟨tr, htr, -⟩ := h.trace_step e
  refine ⟨e :: es, ⟨hok, hoks⟩, tr ++ tr', ?_, List.mem_append_right tr hm⟩
  rw [run_cons, htr', htr, List.append_assoc]

theorem Coherent.canRun_of_toRun {q : TimerQueue} (h : Coherent q) {p : TimerPtr}
    (hp : p ∈ q.toRun) : CanRun q p.object := by
  obtain ⟨⟨now, expired, todo⟩, hb, hm⟩ : ∃ b, q.batch = some b ∧ p ∈ b.todo.map Prod.snd := by
    cases hb : q.batch with
    | none => simp [toRun, hb] at hp
    | some b => exact ⟨b, rfl, by simpa [toRun, hb] using hp⟩
  clear hp
  induction todo generalizing q with
  | nil => cases hm
  | cons it todo ih =>
    obtain ⟨t, ht, hdef⟩ := h.runTimer_cons hb
    rcases List.mem_cons.mp hm with rfl | hm
    · refine ⟨[.runTimer], ⟨trivial, trivial⟩, [.run t.sequence_], ?_, ?_⟩
      · simp [TimerQueue.step, hdef]
      · rw [h.sound.object_eq ht]
        exact List.mem_singleton_self _
    · refine .of_step h (e := .runTimer) trivial (ih (h.step trivial) ?_ hm)
      simp [TimerQueue.step, hdef]

/-- A timer in the sets can expire. -/
theorem Coherent.canRun_of_timers {q : TimerQueue} (h : Coherent q) (hnone : q.batch = none)
    {when' : Timestamp} {p : TimerPtr} (hp : (when', p) ∈ q.timers_) : CanRun q p.object := by
  refine .of_step h (e := .handleRead when') trivial
    ((h.step (e := .handleRead when') trivial).canRun_of_toRun ?_)
  obtain ⟨timers, active, expired, heq, -, hexp, -⟩ := h.handleRead_eq hnone when'
  rw [TimerQueue.step, heq]
  exact List.mem_map_of_mem ((hexp _).mpr ⟨hp, le_rfl⟩)

theorem Coherent.canRun_of_functors {q : TimerQueue} (h : Coherent q) {p : TimerPtr}
    (hp : p ∈ q.functors) : CanRun q p.object := by
  have hidle : ∀ {q : TimerQueue}, Coherent q → p ∈ q.functors → q.batch = none →
      CanRun q p.object := by
    intro q h hp hnone
    refine .of_step h (e := .runFunctor p 0) trivial ?_
    have hpop := h.popFunctor hnone hp
    obtain ⟨t, ht⟩ := hpop.live p List.mem_cons_self
    obtain ⟨hsound, hsame, hheap⟩ := hpop.addTimerInLoop 0
    have heq : q.step (.runFunctor p 0) =
        ({ q with functors := q.functors.erase p } : TimerQueue).addTimerInLoop p 0 := by
      simp [TimerQueue.step, TimerQueue.runFunctor, hnone, hp]
    have hnone' : (q.step (.runFunctor p 0)).batch = none := by
      rw [heq, hsame.batch]
      exact hnone
    have hnot : p ∉ q.functors.erase p := (List.nodup_cons.mp hpop.nodup).1
    have hact : (p, t.sequence_) ∈ (q.step (.runFunctor p 0)).activeTimers_ := by
      rw [heq]
      exact (hsound.covered p t (by rw [hheap]; exact ht)).resolve_left hnot
    have hnext := h.step (e := .runFunctor p 0) trivial
    obtain ⟨t', -, -, htm⟩ := hnext.sound.active p _ hact
    exact hnext.canRun_of_timers hnone' htm
  cases hb : q.batch with
  | none => exact hidle h hp hb
  | some b =>
    -- the batch is finished first
    obtain ⟨now, expired, todo⟩ := b
    induction todo generalizing q with
    | nil =>
      refine .of_step h (e := .endRead 0) trivial ?_
      obtain ⟨hnone, hfun⟩ := h.endRead_frame hb 0
      exact hidle (h.step (e := .endRead 0) trivial) (hfun ▸ hp) hnone
    | cons it todo ih =>
      obtain ⟨t, ht, hdef⟩ := h.runTimer_cons hb
      refine .of_step h (e := .runTimer) trivial (ih (h.step trivial) ?_ ?_)
      · simpa [TimerQueue.step, hdef] using hp
      · simp [TimerQueue.step, hdef]

/-! ## Every reachable state -/

/-- A cancel stops a timer for good if and only if the timer neither waits for its queued
`addTimerInLoop` nor is still to be run in the batch. -/
theorem cancelled_never_runs (es : List Event) (hok : Meets Allocates step new es)
    (timerId : TimerId) (hid : .addTimer timerId ∈ (run step new es).trace) :
    let q := run step new es
    NeverRuns (q.cancelInLoop timerId) timerId ↔
      timerId.timer_ ∉ q.functors ∧ timerId.timer_ ∉ q.toRun := by
  intro q
  have h : Coherent q := coherent_run hok
  have hnext : Coherent (q.cancelInLoop timerId) := h.cancelInLoop timerId
  obtain ⟨hbatch, hfun⟩ := cancelInLoop_frame q timerId
  have hobj : timerId.timer_.object = timerId.sequence_ := (h.sound.object _ _ hid).1
  constructor
  · intro hnever
    constructor
    · intro hm
      have hcan := hnext.canRun_of_functors (hfun ▸ hm)
      rw [hobj] at hcan
      exact hcan.not_neverRuns hnever
    · intro hm
      have hcan := hnext.canRun_of_toRun (toRun_of_batch hbatch ▸ hm)
      rw [hobj] at hcan
      exact hcan.not_neverRuns hnever
  · rintro ⟨hwait, hrun⟩
    refine hnext.neverRuns (addTimer_mem_step hid (.cancelInLoop timerId))
      (h.doomed_cancel hid hwait) ?_
    rw [toRun_of_batch hbatch]
    exact hrun

/-- A periodic timer that cancels itself is stopped. -/
theorem cancelled_never_runs_self :
    NeverRuns ((run step new [.addTimer 16 100 50 true 0, .handleRead 100, .runTimer]).cancelInLoop
      ⟨⟨16, 1⟩, 1⟩) ⟨⟨16, 1⟩, 1⟩ :=
  (cancelled_never_runs [.addTimer 16 100 50 true 0, .handleRead 100, .runTimer]
    (by decide +kernel) ⟨⟨16, 1⟩, 1⟩ (by decide +kernel)).mpr (by decide +kernel)

/-- Two timers expire in one batch, and the callback of the first cancels the second, which runs
all the same. -/
theorem cancelled_never_runs_fails :
    ¬ ∀ es, Meets Allocates step new es → ∀ timerId,
      .addTimer timerId ∈ (run step new es).trace →
      NeverRuns ((run step new es).cancelInLoop timerId) timerId := by
  intro hall
  obtain ⟨tr, htr, hno⟩ := hall
    [.addTimer 16 100 0 false 0, .addTimer 32 100 0 false 0, .handleRead 100, .runTimer]
    (by decide +kernel) ⟨⟨32, 2⟩, 2⟩ (by decide +kernel) [.runTimer] ⟨trivial, trivial⟩
  have hran : (run step ((run step new
      [.addTimer 16 100 0 false 0, .addTimer 32 100 0 false 0, .handleRead 100,
        .runTimer]).cancelInLoop ⟨⟨32, 2⟩, 2⟩) [.runTimer]).trace =
      ((run step new [.addTimer 16 100 0 false 0, .addTimer 32 100 0 false 0, .handleRead 100,
        .runTimer]).cancelInLoop ⟨⟨32, 2⟩, 2⟩).trace ++ [.run 2] := by
    decide +kernel
  have heq := List.append_cancel_left (htr.symm.trans hran)
  rw [heq] at hno
  exact hno (List.mem_singleton_self _)

end TimerQueue

end Mymuduo
