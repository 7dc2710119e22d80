import Mymuduo.Net.TimerSets
import Mathlib.Order.MinMax

/-!
# The arming of `timerfd_`

Between two steps of the loop the descriptor is set for the earliest timer, or for 100 microseconds
after it was last set, if that is later. `howMuchTimeFromNow` gets there by subtracting 64-bit
numbers, so a time point that lies too far in the past looks like one in the far future, and a
period that is too long makes `restart` store a time point that `reset` takes for "no timer".

* `timer_armed`: the descriptor is armed in time in every run whose steps stay clear of this.
* `timer_armed_fails`: a timer for the least time point, after which no timer fires.
-/

namespace Mymuduo

open Transition

open Timestamp

/-- The time points and the clock readings of an event are `int64_t`s. -/
def TimerQueue.Event.IsInt64 : TimerQueue.Event → Prop
  | .addTimer _ when' _ _ now => int64 when' = when' ∧ int64 now = now
  | .addTimerFromThread _ when' _ _ => int64 when' = when'
  | .runFunctor _ now => int64 now = now
  | .handleRead now => int64 now = now
  | .endRead now' => int64 now' = now'
  | _ => True

namespace TimerQueue

instance : (e : Event) → Decidable e.IsInt64
  | .addTimer .. => inferInstanceAs (Decidable (_ ∧ _))
  | .addTimerFromThread .. | .runFunctor .. | .handleRead .. | .endRead .. =>
    inferInstanceAs (Decidable (_ = _))
  | .cancelInLoop .. | .runTimer => instDecidableTrue

/-- The step stays clear of the ends of `int64_t`: a timer that goes to the front is not due since
more than 2^63 microseconds; what is not due when the descriptor fires is due at a valid time
point; and a period that starts again ends at one. -/
def StaysInRange (q : TimerQueue) : Event → Prop
  | .addTimer _ when' _ _ now => q.earliestChanged when' = true → -2 ^ 63 ≤ when' - now
  | .runFunctor p now =>
    ∀ t ∈ q.heap p, q.earliestChanged t.expiration_ = true → -2 ^ 63 ≤ t.expiration_ - now
  | .handleRead now => ∀ it ∈ q.timers_.toList, it.1 ≤ now ∨ Timestamp.valid it.1 = true
  | .endRead _ =>
    ∀ b ∈ q.batch, ∀ it ∈ b.expired, ∀ t ∈ q.heap it.2, t.repeat_ = true →
      q.isCanceled it.2 t.sequence_ = false → Timestamp.valid (addTime b.now t.interval_) = true
  | _ => True

instance (q : TimerQueue) : (e : Event) → Decidable (q.StaysInRange e)
  | .addTimer .. => inferInstanceAs (Decidable (_ → _))
  | .runFunctor .. | .handleRead .. | .endRead .. => inferInstanceAs (Decidable (∀ _ ∈ _, _))
  | .addTimerFromThread .. | .cancelInLoop .. | .runTimer => instDecidableTrue

/-! ## When the alarm goes off -/

theorem neg_le_int64 (z : Int) : -2 ^ 63 ≤ int64 z ∧ int64 z < 2 ^ 63 := by
  rw [int64]
  exact ⟨Int.le_bmod (by decide), Int.bmod_lt (by decide)⟩

theorem int64_le {z : Int} (h : -2 ^ 63 ≤ z) : int64 z ≤ z := by
  rw [int64, Int.bmod]
  omega

/-- The descriptor goes off when the clock has advanced by what was asked for. -/
theorem instant_eq (expiration now : Timestamp) :
    Alarm.instant ⟨now, howMuchTimeFromNow expiration now⟩ =
      now + max 100 (int64 (expiration - now)) := by
  have hmax : (if int64 (expiration - now) < 100 then 100 else int64 (expiration - now)) =
      max 100 (int64 (expiration - now)) := by
    split <;> omega
  have hparts : ∀ n m : Int,
      n + m / (1000 * 1000) * (1000 * 1000) + m % (1000 * 1000) * 1000 / 1000 = n + m := by omega
  simp only [Alarm.instant, howMuchTimeFromNow, hmax, kMicroSecondsPerSecond]
  exact hparts now _

/-- The descriptor is armed for an instant that suits a timer which is due at `when'`. -/
def Covered (q : TimerQueue) (when' : Timestamp) : Prop :=
  ∃ alarm, q.timerfd_ = some alarm ∧ alarm.instant ≤ max when' (alarm.since + 100)

theorem Covered.mono {q : TimerQueue} {w w' : Timestamp} (h : Covered q w) (hle : w ≤ w') :
    Covered q w' := by
  obtain ⟨alarm, ha, hinst⟩ := h
  exact ⟨alarm, ha, hinst.trans (max_le_max hle le_rfl)⟩

theorem Covered.of_eq {q q' : TimerQueue} {w : Timestamp} (h : Covered q w)
    (heq : q'.timerfd_ = q.timerfd_) : Covered q' w := by
  rwa [Covered, heq]

theorem covered_resetTimerfd (q : TimerQueue) {expiration now : Timestamp}
    (hin : -2 ^ 63 ≤ expiration - now) : Covered (q.resetTimerfd expiration now) expiration := by
  refine ⟨⟨now, howMuchTimeFromNow expiration now⟩, rfl, ?_⟩
  have hmax : ∀ n e m : Int, m ≤ e - n → n + max 100 m ≤ max e (n + 100) := by omega
  rw [instant_eq]
  exact hmax now expiration _ (int64_le hin)

/-! ## The front of `timers_` -/

theorem Entry.fst_le {it it' : Entry} (h : Entry.key it ≤ Entry.key it') : it.1 ≤ it'.1 := by
  rcases Prod.Lex.toLex_le_toLex.mp h with hlt | ⟨heq, -⟩
  · exact hlt.le
  · exact heq.le

theorem earliestChanged_eq_true {q : TimerQueue} {w : Timestamp} :
    q.earliestChanged w = true ↔ ∀ it ∈ q.timers_, w < it.1 := by
  rw [earliestChanged]
  cases hb : q.timers_.begin? with
  | none => simp [OrderedSet.begin?_eq_none.mp hb]
  | some it =>
    obtain ⟨hit, hle⟩ := OrderedSet.le_of_begin hb
    simp only [decide_eq_true_eq]
    constructor
    · intro hlt it' hm
      exact lt_of_lt_of_le hlt (Entry.fst_le (hle it' hm))
    · intro hall
      exact hall it hit

/-- The timers that the descriptor has to suit: during a batch, those `reset` would not see to. -/
def Pressing (q : TimerQueue) (when' : Timestamp) : Prop :=
  q.batch = none ∨ when' ≤ 0

/-- The invariant of a run. -/
def Armed (q : TimerQueue) : Prop :=
  ∀ it ∈ q.timers_, Pressing q it.1 → Covered q it.1

theorem armed_of_subset {q q' : TimerQueue} (h : Armed q) (hfd : q'.timerfd_ = q.timerfd_)
    (hbatch : q'.batch = none → q.batch = none)
    (hsub : ∀ it, it ∈ q'.timers_ → it ∈ q.timers_) : Armed q' := fun it hm hp =>
  (h it (hsub it hm) (hp.imp_left hbatch)).of_eq hfd

/-! ## One step -/

/-- A timer that does not go to the front finds the descriptor armed for one that is. -/
theorem Armed.addTimerInLoop {q : TimerQueue} (h : Armed q) {p : TimerPtr} {t : Timer}
    (ht : q.heap p = some t) {now : Timestamp}
    (hin : q.earliestChanged t.expiration_ = true → -2 ^ 63 ≤ t.expiration_ - now) :
    Armed (q.addTimerInLoop p now) := by
  have hins : ∀ {it : Entry}, it ∈ q.timers_.insert (t.expiration_, p) →
      it = (t.expiration_, p) ∨ it ∈ q.timers_ := OrderedSet.mem_insert_imp
  rw [addTimerInLoop_eq ht]
  split
  · next hfront =>
    have hcov : Covered ((q.insert p).1.resetTimerfd t.expiration_ now) t.expiration_ :=
      covered_resetTimerfd _ (hin hfront)
    intro it hm _
    refine hcov.mono ?_
    simp only [TimerQueue.insert, ht, resetTimerfd_timers_] at hm
    rcases hins hm with rfl | hm
    · exact le_rfl
    · exact (earliestChanged_eq_true.mp hfront it hm).le
  · next hback =>
    obtain ⟨it₀, hm₀, hle₀⟩ : ∃ it₀ ∈ q.timers_, it₀.1 ≤ t.expiration_ := by
      simpa only [earliestChanged_eq_true, not_forall, not_lt, exists_prop] using hback
    simp only [TimerQueue.insert, ht]
    intro it hm hp
    refine Covered.of_eq (q := q) ?_ rfl
    rcases hins hm with rfl | hm
    · exact (h it₀ hm₀ (hp.imp_right hle₀.trans)).mono hle₀
    · exact h it hm hp

theorem armed_cancelInLoop {q : TimerQueue} (hq : Coherent q) (h : Armed q) (timerId : TimerId) :
    Armed (q.cancelInLoop timerId) := by
  by_cases hpending : ∃ p, (p, timerId.sequence_) ∈ q.activeTimers_ ∧ p.addr = timerId.timer_.addr
  · obtain ⟨p, hact, haddr⟩ := hpending
    have hc := (hq.sound.cancelInLoop_pending hact haddr).1
    refine armed_of_subset h hc.timerfd_ (fun hb => hc.batch ▸ hb) ?_
    rintro ⟨w, p'⟩ hm
    exact ((hc.timers w p').mp hm).1
  · rw [cancelInLoop_not_pending fun p hact haddr => hpending ⟨p, hact, haddr⟩]
    split
    · exact armed_of_subset h rfl id fun _ hm => hm
    · exact h

theorem resetOne_timers {q : TimerQueue} {it : Entry} {t : Timer} (ht : q.heap it.2 = some t)
    {now : Timestamp} (hvalid : t.repeat_ = true → q.isCanceled it.2 t.sequence_ = false →
      Timestamp.valid (addTime now t.interval_) = true) :
    (resetOne now q it).timerfd_ = q.timerfd_ ∧
      ∀ it' ∈ (resetOne now q it).timers_, it'.1 ≤ 0 → it' ∈ q.timers_ := by
  have hcases := resetOne_cases ht now
  generalize resetOne now q it = q' at hcases ⊢
  cases hcases with
  | restarted t' ht' hrep hno =>
    obtain rfl : t = t' := Option.some.inj (ht.symm.trans ht')
    simp only [TimerQueue.insert, Function.update_self]
    refine ⟨trivial, ?_⟩
    intro it' hm hle
    refine (OrderedSet.mem_insert_imp hm).resolve_left ?_
    rintro rfl
    have hpos := hvalid hrep hno
    simp only [Timer.restart, hrep, if_true] at hle
    rw [Timestamp.valid, decide_eq_true_eq] at hpos
    exact absurd hle (not_le.mpr hpos)
  | freed t' ht' hwhy =>
    rw [delete_eq ht]
    exact ⟨rfl, fun it' hm _ => hm⟩

/-- The loop in `reset` leaves the descriptor alone, and what it inserts is due at a valid time. -/
theorem foldl_resetOne_timers {expired : List Entry} {q : TimerQueue} {loose : List TimerPtr}
    (h : Sound q (expired.map Prod.snd ++ loose)) {now : Timestamp}
    (hvalid : ∀ it ∈ expired, ∀ t, q.heap it.2 = some t → t.repeat_ = true →
      q.isCanceled it.2 t.sequence_ = false → Timestamp.valid (addTime now t.interval_) = true) :
    (expired.foldl (resetOne now) q).timerfd_ = q.timerfd_ ∧
      ∀ it ∈ (expired.foldl (resetOne now) q).timers_, it.1 ≤ 0 → it ∈ q.timers_ := by
  induction expired generalizing q with
  | nil => exact ⟨rfl, fun it hm _ => hm⟩
  | cons it expired ih =>
    obtain ⟨t, ht⟩ := h.live it.2 List.mem_cons_self
    obtain ⟨hsound, hsame⟩ := h.resetOne now
    have hnot : it.2 ∉ expired.map Prod.snd := fun hm =>
      (List.nodup_cons.mp h.nodup).1 (List.mem_append_left _ hm)
    have hnext : ∀ it' ∈ expired, ∀ t', (resetOne now q it).heap it'.2 = some t' →
        t'.repeat_ = true → (resetOne now q it).isCanceled it'.2 t'.sequence_ = false →
        Timestamp.valid (addTime now t'.interval_) = true := by
      intro it' hm t' ht' hrep hno
      have hne : it'.2 ≠ it.2 := fun heq => hnot (heq ▸ List.mem_map_of_mem hm)
      rw [resetOne_heap_ne ht now hne] at ht'
      rw [isCanceled, hsame.canceling] at hno
      exact hvalid it' (List.mem_cons_of_mem _ hm) t' ht' hrep hno
    obtain ⟨hfd, htimers⟩ := resetOne_timers ht (hvalid it List.mem_cons_self t ht)
    obtain ⟨hfd', htimers'⟩ := ih hsound hnext
    refine ⟨hfd'.trans hfd, ?_⟩
    intro it' hm hle
    exact htimers it' (htimers' it' hm hle) hle

/-- The tail of `reset` sees to every timer, provided the descriptor suits those due at an invalid
time point. -/
theorem armed_rearm {q : TimerQueue} {loose : List TimerPtr} (h : Sound q loose)
    (hcov : ∀ it ∈ q.timers_, it.1 ≤ 0 → Covered q it.1) {now' : Timestamp}
    (hnow : int64 now' = now') : Armed (q.rearm now') := by
  intro it hm _
  rw [timers_rearm] at hm
  rw [TimerQueue.rearm]
  cases hb : q.timers_.begin? with
  | none => exact absurd hm (OrderedSet.begin?_eq_none.mp hb it)
  | some it₀ =>
    obtain ⟨hm₀, hle₀⟩ := OrderedSet.le_of_begin hb
    obtain ⟨t, ht, hw, -⟩ := h.timers it₀.1 it₀.2 hm₀
    have hle : it₀.1 ≤ it.1 := Entry.fst_le (hle₀ it hm)
    simp only [ht, hw]
    split
    · next hval =>
      rw [Timestamp.valid, decide_eq_true_eq] at hval
      have hlt := (neg_le_int64 now').2
      rw [hnow] at hlt
      have hin : ∀ w n : Int, 0 < w → n < 2 ^ 63 → -2 ^ 63 ≤ w - n := by omega
      exact (covered_resetTimerfd q (hin _ _ hval hlt)).mono hle
    · next hval =>
      rw [Timestamp.valid, decide_eq_true_eq] at hval
      exact (hcov it₀ hm₀ (not_lt.mp hval)).mono hle

theorem armed_endRead {q : TimerQueue} (hq : Coherent q) (h : Armed q) {now' : Timestamp}
    (hnow : int64 now' = now') (hin : StaysInRange q (.endRead now')) :
    Armed (q.endRead now') := by
  unfold TimerQueue.endRead
  split
  · next now expired hb =>
    have hstart := hq.leaveBatch hb
    obtain ⟨hfd, htimers⟩ := foldl_resetOne_timers hstart (hin _ hb)
    refine armed_rearm (hstart.foldl_resetOne now).1 ?_ hnow
    intro it hm hle
    exact (h it (htimers it hm hle) (.inr hle)).of_eq hfd
  · exact h

/-- Every step that stays in range keeps the descriptor armed in time. -/
theorem armed_step {q : TimerQueue} (hq : Coherent q) (h : Armed q) {e : Event}
    (hint : e.IsInt64) (hin : StaysInRange q e) : Armed (q.step e) := by
  cases e with
  | addTimer addr when' interval rep now =>
    have hnew : Armed (q.newTimer addr when' interval rep) :=
      armed_of_subset h rfl id fun _ hm => hm
    exact hnew.addTimerInLoop (t := ⟨when', interval, rep, q.s_numCreated_ + 1⟩)
      (Function.update_self ..) hin
  | addTimerFromThread addr when' interval rep => exact armed_of_subset h rfl id fun _ hm => hm
  | runFunctor p now =>
    simp only [TimerQueue.step, TimerQueue.runFunctor]
    split
    · next hc =>
      have hpop : Armed { q with functors := q.functors.erase p } :=
        armed_of_subset h rfl id fun _ hm => hm
      obtain ⟨t, ht⟩ := (hq.popFunctor hc.1 hc.2).live p List.mem_cons_self
      exact hpop.addTimerInLoop ht (hin t ht)
    · exact h
  | cancelInLoop timerId => exact armed_cancelInLoop hq h timerId
  | handleRead now =>
    simp only [TimerQueue.step]
    by_cases hnone : q.batch = none
    · obtain ⟨timers, active, expired, heq, htimers, -⟩ := hq.handleRead_eq hnone now
      rw [heq]
      -- the descriptor is not armed, and need not be: what is left is due at a valid time point
      intro it hm hp
      have hle : it.1 ≤ 0 := hp.resolve_left (by simp)
      obtain ⟨hold, hlt⟩ := (htimers it.1 it.2).mp hm
      rcases hin it hold with hdue | hval
      · exact absurd hlt (not_lt.mpr hdue)
      · rw [Timestamp.valid, decide_eq_true_eq] at hval
        exact absurd hle (not_le.mpr hval)
    · rw [handleRead_of_batch hnone]
      exact h
  | runTimer =>
    simp only [TimerQueue.step]
    by_cases hb : ∃ now expired it todo, q.batch = some ⟨now, expired, it :: todo⟩
    · obtain ⟨now, expired, it, todo, hb⟩ := hb
      obtain ⟨t, -, hdef⟩ := hq.runTimer_cons hb
      rw [hdef]
      exact armed_of_subset h rfl (by simp) fun _ hm => hm
    · rw [runTimer_of_nil fun now expired it todo h => hb ⟨now, expired, it, todo, h⟩]
      exact h
  | endRead now' => exact armed_endRead hq h hint hin

/-! ## Every reachable state -/

/-- The earliest timer finds the descriptor armed in time, and it was never armed improperly. -/
structure WakesInTime (q : TimerQueue) : Prop where
  armed : q.batch = none → ∀ it, q.timers_.begin? = some it → Covered q it.1
  settime : ∀ it_value, .settime it_value ∈ q.trace → it_value.Arms

theorem settime_step {q : TimerQueue} (h : ∀ it_value, .settime it_value ∈ q.trace → it_value.Arms)
    (e : Event) : ∀ it_value, .settime it_value ∈ (q.step e).trace → it_value.Arms := by
  intro it_value hm
  by_cases he : e = .runTimer
  · subst he
    obtain ⟨es, htr, hno⟩ := trace_runTimer q
    rw [TimerQueue.step, htr] at hm
    exact h it_value ((List.mem_append.mp hm).resolve_right fun hm => hno _ hm it_value rfl)
  · obtain ⟨es, htr, hes⟩ := quiet_step q he
    rw [htr] at hm
    rcases List.mem_append.mp hm with hm | hm
    · exact h it_value hm
    · exact hes _ hm

/-- In every run whose steps stay in range, the descriptor is armed in time for the earliest timer
between two steps of the loop. -/
theorem timer_armed (es : List Event)
    (hok : Meets (fun q e => (Allocates q e ∧ e.IsInt64) ∧ StaysInRange q e) step new es) :
    (run step new es).WakesInTime := by
  have hrun := run_invariant
    (I := fun q => Coherent q ∧ Armed q ∧ ∀ it_value, .settime it_value ∈ q.trace → it_value.Arms)
    (fun q e hq hok => ⟨hq.1.step hok.1.1, armed_step hq.1 hq.2.1 hok.1.2 hok.2,
      settime_step hq.2.2 e⟩)
    ⟨coherent_new, fun _ hm => absurd hm (OrderedSet.notMem_empty _), nofun⟩ hok
  obtain ⟨-, harmed, hset⟩ := hrun
  refine ⟨?_, hset⟩
  intro hnone it hb
  exact harmed it (OrderedSet.le_of_begin hb).1 (.inl hnone)

/-- A timer that is overdue when it is added, one that the callback of its batch adds at an
invalid time point, and a periodic one. -/
theorem timer_armed_invalid :
    WakesInTime (run step new
      [.addTimer 16 1000 0 false 5000, .addTimer 32 9000 500 true 5000, .handleRead 9100, .runTimer,
        .addTimer 48 (-5) 0 false 9200, .runTimer, .endRead 9300]) :=
  timer_armed _ (by decide +kernel)

/-- A timer for the least time point is armed for the end of time. -/
theorem timer_armed_fails :
    ¬ ∀ es, Meets (fun q e => Allocates q e ∧ e.IsInt64) step new es →
      (run step new es).WakesInTime := by
  intro hall
  obtain ⟨alarm, halarm, hle⟩ := (hall [.addTimer 16 (-2 ^ 63) 0 false 1] (by decide +kernel)).armed
    (by decide +kernel) (-2 ^ 63, ⟨16, 1⟩) (by decide +kernel)
  have hset : (run step new [.addTimer 16 (-2 ^ 63) 0 false 1]).timerfd_ =
      some ⟨1, ⟨9223372036854, 775807000⟩⟩ := by
    decide +kernel
  obtain rfl := Option.some.inj (halarm.symm.trans hset)
  revert hle
  decide +kernel

end TimerQueue

end Mymuduo
