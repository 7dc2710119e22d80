import Mymuduo.Net.TimerCancel
import Mathlib.Data.List.Induction

/-!
# One batch of timers

What `handleRead` does from the time it reads the clock to the time it is back in the loop, whatever
the callbacks do in between. They add and cancel timers, which may be those of the batch.

* `timer_batch`: the callbacks that are called, and the timers that are pending afterwards.
-/

namespace Mymuduo

open Transition

open Timestamp

namespace TimerQueue

/-- The timers that are due, in the order of the set. -/
def due (q : TimerQueue) (now : Timestamp) : List Entry :=
  q.timers_.toList.filter fun it => it.1 ≤ now

/-- The numbers of the timers whose callbacks were called. -/
def runs (trace : List TimerEffect) : List Nat :=
  trace.filterMap fun
    | .run sequence => some sequence
    | _ => none

/-- The numbers of the timers in a vector. -/
def numbers (l : List Entry) : List Nat :=
  l.map fun it => it.2.object

/-- A cancel of the timer at `p`. -/
def Event.Cancels (e : Event) (p : TimerPtr) : Prop :=
  ∃ timerId, e = .cancelInLoop timerId ∧ timerId.timer_.addr = p.addr ∧
    timerId.sequence_ = p.object

def Cancels (es : List Event) (p : TimerPtr) : Prop :=
  ∃ e ∈ es, e.Cancels p

/-- The timer at `p`, to expire at `when'`, is added in the loop's thread. -/
def Event.Adds (e : Event) (q : TimerQueue) (when' : Timestamp) (p : TimerPtr) : Prop :=
  ∃ addr interval rep now, e = .addTimer addr when' interval rep now ∧
    p = ⟨addr, q.s_numCreated_ + 1⟩

/-- The timer at `p` is added in the run, and not cancelled after that. -/
def Adds (q : TimerQueue) (es : List Event) (when' : Timestamp) (p : TimerPtr) : Prop :=
  ∃ pre e post, es = pre ++ e :: post ∧ e.Adds (run step q pre) when' p ∧ ¬ Cancels post p

theorem Event.not_cancels {e : Event} (he : ∀ timerId, e ≠ .cancelInLoop timerId) (p : TimerPtr) :
    ¬ e.Cancels p :=
  fun ⟨timerId, heq, _⟩ => he timerId heq

theorem Event.not_adds {e : Event}
    (he : ∀ addr when' interval rep now, e ≠ .addTimer addr when' interval rep now)
    (q : TimerQueue) (when' : Timestamp) (p : TimerPtr) : ¬ e.Adds q when' p :=
  fun ⟨addr, interval, rep, now, heq, _⟩ => he addr when' interval rep now heq

theorem cancels_concat {es : List Event} {e : Event} {p : TimerPtr} :
    Cancels (es ++ [e]) p ↔ Cancels es p ∨ e.Cancels p := by
  simp only [Cancels, List.mem_append, List.mem_singleton, or_and_right, exists_or,
    exists_eq_left]

theorem adds_concat {q : TimerQueue} {es : List Event} {e : Event} {when' : Timestamp}
    {p : TimerPtr} : Adds q (es ++ [e]) when' p ↔
      Adds q es when' p ∧ ¬ e.Cancels p ∨ e.Adds (run step q es) when' p := by
  constructor
  · rintro ⟨pre, e', post, heq, hadds, hnot⟩
    rcases List.eq_nil_or_concat post with rfl | ⟨post, e'', rfl⟩
    · obtain ⟨rfl, hlast⟩ := List.append_inj' heq rfl
      obtain rfl : e = e' := List.singleton_inj.mp hlast
      exact .inr hadds
    · rw [List.concat_eq_append] at heq hnot
      rw [← List.cons_append, ← List.append_assoc] at heq
      obtain ⟨rfl, hlast⟩ := List.append_inj' heq rfl
      obtain rfl : e = e'' := List.singleton_inj.mp hlast
      rw [cancels_concat, not_or] at hnot
      exact .inl ⟨⟨pre, e', post, rfl, hadds, hnot.1⟩, hnot.2⟩
  · rintro (⟨⟨pre, e', post, rfl, hadds, hnot⟩, hnot'⟩ | hadds)
    · refine ⟨pre, e', post ++ [e], by rw [List.append_assoc, List.cons_append], hadds, ?_⟩
      rw [cancels_concat, not_or]
      exact ⟨hnot, hnot'⟩
    · exact ⟨es, e, [], rfl, hadds, fun ⟨_, hm, _⟩ => List.not_mem_nil hm⟩

theorem runs_append (tr tr' : List TimerEffect) : runs (tr ++ tr') = runs tr ++ runs tr' :=
  List.filterMap_append

/-- What is quiet calls nothing back. -/
theorem Quiet.runs_eq {q q' : TimerQueue} (h : Quiet q q') : runs q'.trace = runs q.trace := by
  obtain ⟨es, htr, hes⟩ := h
  have hnone : runs es = [] := by
    refine List.filterMap_eq_nil_iff.mpr fun e hm => ?_
    have hquiet := hes e hm
    cases e with
    | run sequence => exact hquiet.elim
    | addTimer | delete | dangling | settime => rfl
  rw [htr, runs_append, hnone, List.append_nil]

/-! ## The start of a batch -/

/-- The vector that `getExpired` returns. -/
theorem Sound.getExpired_eq {q : TimerQueue} {loose : List TimerPtr} (h : Sound q loose)
    (now : Timestamp) : (q.getExpired now).2 = q.due now := by
  show q.timers_.takeBelow _ = _
  rw [OrderedSet.takeBelow_eq_filter]
  refine List.filter_congr fun it hm => ?_
  rw [decide_eq_decide]
  exact h.key_lt_sentry now hm

theorem mem_due {q : TimerQueue} {now : Timestamp} {it : Entry} :
    it ∈ q.due now ↔ it ∈ q.timers_ ∧ it.1 ≤ now := by
  rw [due, List.mem_filter, decide_eq_true_iff]
  exact Iff.rfl

theorem due_sorted (q : TimerQueue) (now : Timestamp) :
    (q.due now).Pairwise fun it it' => it.1 ≤ it'.1 := by
  refine (q.timers_.sorted.filter _).imp fun {it it'} hlt => ?_
  rw [Entry.key, Entry.key, Prod.Lex.toLex_lt_toLex] at hlt
  exact hlt.elim le_of_lt fun heq => heq.1.le

/-- The timers that are due are in the set once. -/
theorem Sound.due_nodup {q : TimerQueue} {loose : List TimerPtr} (h : Sound q loose)
    (now : Timestamp) : (numbers (q.due now)).Nodup := by
  refine List.Nodup.map_on ?_ (q.timers_.nodup_toList.filter _)
  rintro ⟨w, p⟩ hm ⟨w', p'⟩ hm' heq
  obtain ⟨t, ht, hw, -⟩ := h.timers w p (mem_due.mp hm).1
  obtain ⟨t', ht', hw', -⟩ := h.timers w' p' (mem_due.mp hm').1
  have hs : t'.sequence_ = t.sequence_ := by
    rw [← h.object_eq ht, ← h.object_eq ht']
    exact heq.symm
  obtain rfl : p' = p := h.sequence_inj ht ht' hs
  obtain rfl : t = t' := Option.some.inj (ht.symm.trans ht')
  rw [← hw, ← hw']

/-! ## Adding and cancelling -/

theorem timers_addTimerInLoop {q : TimerQueue} {p : TimerPtr} {t : Timer} (ht : q.heap p = some t)
    (now : Timestamp) :
    (q.addTimerInLoop p now).timers_ = q.timers_.insert (t.expiration_, p) := by
  rw [addTimerInLoop_eq ht]
  split <;> simp [TimerQueue.insert, ht]

theorem Coherent.mem_addTimer {q : TimerQueue} (h : Coherent q) {addr : Nat}
    (hlt : addr < UINTPTR_MAX) (hfree : ∀ object ≤ q.s_numCreated_, q.heap ⟨addr, object⟩ = none)
    {when' : Timestamp} {interval : Int} {rep : Bool} {now w : Timestamp} {p : TimerPtr} :
    (w, p) ∈ (q.addTimer addr when' interval rep now).timers_ ↔
      (w, p) ∈ q.timers_ ∨ w = when' ∧ p = ⟨addr, q.s_numCreated_ + 1⟩ := by
  have hnew := h.sound.newTimer hfree hlt when' interval rep
  have ht := h.sound.heap_newTimer.mpr
    (.inl ⟨rfl, rfl⟩ : (⟨addr, q.s_numCreated_ + 1⟩ : TimerPtr) = ⟨addr, q.s_numCreated_ + 1⟩ ∧
      (⟨when', interval, rep, q.s_numCreated_ + 1⟩ : Timer) =
        ⟨when', interval, rep, q.s_numCreated_ + 1⟩ ∨ _)
  rw [TimerQueue.addTimer, timers_addTimerInLoop ht,
    OrderedSet.mem_insert (hnew.timers_fresh List.mem_cons_self _), Prod.mk.injEq, or_comm]
  exact Iff.rfl

theorem cancels_iff {timerId : TimerId} {p : TimerPtr} : (Event.cancelInLoop timerId).Cancels p ↔
    timerId.timer_.addr = p.addr ∧ timerId.sequence_ = p.object := by
  constructor
  · rintro ⟨_, heq, hnames⟩
    obtain rfl := Event.cancelInLoop.inj heq
    exact hnames
  · exact fun hnames => ⟨timerId, rfl, hnames⟩

/-- Where a pending timer is cancelled, no other timer that is alive is. -/
theorem Sound.cancels_pending {q : TimerQueue} {loose : List TimerPtr} (h : Sound q loose)
    {timerId : TimerId} {p : TimerPtr} (hact : (p, timerId.sequence_) ∈ q.activeTimers_)
    (haddr : p.addr = timerId.timer_.addr) {p' : TimerPtr} {t' : Timer}
    (ht' : q.heap p' = some t') : (Event.cancelInLoop timerId).Cancels p' ↔ p' = p := by
  obtain ⟨t, ht, hs, -⟩ := h.active p _ hact
  rw [cancels_iff]
  constructor
  · exact fun hnames => h.addr p' p t' t ht' ht (hnames.1.symm.trans haddr.symm)
  · rintro rfl
    exact ⟨haddr.symm, hs.symm.trans (h.object_eq ht).symm⟩

theorem Coherent.mem_cancelInLoop {q : TimerQueue} (h : Coherent q) (timerId : TimerId)
    {w : Timestamp} {p : TimerPtr} : (w, p) ∈ (q.cancelInLoop timerId).timers_ ↔
      (w, p) ∈ q.timers_ ∧ ¬ (Event.cancelInLoop timerId).Cancels p := by
  by_cases hpending : ∃ p, (p, timerId.sequence_) ∈ q.activeTimers_ ∧ p.addr = timerId.timer_.addr
  · obtain ⟨p₀, hact, haddr⟩ := hpending
    rw [(h.sound.cancelInLoop_pending hact haddr).1.timers]
    refine and_congr_right fun hm => ?_
    obtain ⟨t, ht, -⟩ := h.sound.timers w p hm
    rw [h.sound.cancels_pending hact haddr ht]
  · have hnot : (w, p) ∈ q.timers_ → ¬ (Event.cancelInLoop timerId).Cancels p := by
      rw [cancels_iff]
      rintro hm ⟨haddr, hs⟩
      obtain ⟨t, ht, -, hact⟩ := h.sound.timers w p hm
      rw [← h.sound.object_eq ht, ← hs] at hact
      exact hpending ⟨p, hact, haddr.symm⟩
    rw [cancelInLoop_not_pending fun p hact haddr => hpending ⟨p, hact, haddr⟩]
    split <;> exact (and_iff_left_of_imp hnot).symm

/-- A timer of the batch that is cancelled is remembered, and stays alive. -/
theorem Coherent.canceled_cancelInLoop {q : TimerQueue} (h : Coherent q) (timerId : TimerId)
    {p : TimerPtr} (hp : p ∈ q.inBatch) :
    (q.cancelInLoop timerId).heap p = q.heap p ∧
      ((q.cancelInLoop timerId).isCanceled p p.object = true ↔
        q.isCanceled p p.object = true ∨ (Event.cancelInLoop timerId).Cancels p) := by
  have hloose : p ∈ q.inBatch ++ q.functors := List.mem_append_left _ hp
  by_cases hpending : ∃ p, (p, timerId.sequence_) ∈ q.activeTimers_ ∧ p.addr = timerId.timer_.addr
  · obtain ⟨p₀, hact, haddr⟩ := hpending
    have hc := (h.sound.cancelInLoop_pending hact haddr).1
    have hne : p ≠ p₀ := by
      rintro rfl
      exact h.sound.apart p hloose _ hact
    obtain ⟨t, ht⟩ := h.sound.live p hloose
    refine ⟨by rw [hc.heap, Function.update_of_ne hne], ?_⟩
    rw [isCanceled, hc.canceling, h.sound.cancels_pending hact haddr ht]
    exact (or_iff_left hne).symm
  · have hcalling : q.callingExpiredTimers_ = true := by
      rw [h.calling]
      cases hb : q.batch with
      | none =>
        rw [inBatch_of_none hb] at hp
        cases hp
      | some b => rfl
    rw [cancelInLoop_not_pending fun p hact haddr => hpending ⟨p, hact, haddr⟩, if_pos hcalling]
    refine ⟨rfl, ?_⟩
    rw [isCanceled_iff, OrderedSet.exists_key_insert, isCanceled_iff, cancels_iff,
      ActiveTimer.key_eq, or_comm]
    refine or_congr_right ?_
    exact and_congr eq_comm eq_comm

/-! ## During a batch -/

/-- What the event `e` does from `q` to `q'` while a batch is under way. -/
structure During (q q' : TimerQueue) (e : Event) : Prop where
  batch : ∀ now expired todo, q.batch = some ⟨now, expired, todo⟩ → ∃ todo',
    q'.batch = some ⟨now, expired, todo'⟩ ∧
      runs q'.trace ++ numbers todo' = runs q.trace ++ numbers todo
  timers : ∀ w p, (w, p) ∈ q'.timers_ ↔ (w, p) ∈ q.timers_ ∧ ¬ e.Cancels p ∨ e.Adds q w p
  heap : ∀ p ∈ q.inBatch, q'.heap p = q.heap p
  canceled : ∀ p ∈ q.inBatch, q'.isCanceled p p.object = true ↔
    q.isCanceled p p.object = true ∨ e.Cancels p

/-- The event leaves the sets alone. -/
theorem During.of_timers {q q' : TimerQueue} {e : Event} (hcancels : ∀ p, ¬ e.Cancels p)
    (hadds : ∀ w p, ¬ e.Adds q w p)
    (hbatch : ∀ now expired todo, q.batch = some ⟨now, expired, todo⟩ → ∃ todo',
      q'.batch = some ⟨now, expired, todo'⟩ ∧
        runs q'.trace ++ numbers todo' = runs q.trace ++ numbers todo)
    (htimers : q'.timers_ = q.timers_) (hheap : ∀ p ∈ q.inBatch, q'.heap p = q.heap p)
    (hcanceling : q'.cancelingTimers_ = q.cancelingTimers_) : During q q' e := by
  refine ⟨hbatch, fun w p => ?_, hheap, fun p _ => ?_⟩
  · rw [htimers, or_iff_left (hadds w p), and_iff_left (hcancels p)]
  · rw [isCanceled, hcanceling, or_iff_left (hcancels p)]
    exact Iff.rfl

/-- No callback is started. -/
theorem Quiet.keeps_batch {q q' : TimerQueue} (h : Quiet q q') (hbatch : q'.batch = q.batch)
    (now : Timestamp) (expired todo : List Entry) (hb : q.batch = some ⟨now, expired, todo⟩) :
    ∃ todo', q'.batch = some ⟨now, expired, todo'⟩ ∧
      runs q'.trace ++ numbers todo' = runs q.trace ++ numbers todo :=
  ⟨todo, hbatch.trans hb, by rw [h.runs_eq]⟩

/-- A new timer is not one of the batch. -/
theorem Coherent.heap_newTimer_batch {q : TimerQueue} (h : Coherent q) (addr : Nat)
    (when' : Timestamp) (interval : Int) (rep : Bool) {p : TimerPtr} (hp : p ∈ q.inBatch) :
    (q.newTimer addr when' interval rep).heap p = q.heap p := by
  obtain ⟨t, ht⟩ := h.sound.live p (List.mem_append_left _ hp)
  rw [ht]
  exact h.sound.heap_newTimer.mpr (.inr ht)

theorem Coherent.during {q : TimerQueue} (h : Coherent q) (hb : q.batch ≠ none) {e : Event}
    (he : ∀ now', e ≠ .endRead now') (hok : Allocates q e) : During q (q.step e) e := by
  have hquiet := quiet_step q (e := e)
  cases e with
  | addTimer addr when' interval rep now =>
    have hnew := h.sound.newTimer hok.2 hok.1 when' interval rep
    obtain ⟨-, hsame, hheap⟩ := hnew.addTimerInLoop now
    have hfirst : SameBatch q (q.newTimer addr when' interval rep) := ⟨rfl, rfl, rfl, rfl⟩
    have hboth := hfirst.trans hsame
    have hcancels := Event.not_cancels (e := .addTimer addr when' interval rep now) (by simp)
    refine ⟨(hquiet (by simp)).keeps_batch hboth.batch, fun w p => ?_, fun p hp => ?_, fun p _ => ?_⟩
    · rw [TimerQueue.step, h.mem_addTimer hok.1 hok.2, and_iff_left (hcancels p)]
      refine or_congr_right ⟨?_, ?_⟩
      · rintro ⟨rfl, rfl⟩
        exact ⟨addr, interval, rep, now, rfl, rfl⟩
      · rintro ⟨_, _, _, _, heq, rfl⟩
        cases heq
        exact ⟨rfl, rfl⟩
    · exact (congrFun hheap p).trans (h.heap_newTimer_batch addr when' interval rep hp)
    · rw [or_iff_left (hcancels p), isCanceled, isCanceled]
      exact iff_of_eq (congrArg (fun s : OrderedSet ActiveTimer.key =>
        (s.find? (ActiveTimer.key (p, p.object))).isSome = true) hboth.canceling)
  | addTimerFromThread addr when' interval rep =>
    exact .of_timers (Event.not_cancels (by simp)) (Event.not_adds (by simp) q)
      ((hquiet (by simp)).keeps_batch rfl) rfl
      (fun p hp => h.heap_newTimer_batch addr when' interval rep hp) rfl
  | runFunctor p now =>
    have hstay : q.runFunctor p now = q := if_neg fun hc => hb hc.1
    rw [TimerQueue.step, hstay]
    exact .of_timers (Event.not_cancels (by simp)) (Event.not_adds (by simp) q)
      (Quiet.keeps_batch (.of_eq rfl) rfl) rfl (fun _ _ => rfl) rfl
  | cancelInLoop timerId =>
    have hframe := (cancelInLoop_frame q timerId).1
    refine ⟨(hquiet (by simp)).keeps_batch hframe, fun w p => ?_, fun p hp => ?_, fun p hp => ?_⟩
    · rw [or_iff_left (Event.not_adds (by simp) q w p)]
      exact h.mem_cancelInLoop timerId
    · exact (h.canceled_cancelInLoop timerId hp).1
    · exact (h.canceled_cancelInLoop timerId hp).2
  | handleRead now =>
    rw [TimerQueue.step, handleRead_of_batch hb]
    exact .of_timers (Event.not_cancels (by simp)) (Event.not_adds (by simp) q)
      (Quiet.keeps_batch (.of_eq rfl) rfl) rfl (fun _ _ => rfl) rfl
  | runTimer =>
    rw [TimerQueue.step]
    by_cases hcons : ∃ now expired it todo, q.batch = some ⟨now, expired, it :: todo⟩
    · obtain ⟨now, expired, it, todo, hbatch⟩ := hcons
      obtain ⟨t, ht, hdef⟩ := h.runTimer_cons hbatch
      rw [hdef]
      refine .of_timers (Event.not_cancels (by simp)) (Event.not_adds (by simp) q) ?_ rfl
        (fun _ _ => rfl) rfl
      intro now' expired' todo' hb'
      obtain ⟨rfl, rfl, rfl⟩ : now = now' ∧ expired = expired' ∧ it :: todo = todo' := by
        simpa using hbatch.symm.trans hb'
      -- the callback that is started was the next to be
      refine ⟨todo, rfl, ?_⟩
      show runs (q.trace ++ [.run t.sequence_]) ++ numbers todo = _
      rw [runs_append, List.append_assoc, ← h.sound.object_eq ht]
      rfl
    · rw [runTimer_of_nil fun now expired it todo hbatch =>
        hcons ⟨now, expired, it, todo, hbatch⟩]
      exact .of_timers (Event.not_cancels (by simp)) (Event.not_adds (by simp) q)
        (Quiet.keeps_batch (.of_eq rfl) rfl) rfl (fun _ _ => rfl) rfl
  | endRead now' => exact absurd rfl (he now')

/-- The state `r` after the events `es` of the batch that `handleRead` began in `q`. -/
structure Underway (q : TimerQueue) (now : Timestamp) (es : List Event) (r : TimerQueue) :
    Prop where
  coherent : Coherent r
  batch : ∃ todo, r.batch = some ⟨now, q.due now, todo⟩ ∧
    runs r.trace ++ numbers todo = runs q.trace ++ numbers (q.due now)
  timers : ∀ w p, (w, p) ∈ r.timers_ ↔
    (w, p) ∈ q.timers_ ∧ now < w ∧ ¬ Cancels es p ∨ Adds (q.handleRead now) es w p
  heap : ∀ it ∈ q.due now, r.heap it.2 = q.heap it.2
  canceled : ∀ it ∈ q.due now, r.isCanceled it.2 it.2.object = true ↔ Cancels es it.2

theorem Coherent.underway_nil {q : TimerQueue} (h : Coherent q) (hidle : q.batch = none)
    (now : Timestamp) : Underway q now [] (q.handleRead now) := by
  obtain ⟨timers, active, expired, heq, htimers, -, -⟩ := h.handleRead_eq hidle now
  have hnone : ∀ p, ¬ Cancels [] p := by
    rintro p ⟨_, hm, _⟩
    exact List.not_mem_nil hm
  have hexpired : expired = q.due now := by
    have hread : (q.handleRead now).batch =
        some ⟨now, (q.readTimerfd.getExpired now).2, (q.readTimerfd.getExpired now).2⟩ := by
      simp [TimerQueue.handleRead, hidle]
    rw [heq] at hread
    rw [(Batch.mk.inj (Option.some.inj hread)).2.1]
    exact h.sound.getExpired_eq now
  subst hexpired
  refine ⟨h.handleRead now, ?_, ?_, ?_, ?_⟩
  · rw [heq]
    exact ⟨q.due now, rfl, rfl⟩
  · intro w p
    have hadds : ¬ Adds (q.handleRead now) [] w p := by
      rintro ⟨pre, e, post, hnil, -⟩
      exact List.append_ne_nil_of_right_ne_nil pre (List.cons_ne_nil e post) hnil.symm
    rw [or_iff_left hadds, and_iff_left (hnone p), heq]
    exact htimers w p
  · rw [heq]
    exact fun _ _ => rfl
  · intro it _
    rw [heq]
    exact iff_of_false Bool.false_ne_true (hnone it.2)

theorem Underway.concat {q : TimerQueue} {now : Timestamp} {es : List Event}
    (h : Underway q now es (run TimerQueue.step (q.handleRead now) es)) {e : Event}
    (he : ∀ now', e ≠ .endRead now')
    (hok : Allocates (run TimerQueue.step (q.handleRead now) es) e) :
    Underway q now (es ++ [e]) ((run TimerQueue.step (q.handleRead now) es).step e) := by
  obtain ⟨todo, hbatch, hruns⟩ := h.batch
  have hduring := h.coherent.during (by simp [hbatch]) he hok
  have hin : ∀ it ∈ q.due now, it.2 ∈ (run TimerQueue.step (q.handleRead now) es).inBatch := by
    intro it hm
    simp only [inBatch, hbatch]
    exact List.mem_map_of_mem hm
  refine ⟨h.coherent.step hok, ?_, ?_, ?_, ?_⟩
  · obtain ⟨todo', hbatch', hruns'⟩ := hduring.batch now (q.due now) todo hbatch
    exact ⟨todo', hbatch', hruns'.trans hruns⟩
  · intro w p
    rw [hduring.timers, h.timers, cancels_concat, adds_concat]
    tauto
  · exact fun it hm => (hduring.heap it.2 (hin it hm)).trans (h.heap it hm)
  · intro it hm
    rw [hduring.canceled it.2 (hin it hm), h.canceled it hm, cancels_concat]

theorem Coherent.underway {q : TimerQueue} (h : Coherent q) (hidle : q.batch = none)
    (now : Timestamp) {es : List Event} (hes : ∀ e ∈ es, ∀ now', e ≠ .endRead now')
    (hok : Meets Allocates TimerQueue.step (q.handleRead now) es) :
    Underway q now es (run TimerQueue.step (q.handleRead now) es) := by
  induction es using List.reverseRecOn with
  | nil => exact h.underway_nil hidle now
  | append_singleton es e ih =>
    obtain ⟨hbefore, hlast, -⟩ := meets_append.mp hok
    have hfirst := ih (fun e' hm => hes e' (List.mem_append_left _ hm)) hbefore
    rw [run_append]
    exact hfirst.concat (hes e (List.mem_append_right _ (List.mem_singleton_self e))) hlast

/-! ## The end of a batch -/

/-- One round of the loop in `reset` puts a timer back that repeats and was not cancelled. -/
theorem Sound.mem_resetOne {q : TimerQueue} {it : Entry} {loose : List TimerPtr}
    (h : Sound q (it.2 :: loose)) (now w : Timestamp) (p : TimerPtr) :
    (w, p) ∈ (TimerQueue.resetOne now q it).timers_ ↔ (w, p) ∈ q.timers_ ∨
      p = it.2 ∧ ∃ t, q.heap p = some t ∧ t.repeat_ = true ∧
        q.isCanceled p p.object = false ∧ w = addTime now t.interval_ := by
  obtain ⟨t, ht⟩ := h.live it.2 List.mem_cons_self
  have hcases := resetOne_cases ht now
  generalize TimerQueue.resetOne now q it = q' at hcases ⊢
  cases hcases with
  | restarted t' ht' hrep hno =>
    obtain rfl : t = t' := Option.some.inj (ht.symm.trans ht')
    have hfresh := h.timers_fresh List.mem_cons_self (t.restart now).expiration_
    have hdef : ({ q with heap := Function.update q.heap it.2 (some (t.restart now)) }.insert
        it.2).1.timers_ = q.timers_.insert ((t.restart now).expiration_, it.2) := by
      simp [TimerQueue.insert]
    have hexp : (t.restart now).expiration_ = addTime now t.interval_ := by
      simp [Timer.restart, hrep]
    rw [hdef, OrderedSet.mem_insert hfresh, hexp, Prod.mk.injEq, or_comm]
    refine or_congr_right ⟨?_, ?_⟩
    · rintro ⟨rfl, rfl⟩
      exact ⟨rfl, t, ht, hrep, h.object_eq ht ▸ hno, rfl⟩
    · rintro ⟨rfl, t', ht', -, -, rfl⟩
      obtain rfl : t = t' := Option.some.inj (ht.symm.trans ht')
      exact ⟨rfl, rfl⟩
  | freed t' ht' hwhy =>
    obtain rfl : t = t' := Option.some.inj (ht.symm.trans ht')
    have hnot : ¬ (p = it.2 ∧ ∃ t, q.heap p = some t ∧ t.repeat_ = true ∧
        q.isCanceled p p.object = false ∧ w = addTime now t.interval_) := by
      rintro ⟨rfl, t', ht', hrep, hno, -⟩
      obtain rfl : t = t' := Option.some.inj (ht.symm.trans ht')
      rw [h.object_eq ht] at hno
      rw [hrep, hno] at hwhy
      rcases hwhy with hwhy | hwhy <;> cases hwhy
    rw [delete_eq ht, or_iff_left hnot]

/-- The loop in `reset`. -/
theorem Sound.mem_foldl_resetOne {expired : List Entry} {q : TimerQueue} {loose : List TimerPtr}
    (h : Sound q (expired.map Prod.snd ++ loose)) (now w : Timestamp) (p : TimerPtr) :
    (w, p) ∈ (expired.foldl (TimerQueue.resetOne now) q).timers_ ↔ (w, p) ∈ q.timers_ ∨
      p ∈ expired.map Prod.snd ∧ ∃ t, q.heap p = some t ∧ t.repeat_ = true ∧
        q.isCanceled p p.object = false ∧ w = addTime now t.interval_ := by
  induction expired generalizing q with
  | nil => simp
  | cons it expired ih =>
    obtain ⟨t, ht⟩ := h.live it.2 List.mem_cons_self
    obtain ⟨hsound, hsame⟩ := h.resetOne now
    have hnot : it.2 ∉ expired.map Prod.snd := fun hm =>
      (List.nodup_cons.mp h.nodup).1 (List.mem_append_left _ hm)
    rw [List.foldl_cons, ih hsound, h.mem_resetOne now, or_assoc]
    refine or_congr_right ?_
    rw [List.map_cons, List.mem_cons, or_and_right]
    refine or_congr_right (and_congr_right fun hm => ?_)
    have hne : p ≠ it.2 := fun heq => hnot (heq ▸ hm)
    rw [resetOne_heap_ne ht now hne, isCanceled, hsame.canceling]
    exact Iff.rfl

/-! ## A whole batch -/

/-- From every state that keeps the invariant of the queue, whatever the callbacks and the other
threads do (`es`): the callbacks that are called are those of the timers that are due, in the order
of their expirations and each once. Pending afterwards are the timers that were pending and are not
due, those that were added, and those of the batch that repeat, without the ones that were
cancelled. -/
theorem timer_batch {q : TimerQueue} (h : Coherent q) (hidle : q.batch = none)
    (now now' : Timestamp) (es : List Event) (hes : ∀ e ∈ es, ∀ now', e ≠ .endRead now')
    (hok : Meets Allocates step (q.handleRead now) es)
    (hdone : (run step (q.handleRead now) es).toRun = []) :
    let q' := (run step (q.handleRead now) es).endRead now'
    runs q'.trace = runs q.trace ++ numbers (q.due now) ∧
    (∀ it, it ∈ q.due now ↔ it ∈ q.timers_ ∧ it.1 ≤ now) ∧
    (q.due now).Pairwise (fun it it' => it.1 ≤ it'.1) ∧ (numbers (q.due now)).Nodup ∧
    q'.batch = none ∧ q'.SetsConsistent ∧
    ∀ when' p, (when', p) ∈ q'.timers_ ↔
      (when', p) ∈ q.timers_ ∧ now < when' ∧ ¬ Cancels es p ∨
      Adds (q.handleRead now) es when' p ∨
      p ∈ (q.due now).map Prod.snd ∧ ¬ Cancels es p ∧
        ∃ t, q.heap p = some t ∧ t.repeat_ = true ∧ when' = addTime now t.interval_ := by
  intro q'
  have hunder := h.underway hidle now hes hok
  obtain ⟨todo, hbatch, hruns⟩ := hunder.batch
  obtain rfl : todo = [] := by simpa [toRun, hbatch] using hdone
  have hend : q' = ((q.due now).foldl (resetOne now)
      { run step (q.handleRead now) es with callingExpiredTimers_ := false, batch := none }).rearm
        now' := by
    simp only [q', endRead, hbatch, reset]
  refine ⟨?_, fun it => mem_due, due_sorted q now, h.sound.due_nodup now,
    (hunder.coherent.endRead_frame hbatch now').1, (hunder.coherent.endRead now').setsConsistent,
    ?_⟩
  · have hquiet := quiet_step (run step (q.handleRead now) es) (e := .endRead now') (by simp)
    rw [← hruns, numbers, List.map_nil, List.append_nil]
    exact hquiet.runs_eq
  · intro w p
    rw [hend, timers_rearm, (hunder.coherent.leaveBatch hbatch).mem_foldl_resetOne]
    have hback : (p ∈ (q.due now).map Prod.snd ∧ ∃ t,
        (run step (q.handleRead now) es).heap p = some t ∧ t.repeat_ = true ∧
          (run step (q.handleRead now) es).isCanceled p p.object = false ∧
          w = addTime now t.interval_) ↔
        p ∈ (q.due now).map Prod.snd ∧ ¬ Cancels es p ∧
          ∃ t, q.heap p = some t ∧ t.repeat_ = true ∧ w = addTime now t.interval_ := by
      refine and_congr_right fun hm => ?_
      obtain ⟨it, hit, rfl⟩ := List.mem_map.mp hm
      rw [hunder.heap it hit, ← hunder.canceled it hit, Bool.not_eq_true]
      constructor
      · rintro ⟨t, ht, hrep, hno, hw⟩
        exact ⟨hno, t, ht, hrep, hw⟩
      · rintro ⟨hno, t, ht, hrep, hw⟩
        exact ⟨t, ht, hrep, hno, hw⟩
    refine (or_congr (hunder.timers w p) hback).trans ?_
    rw [or_assoc]

/-- Two repeating timers are due. The callback of the first cancels it and adds another timer, and
that of the second cancels the one that is not due. -/
theorem timer_batch_mixed :
    let q := run step new [.addTimer 16 100 50 true 0, .addTimer 32 100 70 true 0,
      .addTimer 48 200 0 false 0]
    let es : List Event := [.runTimer, .cancelInLoop ⟨⟨16, 1⟩, 1⟩, .addTimer 64 150 0 false 121,
      .runTimer, .cancelInLoop ⟨⟨48, 3⟩, 3⟩]
    let q' := (run step (q.handleRead 120) es).endRead 130
    runs q'.trace = [1, 2] ∧ (190, ⟨32, 2⟩) ∈ q'.timers_ := by
  intro q es q'
  obtain ⟨hruns, -, -, -, -, -, htimers⟩ := timer_batch (q := q) (coherent_run (by decide +kernel))
    (by decide +kernel) 120 130 es (by simp [es]) (by decide +kernel) (by decide +kernel)
  have hdue : numbers (q.due 120) = [1, 2] := by decide +kernel
  have hbefore : runs q.trace = [] := by decide +kernel
  refine ⟨?_, ?_⟩
  · rw [hruns, hbefore, hdue]
    rfl
  · rw [htimers]
    refine .inr (.inr ⟨?_, ?_, ⟨100, 70, true, 2⟩, ?_, rfl, ?_⟩)
    · decide +kernel
    · simp [es, Cancels, Event.Cancels]
    · decide +kernel
    · decide +kernel

end TimerQueue

end Mymuduo
