import Mymuduo.Net.TimerQueue

/-!
# The timers of a timer queue

`Sound q loose` is the invariant: the heap is in order (`HeapOk`), and every timer that is neither
freed nor `loose` is in both sets, under its current expiration and its sequence number (`SetsOk`).
Loose are the timers that wait to be inserted and, from `getExpired` to `reset`, the batch. Each
operation keeps it, and moves the timers it is about from one place to the other.
-/

namespace Mymuduo

/-- An effect that is not about a timer's life. -/
def TimerEffect.isNeutral : TimerEffect → Bool
  | .run _ => true
  | .settime _ => true
  | _ => false

theorem Entry.key_eq {it it' : Entry} :
    it.key = it'.key ↔ it.1 = it'.1 ∧ it.2.addr = it'.2.addr := by
  simp [Entry.key]

theorem ActiveTimer.key_eq {timer timer' : ActiveTimer} :
    timer.key = timer'.key ↔ timer.1.addr = timer'.1.addr ∧ timer.2 = timer'.2 := by
  simp [ActiveTimer.key]

namespace TimerQueue

/-- The timers that `handleRead` took out of the sets. -/
def inBatch (q : TimerQueue) : List TimerPtr :=
  match q.batch with
  | none => []
  | some b => b.expired.map Prod.snd

/-! ## The invariant -/

structure HeapOk (q : TimerQueue) : Prop where
  object : ∀ p s, .addTimer ⟨p, s⟩ ∈ q.trace → p.object = s ∧ s ≤ q.s_numCreated_
  unique : ∀ p p' s, .addTimer ⟨p, s⟩ ∈ q.trace → .addTimer ⟨p', s⟩ ∈ q.trace → p = p'
  born : ∀ p t, q.heap p = some t → .addTimer ⟨p, t.sequence_⟩ ∈ q.trace
  addr : ∀ p p' t t', q.heap p = some t → q.heap p' = some t' → p.addr = p'.addr → p = p'
  addr_lt : ∀ p t, q.heap p = some t → p.addr < UINTPTR_MAX
  undeleted : ∀ p t, q.heap p = some t → .delete t.sequence_ ∉ q.trace
  deleted : ∀ p s, .addTimer ⟨p, s⟩ ∈ q.trace → q.heap p = none → q.trace.count (.delete s) = 1
  future : ∀ s, q.s_numCreated_ < s → .delete s ∉ q.trace
  clean : ∀ p, .dangling p ∉ q.trace

structure SetsOk (q : TimerQueue) (loose : List TimerPtr) : Prop where
  timers : ∀ when' p, (when', p) ∈ q.timers_ →
    ∃ t, q.heap p = some t ∧ t.expiration_ = when' ∧ (p, t.sequence_) ∈ q.activeTimers_
  active : ∀ p s, (p, s) ∈ q.activeTimers_ →
    ∃ t, q.heap p = some t ∧ t.sequence_ = s ∧ (t.expiration_, p) ∈ q.timers_
  live : ∀ p ∈ loose, ∃ t, q.heap p = some t
  apart : ∀ p ∈ loose, ∀ s, (p, s) ∉ q.activeTimers_
  nodup : loose.Nodup
  covered : ∀ p t, q.heap p = some t → p ∈ loose ∨ (p, t.sequence_) ∈ q.activeTimers_

structure Sound (q : TimerQueue) (loose : List TimerPtr) : Prop extends
  HeapOk q, SetsOk q loose

theorem HeapOk.of_neutral {q q' : TimerQueue} (h : HeapOk q) (hheap : q'.heap = q.heap)
    (hnum : q'.s_numCreated_ = q.s_numCreated_) (es : List TimerEffect)
    (htr : q'.trace = q.trace ++ es) (hes : ∀ e ∈ es, e.isNeutral = true) : HeapOk q' := by
  have hmem : ∀ e : TimerEffect, e.isNeutral = false → (e ∈ q'.trace ↔ e ∈ q.trace) := by
    intro e he
    rw [htr, List.mem_append, or_iff_left]
    intro hm
    simp [hes e hm] at he
  have hcount : ∀ s, q'.trace.count (.delete s) = q.trace.count (.delete s) := by
    intro s
    rw [htr, List.count_append, List.count_eq_zero_of_not_mem (l := es), Nat.add_zero]
    intro hm
    simpa [TimerEffect.isNeutral] using hes _ hm
  have hadd : ∀ id, TimerEffect.addTimer id ∈ q'.trace ↔ .addTimer id ∈ q.trace :=
    fun id => hmem _ rfl
  have hdel : ∀ s, TimerEffect.delete s ∈ q'.trace ↔ .delete s ∈ q.trace := fun s => hmem _ rfl
  have hdang : ∀ p, TimerEffect.dangling p ∈ q'.trace ↔ .dangling p ∈ q.trace :=
    fun p => hmem _ rfl
  constructor
  · simpa only [hadd, hnum] using h.object
  · simpa only [hadd] using h.unique
  · simpa only [hadd, hheap] using h.born
  · simpa only [hheap] using h.addr
  · simpa only [hheap] using h.addr_lt
  · simpa only [hdel, hheap] using h.undeleted
  · simpa only [hadd, hheap, hcount] using h.deleted
  · simpa only [hdel, hnum] using h.future
  · simpa only [hdang] using h.clean

theorem SetsOk.of_eq {q q' : TimerQueue} {loose : List TimerPtr} (h : SetsOk q loose)
    (hheap : q'.heap = q.heap) (htimers : q'.timers_ = q.timers_)
    (hactive : q'.activeTimers_ = q.activeTimers_) : SetsOk q' loose := by
  constructor
  · simpa only [hheap, htimers, hactive] using h.timers
  · simpa only [hheap, htimers, hactive] using h.active
  · simpa only [hheap] using h.live
  · simpa only [hactive] using h.apart
  · exact h.nodup
  · simpa only [hheap, hactive] using h.covered

/-- Only the batch, the functors, the flag or the descriptor change. -/
theorem Sound.of_neutral {q q' : TimerQueue} {loose : List TimerPtr} (h : Sound q loose)
    (hheap : q'.heap = q.heap) (hnum : q'.s_numCreated_ = q.s_numCreated_)
    (htimers : q'.timers_ = q.timers_) (hactive : q'.activeTimers_ = q.activeTimers_)
    (es : List TimerEffect) (htr : q'.trace = q.trace ++ es)
    (hes : ∀ e ∈ es, e.isNeutral = true) : Sound q' loose :=
  ⟨h.toHeapOk.of_neutral hheap hnum es htr hes, h.toSetsOk.of_eq hheap htimers hactive⟩

theorem Sound.perm {q : TimerQueue} {loose loose' : List TimerPtr} (h : Sound q loose)
    (hp : loose.Perm loose') : Sound q loose' :=
  ⟨h.toHeapOk, h.timers, h.active, fun p hm => h.live p (hp.mem_iff.mpr hm),
    fun p hm => h.apart p (hp.mem_iff.mpr hm), hp.nodup_iff.mp h.nodup,
    fun p t ht => (h.covered p t ht).imp_left hp.mem_iff.mp⟩

/-- The object of a live pointer is the timer's sequence number. -/
theorem HeapOk.object_eq {q : TimerQueue} (h : HeapOk q) {p : TimerPtr} {t : Timer}
    (ht : q.heap p = some t) : p.object = t.sequence_ :=
  (h.object _ _ (h.born p t ht)).1

/-- A live timer outside the sets has a key of its own in `timers_`. -/
theorem Sound.timers_fresh {q : TimerQueue} {loose : List TimerPtr} (h : Sound q loose)
    {p : TimerPtr} (hp : p ∈ loose) (when' : Timestamp) :
    ∀ it ∈ q.timers_, Entry.key it ≠ Entry.key (when', p) := by
  rintro ⟨w, p'⟩ hit hkey
  obtain ⟨t, ht⟩ := h.live p hp
  obtain ⟨t', ht', -, hact⟩ := h.timers w p' hit
  obtain rfl : p' = p := h.addr p' p t' t ht' ht (Entry.key_eq.mp hkey).2
  exact h.apart p' hp _ hact

theorem Sound.active_fresh {q : TimerQueue} {loose : List TimerPtr} (h : Sound q loose)
    {p : TimerPtr} (hp : p ∈ loose) (s : Nat) :
    ∀ timer ∈ q.activeTimers_, ActiveTimer.key timer ≠ ActiveTimer.key (p, s) := by
  rintro ⟨p', s'⟩ hm hkey
  obtain ⟨t, ht⟩ := h.live p hp
  obtain ⟨t', ht', -⟩ := h.active p' s' hm
  obtain rfl : p' = p := h.addr p' p t' t ht' ht (ActiveTimer.key_eq.mp hkey).1
  exact h.apart p' hp _ hm

/-! ## Inserting and freeing -/

theorem Sound.insert {q : TimerQueue} {p : TimerPtr} {loose : List TimerPtr}
    (h : Sound q (p :: loose)) : Sound (q.insert p).1 loose := by
  obtain ⟨t, ht⟩ := h.live p List.mem_cons_self
  have htimers := h.timers_fresh List.mem_cons_self t.expiration_
  have hactive := h.active_fresh List.mem_cons_self t.sequence_
  obtain ⟨hnot, hnodup⟩ := List.nodup_cons.mp h.nodup
  have hdef : (q.insert p).1 = { q with
      timers_ := q.timers_.insert (t.expiration_, p)
      activeTimers_ := q.activeTimers_.insert (p, t.sequence_) } := by
    simp [TimerQueue.insert, ht]
  rw [hdef]
  refine ⟨h.toHeapOk.of_neutral rfl rfl [] (by simp) (by simp), ?_, ?_, ?_, ?_, hnodup, ?_⟩
  · intro w p' hm
    rcases (OrderedSet.mem_insert htimers).mp hm with heq | hm
    · obtain ⟨rfl, rfl⟩ := Prod.mk.inj heq
      exact ⟨t, ht, rfl, (OrderedSet.mem_insert hactive).mpr (.inl rfl)⟩
    · obtain ⟨t', ht', hw, hact⟩ := h.timers w p' hm
      exact ⟨t', ht', hw, (OrderedSet.mem_insert hactive).mpr (.inr hact)⟩
  · intro p' s hm
    rcases (OrderedSet.mem_insert hactive).mp hm with heq | hm
    · obtain ⟨rfl, rfl⟩ := Prod.mk.inj heq
      exact ⟨t, ht, rfl, (OrderedSet.mem_insert htimers).mpr (.inl rfl)⟩
    · obtain ⟨t', ht', hs, htm⟩ := h.active p' s hm
      exact ⟨t', ht', hs, (OrderedSet.mem_insert htimers).mpr (.inr htm)⟩
  · exact fun p' hp' => h.live p' (List.mem_cons_of_mem p hp')
  · intro p' hp' s hm
    rcases (OrderedSet.mem_insert hactive).mp hm with heq | hm
    · obtain ⟨rfl, -⟩ := Prod.mk.inj heq
      exact hnot hp'
    · exact h.apart p' (List.mem_cons_of_mem p hp') s hm
  · intro p' t' ht'
    rcases h.covered p' t' ht' with hm | hm
    · rcases List.mem_cons.mp hm with rfl | hm
      · obtain rfl : t = t' := Option.some.inj (ht.symm.trans ht')
        exact .inr ((OrderedSet.mem_insert hactive).mpr (.inl rfl))
      · exact .inl hm
    · exact .inr ((OrderedSet.mem_insert hactive).mpr (.inr hm))

theorem delete_eq {q : TimerQueue} {p : TimerPtr} {t : Timer} (ht : q.heap p = some t) :
    q.delete p = { q with
      heap := Function.update q.heap p none
      trace := q.trace ++ [.delete t.sequence_] } := by
  simp [TimerQueue.delete, ht, emit]

theorem heap_delete {q : TimerQueue} {p : TimerPtr} {t : Timer} (ht : q.heap p = some t)
    {p' : TimerPtr} {t' : Timer} :
    (q.delete p).heap p' = some t' ↔ q.heap p' = some t' ∧ p' ≠ p := by
  rw [delete_eq ht]
  rcases eq_or_ne p' p with rfl | hne
  · simp
  · simp [hne]

/-- Two live timers have different numbers. -/
theorem HeapOk.sequence_inj {q : TimerQueue} (h : HeapOk q) {p p' : TimerPtr} {t t' : Timer}
    (ht : q.heap p = some t) (ht' : q.heap p' = some t') (hs : t'.sequence_ = t.sequence_) :
    p' = p := by
  have hborn := h.born p' t' ht'
  rw [hs] at hborn
  exact h.unique _ _ _ hborn (h.born p t ht)

theorem HeapOk.delete {q : TimerQueue} (h : HeapOk q) {p : TimerPtr} {t : Timer}
    (ht : q.heap p = some t) : HeapOk (q.delete p) := by
  have htr : (q.delete p).trace = q.trace ++ [.delete t.sequence_] := by rw [delete_eq ht]
  have hnum : (q.delete p).s_numCreated_ = q.s_numCreated_ := by rw [delete_eq ht]
  have hadd : ∀ id, TimerEffect.addTimer id ∈ (q.delete p).trace ↔ .addTimer id ∈ q.trace := by
    simp [htr]
  have hdel : ∀ s, TimerEffect.delete s ∈ (q.delete p).trace ↔
      .delete s ∈ q.trace ∨ s = t.sequence_ := by
    simp [htr]
  refine ⟨by simpa only [hadd, hnum] using h.object, by simpa only [hadd] using h.unique,
    ?_, ?_, ?_, ?_, ?_, ?_, ?_⟩
  · intro p' t' ht'
    exact (hadd _).mpr (h.born p' t' ((heap_delete ht).mp ht').1)
  · intro p' p'' t' t'' ht' ht''
    exact h.addr p' p'' t' t'' ((heap_delete ht).mp ht').1 ((heap_delete ht).mp ht'').1
  · exact fun p' t' ht' => h.addr_lt p' t' ((heap_delete ht).mp ht').1
  · intro p' t' ht' hm
    obtain ⟨hlive, hne⟩ := (heap_delete ht).mp ht'
    rcases (hdel _).mp hm with hm | heq
    · exact h.undeleted p' t' hlive hm
    · exact hne (h.sequence_inj ht hlive heq)
  · intro p' s hm hnone
    have hadded : TimerEffect.addTimer ⟨p', s⟩ ∈ q.trace := (hadd _).mp hm
    rw [htr, List.count_append]
    rcases eq_or_ne p' p with rfl | hne
    · obtain rfl : s = t.sequence_ := (h.object p' s hadded).1.symm.trans (h.object_eq ht)
      rw [List.count_eq_zero_of_not_mem (h.undeleted p' t ht)]
      simp
    · have hold : q.heap p' = none := by
        rw [delete_eq ht] at hnone
        simpa [hne] using hnone
      have hs : t.sequence_ ≠ s := by
        rintro rfl
        exact hne (h.unique _ _ _ hadded (h.born p t ht))
      rw [h.deleted p' s hadded hold]
      simp [hs]
  · intro s hs hm
    rw [hnum] at hs
    rcases (hdel s).mp hm with hm | rfl
    · exact h.future s hs hm
    · exact absurd (h.object _ _ (h.born p t ht)).2 (Nat.not_le.mpr hs)
  · intro p' hm
    exact h.clean p' (by simpa [htr] using hm)

theorem SetsOk.delete {q : TimerQueue} {p : TimerPtr} {loose : List TimerPtr}
    (h : SetsOk q (p :: loose)) {t : Timer} (ht : q.heap p = some t) :
    SetsOk (q.delete p) loose := by
  obtain ⟨hnot, hnodup⟩ := List.nodup_cons.mp h.nodup
  have htimers : (q.delete p).timers_ = q.timers_ := by rw [delete_eq ht]
  have hactive : (q.delete p).activeTimers_ = q.activeTimers_ := by rw [delete_eq ht]
  have hout : ∀ p' s, (p', s) ∈ q.activeTimers_ → p' ≠ p := by
    rintro p' s hm rfl
    exact h.apart p' List.mem_cons_self s hm
  refine ⟨?_, ?_, ?_, ?_, hnodup, ?_⟩
  · intro w p' hm
    obtain ⟨t', ht', hw, hact⟩ := h.timers w p' (htimers ▸ hm)
    exact ⟨t', (heap_delete ht).mpr ⟨ht', hout p' _ hact⟩, hw, hactive ▸ hact⟩
  · intro p' s hm
    rw [hactive] at hm
    obtain ⟨t', ht', hs, htm⟩ := h.active p' s hm
    exact ⟨t', (heap_delete ht).mpr ⟨ht', hout p' s hm⟩, hs, htimers ▸ htm⟩
  · intro p' hp'
    obtain ⟨t', ht'⟩ := h.live p' (List.mem_cons_of_mem p hp')
    have hne : p' ≠ p := by
      rintro rfl
      exact hnot hp'
    exact ⟨t', (heap_delete ht).mpr ⟨ht', hne⟩⟩
  · intro p' hp' s
    rw [hactive]
    exact h.apart p' (List.mem_cons_of_mem p hp') s
  · intro p' t' ht'
    obtain ⟨hlive, hne⟩ := (heap_delete ht).mp ht'
    rw [hactive]
    exact (h.covered p' t' hlive).imp_left fun hm => (List.mem_cons.mp hm).resolve_left hne

/-- Freeing a timer that is in neither set. -/
theorem Sound.delete {q : TimerQueue} {p : TimerPtr} {loose : List TimerPtr}
    (h : Sound q (p :: loose)) : Sound (q.delete p) loose := by
  obtain ⟨t, ht⟩ := h.live p List.mem_cons_self
  exact ⟨h.toHeapOk.delete ht, h.toSetsOk.delete ht⟩

/-! ## New timers -/

theorem HeapOk.object_le {q : TimerQueue} (h : HeapOk q) {p : TimerPtr} {t : Timer}
    (ht : q.heap p = some t) : p.object ≤ q.s_numCreated_ := by
  rw [h.object_eq ht]
  exact (h.object _ _ (h.born p t ht)).2

theorem HeapOk.heap_newTimer {q : TimerQueue} (h : HeapOk q) {addr : Nat} {when' : Timestamp}
    {interval : Int} {rep : Bool} {p : TimerPtr} {t : Timer} :
    (q.newTimer addr when' interval rep).heap p = some t ↔
      p = ⟨addr, q.s_numCreated_ + 1⟩ ∧ t = ⟨when', interval, rep, q.s_numCreated_ + 1⟩ ∨
        q.heap p = some t := by
  show Function.update q.heap ⟨addr, q.s_numCreated_ + 1⟩ _ p = some t ↔ _
  rcases eq_or_ne p ⟨addr, q.s_numCreated_ + 1⟩ with rfl | hne
  · have hold : q.heap ⟨addr, q.s_numCreated_ + 1⟩ ≠ some t := fun ht =>
      absurd (h.object_le ht) (Nat.not_succ_le_self _)
    simp [hold, eq_comm]
  · simp [hne]

section NewTimer

variable {q : TimerQueue} {addr : Nat}
  (hfree : ∀ object ≤ q.s_numCreated_, q.heap ⟨addr, object⟩ = none)
include hfree

/-- What was live is another object, at another address. -/
theorem HeapOk.addr_ne (h : HeapOk q) {p : TimerPtr} {t : Timer} (ht : q.heap p = some t) :
    p.addr ≠ addr := by
  rintro rfl
  have hnone := hfree p.object (h.object_le ht)
  rw [ht] at hnone
  cases hnone

theorem HeapOk.newTimer (h : HeapOk q) (hlt : addr < UINTPTR_MAX) (when' : Timestamp)
    (interval : Int) (rep : Bool) : HeapOk (q.newTimer addr when' interval rep) := by
  have hadd : ∀ p s, TimerEffect.addTimer ⟨p, s⟩ ∈ (q.newTimer addr when' interval rep).trace ↔
      .addTimer ⟨p, s⟩ ∈ q.trace ∨ p = ⟨addr, q.s_numCreated_ + 1⟩ ∧ s = q.s_numCreated_ + 1 := by
    simp [TimerQueue.newTimer]
  have hdel : ∀ s, TimerEffect.delete s ∈ (q.newTimer addr when' interval rep).trace ↔
      .delete s ∈ q.trace := by
    simp [TimerQueue.newTimer]
  refine ⟨?_, ?_, ?_, ?_, ?_, ?_, ?_, ?_, ?_⟩
  · intro p s hm
    rcases (hadd p s).mp hm with hold | ⟨rfl, rfl⟩
    · obtain ⟨ho, hs⟩ := h.object p s hold
      exact ⟨ho, Nat.le_succ_of_le hs⟩
    · exact ⟨rfl, le_rfl⟩
  · intro p p' s hm hm'
    rcases (hadd p s).mp hm with hold | ⟨rfl, rfl⟩ <;>
      rcases (hadd p' _).mp hm' with hold' | ⟨rfl, hs⟩
    · exact h.unique p p' s hold hold'
    · exact absurd (hs ▸ (h.object p s hold).2) (Nat.not_succ_le_self _)
    · exact absurd (h.object p' _ hold').2 (Nat.not_succ_le_self _)
    · rfl
  · intro p t ht
    rcases h.heap_newTimer.mp ht with ⟨rfl, rfl⟩ | hold
    · exact (hadd _ _).mpr (.inr ⟨rfl, rfl⟩)
    · exact (hadd _ _).mpr (.inl (h.born p t hold))
  · intro p p' t t' ht ht' heq
    rcases h.heap_newTimer.mp ht with ⟨rfl, rfl⟩ | hold <;>
      rcases h.heap_newTimer.mp ht' with ⟨rfl, rfl⟩ | hold'
    · rfl
    · exact absurd heq.symm (h.addr_ne hfree hold')
    · exact absurd heq (h.addr_ne hfree hold)
    · exact h.addr p p' t t' hold hold' heq
  · intro p t ht
    rcases h.heap_newTimer.mp ht with ⟨rfl, rfl⟩ | hold
    · exact hlt
    · exact h.addr_lt p t hold
  · intro p t ht hm
    rcases h.heap_newTimer.mp ht with ⟨rfl, rfl⟩ | hold
    · exact h.future _ (Nat.lt_succ_self _) ((hdel _).mp hm)
    · exact h.undeleted p t hold ((hdel _).mp hm)
  · intro p s hm hnone
    have hgone : ∀ t, ¬ (p = ⟨addr, q.s_numCreated_ + 1⟩ ∧
        t = ⟨when', interval, rep, q.s_numCreated_ + 1⟩ ∨ q.heap p = some t) := fun t ht => by
      rw [h.heap_newTimer.mpr ht] at hnone
      cases hnone
    rcases (hadd p s).mp hm with hold | ⟨rfl, rfl⟩
    · have hnew := h.deleted p s hold
        (Option.eq_none_iff_forall_ne_some.mpr fun t ht => hgone t (.inr ht))
      simpa [TimerQueue.newTimer] using hnew
    · exact absurd (.inl ⟨rfl, rfl⟩) (hgone _)
  · intro s hs hm
    exact h.future s (Nat.lt_of_succ_lt hs) ((hdel s).mp hm)
  · intro p hm
    exact h.clean p (by simpa [TimerQueue.newTimer] using hm)

/-- A new timer is loose until it is inserted. -/
theorem Sound.newTimer {loose : List TimerPtr} (h : Sound q loose) (hlt : addr < UINTPTR_MAX)
    (when' : Timestamp) (interval : Int) (rep : Bool) :
    Sound (q.newTimer addr when' interval rep) (⟨addr, q.s_numCreated_ + 1⟩ :: loose) := by
  have hold : ∀ p t, q.heap p = some t →
      (q.newTimer addr when' interval rep).heap p = some t := fun p t ht =>
    h.toHeapOk.heap_newTimer.mpr (.inr ht)
  have hdead : ∀ t, q.heap ⟨addr, q.s_numCreated_ + 1⟩ ≠ some t := fun t ht =>
    h.toHeapOk.addr_ne hfree ht rfl
  refine ⟨h.toHeapOk.newTimer hfree hlt when' interval rep, ?_, ?_, ?_, ?_, ?_, ?_⟩
  · intro w p hm
    obtain ⟨t, ht, hw⟩ := h.timers w p hm
    exact ⟨t, hold p t ht, hw⟩
  · intro p s hm
    obtain ⟨t, ht, hs⟩ := h.active p s hm
    exact ⟨t, hold p t ht, hs⟩
  · intro p hm
    rcases List.mem_cons.mp hm with rfl | hm
    · exact ⟨_, h.toHeapOk.heap_newTimer.mpr (.inl ⟨rfl, rfl⟩)⟩
    · obtain ⟨t, ht⟩ := h.live p hm
      exact ⟨t, hold p t ht⟩
  · intro p hm s hact
    rcases List.mem_cons.mp hm with rfl | hm
    · obtain ⟨t, ht, -⟩ := h.active _ s hact
      exact hdead t ht
    · exact h.apart p hm s hact
  · refine List.nodup_cons.mpr ⟨fun hm => ?_, h.nodup⟩
    obtain ⟨t, ht⟩ := h.live _ hm
    exact hdead t ht
  · intro p t ht
    rcases h.toHeapOk.heap_newTimer.mp ht with ⟨rfl, rfl⟩ | ht
    · exact .inl List.mem_cons_self
    · exact (h.covered p t ht).imp_left (List.mem_cons_of_mem _)

end NewTimer

/-! ## Restarting -/

/-- The timers are those from before, under the same numbers. -/
theorem heap_setExpiration {q : TimerQueue} {p p' : TimerPtr} {t t' : Timer} (ht : q.heap p = some t)
    {when' : Timestamp}
    (ht' : Function.update q.heap p (some { t with expiration_ := when' }) p' = some t') :
    ∃ t'', q.heap p' = some t'' ∧ t'.sequence_ = t''.sequence_ := by
  rcases eq_or_ne p' p with rfl | hne
  · obtain rfl : { t with expiration_ := when' } = t' := by simpa using ht'
    exact ⟨t, ht, rfl⟩
  · exact ⟨t', by simpa [hne] using ht', rfl⟩

theorem HeapOk.setExpiration {q : TimerQueue} (h : HeapOk q) {p : TimerPtr} {t : Timer}
    (ht : q.heap p = some t) (when' : Timestamp) :
    HeapOk { q with heap := Function.update q.heap p (some { t with expiration_ := when' }) } := by
  refine ⟨h.object, h.unique, ?_, ?_, ?_, ?_, ?_, h.future, h.clean⟩
  · intro p' t' ht'
    obtain ⟨t'', ht'', hs⟩ := heap_setExpiration ht ht'
    rw [hs]
    exact h.born p' t'' ht''
  · intro p' p'' t₁ t₂ ht₁ ht₂
    obtain ⟨t₁', ht₁', -⟩ := heap_setExpiration ht ht₁
    obtain ⟨t₂', ht₂', -⟩ := heap_setExpiration ht ht₂
    exact h.addr p' p'' t₁' t₂' ht₁' ht₂'
  · intro p' t' ht'
    obtain ⟨t'', ht'', -⟩ := heap_setExpiration ht ht'
    exact h.addr_lt p' t'' ht''
  · intro p' t' ht'
    obtain ⟨t'', ht'', hs⟩ := heap_setExpiration ht ht'
    rw [hs]
    exact h.undeleted p' t'' ht''
  · intro p' s hm hnone
    have hne : p' ≠ p := by
      rintro rfl
      simp at hnone
    exact h.deleted p' s hm (by simpa [hne] using hnone)

theorem SetsOk.setExpiration {q : TimerQueue} {p : TimerPtr} {loose : List TimerPtr}
    (h : SetsOk q (p :: loose)) {t : Timer} (ht : q.heap p = some t) (when' : Timestamp) :
    SetsOk { q with heap := Function.update q.heap p (some { t with expiration_ := when' }) }
      (p :: loose) := by
  have hkeep : ∀ p' t', q.heap p' = some t' → p' ≠ p →
      Function.update q.heap p (some { t with expiration_ := when' }) p' = some t' := by
    intro p' t' ht' hne
    simpa [hne] using ht'
  have hapart : ∀ p' s, (p', s) ∈ q.activeTimers_ → p' ≠ p := by
    rintro p' s hm rfl
    exact h.apart p' List.mem_cons_self s hm
  refine ⟨?_, ?_, ?_, h.apart, h.nodup, ?_⟩
  · intro w p' hm
    obtain ⟨t', ht', hw, hact⟩ := h.timers w p' hm
    exact ⟨t', hkeep p' t' ht' (hapart p' _ hact), hw, hact⟩
  · intro p' s hm
    obtain ⟨t', ht', hs, htm⟩ := h.active p' s hm
    exact ⟨t', hkeep p' t' ht' (hapart p' s hm), hs, htm⟩
  · intro p' hm
    rcases eq_or_ne p' p with rfl | hne
    · exact ⟨_, Function.update_self ..⟩
    · obtain ⟨t', ht'⟩ := h.live p' hm
      exact ⟨t', hkeep p' t' ht' hne⟩
  · intro p' t' ht'
    obtain ⟨t'', ht'', hs⟩ := heap_setExpiration ht ht'
    rw [hs]
    exact h.covered p' t'' ht''

/-- The key of a loose timer may change. -/
theorem Sound.setExpiration {q : TimerQueue} {p : TimerPtr} {loose : List TimerPtr}
    (h : Sound q (p :: loose)) {t : Timer} (ht : q.heap p = some t) (when' : Timestamp) :
    Sound { q with heap := Function.update q.heap p (some { t with expiration_ := when' }) }
      (p :: loose) :=
  ⟨h.toHeapOk.setExpiration ht when', h.toSetsOk.setExpiration ht when'⟩

/-! ## Taking timers out of the sets -/

/-- Timers that leave both sets become loose. -/
theorem Sound.take {q : TimerQueue} {loose : List TimerPtr} (h : Sound q loose)
    {ps : List TimerPtr} (hnodup : ps.Nodup) (hps : ∀ p ∈ ps, ∃ s, (p, s) ∈ q.activeTimers_)
    {timers : OrderedSet Entry.key} {active : OrderedSet ActiveTimer.key}
    (htimers : ∀ w p, (w, p) ∈ timers ↔ (w, p) ∈ q.timers_ ∧ p ∉ ps)
    (hactive : ∀ p s, (p, s) ∈ active ↔ (p, s) ∈ q.activeTimers_ ∧ p ∉ ps) :
    Sound { q with timers_ := timers, activeTimers_ := active } (ps ++ loose) := by
  refine ⟨h.toHeapOk.of_neutral rfl rfl [] (by simp) (by simp), ?_, ?_, ?_, ?_, ?_, ?_⟩
  · intro w p hm
    obtain ⟨hm, hp⟩ := (htimers w p).mp hm
    obtain ⟨t, ht, hw, hact⟩ := h.timers w p hm
    exact ⟨t, ht, hw, (hactive p _).mpr ⟨hact, hp⟩⟩
  · intro p s hm
    obtain ⟨hm, hp⟩ := (hactive p s).mp hm
    obtain ⟨t, ht, hs, htm⟩ := h.active p s hm
    exact ⟨t, ht, hs, (htimers _ p).mpr ⟨htm, hp⟩⟩
  · intro p hm
    rcases List.mem_append.mp hm with hm | hm
    · obtain ⟨s, hact⟩ := hps p hm
      obtain ⟨t, ht, -⟩ := h.active p s hact
      exact ⟨t, ht⟩
    · exact h.live p hm
  · intro p hm s hact
    obtain ⟨hact, hp⟩ := (hactive p s).mp hact
    rcases List.mem_append.mp hm with hm | hm
    · exact hp hm
    · exact h.apart p hm s hact
  · refine List.nodup_append.mpr ⟨hnodup, h.nodup, ?_⟩
    rintro p hp _ hl rfl
    obtain ⟨s, hact⟩ := hps p hp
    exact h.apart p hl s hact
  · intro p t ht
    by_cases hp : p ∈ ps
    · exact .inl (List.mem_append_left loose hp)
    · rcases h.covered p t ht with hm | hm
      · exact .inl (List.mem_append_right ps hm)
      · exact .inr ((hactive p _).mpr ⟨hm, hp⟩)

theorem Sound.mem_eraseTimer {q : TimerQueue} {loose : List TimerPtr} (h : Sound q loose)
    {p : TimerPtr} {t : Timer} (ht : q.heap p = some t) (w : Timestamp) (p' : TimerPtr) :
    (w, p') ∈ q.timers_.eraseKey (Entry.key (t.expiration_, p)) ↔
      (w, p') ∈ q.timers_ ∧ p' ∉ [p] := by
  rw [OrderedSet.mem_eraseKey, List.mem_singleton, ne_eq, Entry.key_eq]
  refine and_congr_right fun hm => not_congr ?_
  obtain ⟨t', ht', hw, -⟩ := h.timers w p' hm
  constructor
  · exact fun heq => h.addr p' p t' t ht' ht heq.2
  · rintro rfl
    obtain rfl : t' = t := Option.some.inj (ht'.symm.trans ht)
    exact ⟨hw.symm, rfl⟩

theorem Sound.mem_eraseActive {q : TimerQueue} {loose : List TimerPtr} (h : Sound q loose)
    {p : TimerPtr} {t : Timer} (ht : q.heap p = some t) (p' : TimerPtr) (s : Nat) :
    (p', s) ∈ q.activeTimers_.eraseKey (ActiveTimer.key (p, t.sequence_)) ↔
      (p', s) ∈ q.activeTimers_ ∧ p' ∉ [p] := by
  rw [OrderedSet.mem_eraseKey, List.mem_singleton, ne_eq, ActiveTimer.key_eq]
  refine and_congr_right fun hm => not_congr ?_
  obtain ⟨t', ht', hs, -⟩ := h.active p' s hm
  constructor
  · exact fun heq => h.addr p' p t' t ht' ht heq.1
  · rintro rfl
    obtain rfl : t' = t := Option.some.inj (ht'.symm.trans ht)
    exact ⟨rfl, hs.symm⟩

/-- `q'` is `q` after the pending timer `p` was cancelled. -/
structure Cancelled (q q' : TimerQueue) (p : TimerPtr) : Prop where
  timers : ∀ w p', (w, p') ∈ q'.timers_ ↔ (w, p') ∈ q.timers_ ∧ p' ≠ p
  active : ∀ p' s, (p', s) ∈ q'.activeTimers_ ↔ (p', s) ∈ q.activeTimers_ ∧ p' ≠ p
  heap : q'.heap = Function.update q.heap p none
  functors : q'.functors = q.functors
  batch : q'.batch = q.batch
  calling : q'.callingExpiredTimers_ = q.callingExpiredTimers_
  canceling : q'.cancelingTimers_ = q.cancelingTimers_
  timerfd_ : q'.timerfd_ = q.timerfd_
  trace : ∃ s, q'.trace = q.trace ++ [.delete s]

/-- A pending timer is cancelled by its address and its sequence number. -/
theorem Sound.cancelInLoop_pending {q : TimerQueue} {loose : List TimerPtr} (h : Sound q loose)
    {timerId : TimerId} {p : TimerPtr} (hact : (p, timerId.sequence_) ∈ q.activeTimers_)
    (haddr : p.addr = timerId.timer_.addr) :
    Cancelled q (q.cancelInLoop timerId) p ∧ Sound (q.cancelInLoop timerId) loose := by
  obtain ⟨t, ht, hs, -⟩ := h.active p _ hact
  have hfind : q.activeTimers_.find? (ActiveTimer.key (timerId.timer_, timerId.sequence_)) =
      some (p, t.sequence_) :=
    OrderedSet.find?_eq_some.mpr ⟨hs ▸ hact, ActiveTimer.key_eq.mpr ⟨haddr, hs⟩⟩
  have hdef : q.cancelInLoop timerId =
      { q with
        timers_ := q.timers_.eraseKey (Entry.key (t.expiration_, p))
        activeTimers_ :=
          q.activeTimers_.eraseKey (ActiveTimer.key (p, t.sequence_)) }.delete p := by
    simp only [TimerQueue.cancelInLoop, hfind, ht, TimerQueue.delete]
    rfl
  have htimers := h.mem_eraseTimer ht
  have hactive := h.mem_eraseActive ht
  have htake := h.take (List.nodup_singleton p) (by simpa using ⟨_, hact⟩) htimers hactive
  have hdel := delete_eq (q := { q with
    timers_ := q.timers_.eraseKey (Entry.key (t.expiration_, p))
    activeTimers_ := q.activeTimers_.eraseKey (ActiveTimer.key (p, t.sequence_)) }) ht
  refine ⟨?_, hdef ▸ htake.delete⟩
  rw [hdef, hdel]
  exact ⟨by simpa using htimers, by simpa using hactive, rfl, rfl, rfl, rfl, rfl, rfl, _, rfl⟩

/-- No pending timer has this address and this number. -/
theorem cancelInLoop_not_pending {q : TimerQueue} {timerId : TimerId}
    (hnot : ∀ p, (p, timerId.sequence_) ∈ q.activeTimers_ → p.addr ≠ timerId.timer_.addr) :
    q.cancelInLoop timerId =
      if q.callingExpiredTimers_ then
        { q with
          cancelingTimers_ := q.cancelingTimers_.insert (timerId.timer_, timerId.sequence_) }
      else q := by
  have hfind : q.activeTimers_.find? (ActiveTimer.key (timerId.timer_, timerId.sequence_)) =
      none := by
    refine OrderedSet.find?_eq_none.mpr ?_
    rintro ⟨p, s⟩ hm hkey
    obtain ⟨haddr, rfl⟩ := ActiveTimer.key_eq.mp hkey
    exact hnot p hm haddr
  simp [cancelInLoop, hfind]

theorem Sound.cancelInLoop {q : TimerQueue} {loose : List TimerPtr} (h : Sound q loose)
    (timerId : TimerId) : Sound (q.cancelInLoop timerId) loose := by
  by_cases hpending : ∃ p, (p, timerId.sequence_) ∈ q.activeTimers_ ∧ p.addr = timerId.timer_.addr
  · obtain ⟨p, hact, haddr⟩ := hpending
    exact (h.cancelInLoop_pending hact haddr).2
  · rw [cancelInLoop_not_pending fun p hact haddr => hpending ⟨p, hact, haddr⟩]
    split
    · exact h.of_neutral rfl rfl rfl rfl [] (by simp) (by simp)
    · exact h

/-- The loop of `getExpired` that erases from `activeTimers_`. -/
theorem foldl_eraseActive (l : List Entry) {q : TimerQueue}
    (hlive : ∀ it ∈ l, ∃ t, q.heap it.2 = some t)
    (hmem : ∀ p s, (p, s) ∈ q.activeTimers_ → ∃ t, q.heap p = some t ∧ t.sequence_ = s)
    (haddr : ∀ p p' t t', q.heap p = some t → q.heap p' = some t' → p.addr = p'.addr → p = p') :
    ∃ active, l.foldl TimerQueue.eraseActive q = { q with activeTimers_ := active } ∧
      ∀ p s, (p, s) ∈ active ↔ (p, s) ∈ q.activeTimers_ ∧ p ∉ l.map Prod.snd := by
  induction l generalizing q with
  | nil => exact ⟨q.activeTimers_, rfl, by simp⟩
  | cons it l ih =>
    obtain ⟨t, ht⟩ := hlive it List.mem_cons_self
    have hdef : q.eraseActive it = { q with
        activeTimers_ := q.activeTimers_.eraseKey (ActiveTimer.key (it.2, t.sequence_)) } := by
      simp [TimerQueue.eraseActive, ht]
    have herase : ∀ p s, (p, s) ∈ (q.eraseActive it).activeTimers_ ↔
        (p, s) ∈ q.activeTimers_ ∧ p ≠ it.2 := by
      intro p s
      rw [hdef, OrderedSet.mem_eraseKey, ne_eq, ActiveTimer.key_eq]
      refine and_congr_right fun hm => not_congr ?_
      obtain ⟨t', ht', hs⟩ := hmem p s hm
      constructor
      · exact fun heq => haddr p it.2 t' t ht' ht heq.1
      · rintro rfl
        obtain rfl : t' = t := Option.some.inj (ht'.symm.trans ht)
        exact ⟨rfl, hs.symm⟩
    have hheap : (q.eraseActive it).heap = q.heap := by rw [hdef]
    obtain ⟨active, heq, hactive⟩ := ih (q := q.eraseActive it)
      (fun it' hm => hheap ▸ hlive it' (List.mem_cons_of_mem it hm))
      (fun p s hm => hheap ▸ hmem p s ((herase p s).mp hm).1) (hheap ▸ haddr)
    refine ⟨active, ?_, ?_⟩
    · rw [List.foldl_cons, heq, hdef]
    · intro p s
      rw [hactive, herase, List.map_cons, List.mem_cons, not_or, and_assoc]

/-- A live address is below that of the sentry. -/
theorem Sound.key_lt_sentry {q : TimerQueue} {loose : List TimerPtr} (h : Sound q loose)
    (now : Timestamp) {it : Entry} (hm : it ∈ q.timers_) :
    Entry.key it < Entry.key (now, ⟨UINTPTR_MAX, 0⟩) ↔ it.1 ≤ now := by
  obtain ⟨w, p⟩ := it
  obtain ⟨t, ht, -⟩ := h.timers w p hm
  have hlt := h.addr_lt p t ht
  simp only [Entry.key, Prod.Lex.toLex_lt_toLex]
  constructor
  · rintro (hw | ⟨rfl, -⟩)
    · exact hw.le
    · exact le_rfl
  · intro hw
    rcases hw.lt_or_eq with hw | rfl
    · exact .inl hw
    · exact .inr ⟨rfl, hlt⟩

theorem Sound.mem_expired {q : TimerQueue} {loose : List TimerPtr} (h : Sound q loose)
    (now : Timestamp) (it : Entry) :
    it ∈ (q.getExpired now).2 ↔ it ∈ q.timers_ ∧ it.1 ≤ now := by
  show it ∈ q.timers_.takeBelow _ ↔ _
  rw [OrderedSet.mem_takeBelow]
  exact and_congr_right fun hm => h.key_lt_sentry now hm

theorem Sound.mem_unexpired {q : TimerQueue} {loose : List TimerPtr} (h : Sound q loose)
    (now w : Timestamp) (p : TimerPtr) :
    (w, p) ∈ q.timers_.dropBelow (Entry.key (now, ⟨UINTPTR_MAX, 0⟩)) ↔
      (w, p) ∈ q.timers_ ∧ now < w := by
  rw [OrderedSet.mem_dropBelow]
  refine and_congr_right fun hm => ?_
  rw [← not_lt, h.key_lt_sentry now hm, not_le]

/-- Each pointer is in `timers_` under one key only. -/
theorem SetsOk.key_unique {q : TimerQueue} {loose : List TimerPtr} (h : SetsOk q loose)
    {w w' : Timestamp} {p : TimerPtr} (hm : (w, p) ∈ q.timers_) (hm' : (w', p) ∈ q.timers_) :
    w = w' := by
  obtain ⟨t, ht, hw, -⟩ := h.timers w p hm
  obtain ⟨t', ht', hw', -⟩ := h.timers w' p hm'
  obtain rfl : t = t' := Option.some.inj (ht.symm.trans ht')
  exact hw.symm.trans hw'

/-- `getExpired` takes the timers that are due out of both sets. -/
theorem Sound.getExpired {q : TimerQueue} {loose : List TimerPtr} (h : Sound q loose)
    (now : Timestamp) :
    ∃ timers active, (q.getExpired now).1 = { q with timers_ := timers, activeTimers_ := active } ∧
      (∀ w p, (w, p) ∈ timers ↔ (w, p) ∈ q.timers_ ∧ now < w) ∧
      (∀ it, it ∈ (q.getExpired now).2 ↔ it ∈ q.timers_ ∧ it.1 ≤ now) ∧
      Sound (q.getExpired now).1 ((q.getExpired now).2.map Prod.snd ++ loose) := by
  obtain ⟨active, heq, hactive⟩ := foldl_eraseActive (q.getExpired now).2
    (q := { q with timers_ := q.timers_.dropBelow (Entry.key (now, ⟨UINTPTR_MAX, 0⟩)) })
    (fun it hm => by
      obtain ⟨t, ht, -⟩ := h.timers it.1 it.2 ((h.mem_expired now it).mp hm).1
      exact ⟨t, ht⟩)
    (fun p s hm => by
      obtain ⟨t, ht, hs, -⟩ := h.active p s hm
      exact ⟨t, ht, hs⟩)
    h.addr
  have hmem : ∀ p, p ∈ (q.getExpired now).2.map Prod.snd ↔
      ∃ w, (w, p) ∈ q.timers_ ∧ w ≤ now := by
    intro p
    simp only [List.mem_map, Prod.exists, exists_eq_right, h.mem_expired now]
  refine ⟨_, active, heq, h.mem_unexpired now, h.mem_expired now, ?_⟩
  rw [show (q.getExpired now).1 = _ from heq]
  refine h.take ?_ ?_ ?_ hactive
  · refine List.Nodup.map_on ?_ (q.timers_.nodup_takeBelow _)
    rintro ⟨w, p⟩ hm ⟨w', p'⟩ hm' rfl
    rw [h.key_unique (OrderedSet.mem_takeBelow.mp hm).1 (OrderedSet.mem_takeBelow.mp hm').1]
  · intro p hp
    obtain ⟨w, hm, -⟩ := (hmem p).mp hp
    obtain ⟨t, -, -, hact⟩ := h.timers w p hm
    exact ⟨_, hact⟩
  · intro w p
    rw [h.mem_unexpired now, hmem]
    refine and_congr_right fun hm => ?_
    constructor
    · rintro hw ⟨w', hm', hle⟩
      rw [h.key_unique hm hm'] at hw
      exact absurd hle (not_le.mpr hw)
    · intro hno
      exact not_le.mp fun hle => hno ⟨w, hm, hle⟩

/-! ## What stays -/

/-- `q'` differs from `q` in its timers at most, and in what it has armed. -/
structure SameBatch (q q' : TimerQueue) : Prop where
  functors : q'.functors = q.functors
  batch : q'.batch = q.batch
  calling : q'.callingExpiredTimers_ = q.callingExpiredTimers_
  canceling : q'.cancelingTimers_ = q.cancelingTimers_

theorem SameBatch.refl (q : TimerQueue) : SameBatch q q := ⟨rfl, rfl, rfl, rfl⟩

theorem SameBatch.trans {q₁ q₂ q₃ : TimerQueue} (h : SameBatch q₁ q₂) (h' : SameBatch q₂ q₃) :
    SameBatch q₁ q₃ :=
  ⟨h'.functors.trans h.functors, h'.batch.trans h.batch, h'.calling.trans h.calling,
    h'.canceling.trans h.canceling⟩

/-- What `addTimerInLoop` does to a timer that is alive. -/
theorem addTimerInLoop_eq {q : TimerQueue} {p : TimerPtr} {t : Timer} (ht : q.heap p = some t)
    (now : Timestamp) :
    q.addTimerInLoop p now =
      if q.earliestChanged t.expiration_ then
        (q.insert p).1.resetTimerfd t.expiration_ now
      else (q.insert p).1 := by
  cases he : q.earliestChanged t.expiration_ <;> simp [addTimerInLoop, TimerQueue.insert, ht, he]

theorem Sound.addTimerInLoop {q : TimerQueue} {p : TimerPtr} {loose : List TimerPtr}
    (h : Sound q (p :: loose)) (now : Timestamp) :
    Sound (q.addTimerInLoop p now) loose ∧ SameBatch q (q.addTimerInLoop p now) ∧
      (q.addTimerInLoop p now).heap = q.heap := by
  obtain ⟨t, ht⟩ := h.live p List.mem_cons_self
  have hframe : SameBatch q (q.insert p).1 ∧ (q.insert p).1.heap = q.heap := by
    simp only [TimerQueue.insert, ht]
    exact ⟨⟨rfl, rfl, rfl, rfl⟩, trivial⟩
  rw [addTimerInLoop_eq ht]
  split
  · exact ⟨h.insert.of_neutral rfl rfl rfl rfl _ rfl (by simp [TimerEffect.isNeutral]),
      hframe.1.trans ⟨rfl, rfl, rfl, rfl⟩, hframe.2⟩
  · exact ⟨h.insert, hframe⟩

/-! ## `reset` -/

/-- Was `it` cancelled while its batch was running? -/
def isCanceled (q : TimerQueue) (p : TimerPtr) (s : Nat) : Bool :=
  (q.cancelingTimers_.find? (ActiveTimer.key (p, s))).isSome

/-- One round of the loop in `reset`: a repeating timer that was not cancelled starts again, and
any other is freed. -/
inductive ResetCases (now : Timestamp) (q : TimerQueue) (it : Entry) : TimerQueue → Prop
  | restarted (t : Timer) : q.heap it.2 = some t → t.repeat_ = true →
      q.isCanceled it.2 t.sequence_ = false →
      ResetCases now q it
        ({ q with heap := Function.update q.heap it.2 (some (t.restart now)) }.insert it.2).1
  | freed (t : Timer) : q.heap it.2 = some t →
      (t.repeat_ = false ∨ q.isCanceled it.2 t.sequence_ = true) →
      ResetCases now q it (q.delete it.2)

theorem resetOne_cases {q : TimerQueue} {it : Entry} {t : Timer} (ht : q.heap it.2 = some t)
    (now : Timestamp) : ResetCases now q it (resetOne now q it) := by
  have hfind : q.cancelingTimers_.find? (ActiveTimer.key (it.2, t.sequence_)) = none ↔
      q.isCanceled it.2 t.sequence_ = false := by
    simp [isCanceled]
  simp only [resetOne, ht, hfind]
  split
  · next hc => exact .restarted t ht hc.1 hc.2
  · next hc =>
    refine .freed t ht ?_
    cases hrep : t.repeat_ with
    | false => exact .inl rfl
    | true =>
      right
      simpa [hrep] using hc

theorem Sound.resetOne {q : TimerQueue} {it : Entry} {loose : List TimerPtr}
    (h : Sound q (it.2 :: loose)) (now : Timestamp) :
    Sound (TimerQueue.resetOne now q it) loose ∧ SameBatch q (TimerQueue.resetOne now q it) := by
  obtain ⟨t, ht⟩ := h.live it.2 List.mem_cons_self
  have hcases := resetOne_cases ht now
  generalize TimerQueue.resetOne now q it = q' at hcases ⊢
  cases hcases with
  | restarted t ht hrep hno =>
    refine ⟨(h.setExpiration ht _).insert, ?_⟩
    simp only [TimerQueue.insert, Function.update_self]
    exact ⟨rfl, rfl, rfl, rfl⟩
  | freed t ht hwhy =>
    refine ⟨h.delete, ?_⟩
    rw [delete_eq ht]
    exact ⟨rfl, rfl, rfl, rfl⟩

theorem Sound.foldl_resetOne {expired : List Entry} {q : TimerQueue} {loose : List TimerPtr}
    (h : Sound q (expired.map Prod.snd ++ loose)) (now : Timestamp) :
    Sound (expired.foldl (TimerQueue.resetOne now) q) loose ∧
      SameBatch q (expired.foldl (TimerQueue.resetOne now) q) := by
  induction expired generalizing q with
  | nil => exact ⟨h, .refl q⟩
  | cons it expired ih =>
    obtain ⟨hsound, hsame⟩ := h.resetOne now
    obtain ⟨hsound', hsame'⟩ := ih hsound
    exact ⟨hsound', hsame.trans hsame'⟩

theorem Sound.rearm {q : TimerQueue} {loose : List TimerPtr} (h : Sound q loose)
    (now' : Timestamp) : Sound (q.rearm now') loose ∧ SameBatch q (q.rearm now') := by
  rw [TimerQueue.rearm]
  cases hb : q.timers_.begin? with
  | none => exact ⟨h, .refl q⟩
  | some it =>
    obtain ⟨t, ht, -⟩ := h.timers it.1 it.2 (OrderedSet.le_of_begin hb).1
    simp only [ht]
    split
    · exact ⟨h.of_neutral rfl rfl rfl rfl _ rfl (by simp [TimerEffect.isNeutral]),
        ⟨rfl, rfl, rfl, rfl⟩⟩
    · exact ⟨h, .refl q⟩

theorem timers_rearm (q : TimerQueue) (now' : Timestamp) : (q.rearm now').timers_ = q.timers_ := by
  unfold TimerQueue.rearm
  split
  · rfl
  · split
    · rfl
    · split <;> rfl

theorem Sound.heap_rearm {q : TimerQueue} {loose : List TimerPtr} (h : Sound q loose)
    (now' : Timestamp) : (q.rearm now').heap = q.heap := by
  rw [TimerQueue.rearm]
  cases hb : q.timers_.begin? with
  | none => rfl
  | some it =>
    obtain ⟨t, ht, -⟩ := h.timers it.1 it.2 (OrderedSet.le_of_begin hb).1
    simp only [ht]
    split <;> rfl

end TimerQueue

end Mymuduo
