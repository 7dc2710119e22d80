import Mymuduo.Lib.CondVar
import Mymuduo.Lib.Transition

/-!
# `base/BlockingQueue` and `base/BoundedBlockingQueue`

Threads that call `put` and `take` of one queue, a critical section at a time. A call that finds the
queue full, or empty, waits until a notification, or without one; it then takes the lock again and
tests again. `notify` wakes one of the threads that wait, no matter which, and nobody if none does.

The `BlockingQueue` is the queue without a capacity: its `put` never waits, so that nobody waits for
`notFull_`, which it does not have, and it alone has `drain`.

* `queue_in_order`: what is put comes out once and in order, and a bounded queue keeps its bound.
* `calls_complete`: calls are left waiting only for what no call is about to bring.
-/

namespace Mymuduo

open CondVar Tally Transition

variable {τ α : Type*}

/-- Where a thread is in the calls of a queue. -/
inductive QueuePc (α : Type*)
  | outside
  /-- in `put`, on its way to the lock -/
  | putting (val : α)
  /-- in `notFull_.wait()` -/
  | notFull (val : α)
  /-- in `take`, on its way to the lock -/
  | taking
  /-- in `notEmpty_.wait()` -/
  | notEmpty
  deriving DecidableEq, Repr

namespace QueuePc

/-- What a thread is to `notEmpty_`. -/
@[simp] def emptyRole : QueuePc α → Role
  | .notEmpty => .asleep
  | .taking => .awake
  | .outside | .putting _ | .notFull _ => .away

/-- What a thread is to `notFull_`. -/
@[simp] def fullRole : QueuePc α → Role
  | .notFull _ => .asleep
  | .putting _ => .awake
  | .outside | .taking | .notEmpty => .away

def wakeTaker : QueuePc α → QueuePc α
  | .notEmpty => .taking
  | pc => pc

def wakePutter : QueuePc α → QueuePc α
  | .notFull val => .putting val
  | pc => pc

/-- What a call of `put` has yet to put. -/
def inHand : QueuePc α → List α
  | .putting val | .notFull val => [val]
  | .outside | .taking | .notEmpty => []

/-- How many critical sections a call is good for until it is woken up again. -/
def sections : QueuePc α → Nat
  | .outside => 0
  | .notFull _ | .notEmpty => 1
  | .putting _ | .taking => 2

end QueuePc

inductive QueueEffect (τ α : Type*)
  | called (t : τ) (val : α)
  | put (t : τ) (val : α)
  | took (t : τ) (val : α)
  | drained (t : τ) (vals : List α)
  deriving DecidableEq, Repr

namespace QueueEffect

def putIn : QueueEffect τ α → List α
  | .put _ val => [val]
  | _ => []

def takenOut : QueueEffect τ α → List α
  | .took _ val => [val]
  | .drained _ vals => vals
  | _ => []

def calledBy [DecidableEq τ] (t : τ) : QueueEffect τ α → List α
  | .called t' val => if t' = t then [val] else []
  | _ => []

def putBy [DecidableEq τ] (t : τ) : QueueEffect τ α → List α
  | .put t' val => if t' = t then [val] else []
  | _ => []

end QueueEffect

structure BlockingQueue (τ α : Type*) where
  /-- `none` for the queue of `base/BlockingQueue` -/
  capacity : Option Nat
  queue_ : List α
  pcs : τ → QueuePc α
  trace : List (QueueEffect τ α)

namespace BlockingQueue

def new (capacity : Option Nat) : BlockingQueue τ α where
  capacity := capacity
  queue_ := []
  pcs := fun _ => .outside
  trace := []

def emit (s : BlockingQueue τ α) (e : QueueEffect τ α) : BlockingQueue τ α :=
  { s with trace := s.trace ++ [e] }

/-- What the effects so far come to. -/
def history (s : BlockingQueue τ α) (f : QueueEffect τ α → List α) : List α := s.trace.flatMap f

theorem history_emit (s : BlockingQueue τ α) (e : QueueEffect τ α)
    (f : QueueEffect τ α → List α) : (s.emit e).history f = s.history f ++ f e := by
  rw [history, emit, List.flatMap_append, List.flatMap_singleton]
  rfl

/-- `queue_.full()`. Of `boost::circular_buffer` it is taken for granted that it is a sequence that
is full when it holds as many elements as it was made for, that `push_back` on one that is not full
adds at the end, and that `pop_front` takes the first away. -/
def full (s : BlockingQueue τ α) : Bool := s.capacity = some s.queue_.length

section Calls

variable [DecidableEq τ]

def setPc (s : BlockingQueue τ α) (t : τ) (pc : QueuePc α) : BlockingQueue τ α :=
  { s with pcs := Function.update s.pcs t pc }

/-- `put`, up to the lock. -/
def callPut (s : BlockingQueue τ α) (t : τ) (val : α) : BlockingQueue τ α :=
  match s.pcs t with
  | .outside => (s.setPc t (.putting val)).emit (.called t val)
  | _ => s

/-- `take`, up to the lock. -/
def callTake (s : BlockingQueue τ α) (t : τ) : BlockingQueue τ α :=
  match s.pcs t with
  | .outside => s.setPc t .taking
  | _ => s

/-- A wait ends without a notification. -/
def wake (s : BlockingQueue τ α) (t : τ) : BlockingQueue τ α :=
  match s.pcs t with
  | .notFull val => s.setPc t (.putting val)
  | .notEmpty => s.setPc t .taking
  | _ => s

def drain (s : BlockingQueue τ α) (t : τ) : BlockingQueue τ α :=
  match s.pcs t, s.capacity with
  | .outside, none => { s with queue_ := [] }.emit (.drained t s.queue_)
  | _, _ => s

variable [Fintype τ]

/-- `put` under the lock; the notification goes to `who`. -/
def put (s : BlockingQueue τ α) (t : τ) (who : Option τ) : BlockingQueue τ α :=
  match s.pcs t with
  | .putting val =>
    if s.full then s.setPc t (.notFull val)
    else if Reaches QueuePc.emptyRole s.pcs who then
      { s with
        queue_ := s.queue_ ++ [val]
        pcs := notify QueuePc.wakeTaker (Function.update s.pcs t .outside) who }.emit (.put t val)
    else s
  | _ => s

/-- `take` under the lock; the notification goes to `who`. -/
def take (s : BlockingQueue τ α) (t : τ) (who : Option τ) : BlockingQueue τ α :=
  match s.pcs t with
  | .taking =>
    match s.queue_ with
    | [] => s.setPc t .notEmpty
    | front :: queue =>
      if Reaches QueuePc.fullRole s.pcs who then
        { s with
          queue_ := queue
          pcs := notify QueuePc.wakePutter (Function.update s.pcs t .outside) who }.emit
            (.took t front)
      else s
  | _ => s

inductive Event (τ α : Type*)
  | callPut (t : τ) (val : α)
  | callTake (t : τ)
  | wake (t : τ)
  | drain (t : τ)
  | put (t : τ) (who : Option τ)
  | take (t : τ) (who : Option τ)
  deriving DecidableEq, Repr

def step (s : BlockingQueue τ α) : Event τ α → BlockingQueue τ α
  | .callPut t val => s.callPut t val
  | .callTake t => s.callTake t
  | .wake t => s.wake t
  | .drain t => s.drain t
  | .put t who => s.put t who
  | .take t who => s.take t who

/-! ## What a step does -/

/-- The steps that change something. -/
inductive StepCases (s : BlockingQueue τ α) : Event τ α → BlockingQueue τ α → Prop
  | callPut {t val} : s.pcs t = .outside →
    StepCases s (.callPut t val) ((s.setPc t (.putting val)).emit (.called t val))
  | callTake {t} : s.pcs t = .outside → StepCases s (.callTake t) (s.setPc t .taking)
  | wakePutter {t val} : s.pcs t = .notFull val →
    StepCases s (.wake t) (s.setPc t (.putting val))
  | wakeTaker {t} : s.pcs t = .notEmpty → StepCases s (.wake t) (s.setPc t .taking)
  | drain {t} : s.pcs t = .outside → s.capacity = none →
    StepCases s (.drain t) ({ s with queue_ := [] }.emit (.drained t s.queue_))
  | waitNotFull {t who val} : s.pcs t = .putting val → s.full = true →
    StepCases s (.put t who) (s.setPc t (.notFull val))
  | put {t who val} : s.pcs t = .putting val → s.full = false →
    Reaches QueuePc.emptyRole s.pcs who →
    StepCases s (.put t who)
      ({ s with
        queue_ := s.queue_ ++ [val]
        pcs := notify QueuePc.wakeTaker (Function.update s.pcs t .outside) who }.emit (.put t val))
  | waitNotEmpty {t who} : s.pcs t = .taking → s.queue_ = [] →
    StepCases s (.take t who) (s.setPc t .notEmpty)
  | take {t who front queue} : s.pcs t = .taking → s.queue_ = front :: queue →
    Reaches QueuePc.fullRole s.pcs who →
    StepCases s (.take t who)
      ({ s with
        queue_ := queue
        pcs := notify QueuePc.wakePutter (Function.update s.pcs t .outside) who }.emit
          (.took t front))

/-- A step does what one of the cases says, or nothing. -/
theorem step_cases (s : BlockingQueue τ α) (e : Event τ α) :
    s.step e = s ∨ StepCases s e (s.step e) := by
  cases e with
  | callPut t val =>
    simp only [step, callPut]
    split
    · next hpc => exact .inr (.callPut hpc)
    · exact .inl rfl
  | callTake t =>
    simp only [step, callTake]
    split
    · next hpc => exact .inr (.callTake hpc)
    · exact .inl rfl
  | wake t =>
    simp only [step, wake]
    split
    · next hpc => exact .inr (.wakePutter hpc)
    · next hpc => exact .inr (.wakeTaker hpc)
    · exact .inl rfl
  | drain t =>
    simp only [step, drain]
    split
    · next hpc hcapacity => exact .inr (.drain hpc hcapacity)
    · exact .inl rfl
  | put t who =>
    simp only [step, put]
    split
    · next val hpc =>
      split
      · next hfull => exact .inr (.waitNotFull hpc hfull)
      · next hfull =>
        split
        · next hwho => exact .inr (.put hpc (Bool.eq_false_iff.mpr hfull) hwho)
        · exact .inl rfl
    · exact .inl rfl
  | take t who =>
    simp only [step, take]
    split
    · next hpc =>
      split
      · next hqueue => exact .inr (.waitNotEmpty hpc hqueue)
      · next front queue hqueue =>
        split
        · next hwho => exact .inr (.take hpc hqueue hwho)
        · exact .inl rfl
    · exact .inl rfl

/-! ## The order and the bound -/

omit [Fintype τ] in
/-- A notification leaves every call with what it has in hand. -/
theorem inHand_notify {wake : QueuePc α → QueuePc α} (hwake : ∀ pc, (wake pc).inHand = pc.inHand)
    (f : τ → QueuePc α) (who : Option τ) (t : τ) : (notify wake f who t).inHand = (f t).inHand := by
  cases who with
  | none => rfl
  | some t' =>
    by_cases heq : t = t'
    · rw [heq, notify, Function.update_self, hwake]
    · rw [notify, Function.update_of_ne heq]

omit [DecidableEq τ] [Fintype τ] in
theorem inHand_wakeTaker (pc : QueuePc α) : pc.wakeTaker.inHand = pc.inHand := by
  cases pc <;> rfl

omit [DecidableEq τ] [Fintype τ] in
theorem inHand_wakePutter (pc : QueuePc α) : pc.wakePutter.inHand = pc.inHand := by
  cases pc <;> rfl

omit [Fintype τ] in
theorem inHand_update (f : τ → QueuePc α) {t : τ} {pc : QueuePc α}
    (hpc : pc.inHand = (f t).inHand) (t' : τ) :
    (Function.update f t pc t').inHand = (f t').inHand := by
  by_cases heq : t' = t
  · rw [heq, Function.update_self, hpc]
  · rw [Function.update_of_ne heq]

/-- What was put came out or is in the queue, in this order. -/
def InOrder (s : BlockingQueue τ α) : Prop :=
  s.history QueueEffect.putIn = s.history QueueEffect.takenOut ++ s.queue_

/-- What a thread was called with it has put, but for what it has in hand, in this order. -/
def CallsKept (s : BlockingQueue τ α) : Prop :=
  ∀ t, s.history (QueueEffect.calledBy t) =
    s.history (QueueEffect.putBy t) ++ (s.pcs t).inHand

def Bounded (s : BlockingQueue τ α) : Prop := ∀ n, s.capacity = some n → s.queue_.length ≤ n

theorem InOrder.step {s : BlockingQueue τ α} (h : InOrder s) (e : Event τ α) :
    InOrder (s.step e) := by
  rcases step_cases s e with heq | hs
  · rwa [heq]
  generalize s.step e = s' at hs
  unfold InOrder at h ⊢
  cases hs with
  | callPut hpc =>
    rw [history_emit, history_emit]
    change s.history _ ++ [] = s.history _ ++ [] ++ s.queue_
    rw [List.append_nil, List.append_nil]
    exact h
  | drain hpc hcapacity =>
    rw [history_emit, history_emit]
    change s.history _ ++ [] = s.history _ ++ s.queue_ ++ []
    rw [List.append_nil, List.append_nil]
    exact h
  | @put t who val hpc hfull hwho =>
    rw [history_emit, history_emit]
    change s.history _ ++ [val] = s.history _ ++ [] ++ (s.queue_ ++ [val])
    rw [h, List.append_nil, List.append_assoc]
  | @take t who front queue hpc hqueue hwho =>
    rw [history_emit, history_emit]
    change s.history _ ++ [] = s.history _ ++ [front] ++ queue
    rw [h, hqueue, List.append_nil, List.append_assoc, List.singleton_append]
  | _ => exact h

omit [Fintype τ] in
theorem CallsKept.setPc {s : BlockingQueue τ α} (h : CallsKept s) {t : τ} {pc : QueuePc α}
    (hpc : pc.inHand = (s.pcs t).inHand) : CallsKept (s.setPc t pc) := fun t' =>
  (h t').trans (congrArg _ (inHand_update s.pcs hpc t').symm)

theorem CallsKept.step {s : BlockingQueue τ α} (h : CallsKept s) (e : Event τ α) :
    CallsKept (s.step e) := by
  rcases step_cases s e with heq | hs
  · rwa [heq]
  generalize s.step e = s' at hs
  cases hs with
  | @callPut t val hpc =>
    intro t'
    rw [history_emit, history_emit]
    change s.history _ ++ _ = s.history _ ++ [] ++ (Function.update s.pcs t _ t').inHand
    rw [h t', List.append_nil]
    by_cases heq : t = t'
    · subst heq
      rw [Function.update_self, hpc, QueueEffect.calledBy, if_pos rfl, List.append_assoc]
      rfl
    · rw [Function.update_of_ne (Ne.symm heq), QueueEffect.calledBy, if_neg heq, List.append_nil]
  | callTake hpc => exact h.setPc (by rw [hpc]; rfl)
  | wakePutter hpc => exact h.setPc (by rw [hpc]; rfl)
  | wakeTaker hpc => exact h.setPc (by rw [hpc]; rfl)
  | drain hpc hcapacity =>
    intro t'
    rw [history_emit, history_emit]
    change s.history _ ++ [] = s.history _ ++ [] ++ (s.pcs t').inHand
    rw [List.append_nil, List.append_nil]
    exact h t'
  | waitNotFull hpc => exact h.setPc (by rw [hpc]; rfl)
  | @put t who val hpc hfull hwho =>
    intro t'
    rw [history_emit, history_emit]
    change s.history _ ++ [] = s.history _ ++ _ ++
      (notify QueuePc.wakeTaker (Function.update s.pcs t .outside) who t').inHand
    rw [inHand_notify inHand_wakeTaker, h t', List.append_nil, List.append_assoc]
    by_cases heq : t = t'
    · subst heq
      rw [Function.update_self, hpc, QueueEffect.putBy, if_pos rfl]
      rfl
    · rw [Function.update_of_ne (Ne.symm heq), QueueEffect.putBy, if_neg heq, List.nil_append]
  | waitNotEmpty hpc => exact h.setPc (by rw [hpc]; rfl)
  | @take t who front queue hpc hqueue hwho =>
    intro t'
    rw [history_emit, history_emit]
    change s.history _ ++ [] = s.history _ ++ [] ++
      (notify QueuePc.wakePutter (Function.update s.pcs t .outside) who t').inHand
    rw [inHand_notify inHand_wakePutter, inHand_update s.pcs (by rw [hpc]; rfl), List.append_nil,
      List.append_nil]
    exact h t'

theorem capacity_step (s : BlockingQueue τ α) (e : Event τ α) :
    (s.step e).capacity = s.capacity := by
  rcases step_cases s e with heq | hs
  · rw [heq]
  generalize s.step e = s' at hs
  cases hs <;> rfl

theorem Bounded.step {s : BlockingQueue τ α} (h : Bounded s) (e : Event τ α) :
    Bounded (s.step e) := by
  intro n hn
  rw [capacity_step] at hn
  have hsize := h n hn
  rcases step_cases s e with heq | hs
  · rwa [heq]
  generalize s.step e = s' at hs
  cases hs with
  | drain => exact Nat.zero_le _
  | @put t who val hpc hfull hwho =>
    have hne : s.queue_.length ≠ n := fun heq => by
      rw [full, hn, heq, decide_eq_false_iff_not] at hfull
      exact hfull rfl
    change (s.queue_ ++ [val]).length ≤ n
    rw [List.length_append]
    exact Nat.lt_of_le_of_ne hsize hne
  | take hpc hqueue hwho =>
    rw [hqueue] at hsize
    exact (Nat.le_succ _).trans hsize
  | _ => exact hsize

/-- In every run: the values put are those taken or drained and those in the queue, one after the
other, so that each comes out once and in order; every thread has put what it was called with, in
order, but for what it has in hand; and a bounded queue keeps its bound. -/
theorem queue_in_order (capacity : Option Nat) (es : List (Event τ α)) :
    let s := run step (new capacity) es
    s.history QueueEffect.putIn = s.history QueueEffect.takenOut ++ s.queue_ ∧
      (∀ t, s.history (QueueEffect.calledBy t) =
        s.history (QueueEffect.putBy t) ++ (s.pcs t).inHand) ∧
      ∀ n, capacity = some n → s.queue_.length ≤ n := by
  intro s
  have h : InOrder s ∧ CallsKept s ∧ Bounded s ∧ s.capacity = capacity :=
    run_preserves (I := fun s => InOrder s ∧ CallsKept s ∧ Bounded s ∧ s.capacity = capacity)
      (fun s e ⟨horder, hcalls, hbound, hcapacity⟩ =>
        ⟨horder.step e, hcalls.step e, hbound.step e, (capacity_step s e).trans hcapacity⟩) es
      ⟨rfl, fun _ => rfl, fun _ _ => Nat.zero_le _, rfl⟩
  obtain ⟨horder, hcalls, hbound, hcapacity⟩ := h
  exact ⟨horder, hcalls, fun n hn => hbound n (hcapacity.trans hn)⟩

/-! ## The notifications -/

omit [Fintype τ] in
/-- A notification to one kind of waiter is nothing to the other. -/
theorem role_notify {role : QueuePc α → Role} {wake : QueuePc α → QueuePc α}
    (hwake : ∀ pc, role (wake pc) = role pc) (f : τ → QueuePc α) (who : Option τ) (t : τ) :
    role (notify wake f who t) = role (f t) := by
  cases who with
  | none => rfl
  | some t' =>
    by_cases heq : t = t'
    · rw [heq, notify, Function.update_self, hwake]
    · rw [notify, Function.update_of_ne heq]

omit [DecidableEq τ] [Fintype τ] in
theorem emptyRole_wakePutter (pc : QueuePc α) : pc.wakePutter.emptyRole = pc.emptyRole := by
  cases pc <;> rfl

omit [DecidableEq τ] [Fintype τ] in
theorem fullRole_wakeTaker (pc : QueuePc α) : pc.wakeTaker.fullRole = pc.fullRole := by
  cases pc <;> rfl

omit [DecidableEq τ] [Fintype τ] in
theorem emptyRole_wakeTaker (pc : QueuePc α) (h : pc.emptyRole = .asleep) :
    pc.wakeTaker.emptyRole = .awake := by
  cases pc with
  | notEmpty => rfl
  | _ => cases h

omit [DecidableEq τ] [Fintype τ] in
theorem fullRole_wakePutter (pc : QueuePc α) (h : pc.fullRole = .asleep) :
    pc.wakePutter.fullRole = .awake := by
  cases pc with
  | notFull val => rfl
  | _ => cases h

def TakersTold (s : BlockingQueue τ α) : Prop :=
  NoneLost QueuePc.emptyRole s.pcs s.queue_.length

def PuttersTold (s : BlockingQueue τ α) : Prop :=
  ∀ n, s.capacity = some n → NoneLost QueuePc.fullRole s.pcs (n - s.queue_.length)

/-- Without a capacity nobody waits for room. -/
def Unhindered (s : BlockingQueue τ α) : Prop :=
  s.capacity = none → ∀ t, (s.pcs t).fullRole ≠ .asleep

theorem TakersTold.step {s : BlockingQueue τ α} (h : TakersTold s) (e : Event τ α) :
    TakersTold (s.step e) := by
  rcases step_cases s e with heq | hs
  · rwa [heq]
  generalize s.step e = s' at hs
  have hgo : ∀ {t : τ} {pc : QueuePc α}, pc.emptyRole ≠ .asleep →
      (s.pcs t).emptyRole.count ≤ pc.emptyRole.count → TakersTold (s.setPc t pc) :=
    fun hpc hcount => NoneLost.update h hpc (Nat.add_le_add_left hcount _)
  cases hs with
  | callPut hpc => exact hgo (by simp) (by rw [hpc]; exact Nat.zero_le _)
  | callTake hpc => exact hgo (by simp) (by rw [hpc]; exact Nat.zero_le _)
  | wakePutter hpc => exact hgo (by simp) (by rw [hpc]; exact Nat.zero_le _)
  | wakeTaker hpc => exact hgo (by simp) (by rw [hpc]; exact Nat.zero_le _)
  | drain => exact noneLost_zero
  | waitNotFull hpc => exact hgo (by simp) (by rw [hpc]; exact Nat.zero_le _)
  | @put t who val hpc hfull hwho =>
    have hleft : NoneLost QueuePc.emptyRole (Function.update s.pcs t .outside) s.queue_.length :=
      NoneLost.update h (by simp) (by rw [hpc]; exact Nat.le_refl _)
    change NoneLost _ _ (s.queue_ ++ [val]).length
    rw [List.length_append]
    exact hleft.notify (hwho.update (by simp [hpc]) (by simp)) emptyRole_wakeTaker
  | waitNotEmpty hpc hqueue =>
    change NoneLost _ _ s.queue_.length
    rw [hqueue]
    exact noneLost_zero
  | @take t who front queue hpc hqueue hwho =>
    have hleft : NoneLost QueuePc.emptyRole (Function.update s.pcs t .outside) queue.length := by
      refine NoneLost.update h (by simp) ?_
      rw [hqueue, hpc]
      exact Nat.le_refl _
    exact (noneLost_congr (role_notify emptyRole_wakePutter _ who)).mpr hleft

theorem PuttersTold.step {s : BlockingQueue τ α} (h : PuttersTold s) (hbound : Bounded s)
    (e : Event τ α) : PuttersTold (s.step e) := by
  rcases step_cases s e with heq | hs
  · rwa [heq]
  intro n hn
  rw [capacity_step] at hn
  have hn' := h n hn
  generalize s.step e = s' at hs
  have hgo : ∀ {t : τ} {pc : QueuePc α}, pc.fullRole ≠ .asleep →
      (s.pcs t).fullRole.count ≤ pc.fullRole.count →
      NoneLost QueuePc.fullRole (s.setPc t pc).pcs (n - s.queue_.length) :=
    fun hpc hcount => NoneLost.update hn' hpc (Nat.add_le_add_left hcount _)
  cases hs with
  | callPut hpc => exact hgo (by simp) (by rw [hpc]; exact Nat.zero_le _)
  | callTake hpc => exact hgo (by simp) (by rw [hpc]; exact Nat.zero_le _)
  | wakePutter hpc => exact hgo (by simp) (by rw [hpc]; exact Nat.zero_le _)
  | wakeTaker hpc => exact hgo (by simp) (by rw [hpc]; exact Nat.zero_le _)
  | drain hpc hcapacity => cases hcapacity.symm.trans hn
  | waitNotFull hpc hfull =>
    have hlen : n = s.queue_.length := by
      rw [full, hn, decide_eq_true_iff] at hfull
      exact Option.some.inj hfull
    change NoneLost _ _ (n - s.queue_.length)
    rw [hlen, Nat.sub_self]
    exact noneLost_zero
  | @put t who val hpc hfull hwho =>
    have hlt : s.queue_.length < n := by
      refine Nat.lt_of_le_of_ne (hbound n hn) fun heq => ?_
      rw [full, hn, heq, decide_eq_false_iff_not] at hfull
      exact hfull rfl
    have hleft : NoneLost QueuePc.fullRole (Function.update s.pcs t .outside)
        (n - (s.queue_.length + 1)) := by
      refine NoneLost.update hn' (by simp) ?_
      rw [hpc]
      change n - (s.queue_.length + 1) + 1 ≤ n - s.queue_.length
      omega
    change NoneLost _ _ (n - (s.queue_ ++ [val]).length)
    rw [List.length_append]
    exact (noneLost_congr (role_notify fullRole_wakeTaker _ who)).mpr hleft
  | waitNotEmpty hpc => exact hgo (by simp) (by rw [hpc]; exact Nat.zero_le _)
  | @take t who front queue hpc hqueue hwho =>
    have hleft : NoneLost QueuePc.fullRole (Function.update s.pcs t .outside)
        (n - s.queue_.length) :=
      NoneLost.update hn' (by simp) (by rw [hpc]; exact Nat.le_refl _)
    have htold := hleft.notify (hwho.update (by simp [hpc]) (by simp)) fullRole_wakePutter
    refine NoneLost.mono htold ?_
    change n - queue.length ≤ n - s.queue_.length + 1
    rw [hqueue, List.length_cons]
    omega

theorem Unhindered.step {s : BlockingQueue τ α} (h : Unhindered s) (e : Event τ α) :
    Unhindered (s.step e) := by
  rcases step_cases s e with heq | hs
  · rwa [heq]
  intro hnone
  rw [capacity_step] at hnone
  have hnobody := h hnone
  generalize s.step e = s' at hs
  cases hs with
  | callPut | callTake | wakePutter | wakeTaker | waitNotEmpty =>
    exact no_sleeper_update hnobody (by simp)
  | drain => exact hnobody
  | waitNotFull hpc hfull =>
    rw [full, hnone] at hfull
    cases hfull
  | @put t who val hpc hfull hwho =>
    intro t'
    change (notify QueuePc.wakeTaker _ who t').fullRole ≠ _
    rw [role_notify fullRole_wakeTaker]
    exact no_sleeper_update hnobody (by simp) t'
  | @take t who front queue hpc hqueue hwho =>
    cases who with
    | none => exact no_sleeper_update hnobody (by simp)
    | some t' => exact absurd hwho (hnobody t')

/-- Nobody waits for what is there, but for as many threads as will see it. -/
structure Told (s : BlockingQueue τ α) : Prop where
  bound : Bounded s
  takers : TakersTold s
  putters : PuttersTold s
  unhindered : Unhindered s

omit [DecidableEq τ] in
theorem told_new (capacity : Option Nat) : Told (new capacity : BlockingQueue τ α) where
  bound _ _ := Nat.zero_le _
  takers := noneLost_of_no_sleeper fun _ => by simp [new]
  putters _ _ := noneLost_of_no_sleeper fun _ => by simp [new]
  unhindered _ _ := by simp [new]

theorem Told.step {s : BlockingQueue τ α} (h : Told s) (e : Event τ α) : Told (s.step e) :=
  ⟨h.bound.step e, h.takers.step e, h.putters.step h.bound e, h.unhindered.step e⟩

/-! ## The calls come to an end -/

/-- The thread has the lock: it comes to the end of its call or to a wait. -/
def Event.isSection : Event τ α → Bool
  | .put .. | .take .. => true
  | _ => false

/-- How many critical sections the calls are good for. -/
def sections (s : BlockingQueue τ α) : Nat := tally QueuePc.sections s.pcs

omit [DecidableEq τ] [Fintype τ] in
theorem sections_wakeTaker (pc : QueuePc α) : pc.wakeTaker.sections ≤ pc.sections + 1 := by
  cases pc <;> simp [QueuePc.wakeTaker, QueuePc.sections]

omit [DecidableEq τ] [Fintype τ] in
theorem sections_wakePutter (pc : QueuePc α) : pc.wakePutter.sections ≤ pc.sections + 1 := by
  cases pc <;> simp [QueuePc.wakePutter, QueuePc.sections]

theorem sections_notify {wake : QueuePc α → QueuePc α}
    (hwake : ∀ pc, (wake pc).sections ≤ pc.sections + 1) (f : τ → QueuePc α) (who : Option τ) :
    tally QueuePc.sections (notify wake f who) ≤ tally QueuePc.sections f + 1 := by
  cases who with
  | none => exact Nat.le_succ _
  | some t =>
    have htally := tally_update QueuePc.sections f t (wake (f t))
    have hle := hwake (f t)
    change tally QueuePc.sections (Function.update f t (wake (f t))) ≤ _
    omega

/-- A call that has got the lock uses up a section, whom it wakes up included. -/
theorem sections_lt {s : BlockingQueue τ α} {e : Event τ α} (he : e.isSection = true)
    (hne : s.step e ≠ s) : (s.step e).sections < s.sections := by
  have hs := (step_cases s e).resolve_left hne
  generalize s.step e = s' at hs
  have hfrom : ∀ {t : τ} {pc : QueuePc α}, pc.sections < (s.pcs t).sections →
      tally QueuePc.sections (Function.update s.pcs t pc) < s.sections := fun {t pc} hlt => by
    have htally := tally_update QueuePc.sections s.pcs t pc
    unfold sections
    omega
  have hleft : ∀ {t : τ}, (s.pcs t).sections = 2 →
      tally QueuePc.sections (Function.update s.pcs t .outside) + 2 = s.sections := fun {t} htwo => by
    have htally := tally_update QueuePc.sections s.pcs t .outside
    rw [htwo] at htally
    exact htally
  cases hs with
  | callPut | callTake | wakePutter | wakeTaker | drain => cases he
  | waitNotFull hpc => exact hfrom (by rw [hpc]; exact Nat.lt_succ_self 1)
  | @put t who val hpc hfull hwho =>
    have hbefore := hleft (t := t) (by rw [hpc]; rfl)
    have hafter := sections_notify sections_wakeTaker (Function.update s.pcs t .outside) who
    change tally QueuePc.sections (notify QueuePc.wakeTaker _ who) < _
    omega
  | waitNotEmpty hpc => exact hfrom (by rw [hpc]; exact Nat.lt_succ_self 1)
  | @take t who front queue hpc hqueue hwho =>
    have hbefore := hleft (t := t) (by rw [hpc]; rfl)
    have hafter := sections_notify sections_wakePutter (Function.update s.pcs t .outside) who
    change tally QueuePc.sections (notify QueuePc.wakePutter _ who) < _
    omega

/-- No thread is on its way to the lock. -/
def Settled (s : BlockingQueue τ α) : Prop :=
  ∀ e : Event τ α, e.isSection = true → s.step e = s

theorem Settled.not_taking {s : BlockingQueue τ α} (h : Settled s) (t : τ) :
    s.pcs t ≠ .taking := by
  intro hpc
  obtain ⟨who, hwho⟩ := exists_reaches QueuePc.fullRole s.pcs
  have hsame : s.take t who = s := h (.take t who) rfl
  rw [take, hpc] at hsame
  cases hqueue : s.queue_ with
  | nil =>
    rw [hqueue] at hsame
    have hpcs : (s.setPc t .notEmpty).pcs t = .notEmpty := Function.update_self ..
    rw [show s.setPc t .notEmpty = s from hsame, hpc] at hpcs
    cases hpcs
  | cons front queue =>
    rw [hqueue] at hsame
    simp only [if_pos hwho] at hsame
    have hqueue' : queue = front :: queue := (congrArg BlockingQueue.queue_ hsame).trans hqueue
    exact absurd (congrArg List.length hqueue') (Nat.ne_of_lt (Nat.lt_succ_self _))

theorem Settled.not_putting {s : BlockingQueue τ α} (h : Settled s) (t : τ) (val : α) :
    s.pcs t ≠ .putting val := by
  intro hpc
  obtain ⟨who, hwho⟩ := exists_reaches QueuePc.emptyRole s.pcs
  have hsame : s.put t who = s := h (.put t who) rfl
  rw [put, hpc] at hsame
  cases hfull : s.full with
  | true =>
    have hpcs : (s.setPc t (.notFull val)).pcs t = .notFull val := Function.update_self ..
    simp only [hfull, if_true] at hsame
    rw [hsame, hpc] at hpcs
    cases hpcs
  | false =>
    simp only [hfull, if_pos hwho] at hsame
    have hqueue : s.queue_ ++ [val] = s.queue_ := congrArg BlockingQueue.queue_ hsame
    simp at hqueue

/-- Who waits in `take` has nothing to take. -/
theorem Told.notEmpty {s : BlockingQueue τ α} (h : Told s) (hsettled : Settled s) {t : τ}
    (hpc : s.pcs t = .notEmpty) : s.queue_ = [] := by
  have hnone : awake QueuePc.emptyRole s.pcs = 0 := tally_eq_zero fun t' => by
    cases hpc' : s.pcs t' with
    | taking => exact absurd hpc' (hsettled.not_taking t')
    | _ => rfl
  have hle := h.takers ⟨t, by rw [hpc]; rfl⟩
  rw [hnone] at hle
  exact List.length_eq_zero_iff.mp (Nat.le_zero.mp hle)

/-- Who waits in `put` has no room. -/
theorem Told.notFull {s : BlockingQueue τ α} (h : Told s) (hsettled : Settled s) {t : τ} {val : α}
    (hpc : s.pcs t = .notFull val) : s.full = true := by
  have hnone : awake QueuePc.fullRole s.pcs = 0 := tally_eq_zero fun t' => by
    cases hpc' : s.pcs t' with
    | putting val' => exact absurd hpc' (hsettled.not_putting t' val')
    | _ => rfl
  cases hcapacity : s.capacity with
  | none => exact absurd (by rw [hpc]; rfl) (h.unhindered hcapacity t)
  | some n =>
    have hle := h.putters n hcapacity ⟨t, by rw [hpc]; rfl⟩
    rw [hnone] at hle
    have hlen : s.queue_.length = n :=
      Nat.le_antisymm (h.bound n hcapacity) (Nat.sub_eq_zero_iff_le.mp (Nat.le_zero.mp hle))
    rw [full, hcapacity, hlen, decide_eq_true_iff]

theorem Told.settled {s : BlockingQueue τ α} (h : Told s) (hcapacity : s.capacity ≠ some 0)
    (hsettled : Settled s) :
    (∀ t, s.pcs t = .outside ∨ s.pcs t = .notEmpty ∧ s.queue_ = []) ∨
      ∀ t, s.pcs t = .outside ∨ (∃ val, s.pcs t = .notFull val) ∧ s.full = true := by
  by_cases hempty : s.queue_ = []
  · refine .inl fun t => ?_
    cases hpc : s.pcs t with
    | outside => exact .inl rfl
    | putting val => exact absurd hpc (hsettled.not_putting t val)
    | notFull val =>
      have hfull := h.notFull hsettled hpc
      rw [full, hempty, List.length_nil, decide_eq_true_iff] at hfull
      exact absurd hfull hcapacity
    | taking => exact absurd hpc (hsettled.not_taking t)
    | notEmpty => exact .inr ⟨rfl, hempty⟩
  · refine .inr fun t => ?_
    cases hpc : s.pcs t with
    | outside => exact .inl rfl
    | putting val => exact absurd hpc (hsettled.not_putting t val)
    | notFull val => exact .inr ⟨⟨val, rfl⟩, h.notFull hsettled hpc⟩
    | taking => exact absurd hpc (hsettled.not_taking t)
    | notEmpty => exact absurd (h.notEmpty hsettled hpc) hempty

/-- After any run of a queue with room for one value or more, with the calls that are under way and
no further ones, and no wait that ends by itself: only so many critical sections can follow, and
when none can, every call has returned, or else all that have not are calls of `take` and the queue
is empty, or calls of `put` and it is full. -/
theorem calls_complete (capacity : Option Nat) (hcapacity : capacity ≠ some 0)
    (es es' : List (Event τ α))
    (hes' : Meets (fun s e => e.isSection = true ∧ step s e ≠ s) step
      (run step (new capacity) es) es') :
    let s := run step (new capacity) (es ++ es')
    es'.length ≤ (run step (new capacity : BlockingQueue τ α) es).sections ∧
      ((∀ e : Event τ α, e.isSection = true → s.step e = s) →
        (∀ t, s.pcs t = .outside ∨ s.pcs t = .notEmpty ∧ s.queue_ = []) ∨
          ∀ t, s.pcs t = .outside ∨ (∃ val, s.pcs t = .notFull val) ∧ s.full = true) := by
  intro s
  have h : Told s ∧ s.capacity = capacity :=
    run_preserves (I := fun s => Told s ∧ s.capacity = capacity)
      (fun s e ⟨htold, hsame⟩ => ⟨htold.step e, (capacity_step s e).trans hsame⟩) _
      ⟨told_new capacity, rfl⟩
  obtain ⟨htold, hsame⟩ := h
  refine ⟨length_le_of_measure (I := fun _ => True) ?_ trivial hes', fun hsettled => ?_⟩
  · exact fun s e _ ⟨he, hne⟩ => ⟨trivial, sections_lt he hne⟩
  · exact htold.settled (by rw [hsame]; exact hcapacity) hsettled

/-- Two threads in `put` of a queue with room for one value, the second while it is full, and a
`take`. -/
theorem calls_complete_two :
    let s := run step (new (some 1) : BlockingQueue (Fin 3) Char)
      ([.callPut 0 'a', .callPut 1 'b', .callTake 2, .put 0 none, .put 1 none] ++
        [.take 2 (some 1), .put 1 none])
    2 ≤ (run step (new (some 1) : BlockingQueue (Fin 3) Char)
      [.callPut 0 'a', .callPut 1 'b', .callTake 2, .put 0 none, .put 1 none]).sections ∧
      ((∀ e : Event (Fin 3) Char, e.isSection = true → s.step e = s) →
        (∀ t, s.pcs t = .outside ∨ s.pcs t = .notEmpty ∧ s.queue_ = []) ∨
          ∀ t, s.pcs t = .outside ∨ (∃ val, s.pcs t = .notFull val) ∧ s.full = true) :=
  calls_complete (some 1) (by decide)
    [.callPut 0 'a', .callPut 1 'b', .callTake 2, .put 0 none, .put 1 none]
    [.take 2 (some 1), .put 1 none]
    ⟨⟨rfl, fun heq => absurd (congrArg (fun s => s.queue_.length) heq) (by decide)⟩,
      ⟨rfl, fun heq => absurd (congrArg (fun s => s.queue_.length) heq) (by decide)⟩, trivial⟩

end Calls

end BlockingQueue

end Mymuduo
