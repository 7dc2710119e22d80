import Mymuduo.Lib.Tally

/-!
# Condition variables

The threads around a condition variable. To it a thread is asleep (it waits and has not been
notified), awake (it will test the condition under the lock), or away. A notification reaches one of
the threads that are asleep and is lost when there is none; a thread may also wake up without one.

`NoneLost role f n` says that no notification was lost too many: if a thread is asleep although
there are `n` units of what it waits for, as many threads are awake.

* `NoneLost.update`: one thread goes on, and what it waits for grows no more than it accounts for.
* `NoneLost.notify`: one unit more, and a notification.
-/

namespace CondVar

open Tally

inductive Role
  | away
  | awake
  | asleep
  deriving DecidableEq, Repr

def Role.count : Role → Nat
  | .awake => 1
  | _ => 0

theorem Role.count_le_one (r : Role) : r.count ≤ 1 := by
  cases r <;> decide

variable {ι α : Type*}

/-- The threads that a notification may go to, `none` being nobody. -/
def Reaches (role : α → Role) (f : ι → α) : Option ι → Prop
  | some i => role (f i) = .asleep
  | none => ∀ i, role (f i) ≠ .asleep

instance (role : α → Role) (f : ι → α) [Fintype ι] :
    (who : Option ι) → Decidable (Reaches role f who)
  | some _ => inferInstanceAs (Decidable (_ = _))
  | none => inferInstanceAs (Decidable (∀ _, _))

def notify [DecidableEq ι] (wake : α → α) (f : ι → α) : Option ι → ι → α
  | some i => Function.update f i (wake (f i))
  | none => f

def notifyAll (wake : α → α) (f : ι → α) (i : ι) : α := wake (f i)

/-- The threads that are awake. -/
def awake [Fintype ι] (role : α → Role) (f : ι → α) : Nat := tally (fun a => (role a).count) f

def NoneLost [Fintype ι] (role : α → Role) (f : ι → α) (n : Nat) : Prop :=
  (∃ i, role (f i) = .asleep) → n ≤ awake role f

variable [Fintype ι] {role : α → Role} {f : ι → α} {n : Nat}

theorem noneLost_zero : NoneLost role f 0 := fun _ => Nat.zero_le _

theorem noneLost_of_no_sleeper (h : ∀ i, role (f i) ≠ .asleep) : NoneLost role f n :=
  fun ⟨i, hi⟩ => absurd hi (h i)

theorem noneLost_congr {g : ι → α} (h : ∀ i, role (f i) = role (g i)) :
    NoneLost role f n ↔ NoneLost role g n := by
  have hawake : awake role f = awake role g :=
    Finset.sum_congr rfl fun i _ => congrArg Role.count (h i)
  simp only [NoneLost, h, hawake]

omit [Fintype ι] in
theorem exists_reaches (role : α → Role) (f : ι → α) : ∃ who, Reaches role f who := by
  by_cases h : ∃ i, role (f i) = .asleep
  · obtain ⟨i, hi⟩ := h
    exact ⟨some i, hi⟩
  · exact ⟨none, fun i hi => h ⟨i, hi⟩⟩

theorem NoneLost.mono (h : NoneLost role f n) {m : Nat} (hm : m ≤ n) : NoneLost role f m :=
  fun hasleep => hm.trans (h hasleep)

variable [DecidableEq ι]

omit [Fintype ι] in
theorem no_sleeper_update (h : ∀ i, role (f i) ≠ .asleep) {i : ι} {a : α} (ha : role a ≠ .asleep) :
    ∀ j, role (Function.update f i a j) ≠ .asleep :=
  (Function.forall_update_iff f fun _ b => role b ≠ .asleep).mpr ⟨ha, fun j _ => h j⟩

omit [Fintype ι] in
/-- A thread that was not asleep goes on without falling asleep. -/
theorem Reaches.update {who : Option ι} (h : Reaches role f who) {i : ι} {a : α}
    (hi : role (f i) ≠ .asleep) (ha : role a ≠ .asleep) :
    Reaches role (Function.update f i a) who := by
  cases who with
  | none => exact no_sleeper_update h ha
  | some j =>
    have hne : j ≠ i := by
      rintro rfl
      exact hi h
    change role (Function.update f i a j) = .asleep
    rw [Function.update_of_ne hne]
    exact h

/-- One thread goes on without falling asleep. -/
theorem NoneLost.update (h : NoneLost role f n) {i : ι} {a : α} {m : Nat} (ha : role a ≠ .asleep)
    (hm : m + (role (f i)).count ≤ n + (role a).count) :
    NoneLost role (Function.update f i a) m := by
  rintro ⟨j, hj⟩
  have hne : j ≠ i := by
    rintro rfl
    rw [Function.update_self] at hj
    exact ha hj
  rw [Function.update_of_ne hne] at hj
  have hbefore : n ≤ awake role f := h ⟨j, hj⟩
  have hcount := tally_update (fun a => (role a).count) f i a
  unfold awake at hbefore ⊢
  omega

/-- What the threads wait for grows by one and one of them is told. -/
theorem NoneLost.notify (h : NoneLost role f n) {wake : α → α} {who : Option ι}
    (hwho : Reaches role f who) (hwake : ∀ a, role a = .asleep → role (wake a) = .awake) :
    NoneLost role (notify wake f who) (n + 1) := by
  cases who with
  | none => exact noneLost_of_no_sleeper hwho
  | some i =>
    have hi : role (wake (f i)) = .awake := hwake (f i) hwho
    refine h.update (by rw [hi]; decide) ?_
    rw [show role (f i) = .asleep from hwho, hi]
    exact Nat.le_refl _

omit [DecidableEq ι] in
/-- `notifyAll` leaves no thread asleep. -/
theorem noneLost_notifyAll {wake : α → α} (hwake : ∀ a, role (wake a) ≠ .asleep) :
    NoneLost role (notifyAll wake f) n :=
  noneLost_of_no_sleeper fun i => hwake (f i)

end CondVar
