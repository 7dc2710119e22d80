import Mymuduo.Lib.Transition

/-!
# `base/Atomic`

An `AtomicIntegerT` over an integer type of `w` bits. Each intrinsic of the compiler is one atomic
step on `*ptr`, and every function makes one of them; so what threads do to a counter in any
interleaving is a sequence of calls.

`getAndAdd` is made of `__sync_fetch_and_and`, which does not add.

* `holds_step_iff`: after which calls a counter still holds what was set and added.
* `counts_iff`: the sequences of calls in which it always does.
* `counts_fails`: one `getAndAdd`.
-/

namespace Mymuduo

open Transition

variable {w : Nat}

/-! ## The intrinsics: what they return, and `*ptr` afterwards -/

def sync_val_compare_and_swap (ptr oldval newval : BitVec w) : BitVec w × BitVec w :=
  (ptr, if ptr = oldval then newval else ptr)

def sync_fetch_and_and (ptr value : BitVec w) : BitVec w × BitVec w := (ptr, ptr &&& value)

def sync_add_and_fetch (ptr value : BitVec w) : BitVec w × BitVec w := (ptr + value, ptr + value)

def sync_lock_test_and_set (ptr value : BitVec w) : BitVec w × BitVec w := (ptr, value)

/-! ## `AtomicIntegerT` -/

structure AtomicIntegerT (w : Nat) where
  value_ : BitVec w
  deriving DecidableEq, Repr

namespace AtomicIntegerT

def new : AtomicIntegerT w := ⟨0⟩

/-- What an intrinsic on `&value_` makes of the counter. -/
def apply (r : BitVec w × BitVec w) : BitVec w × AtomicIntegerT w := (r.1, ⟨r.2⟩)

def get (s : AtomicIntegerT w) : BitVec w × AtomicIntegerT w :=
  apply (sync_val_compare_and_swap s.value_ 0 0)

def getAndAdd (s : AtomicIntegerT w) (x : BitVec w) : BitVec w × AtomicIntegerT w :=
  apply (sync_fetch_and_and s.value_ x)

def addAndGet (s : AtomicIntegerT w) (x : BitVec w) : BitVec w × AtomicIntegerT w :=
  apply (sync_add_and_fetch s.value_ x)

def incrementAndGet (s : AtomicIntegerT w) : BitVec w × AtomicIntegerT w := s.addAndGet 1

def decrementAndGet (s : AtomicIntegerT w) : BitVec w × AtomicIntegerT w := s.addAndGet (-1)

def add (s : AtomicIntegerT w) (x : BitVec w) : AtomicIntegerT w := (s.getAndAdd x).2

def increment (s : AtomicIntegerT w) : AtomicIntegerT w := s.incrementAndGet.2

def decrement (s : AtomicIntegerT w) : AtomicIntegerT w := s.decrementAndGet.2

def getAndSet (s : AtomicIntegerT w) (x : BitVec w) : BitVec w × AtomicIntegerT w :=
  apply (sync_lock_test_and_set s.value_ x)

end AtomicIntegerT

/-- A call. -/
inductive AtomicCall (w : Nat)
  | get
  | getAndAdd (x : BitVec w)
  | addAndGet (x : BitVec w)
  | incrementAndGet
  | decrementAndGet
  | add (x : BitVec w)
  | increment
  | decrement
  | getAndSet (x : BitVec w)
  deriving DecidableEq, Repr

namespace AtomicIntegerT

def step (s : AtomicIntegerT w) : AtomicCall w → AtomicIntegerT w
  | .get => s.get.2
  | .getAndAdd x => (s.getAndAdd x).2
  | .addAndGet x => (s.addAndGet x).2
  | .incrementAndGet => s.incrementAndGet.2
  | .decrementAndGet => s.decrementAndGet.2
  | .add x => s.add x
  | .increment => s.increment
  | .decrement => s.decrement
  | .getAndSet x => (s.getAndSet x).2

/-- What a call returns, if anything. -/
def returned (s : AtomicIntegerT w) : AtomicCall w → Option (BitVec w)
  | .get => some s.get.1
  | .getAndAdd x => some (s.getAndAdd x).1
  | .addAndGet x => some (s.addAndGet x).1
  | .incrementAndGet => some s.incrementAndGet.1
  | .decrementAndGet => some s.decrementAndGet.1
  | .add _ | .increment | .decrement => none
  | .getAndSet x => some (s.getAndSet x).1

end AtomicIntegerT

/-! ## What a counter is for -/

namespace AtomicCall

/-- What the call is to add. -/
def amount : AtomicCall w → Int
  | .getAndAdd x | .addAndGet x | .add x => x.toInt
  | .incrementAndGet | .increment => 1
  | .decrementAndGet | .decrement => -1
  | .get | .getAndSet _ => 0

/-- What the call is to return, from the values before and after it. -/
def result (before after : BitVec w) : AtomicCall w → Option (BitVec w)
  | .get | .getAndAdd _ | .getAndSet _ => some before
  | .addAndGet _ | .incrementAndGet | .decrementAndGet => some after
  | .add _ | .increment | .decrement => none

end AtomicCall

/-- A count without bounds. -/
structure Count where
  /-- the value last set -/
  set : Int
  /-- what was added since -/
  added : Int

namespace Count

def new : Count := ⟨0, 0⟩

def step (c : Count) : AtomicCall w → Count
  | .getAndSet x => ⟨x.toInt, 0⟩
  | e => { c with added := c.added + e.amount }

end Count

namespace AtomicIntegerT

/-- The counter holds the count, modulo `2 ^ w`. -/
def Holds (s : AtomicIntegerT w) (c : Count) : Prop := s.value_ = BitVec.ofInt w (c.set + c.added)

/-- Where a call uses `__sync_fetch_and_and`, there is nothing to add, to nothing. -/
def AddsRight (s : AtomicIntegerT w) : AtomicCall w → Prop
  | .getAndAdd x | .add x => s.value_ = 0 ∧ x = 0
  | _ => True

instance (s : AtomicIntegerT w) : (e : AtomicCall w) → Decidable (s.AddsRight e)
  | .getAndAdd _ | .add _ => inferInstanceAs (Decidable (_ ∧ _))
  | .get | .addAndGet _ | .incrementAndGet | .decrementAndGet | .increment | .decrement
  | .getAndSet _ => instDecidableTrue

/-- The sum is that of the bits that both have and the bits that one has. -/
theorem add_eq_and_add_or (v x : BitVec w) : v + x = (v &&& x) + (v ||| x) := by
  have hsplit : (v &&& x) + (v &&& ~~~x) = v := by
    rw [BitVec.add_eq_or_of_and_eq_zero]
    · ext i hi
      cases hv : v[i] <;> cases hx : x[i] <;> simp [hv, hx]
    · ext i hi
      cases hx : x[i] <;> simp [hx]
  have hor : (v &&& ~~~x) + x = v ||| x := by
    rw [BitVec.add_eq_or_of_and_eq_zero]
    · ext i hi
      cases hx : x[i] <;> simp [hx]
    · ext i hi
      cases hx : x[i] <;> simp [hx]
  calc v + x = (v &&& x) + (v &&& ~~~x) + x := by rw [hsplit]
    _ = (v &&& x) + (v ||| x) := by rw [BitVec.add_assoc, hor]

theorem and_eq_add_iff {v x : BitVec w} : v &&& x = v + x ↔ v = 0 ∧ x = 0 := by
  rw [add_eq_and_add_or, BitVec.self_eq_add_right, BitVec.or_eq_zero_iff]
  exact Iff.rfl

theorem holds_new : (new : AtomicIntegerT w).Holds Count.new :=
  (BitVec.ofInt_ofNat w 0).symm

/-- What the count becomes when something is added. -/
theorem ofInt_count {s : AtomicIntegerT w} {c : Count} (h : s.Holds c) (amount : Int) :
    BitVec.ofInt w (c.set + (c.added + amount)) = s.value_ + BitVec.ofInt w amount := by
  rw [← Int.add_assoc, BitVec.ofInt_add, ← h]

/-- A call that adds right keeps the count, and no other does. -/
theorem holds_step_iff {s : AtomicIntegerT w} {c : Count} (h : s.Holds c) (e : AtomicCall w) :
    (s.step e).Holds (c.step e) ↔ s.AddsRight e := by
  cases e with
  | get =>
    refine iff_of_true ?_ trivial
    have hsame : (s.step .get).value_ = s.value_ := by
      show (if s.value_ = 0 then 0 else s.value_) = s.value_
      split
      · next hzero => exact hzero.symm
      · rfl
    show (s.step .get).value_ = BitVec.ofInt w (c.set + (c.added + 0))
    rw [hsame, Int.add_zero]
    exact h
  | getAndAdd x | add x =>
    show s.value_ &&& x = BitVec.ofInt w (c.set + (c.added + x.toInt)) ↔ _
    rw [ofInt_count h, BitVec.ofInt_toInt]
    exact and_eq_add_iff
  | addAndGet x =>
    refine iff_of_true ?_ trivial
    show s.value_ + x = BitVec.ofInt w (c.set + (c.added + x.toInt))
    rw [ofInt_count h, BitVec.ofInt_toInt]
  | incrementAndGet | increment =>
    refine iff_of_true ?_ trivial
    show s.value_ + 1 = BitVec.ofInt w (c.set + (c.added + 1))
    rw [ofInt_count h]
    rfl
  | decrementAndGet | decrement =>
    refine iff_of_true ?_ trivial
    show s.value_ + -1 = BitVec.ofInt w (c.set + (c.added + -1))
    rw [ofInt_count h, BitVec.ofInt_neg]
    rfl
  | getAndSet x =>
    refine iff_of_true ?_ trivial
    show x = BitVec.ofInt w (x.toInt + 0)
    rw [Int.add_zero, BitVec.ofInt_toInt]

/-- What a call returns is right in any case. -/
theorem returned_eq (s : AtomicIntegerT w) (e : AtomicCall w) :
    s.returned e = e.result s.value_ (s.step e).value_ := by
  cases e <;> rfl

/-! ## Sequences of calls -/

/-- In every sequence of calls, each returns what it is to return; and the counter holds the value
last set and what was added since all along, exactly if `getAndAdd` and `add` are only called to add
nothing to a counter at zero. -/
theorem counts_iff (w : Nat) (es : List (AtomicCall w)) :
    ((∀ pre, pre <+: es → (run step (new : AtomicIntegerT w) pre).Holds (run Count.step .new pre)) ∧
      Meets (fun s e => s.returned e = e.result s.value_ (s.step e).value_) step new es) ↔
    Meets AddsRight step (new : AtomicIntegerT w) es := by
  rw [and_iff_left (meets_of_always returned_eq)]
  exact run_simulation_iff (R := Holds) (fun s c e h => holds_step_iff h e) holds_new

theorem counts_fails : ¬ ∀ es : List (AtomicCall 32),
    (∀ pre, pre <+: es →
      (run step (new : AtomicIntegerT 32) pre).Holds (run Count.step .new pre)) ∧
    Meets (fun s e => s.returned e = e.result s.value_ (s.step e).value_) step new es := by
  intro hall
  have hholds := (hall [.getAndAdd 1]).1 [.getAndAdd 1] List.prefix_rfl
  exact absurd hholds (by unfold Holds; decide)

end AtomicIntegerT

end Mymuduo
