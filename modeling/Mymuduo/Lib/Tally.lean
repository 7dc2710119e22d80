import Mathlib.Data.Fintype.BigOperators

/-!
# What a family of threads holds

`tally g f` adds up what each thread of a finite family holds in its local state. `tally_update` is
the account of one thread that moves on; with numbers it counts the threads at some place, and with
multisets it collects what they have in hand.
-/

namespace Tally

variable {ι α M : Type*} [Fintype ι] [AddCommMonoid M]

def tally (g : α → M) (f : ι → α) : M := ∑ i, g (f i)

theorem tally_eq_zero {g : α → M} {f : ι → α} (h : ∀ i, g (f i) = 0) : tally g f = 0 :=
  Finset.sum_eq_zero fun i _ => h i

variable [DecidableEq ι]

/-- One thread goes from `f i` to `a`. -/
theorem tally_update (g : α → M) (f : ι → α) (i : ι) (a : α) :
    tally g (Function.update f i a) + g (f i) = tally g f + g a := by
  have hrest : ∑ j ∈ Finset.univ \ {i}, g (Function.update f i a j) =
      ∑ j ∈ Finset.univ \ {i}, g (f j) := by
    refine Finset.sum_congr rfl fun j hj => ?_
    have hne : j ≠ i := by simpa using hj
    rw [Function.update_of_ne hne]
  have hnew := Finset.sum_sdiff (f := fun j => g (Function.update f i a j))
    (Finset.subset_univ {i})
  have hold := Finset.sum_sdiff (f := fun j => g (f j)) (Finset.subset_univ {i})
  rw [Finset.sum_singleton, Function.update_self] at hnew
  rw [Finset.sum_singleton] at hold
  rw [tally, tally, ← hnew, ← hold, hrest, add_right_comm]

end Tally
