import Mathlib.Data.List.Basic

/-!
# Bisection

`lowerBound p first len` is the loop of `std::lower_bound`: it halves the range of `len` indices
from `first` on, to the right half where `p` holds in the middle and to the left half where not. It
ends in the range, or at its end, and `p` does not hold where it ends, whether or not the indices
that satisfy `p` come first.

* `lowerBound_eq`: where they do, it ends behind them.
* `countP_iff`: so it is with the entries of a sorted list that are below a bound.
-/

def lowerBound (p : Nat → Bool) (first len : Nat) : Nat :=
  if _h : 0 < len then
    if p (first + len / 2) then lowerBound p (first + len / 2 + 1) (len - len / 2 - 1)
    else lowerBound p first (len / 2)
  else first
termination_by len
decreasing_by
  · omega
  · exact Nat.div_lt_self _h (by decide)

variable {p : Nat → Bool}

theorem lowerBound_le (first len : Nat) : lowerBound p first len ≤ first + len := by
  induction first, len using lowerBound.induct p with
  | case1 first len h hmid ih =>
    rw [lowerBound, dif_pos h, if_pos hmid]
    exact Nat.le_trans ih (by omega)
  | case2 first len h hmid ih =>
    rw [lowerBound, dif_pos h, if_neg hmid]
    exact Nat.le_trans ih (Nat.add_le_add_left (Nat.div_le_self len 2) first)
  | case3 first len h =>
    rw [lowerBound, dif_neg h]
    exact Nat.le_add_right first len

theorem not_at_lowerBound {first len : Nat} (hlt : lowerBound p first len < first + len) :
    p (lowerBound p first len) = false := by
  induction first, len using lowerBound.induct p with
  | case1 first len h hmid ih =>
    rw [lowerBound, dif_pos h, if_pos hmid] at hlt ⊢
    exact ih (Nat.lt_of_lt_of_le hlt (by omega))
  | case2 first len h hmid ih =>
    rw [lowerBound, dif_pos h, if_neg hmid] at hlt ⊢
    -- the end of the left half is the middle, where `p` does not hold
    rcases Nat.lt_or_eq_of_le (lowerBound_le (p := p) first (len / 2)) with hleft | hleft
    · exact ih hleft
    · rw [hleft]
      exact Bool.eq_false_iff.mpr hmid
  | case3 first len h =>
    rw [lowerBound, dif_neg h] at hlt
    exact absurd hlt (by omega)

/-- Where the indices that satisfy `p` come first, the loop ends behind them. -/
theorem lowerBound_eq {first len n : Nat} (hfirst : first ≤ n) (hn : n ≤ first + len)
    (h : ∀ i, first ≤ i → i < first + len → (p i = true ↔ i < n)) : lowerBound p first len = n := by
  induction first, len using lowerBound.induct p with
  | case1 first len hpos hmid ih =>
    rw [lowerBound, dif_pos hpos, if_pos hmid]
    have hlt : first + len / 2 < n := (h _ (Nat.le_add_right _ _) (by omega)).mp hmid
    exact ih hlt (by omega) fun i hi hi' => h i (by omega) (by omega)
  | case2 first len hpos hmid ih =>
    rw [lowerBound, dif_pos hpos, if_neg hmid]
    have hle : n ≤ first + len / 2 := Nat.not_lt.mp fun hlt =>
      hmid ((h _ (Nat.le_add_right _ _) (by omega)).mpr hlt)
    exact ih hfirst hle fun i hi hi' => h i hi (by omega)
  | case3 first len hpos =>
    rw [lowerBound, dif_neg hpos]
    omega

section Sorted

variable {α : Type*} {l : List α} {q : α → Bool}

/-- In a list whose entries that satisfy `q` come first, these are as many as they reach. -/
theorem countP_iff (hfirst : l.Pairwise fun a b => q b = true → q a = true) {i : Nat} {a : α}
    (ha : l[i]? = some a) : q a = true ↔ i < l.countP q := by
  induction l generalizing i with
  | nil => cases ha
  | cons b l ih =>
    obtain ⟨hb, hl⟩ := List.pairwise_cons.mp hfirst
    cases hqb : q b with
    | true =>
      rw [List.countP_cons_of_pos hqb]
      cases i with
      | zero =>
        obtain rfl : b = a := Option.some.inj ha
        exact iff_of_true hqb (Nat.succ_pos _)
      | succ i =>
        rw [ih hl ha]
        exact Nat.succ_lt_succ_iff.symm
    | false =>
      have hnone : ∀ c ∈ b :: l, ¬ q c = true := fun c hc hqc => by
        rcases List.mem_cons.mp hc with rfl | hc
        · rw [hqb] at hqc
          cases hqc
        · rw [hb c hc hqc] at hqb
          cases hqb
      rw [List.countP_eq_zero.mpr hnone]
      exact iff_of_false (hnone a (List.mem_of_getElem? ha)) (Nat.not_lt_zero i)

theorem countP_eq {n : Nat} (hn : n ≤ l.length)
    (h : ∀ i a, l[i]? = some a → (q a = true ↔ i < n)) : l.countP q = n := by
  induction l generalizing n with
  | nil => exact (Nat.le_zero.mp hn).symm
  | cons b l ih =>
    have hhead := h 0 b rfl
    cases n with
    | zero =>
      rw [List.countP_eq_zero]
      intro a ha
      obtain ⟨i, hi⟩ := List.mem_iff_getElem?.mp ha
      exact fun hqa => absurd ((h i a hi).mp hqa) (Nat.not_lt_zero i)
    | succ n =>
      rw [List.countP_cons_of_pos (hhead.mpr (Nat.succ_pos n)), ih (Nat.le_of_succ_le_succ hn)]
      exact fun i a ha => (h (i + 1) a ha).trans Nat.succ_lt_succ_iff

end Sorted
