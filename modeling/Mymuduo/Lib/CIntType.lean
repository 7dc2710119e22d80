import Mathlib

/-!
# The integer types of C

A type is signed or not and has a width. The operands of `/` and `%` are converted to a common type
first, which is no narrower than `int`. A result outside a signed type has no value, since that is
undefined behaviour; an unsigned type wraps around.

* `div_eq`, `rem_eq`: by a positive `int`, the quotient and the remainder of any value of any type
  are those over the integers, rounded towards zero.
-/

structure CIntType where
  signed : Bool
  width : Nat
  width_pos : 0 < width
  deriving DecidableEq, Repr

namespace CIntType

def int : CIntType := ⟨true, 32, by decide⟩
def int64 : CIntType := ⟨true, 64, by decide⟩
def uint64 : CIntType := ⟨false, 64, by decide⟩

/-- The least value. -/
def least (T : CIntType) : Int := if T.signed then -2 ^ (T.width - 1) else 0

/-- One more than the greatest value. -/
def bound (T : CIntType) : Int := if T.signed then 2 ^ (T.width - 1) else 2 ^ T.width

def Fits (T : CIntType) (z : Int) : Prop := T.least ≤ z ∧ z < T.bound

instance (T : CIntType) (z : Int) : Decidable (T.Fits z) := inferInstanceAs (Decidable (_ ∧ _))

abbrev Value (T : CIntType) := { z : Int // T.Fits z }

/-- The conversion to the type, which keeps the low bits. -/
def cast (T : CIntType) (z : Int) : Int :=
  if T.signed then Int.bmod z (2 ^ T.width) else z % 2 ^ T.width

/-- The value of an expression of the type whose result over the integers is `z`. -/
def eval (T : CIntType) (z : Int) : Option Int :=
  if T.signed ∧ ¬ T.Fits z then none else some (T.cast z)

/-- The common type with `int`. -/
def withInt (T : CIntType) : CIntType := if T.width < int.width then int else T

/-- `i / d`, for an `i` of the type and an `int` `d`. -/
def div (T : CIntType) (i d : Int) : Option Int :=
  if T.withInt.cast d = 0 then none
  else T.withInt.eval ((T.withInt.cast i).tdiv (T.withInt.cast d))

/-- `i % d`, which has a value where `i / d` has one. -/
def rem (T : CIntType) (i d : Int) : Option Int := do
  let _ ← T.div i d
  T.withInt.eval ((T.withInt.cast i).tmod (T.withInt.cast d))

variable {T : CIntType} {i d z : Int}

theorem cast_eq (h : T.Fits z) : T.cast z = z := by
  obtain ⟨hlow, hhigh⟩ := h
  obtain ⟨w, hw⟩ : ∃ w, T.width = w + 1 := Nat.exists_eq_add_of_lt T.width_pos |>.imp fun w hw => by
    omega
  unfold least at hlow
  unfold bound at hhigh
  rw [hw] at hlow hhigh
  rw [cast, hw]
  cases hT : T.signed with
  | false =>
    rw [hT, if_neg Bool.false_ne_true] at hlow hhigh
    rw [if_neg Bool.false_ne_true]
    exact Int.emod_eq_of_lt hlow hhigh
  | true =>
    rw [hT, if_pos rfl, Nat.add_sub_cancel] at hlow hhigh
    rw [if_pos rfl]
    have hpow : ((2 ^ w : Nat) : Int) = 2 ^ w := Int.natCast_pow 2 w
    have hdouble : 2 ^ (w + 1) = 2 * 2 ^ w := Nat.pow_succ'
    exact Int.bmod_eq_of_le (by omega) (by omega)

theorem eval_eq (h : T.Fits z) : T.eval z = some z := by
  rw [eval, if_neg fun hnot => hnot.2 h, cast_eq h]

theorem least_nonpos (T : CIntType) : T.least ≤ 0 := by
  unfold least
  split
  · exact Int.neg_nonpos_of_nonneg (Int.pow_nonneg (by decide))
  · exact Int.le_refl 0

theorem bound_pos (T : CIntType) : 0 < T.bound := by
  unfold bound
  split
  · exact Int.pow_pos (by decide)
  · exact Int.pow_pos (by decide)

/-- What lies between zero and a value of the type is one too. -/
theorem Fits.between (h : T.Fits i) (hpos : 0 ≤ i → 0 ≤ z) (hneg : i ≤ 0 → z ≤ 0)
    (hle : z.natAbs ≤ i.natAbs) : T.Fits z := by
  have hlow := T.least_nonpos
  have hhigh := T.bound_pos
  obtain ⟨hi, hi'⟩ := h
  rcases Int.le_total 0 i with hsign | hsign
  · have hz := hpos hsign
    exact ⟨by omega, by omega⟩
  · have hz := hneg hsign
    exact ⟨by omega, by omega⟩

theorem Fits.tdiv (h : T.Fits i) (hd : 0 < d) : T.Fits (i.tdiv d) := by
  refine h.between (fun hi => Int.tdiv_nonneg hi (Int.le_of_lt hd)) (fun hi => ?_) ?_
  · have hneg := Int.tdiv_nonneg (Int.neg_nonneg_of_nonpos hi) (Int.le_of_lt hd)
    rw [Int.neg_tdiv] at hneg
    exact Int.nonpos_of_neg_nonneg hneg
  · rw [Int.natAbs_tdiv]
    exact Nat.div_le_self _ _

theorem Fits.tmod (h : T.Fits i) (d : Int) : T.Fits (i.tmod d) := by
  refine h.between (Int.tmod_nonneg d) (fun hi => ?_) ?_
  · have hneg := Int.tmod_nonneg d (Int.neg_nonneg_of_nonpos hi)
    rw [Int.neg_tmod] at hneg
    exact Int.nonpos_of_neg_nonneg hneg
  · rw [Int.natAbs_tmod]
    exact Nat.mod_le _ _

theorem two_pow_le {a b : Nat} (h : a ≤ b) : (2 : Int) ^ a ≤ 2 ^ b := by
  exact_mod_cast Nat.pow_le_pow_right (by decide) h

/-- What the values of the types of a width have in common, signed or not. -/
theorem Fits.within {w : Nat} (h : T.Fits z) (hw : T.width ≤ w) : -2 ^ (w - 1) ≤ z ∧ z < 2 ^ w := by
  have hhalf : (2 : Int) ^ (T.width - 1) ≤ 2 ^ (w - 1) := two_pow_le (Nat.sub_le_sub_right hw 1)
  have hpow : (2 : Int) ^ T.width ≤ 2 ^ w := two_pow_le hw
  have hless : (2 : Int) ^ (T.width - 1) ≤ 2 ^ T.width := two_pow_le (Nat.sub_le _ _)
  obtain ⟨hlow, hhigh⟩ := h
  unfold least at hlow
  unfold bound at hhigh
  split_ifs at hlow hhigh
  · exact ⟨(Int.neg_le_neg hhalf).trans hlow, hhigh.trans_le (hless.trans hpow)⟩
  · exact ⟨(Int.neg_nonpos_of_nonneg (Int.pow_nonneg (by decide))).trans hlow, hhigh.trans_le hpow⟩

theorem Fits.withInt (h : T.Fits z) : T.withInt.Fits z := by
  unfold CIntType.withInt
  split
  · next hnarrow =>
    obtain ⟨hlow, hhigh⟩ := h.within (Nat.le_of_lt_succ hnarrow)
    exact ⟨Int.le_trans (by decide) hlow, hhigh⟩
  · exact h

theorem fits_withInt_of_pos (hd : 0 < d) (hlt : d < 2 ^ 31) : T.withInt.Fits d := by
  refine ⟨Int.le_trans T.withInt.least_nonpos (Int.le_of_lt hd), Int.lt_of_lt_of_le hlt ?_⟩
  have hwide : 31 ≤ T.withInt.width - 1 := by
    unfold CIntType.withInt
    split
    · exact Nat.le_refl 31
    · next hwide => exact Nat.le_sub_one_of_lt (Nat.le_of_not_lt hwide)
  unfold bound
  split
  · exact two_pow_le hwide
  · exact two_pow_le (Nat.le_trans hwide (Nat.sub_le _ _))

theorem div_eq (h : T.Fits i) (hd : 0 < d) (hlt : d < 2 ^ 31) : T.div i d = some (i.tdiv d) := by
  rw [div, cast_eq (fits_withInt_of_pos hd hlt), cast_eq h.withInt, if_neg (Int.ne_of_gt hd)]
  exact eval_eq (h.withInt.tdiv hd)

theorem rem_eq (h : T.Fits i) (hd : 0 < d) (hlt : d < 2 ^ 31) : T.rem i d = some (i.tmod d) := by
  rw [rem, div_eq h hd hlt, cast_eq (fits_withInt_of_pos hd hlt), cast_eq h.withInt]
  exact eval_eq (h.withInt.tmod d)

end CIntType
