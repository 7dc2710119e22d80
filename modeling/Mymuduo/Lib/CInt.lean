import Mathlib

/-!
# Signed machine integers that must not overflow

The arithmetic of C on signed integers of `w` bits: `/` and `%` truncate towards zero, and an
expression has no value once one of its subexpressions leaves the type, since that is undefined
behaviour. So an expression that has a value overflows nowhere, and its value is the one over the
integers (`CInt.coe_add` and its siblings).
-/

/-- An expression of a signed type of `w` bits: its value, unless its evaluation overflows. -/
structure CInt (w : Nat) where
  value : Option Int

namespace CInt

variable {w : Nat} {a b z : Int}

/-- The values of the type. -/
abbrev Fits (w : Nat) (z : Int) : Prop := -(2 : Int) ^ (w - 1) ≤ z ∧ z < (2 : Int) ^ (w - 1)

/-- The expression that reads a variable. -/
@[coe] def ofInt (z : Int) : CInt w := ⟨some z⟩

instance : Coe Int (CInt w) := ⟨ofInt⟩

instance (n : Nat) : OfNat (CInt w) n := ⟨ofInt n⟩

/-- An operation on two operands, from its result over the integers. -/
def lift (f : Int → Int → Option Int) (x y : CInt w) : CInt w :=
  ⟨do
    let a ← x.value
    let b ← y.value
    let z ← f a b
    if Fits w z then some z else none⟩

instance : Add (CInt w) := ⟨lift fun a b => some (a + b)⟩
instance : Sub (CInt w) := ⟨lift fun a b => some (a - b)⟩
instance : Mul (CInt w) := ⟨lift fun a b => some (a * b)⟩
instance : Div (CInt w) := ⟨lift fun a b => if b = 0 then none else some (a.tdiv b)⟩

/-- A remainder has a value where the quotient has one. -/
instance : Mod (CInt w) :=
  ⟨lift fun a b => if b = 0 ∨ ¬ Fits w (a.tdiv b) then none else some (a.tmod b)⟩

/-- The value of an expression of type `int`. -/
def int (x : CInt 32) : Option Int := x.value

/-- The value of an expression of a signed type of 64 bits. -/
def int64 (x : CInt 64) : Option Int := x.value

/-- The conversion of a value to `int`, which keeps its low 32 bits. -/
def toInt (z : Int) : Int := Int.bmod z (2 ^ 32)

@[simp] theorem int_coe (z : Int) : int (z : CInt 32) = some z := rfl

@[simp] theorem int64_coe (z : Int) : int64 (z : CInt 64) = some z := rfl

theorem coe_ofNat (n : Nat) : (OfNat.ofNat n : CInt w) = ((OfNat.ofNat n : Int) : CInt w) := rfl

theorem lift_coe {f : Int → Int → Option Int} (hf : f a b = some z) (h : Fits w z) :
    lift f (a : CInt w) (b : CInt w) = (z : CInt w) := by
  show (⟨(f a b).bind fun z => if Fits w z then some z else none⟩ : CInt w) = ⟨some z⟩
  rw [hf, Option.bind_some, if_pos h]

theorem coe_add (h : Fits w (a + b)) : (a : CInt w) + (b : CInt w) = ((a + b : Int) : CInt w) :=
  lift_coe rfl h

theorem coe_sub (h : Fits w (a - b)) : (a : CInt w) - (b : CInt w) = ((a - b : Int) : CInt w) :=
  lift_coe rfl h

theorem coe_mul (h : Fits w (a * b)) : (a : CInt w) * (b : CInt w) = ((a * b : Int) : CInt w) :=
  lift_coe rfl h

theorem coe_div (hb : b ≠ 0) (h : Fits w (a.tdiv b)) :
    (a : CInt w) / (b : CInt w) = (a.tdiv b : CInt w) :=
  lift_coe (if_neg hb) h

/-- A quotient of what is not negative needs no rounding towards zero, and always fits. -/
theorem coe_div_of_nonneg (ha : 0 ≤ a) (hb : 0 < b) (h : Fits w a) :
    (a : CInt w) / (b : CInt w) = ((a / b : Int) : CInt w) := by
  have hdiv := Int.tdiv_eq_ediv_of_nonneg ha (b := b)
  have hlow : -(2 : Int) ^ (w - 1) ≤ 0 := by
    have : (0 : Int) ≤ 2 ^ (w - 1) := Int.pow_nonneg (by decide)
    omega
  have hfits : Fits w (a / b) :=
    ⟨Int.le_trans hlow (Int.ediv_nonneg ha (Int.le_of_lt hb)),
      Int.lt_of_le_of_lt (Int.ediv_le_self b ha) h.2⟩
  rw [coe_div (Int.ne_of_gt hb) (hdiv ▸ hfits), hdiv]

theorem coe_mod (hb : b ≠ 0) (hq : Fits w (a.tdiv b)) (h : Fits w (a.tmod b)) :
    (a : CInt w) % (b : CInt w) = (a.tmod b : CInt w) :=
  lift_coe (if_neg (by simp [hb, hq])) h

end CInt
