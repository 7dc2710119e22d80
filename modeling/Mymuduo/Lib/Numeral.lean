import Mathlib.Data.Nat.Digits.Defs

/-!
# Numerals

The numerals of base `b`: the digits of a number, the most significant one first, without leading
zeros. `IsText sym b text n` says that `text` is the numeral of `n`, written with the symbol `sym d`
for the digit `d`.

* `IsText.unique`: a number has one text.
* `isText_of_division`: dividing by the base until nothing is left gives it, last digit first.
-/

/-- The digits of `n` in base `b`. -/
structure IsNumeral (b : Nat) (ds : List Nat) (n : Nat) : Prop where
  lt : ∀ d ∈ ds, d < b
  ne_nil : ds ≠ []
  /-- only zero begins with a zero -/
  leading : ds.head? = some 0 → ds = [0]
  value : Nat.ofDigits b ds.reverse = n

/-- The text of `n` in base `b`. -/
def IsText {α : Type*} (sym : Nat → α) (b : Nat) (text : List α) (n : Nat) : Prop :=
  ∃ ds, IsNumeral b ds n ∧ text = ds.map sym

variable {α ι : Type*} {sym : Nat → α} {b n : Nat} {ds es : List Nat}

namespace IsNumeral

theorem ofDigit {d : Nat} (h : d < b) : IsNumeral b [d] d where
  lt e he := by rwa [List.mem_singleton.mp he]
  ne_nil := List.cons_ne_nil d []
  leading hd := congrArg (fun o => o.toList) hd
  value := Nat.ofDigits_singleton

/-- One more digit at the end. -/
theorem snoc {d : Nat} (h : IsNumeral b ds n) (hn : n ≠ 0) (hd : d < b) :
    IsNumeral b (ds ++ [d]) (d + b * n) where
  lt e he := by
    rcases List.mem_append.mp he with he | he
    · exact h.lt e he
    · rwa [List.mem_singleton.mp he]
  ne_nil := List.append_ne_nil_of_right_ne_nil ds (List.cons_ne_nil d [])
  leading hhead := by
    obtain ⟨e, es, rfl⟩ := List.exists_cons_of_ne_nil h.ne_nil
    have hzero : n = 0 := by
      rw [← h.value, h.leading hhead]
      exact Nat.ofDigits_singleton
    exact absurd hzero hn
  value := by rw [List.reverse_append, List.reverse_singleton, List.singleton_append,
    Nat.ofDigits_cons, h.value]

theorem reverse_eq (hb : 1 < b) (h : IsNumeral b ds n) (hn : n ≠ 0) :
    ds.reverse = Nat.digits b n := by
  rw [← h.value]
  refine (Nat.digits_ofDigits b hb _ (fun d hd => h.lt d (List.mem_reverse.mp hd)) ?_).symm
  intro hne hlast
  have hhead : ds.head? = some 0 := by
    rw [List.head?_eq_some_head h.ne_nil, ← List.getLast_reverse hne, hlast]
  refine hn ?_
  rw [← h.value, h.leading hhead]
  exact Nat.ofDigits_singleton

/-- All digits of zero are zero, so there is only one. -/
theorem eq_of_zero (hb : 0 < b) (h : IsNumeral b ds 0) : ds = [0] := by
  cases ds with
  | nil => exact absurd rfl h.ne_nil
  | cons d ds =>
    have hvalue := h.value
    rw [List.reverse_cons, Nat.ofDigits_append, Nat.ofDigits_singleton] at hvalue
    have hd : d = 0 :=
      (Nat.mul_eq_zero.mp (Nat.eq_zero_of_add_eq_zero_left hvalue)).resolve_left
        (Nat.pow_pos hb).ne'
    exact h.leading (congrArg some hd)

theorem unique (hb : 1 < b) (h : IsNumeral b ds n) (h' : IsNumeral b es n) : ds = es := by
  by_cases hn : n = 0
  · subst hn
    rw [h.eq_of_zero (Nat.zero_lt_of_lt hb), h'.eq_of_zero (Nat.zero_lt_of_lt hb)]
  · exact List.reverse_inj.mp ((h.reverse_eq hb hn).trans (h'.reverse_eq hb hn).symm)

end IsNumeral

theorem IsText.unique {text text' : List α} (hb : 1 < b) (h : IsText sym b text n)
    (h' : IsText sym b text' n) : text = text' := by
  obtain ⟨ds, hds, rfl⟩ := h
  obtain ⟨es, hes, rfl⟩ := h'
  rw [hds.unique hb hes]

/-- A loop that writes the symbol of the remainder and goes on with the quotient, while there is
one. What it divides, `i`, stands for the number `abs i`. -/
theorem isText_of_division (hb : 1 < b) {loop : ι → List α} (abs : ι → Nat) (quot : ι → ι)
    (hquot : ∀ i, abs (quot i) = abs i / b)
    (hloop : ∀ i, loop i = sym (abs i % b) :: if abs i / b = 0 then [] else loop (quot i))
    (i : ι) : IsText sym b (loop i).reverse (abs i) := by
  induction hi : abs i using Nat.strongRecOn generalizing i with
  | ind n ih =>
    subst hi
    have hmod : abs i % b < b := Nat.mod_lt _ (Nat.zero_lt_of_lt hb)
    rw [hloop]
    split
    · next hzero =>
      have hlt : abs i < b := (Nat.div_eq_zero_iff_lt (Nat.zero_lt_of_lt hb)).mp hzero
      exact ⟨[abs i % b], by rw [Nat.mod_eq_of_lt hlt]; exact .ofDigit hlt, rfl⟩
    · next hmore =>
      have hpos : abs i ≠ 0 := fun hzero => hmore (by rw [hzero, Nat.zero_div])
      have hless : abs i / b < abs i := Nat.div_lt_self (Nat.pos_of_ne_zero hpos) hb
      obtain ⟨ds, hds, htext⟩ := ih _ hless (quot i) (hquot i)
      refine ⟨ds ++ [abs i % b], ?_, ?_⟩
      · have hsnoc := hds.snoc hmore hmod
        rwa [Nat.mod_add_div] at hsnoc
      · rw [List.reverse_cons, htext, List.map_append]
        rfl
