import Mymuduo.Lib.CString

/-!
# Numbers of a fixed width

`zeroPadded w n` is what `%0wd` prints, and `zeroPaddedInt w z` with a sign. Texts are compared byte
by byte, as `std::string` does it.

* `IsDecimal.lt_iff`: decimal texts of the same length compare as the numbers do.
* `append_lt_iff`: texts that begin with fields of the same length compare by the fields first.
* `zeroPadded_lt_iff`: so they do when they begin with numbers of the same width.
-/

namespace CString

/-- What `%0wd` prints of a number without a sign. -/
def zeroPadded (w n : Nat) : Bytes := List.replicate (w - (natText n).length) 48 ++ natText n

/-- What `%0wd` prints. -/
def zeroPaddedInt (w : Nat) (z : Int) : Bytes :=
  if z < 0 then 45 :: zeroPadded (w - 1) z.natAbs else zeroPadded w z.natAbs

theorem length_zeroPadded {w n : Nat} (hw : 0 < w) (h : n < 10 ^ w) :
    (zeroPadded w n).length = w := by
  have hle : (natText n).length ≤ w := (natText_length_le_iff hw).mpr h
  rw [zeroPadded, List.length_append, List.length_replicate]
  exact Nat.sub_add_cancel hle

/-! ## Values -/

theorem digitsValue_zeros (k : Nat) (ds : Bytes) :
    digitsValue (List.replicate k 48 ++ ds) = digitsValue ds := by
  induction k with
  | zero => rfl
  | succ k ih => exact ih

theorem isDecimal_zeroPadded (w n : Nat) : IsDecimal (zeroPadded w n) n where
  ne_nil := List.append_ne_nil_of_right_ne_nil _ (isDecimal_natText n).ne_nil
  digits b hb := by
    rcases List.mem_append.mp hb with hb | hb
    · rw [List.eq_of_mem_replicate hb]
      rfl
    · exact (isDecimal_natText n).digits b hb
  value := by rw [zeroPadded, digitsValue_zeros, (isDecimal_natText n).value]

theorem foldl_digits (ds : Bytes) (v : Nat) :
    ds.foldl (fun v b => 10 * v + (b.toNat - 48)) v = v * 10 ^ ds.length + digitsValue ds := by
  induction ds generalizing v with
  | nil => simp [digitsValue]
  | cons b ds ih =>
    rw [digitsValue, List.foldl_cons, List.foldl_cons, ih, ih (10 * 0 + _), List.length_cons,
      Nat.pow_succ]
    ring

theorem digitsValue_cons (b : UInt8) (ds : Bytes) :
    digitsValue (b :: ds) = (b.toNat - 48) * 10 ^ ds.length + digitsValue ds := by
  rw [digitsValue, List.foldl_cons, foldl_digits, Nat.mul_zero, Nat.zero_add]

theorem digitsValue_lt {ds : Bytes} (h : ∀ b ∈ ds, isdigit b = true) :
    digitsValue ds < 10 ^ ds.length := by
  induction ds with
  | nil => exact Nat.one_pos
  | cons b ds ih =>
    have hb := isdigit_iff.mp (h b List.mem_cons_self)
    have hrest := ih fun b' hb' => h b' (List.mem_cons_of_mem b hb')
    have hdigit : (b.toNat - 48) * 10 ^ ds.length ≤ 9 * 10 ^ ds.length :=
      Nat.mul_le_mul_right _ (by omega)
    rw [digitsValue_cons, List.length_cons, Nat.pow_succ]
    omega

/-! ## Numbers with a sign -/

theorem zeroPaddedInt_of_nonneg {z : Int} (h : 0 ≤ z) (w : Nat) :
    zeroPaddedInt w z = zeroPadded w z.toNat := by
  obtain ⟨n, rfl⟩ := Int.eq_ofNat_of_zero_le h
  rw [zeroPaddedInt, if_neg (Int.not_lt.mpr h)]
  rfl

theorem IsDecimal.strto_minus {ds : Bytes} {n : Nat} (h : IsDecimal ds n) :
    strto (45 :: ds) = some (-(n : Int)) := by
  have htake : ds.takeWhile isdigit = ds := List.takeWhile_eq_self_iff.mpr h.digits
  have hsp : (45 :: ds).dropWhile isspace = 45 :: ds := by
    simp [isspace]
  simp only [strto, hsp, signOf, htake, h.ne_nil, h.value, if_false, if_true]

/-- Reading back what was padded gives the number. -/
theorem strto_zeroPaddedInt (w : Nat) (z : Int) : strto (zeroPaddedInt w z) = some z := by
  unfold zeroPaddedInt
  split
  · rw [(isDecimal_zeroPadded (w - 1) z.natAbs).strto_minus, Option.some.injEq]
    omega
  · rw [(isDecimal_zeroPadded w z.natAbs).strto_eq, Option.some.injEq]
    omega

theorem length_zeroPaddedInt_le {w : Nat} (hw : 0 < w) {z : Int} (h : z.natAbs < 10 ^ w) :
    (zeroPaddedInt w z).length ≤ w + 1 := by
  have hle : (natText z.natAbs).length ≤ w := (natText_length_le_iff hw).mpr h
  unfold zeroPaddedInt zeroPadded
  split
  · rw [List.length_cons, List.length_append, List.length_replicate]
    omega
  · rw [List.length_append, List.length_replicate]
    omega

theorem length_intText_le_succ {k : Nat} (hk : 0 < k) {z : Int} (h : z.natAbs < 10 ^ k) :
    (intText z).length ≤ k + 1 := by
  have hle : (natText z.natAbs).length ≤ k := (natText_length_le_iff hk).mpr h
  unfold intText
  split
  · exact Nat.succ_le_succ hle
  · exact Nat.le_succ_of_le hle

/-! ## Order -/

/-- The first digit that differs decides. -/
theorem lt_iff_digitsValue_lt {ds es : Bytes} (hds : ∀ b ∈ ds, isdigit b = true)
    (hes : ∀ b ∈ es, isdigit b = true) (hlength : ds.length = es.length) :
    ds < es ↔ digitsValue ds < digitsValue es := by
  induction ds generalizing es with
  | nil =>
    rw [List.length_eq_zero_iff.mp hlength.symm]
    exact iff_of_false (List.not_lt_nil []) (Nat.lt_irrefl _)
  | cons b ds ih =>
    cases es with
    | nil => cases hlength
    | cons c es =>
      have hlength' : ds.length = es.length := Nat.succ.inj hlength
      have hb := isdigit_iff.mp (hds b List.mem_cons_self)
      have hc := isdigit_iff.mp (hes c List.mem_cons_self)
      have hds' : ∀ b' ∈ ds, isdigit b' = true := fun b' h => hds b' (List.mem_cons_of_mem b h)
      have hes' : ∀ c' ∈ es, isdigit c' = true := fun c' h => hes c' (List.mem_cons_of_mem c h)
      have hlt := digitsValue_lt hds'
      have hlt' := digitsValue_lt hes'
      rw [List.cons_lt_cons_iff, ih hds' hes' hlength', digitsValue_cons, digitsValue_cons,
        ← hlength', UInt8.lt_iff_toNat_lt, ← UInt8.toNat_inj]
      rw [← hlength'] at hlt'
      generalize 10 ^ ds.length = p at hlt hlt' ⊢
      rcases Nat.lt_trichotomy b.toNat c.toNat with hbc | hbc | hbc
      · have hstep : (b.toNat - 48 + 1) * p ≤ (c.toNat - 48) * p :=
          Nat.mul_le_mul_right p (by omega)
        rw [Nat.add_mul, Nat.one_mul] at hstep
        exact iff_of_true (.inl hbc) (by omega)
      · rw [hbc]
        simp only [Nat.lt_irrefl, false_or, true_and, Nat.add_lt_add_iff_left]
      · have hstep : (c.toNat - 48 + 1) * p ≤ (b.toNat - 48) * p :=
          Nat.mul_le_mul_right p (by omega)
        rw [Nat.add_mul, Nat.one_mul] at hstep
        exact iff_of_false (by omega) (by omega)

theorem IsDecimal.lt_iff {ds es : Bytes} {n m : Nat} (h : IsDecimal ds n) (h' : IsDecimal es m)
    (hlength : ds.length = es.length) : ds < es ↔ n < m := by
  rw [lt_iff_digitsValue_lt h.digits h'.digits hlength, h.value, h'.value]

/-- Fields of the same length in front of the rest. -/
theorem append_lt_iff {l l' r r' : Bytes} (hlength : l.length = l'.length) :
    l ++ r < l' ++ r' ↔ l < l' ∨ l = l' ∧ r < r' := by
  induction l generalizing l' with
  | nil =>
    rw [List.length_eq_zero_iff.mp hlength.symm]
    simp
  | cons b l ih =>
    cases l' with
    | nil => cases hlength
    | cons c l' =>
      rw [List.cons_append, List.cons_append, List.cons_lt_cons_iff, List.cons_lt_cons_iff,
        ih (Nat.succ.inj hlength), List.cons.injEq]
      tauto

/-- The same text in front. -/
theorem append_lt_append_left_iff (l r r' : Bytes) : l ++ r < l ++ r' ↔ r < r' := by
  rw [append_lt_iff rfl]
  exact ⟨fun h => (h.resolve_left (List.lt_irrefl l)).2, fun h => .inr ⟨rfl, h⟩⟩

theorem zeroPadded_lt_iff {w n m : Nat} (hw : 0 < w) (hn : n < 10 ^ w) (hm : m < 10 ^ w)
    (r r' : Bytes) :
    zeroPadded w n ++ r < zeroPadded w m ++ r' ↔ n < m ∨ n = m ∧ r < r' := by
  have hlength : (zeroPadded w n).length = (zeroPadded w m).length := by
    rw [length_zeroPadded hw hn, length_zeroPadded hw hm]
  have heq : zeroPadded w n = zeroPadded w m ↔ n = m :=
    ⟨fun h => by rw [← (isDecimal_zeroPadded w n).value, h, (isDecimal_zeroPadded w m).value],
      congrArg _⟩
  rw [append_lt_iff hlength, (isDecimal_zeroPadded w n).lt_iff (isDecimal_zeroPadded w m) hlength,
    heq]

end CString
