import Mathlib

/-!
# Byte strings and the C library's number texts

Strings are lists of bytes. `ascii` spells a literal. `isspace`, `strto`, `stoi`, `stoll`, and
`to_string` are the functions of the C and C++ libraries on such strings: `strto` is the common
part of `strtol`/`strtoll` in base 10 (leading blanks, an optional sign, the longest run of
digits, trailing text ignored), and the `sto…` functions throw `invalid_argument` when there is no
digit and `out_of_range` when the value does not fit the type.

`strto_intText` is the round trip: reading back a number's text gives the number.
-/

namespace CString

/-- A C++ `std::string` or a block of `char`s. -/
abbrev Bytes := List UInt8

/-- The bytes of an ASCII literal. -/
def ascii (s : String) : Bytes :=
  s.toList.map fun c => c.toNat.toUInt8

/-- `isspace` in the C locale. -/
def isspace (b : UInt8) : Bool :=
  b == 32 || (9 ≤ b && b ≤ 13)

def isdigit (b : UInt8) : Bool :=
  48 ≤ b && b ≤ 57

/-- The part of a string that a function taking a C string sees: up to the first NUL. -/
def c_str (s : Bytes) : Bytes :=
  s.takeWhile (· != 0)

/-! ## Reading numbers -/

/-- The value of a run of decimal digits. -/
def digitsValue (ds : Bytes) : Nat :=
  ds.foldl (fun v b => 10 * v + (b.toNat - 48)) 0

/-- An optional sign. -/
def signOf : Bytes → Bool × Bytes
  | 45 :: t => (true, t)
  | 43 :: t => (false, t)
  | t => (false, t)

/-- The value that `strtol` and `strtoll` read in base 10; `none` when they convert nothing. -/
def strto (s : Bytes) : Option Int :=
  let t := signOf (s.dropWhile isspace)
  let ds := t.2.takeWhile isdigit
  if ds = [] then none
  else some (if t.1 then -(digitsValue ds : Int) else (digitsValue ds : Int))

/-- The exceptions of `std::stoi` and `std::stoll`, and that of a `std::string` too long to be. -/
inductive StdException
  | invalid_argument
  | out_of_range
  | length_error
  deriving DecidableEq, Repr

/-- The common part of the `std::sto…` functions for a signed type of `w` bits. -/
def sto (w : Nat) (s : Bytes) : Except StdException Int :=
  match strto s with
  | none => .error .invalid_argument
  | some v =>
    if -(2 : Int) ^ (w - 1) ≤ v ∧ v < (2 : Int) ^ (w - 1) then .ok v else .error .out_of_range

def stoi (s : Bytes) : Except StdException Int := sto 32 s

def stoll (s : Bytes) : Except StdException Int := sto 64 s

theorem except_bind_eq_ok {ε α β : Type} {x : Except ε α} {f : α → Except ε β} {b : β} :
    x >>= f = .ok b ↔ ∃ a, x = .ok a ∧ f a = .ok b := by
  cases x with
  | error e => exact ⟨nofun, nofun⟩
  | ok a => exact ⟨fun h => ⟨a, rfl, h⟩, by rintro ⟨_, ⟨⟩, h⟩; exact h⟩

/-! ## Writing texts -/

/-- `%zu` and `std::to_string` of an unsigned value. -/
def natText (n : Nat) : Bytes :=
  (Nat.toDigits 10 n).map fun c => c.toNat.toUInt8

/-- `%d` and `std::to_string` of a signed value. -/
def intText (z : Int) : Bytes :=
  if z < 0 then 45 :: natText z.natAbs else natText z.natAbs

/-- `snprintf` of a text into an array of `size` bytes. -/
def snprintf (size : Nat) (text : Bytes) : Bytes := text.take (size - 1)

/-- `ds` is a decimal text of `n`, leading zeros allowed. -/
structure IsDecimal (ds : Bytes) (n : Nat) : Prop where
  ne_nil : ds ≠ []
  digits : ∀ b ∈ ds, isdigit b = true
  value : digitsValue ds = n

theorem isDecimal_of_all {ds : Bytes} {n : Nat} (hne : ds ≠ []) (hdigits : ds.all isdigit = true)
    (hvalue : digitsValue ds = n) : IsDecimal ds n :=
  ⟨hne, List.all_eq_true.mp hdigits, hvalue⟩

/-! ## Digits -/

theorem toUInt8_digit {c : Char} (h : c.isDigit = true) :
    isdigit c.toNat.toUInt8 = true ∧ c.toNat.toUInt8.toNat = c.toNat := by
  have hc : 48 ≤ c.toNat ∧ c.toNat ≤ 57 := by
    simp only [Char.isDigit, Bool.and_eq_true, decide_eq_true_eq] at h
    exact ⟨h.1, h.2⟩
  have hn : c.toNat.toUInt8.toNat = c.toNat := by
    simp only [Nat.toUInt8, UInt8.toNat_ofNat']
    omega
  refine ⟨?_, hn⟩
  simp only [isdigit, Bool.and_eq_true, decide_eq_true_eq, UInt8.le_iff_toNat_le, hn]
  exact hc

theorem isdigit_iff {b : UInt8} : isdigit b = true ↔ 48 ≤ b.toNat ∧ b.toNat ≤ 57 := by
  simp only [isdigit, Bool.and_eq_true, decide_eq_true_eq, UInt8.le_iff_toNat_le]
  exact Iff.rfl

theorem digitsValue_map {cs : List Char} (h : ∀ c ∈ cs, c.isDigit = true) (v : Nat) :
    (cs.map fun c => c.toNat.toUInt8).foldl (fun v b => 10 * v + (b.toNat - 48)) v =
      Nat.ofDigitChars 10 cs v := by
  induction cs generalizing v with
  | nil => simp
  | cons c cs ih =>
    have hc := (toUInt8_digit (h c List.mem_cons_self)).2
    rw [List.map_cons, List.foldl_cons, hc, Nat.ofDigitChars_cons,
      ih fun c' hc' => h c' (List.mem_cons_of_mem _ hc')]
    rfl

/-- The text of a number is a decimal text of it. -/
theorem isDecimal_natText (n : Nat) : IsDecimal (natText n) n where
  ne_nil := by simp [natText]
  digits := by
    intro b hb
    obtain ⟨c, hc, rfl⟩ := List.mem_map.mp hb
    exact (toUInt8_digit (Nat.isDigit_of_mem_toDigits (by decide) (by decide) hc)).1
  value := by
    have hd : ∀ c ∈ Nat.toDigits 10 n, c.isDigit = true := fun c hc =>
      Nat.isDigit_of_mem_toDigits (by decide) (by decide) hc
    exact (digitsValue_map hd 0).trans Nat.ofDigitChars_ten_toDigits

theorem natText_injective {n m : Nat} (h : natText n = natText m) : n = m := by
  rw [← (isDecimal_natText n).value, h, (isDecimal_natText m).value]

theorem natText_length_le_iff {n k : Nat} (hk : 0 < k) :
    (natText n).length ≤ k ↔ n < 10 ^ k := by
  simp only [natText, List.length_map]
  exact Nat.length_toDigits_le_iff (by decide) hk

/-! ## Reading back -/

theorem signOf_digits {ds : Bytes} (h : ∀ b ∈ ds, isdigit b = true) : signOf ds = (false, ds) := by
  cases ds with
  | nil => rfl
  | cons b ds =>
    have hb := isdigit_iff.mp (h b List.mem_cons_self)
    have h45 : b ≠ 45 := by rintro rfl; exact absurd hb.1 (by decide)
    have h43 : b ≠ 43 := by rintro rfl; exact absurd hb.1 (by decide)
    unfold signOf
    split
    · next heq => exact absurd (List.cons.inj heq).1 h45
    · next heq => exact absurd (List.cons.inj heq).1 h43
    · rfl

theorem dropWhile_isspace_digits {ds : Bytes} (h : ∀ b ∈ ds, isdigit b = true) :
    ds.dropWhile isspace = ds := by
  cases ds with
  | nil => rfl
  | cons b ds =>
    have hb := isdigit_iff.mp (h b List.mem_cons_self)
    have hs : isspace b = false := by
      rw [Bool.eq_false_iff]
      intro hs
      simp only [isspace, Bool.or_eq_true, beq_iff_eq, Bool.and_eq_true, decide_eq_true_eq,
        UInt8.le_iff_toNat_le] at hs
      rcases hs with rfl | ⟨_, h13⟩
      · exact absurd hb.1 (by decide)
      · have : b.toNat ≤ 13 := h13
        omega
    simp [hs]

theorem IsDecimal.strto_eq {ds : Bytes} {n : Nat} (h : IsDecimal ds n) :
    strto ds = some (n : Int) := by
  have htake : ds.takeWhile isdigit = ds := List.takeWhile_eq_self_iff.mpr h.digits
  simp only [strto, dropWhile_isspace_digits h.digits, signOf_digits h.digits, htake, h.ne_nil,
    h.value, if_false, Bool.false_eq_true]

theorem strto_natText (n : Nat) : strto (natText n) = some (n : Int) :=
  (isDecimal_natText n).strto_eq

/-- Reading back the text of a number gives the number. -/
theorem strto_intText (z : Int) : strto (intText z) = some z := by
  unfold intText
  split
  · next hz =>
    have hd := isDecimal_natText z.natAbs
    have htake : (natText z.natAbs).takeWhile isdigit = natText z.natAbs :=
      List.takeWhile_eq_self_iff.mpr hd.digits
    have hsp : (45 :: natText z.natAbs).dropWhile isspace = 45 :: natText z.natAbs := by
      simp [isspace]
    simp only [strto, hsp, signOf, htake, hd.ne_nil, hd.value, if_false, if_true,
      Option.some.injEq]
    omega
  · next hz =>
    rw [strto_natText, Option.some.injEq]
    omega

/-- Every byte of a number's text is a digit or the sign. -/
theorem mem_intText {z : Int} {b : UInt8} (h : b ∈ intText z) : b = 45 ∨ isdigit b = true := by
  unfold intText at h
  split at h
  · rcases List.mem_cons.mp h with rfl | hb
    · exact .inl rfl
    · exact .inr ((isDecimal_natText _).digits b hb)
  · exact .inr ((isDecimal_natText _).digits b h)

theorem length_intText_le {z : Int} (hlo : -2 ^ 31 ≤ z) (hhi : z < 2 ^ 31) :
    (intText z).length ≤ 11 := by
  have hdigits : (natText z.natAbs).length ≤ 10 :=
    (natText_length_le_iff (by decide)).mpr (by omega)
  unfold intText
  split
  · rw [List.length_cons]
    omega
  · omega

theorem intText_natCast (n : Nat) : intText n = natText n := by
  rw [intText, if_neg (by omega), Int.natAbs_natCast]

theorem intText_injective {y z : Int} (h : intText y = intText z) : y = z :=
  Option.some.inj ((strto_intText y).symm.trans (h ▸ strto_intText z))

theorem IsDecimal.stoll_eq {ds : Bytes} {n : Nat} (h : IsDecimal ds n) :
    stoll ds = if n < 2 ^ 63 then .ok (n : Int) else .error .out_of_range := by
  simp only [stoll, sto, h.strto_eq]
  split <;> split <;> first | rfl | omega

theorem IsDecimal.stoi_eq {ds : Bytes} {n : Nat} (h : IsDecimal ds n) :
    stoi ds = if n < 2 ^ 31 then .ok (n : Int) else .error .out_of_range := by
  simp only [stoi, sto, h.strto_eq]
  split <;> split <;> first | rfl | omega

/-- The `std::sto…` functions return what is read if it fits their type. -/
theorem sto_eq_ok {w : Nat} {s : Bytes} {v : Int} :
    sto w s = .ok v ↔ strto s = some v ∧ -(2 : Int) ^ (w - 1) ≤ v ∧ v < (2 : Int) ^ (w - 1) := by
  unfold sto
  split
  · next hnone => simp [hnone]
  · next u hu =>
    rw [hu]
    split
    · next hfits =>
      constructor
      · rintro ⟨⟩
        exact ⟨rfl, hfits⟩
      · rintro ⟨⟨⟩, -⟩
        rfl
    · next hno =>
      refine ⟨nofun, ?_⟩
      rintro ⟨⟨⟩, hfits⟩
      exact absurd hfits hno

theorem stoi_eq_ok {s : Bytes} {v : Int} :
    stoi s = .ok v ↔ strto s = some v ∧ -2 ^ 31 ≤ v ∧ v < 2 ^ 31 :=
  sto_eq_ok

theorem stoll_bounds {s : Bytes} {v : Int} (h : stoll s = .ok v) : -2 ^ 63 ≤ v ∧ v < 2 ^ 63 :=
  (sto_eq_ok.mp h).2

/-! ## Integer conversions -/

/-- `static_cast<int>` of a wider integer. -/
def castInt (z : Int) : Int := Int.bmod z (2 ^ 32)

/-- `static_cast<size_t>` of a signed integer. -/
def castSize (z : Int) : Nat := (z % 2 ^ 64).toNat

theorem castInt_add_castInt (z i : Int) : castInt (castInt z + i) = castInt (z + i) :=
  Int.bmod_add_bmod

theorem castInt_eq {z : Int} (h : -2 ^ 31 ≤ z) (h' : z < 2 ^ 31) : castInt z = z := by
  simp only [castInt, Int.bmod]
  split <;> omega

/-- An `int` made of a length from `2 ^ 31` on is negative or far too small. -/
theorem castInt_lt {n : Nat} (h : 2 ^ 31 ≤ n) : castInt n < 0 ∨ (castInt n).toNat + 2 ^ 32 ≤ n := by
  simp only [castInt, Int.bmod]
  split <;> omega

/-- A negative number becomes a length that nothing has. -/
theorem castSize_negative {z : Int} (h : -2 ^ 63 ≤ z) (h' : z < 0) : 2 ^ 63 ≤ castSize z := by
  unfold castSize
  omega

theorem castSize_natCast {n : Nat} (h : n < 2 ^ 64) : castSize n = n := by
  unfold castSize
  omega

end CString
