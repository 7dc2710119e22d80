import Mymuduo.Lib.CString

/-!
# CRLF-terminated lines

`findCRLF u` is the offset of the first CR LF of `u`, and `cutLine u` splits `u` there into the
line before it and what follows. A reader that waits for whole lines rests on two facts: what has
been found stays where it is when more bytes arrive (`cutLine_append`), and a line that was written
without a line feed is read back whole (`cutLine_line`). `cutByte` is the same for one byte.
-/

namespace Lines

open CString

def CR : UInt8 := 13
def LF : UInt8 := 10

/-- The line terminator. -/
def crlf : Bytes := [CR, LF]

/-- The offset of the first CR LF, as `std::search` finds it. -/
def findCRLF : Bytes → Option Nat
  | a :: b :: rest =>
    if a = CR ∧ b = LF then some 0 else (findCRLF (b :: rest)).map (· + 1)
  | _ => none

/-- The first line and what follows its terminator. -/
def cutLine (u : Bytes) : Option (Bytes × Bytes) :=
  (findCRLF u).map fun i => (u.take i, u.drop (i + 2))

/-- What stands before and after the first `b`, as `std::find` splits a range. -/
def cutByte (b : UInt8) : Bytes → Option (Bytes × Bytes)
  | [] => none
  | a :: t => if a = b then some ([], t) else (cutByte b t).map fun p => (a :: p.1, p.2)

/-! ## Finding the terminator -/

theorem findCRLF_eq_some {u : Bytes} {i : Nat} (h : findCRLF u = some i) :
    u = u.take i ++ crlf ++ u.drop (i + 2) ∧ i + 2 ≤ u.length := by
  induction u generalizing i with
  | nil => simp [findCRLF] at h
  | cons a t ih =>
    cases t with
    | nil => simp [findCRLF] at h
    | cons b rest =>
      rw [findCRLF] at h
      split at h
      · next hab =>
        cases h
        obtain ⟨rfl, rfl⟩ := hab
        simp [crlf]
      · obtain ⟨j, hj, rfl⟩ := Option.map_eq_some_iff.mp h
        obtain ⟨heq, hle⟩ := ih hj
        refine ⟨?_, by simpa using hle⟩
        simpa using heq

/-- What was found stays the first terminator when bytes are added behind. -/
theorem findCRLF_append {u : Bytes} {i : Nat} (h : findCRLF u = some i) (v : Bytes) :
    findCRLF (u ++ v) = some i := by
  induction u generalizing i with
  | nil => simp [findCRLF] at h
  | cons a t ih =>
    cases t with
    | nil => simp [findCRLF] at h
    | cons b rest =>
      rw [findCRLF] at h
      simp only [List.cons_append]
      rw [findCRLF]
      split at h
      · next hab => rw [if_pos hab]; exact h
      · next hab =>
        obtain ⟨j, hj, rfl⟩ := Option.map_eq_some_iff.mp h
        have hnext := ih hj
        simp only [List.cons_append] at hnext
        rw [if_neg hab, hnext]
        rfl

theorem findCRLF_line {l : Bytes} (h : LF ∉ l) (r : Bytes) :
    findCRLF (l ++ crlf ++ r) = some l.length := by
  induction l with
  | nil => simp [crlf, findCRLF]
  | cons a t ih =>
    have ht : LF ∉ t := fun hm => h (List.mem_cons_of_mem _ hm)
    have hnext := ih ht
    cases t with
    | nil =>
      have hcr : ¬ (CR = LF) := by decide
      simp only [crlf, List.nil_append, List.cons_append] at hnext ⊢
      rw [findCRLF, if_neg fun hab => hcr hab.2, hnext]
      rfl
    | cons b rest =>
      have hb : b ≠ LF := fun hb => h (by simp [hb])
      simp only [List.cons_append] at hnext ⊢
      rw [findCRLF, if_neg fun hab => hb hab.2, hnext]
      rfl

/-! ## Cutting lines -/

theorem cutLine_eq_some {u l r : Bytes} (h : cutLine u = some (l, r)) : u = l ++ crlf ++ r := by
  obtain ⟨i, hi, heq⟩ := Option.map_eq_some_iff.mp h
  cases heq
  exact (findCRLF_eq_some hi).1

/-- A line that was cut off holds no terminator. -/
theorem findCRLF_take {u : Bytes} {i : Nat} (h : findCRLF u = some i) :
    findCRLF (u.take i) = none := by
  induction u generalizing i with
  | nil => simp [findCRLF] at h
  | cons a t ih =>
    cases t with
    | nil => simp [findCRLF] at h
    | cons b rest =>
      rw [findCRLF] at h
      split at h
      · cases h
        rfl
      · next hab =>
        obtain ⟨j, hj, rfl⟩ := Option.map_eq_some_iff.mp h
        cases j with
        | zero => simp [findCRLF]
        | succ j =>
          have hnext := ih hj
          rw [List.take_succ_cons] at hnext ⊢
          rw [List.take_succ_cons, findCRLF, if_neg hab, hnext]
          rfl

theorem findCRLF_cutLine {u l r : Bytes} (h : cutLine u = some (l, r)) : findCRLF l = none := by
  obtain ⟨i, hi, heq⟩ := Option.map_eq_some_iff.mp h
  cases heq
  exact findCRLF_take hi

theorem length_lt_of_cutLine {u l r : Bytes} (h : cutLine u = some (l, r)) :
    r.length < u.length := by
  rw [cutLine_eq_some h]
  simp [crlf]
  omega

theorem cutLine_append {u l r : Bytes} (h : cutLine u = some (l, r)) (v : Bytes) :
    cutLine (u ++ v) = some (l, r ++ v) := by
  obtain ⟨i, hi, heq⟩ := Option.map_eq_some_iff.mp h
  cases heq
  obtain ⟨_, hle⟩ := findCRLF_eq_some hi
  simp only [cutLine, findCRLF_append hi v, Option.map_some, Option.some.injEq, Prod.mk.injEq]
  exact ⟨List.take_append_of_le_length (by omega), List.drop_append_of_le_length hle⟩

theorem cutLine_line {l : Bytes} (h : LF ∉ l) (r : Bytes) :
    cutLine (l ++ crlf ++ r) = some (l, r) := by
  simp only [cutLine, findCRLF_line h, Option.map_some, Option.some.injEq, Prod.mk.injEq]
  constructor <;> simp [crlf]

/-! ## All lines -/

/-- The terminated lines of `u`, in order. -/
def lines (u : Bytes) : List Bytes :=
  match _h : cutLine u with
  | none => []
  | some (l, r) => l :: lines r
termination_by u.length
decreasing_by
  exact length_lt_of_cutLine _h

theorem lines_of_none {u : Bytes} (h : cutLine u = none) : lines u = [] := by
  unfold lines
  split
  · rfl
  · next heq => rw [h] at heq; cases heq

theorem lines_of_some {u l r : Bytes} (h : cutLine u = some (l, r)) : lines u = l :: lines r := by
  rw [lines]
  split
  · next heq => rw [h] at heq; cases heq
  · next heq => rw [h] at heq; cases heq; rfl

/-- Bytes added behind leave the lines that are there. -/
theorem lines_append (u v : Bytes) : ∃ ls, lines (u ++ v) = lines u ++ ls := by
  induction u using lines.induct with
  | case1 u h => exact ⟨lines (u ++ v), by rw [lines_of_none h]; rfl⟩
  | case2 u l r h ih =>
    obtain ⟨ls, hls⟩ := ih
    exact ⟨ls, by rw [lines_of_some h, lines_of_some (cutLine_append h v), hls]; rfl⟩

/-! ## Cutting at a byte -/

theorem cutByte_eq_none {b : UInt8} {s : Bytes} : cutByte b s = none ↔ b ∉ s := by
  induction s with
  | nil => simp [cutByte]
  | cons a t ih =>
    by_cases hab : a = b
    · simp [cutByte, hab]
    · simp [cutByte, hab, ih, Ne.symm hab]

theorem cutByte_append {b : UInt8} {l : Bytes} (h : b ∉ l) (r : Bytes) :
    cutByte b (l ++ b :: r) = some (l, r) := by
  induction l with
  | nil => simp [cutByte]
  | cons a t ih =>
    have hab : a ≠ b := fun hab => h (by simp [hab])
    have ht : b ∉ t := fun ht => h (List.mem_cons_of_mem _ ht)
    simp [cutByte, hab, ih ht]

theorem cutByte_eq_some {b : UInt8} {s l r : Bytes} (h : cutByte b s = some (l, r)) :
    s = l ++ b :: r ∧ b ∉ l := by
  induction s generalizing l with
  | nil => simp [cutByte] at h
  | cons a t ih =>
    rw [cutByte] at h
    split at h
    · next hab =>
      cases h
      simp [hab]
    · next hab =>
      obtain ⟨⟨l', r'⟩, hp, heq⟩ := Option.map_eq_some_iff.mp h
      cases heq
      obtain ⟨rfl, hl⟩ := ih hp
      exact ⟨rfl, by simp [Ne.symm hab, hl]⟩

end Lines
