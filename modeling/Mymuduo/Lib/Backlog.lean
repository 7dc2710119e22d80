import Mathlib

/-!
# A backlog with one service per arrival

A stream is a concatenation of messages, of which only the sizes matter here, and it arrives in
pieces. After each piece a server takes the first message off, if it is there in full, and never
more than this one. `backlog` is what such a server is left with.

`backlog_eq_nil_iff` says when it keeps up: the messages that the pieces up to a point do not
complete, or the server had no time for, must not outnumber the pieces that are still to come.
-/

namespace Backlog

/-- How many messages the first `n` bytes complete. -/
def completed : List Nat → Nat → Nat
  | [], _ => 0
  | size :: sizes, n => if size ≤ n then completed sizes (n - size) + 1 else 0

/-- The messages that are left after the pieces, when `n` bytes were there before them. -/
def backlog : List Nat → Nat → List Nat → List Nat
  | sizes, _, [] => sizes
  | [], _, _ :: _ => []
  | size :: sizes, n, piece :: pieces =>
    if size ≤ n + piece then backlog sizes (n + piece - size) pieces
    else backlog (size :: sizes) (n + piece) pieces

/-- At most as many messages wait at any point as pieces are still to come. -/
def KeepsUp (sizes : List Nat) (n : Nat) (pieces : List Nat) : Prop :=
  sizes.length ≤ pieces.length ∧
    ∀ pre post, pieces = pre ++ post → pre ≠ [] →
      sizes.length ≤ completed sizes (n + pre.sum) + post.length

/-- Nothing waits when there is nothing. -/
@[simp] theorem backlog_nil (n : Nat) (pieces : List Nat) : backlog [] n pieces = [] := by
  cases pieces with
  | nil => rfl
  | cons piece pieces => rfl

theorem completed_of_le {size n : Nat} (h : size ≤ n) (sizes : List Nat) :
    completed (size :: sizes) n = completed sizes (n - size) + 1 := if_pos h

theorem completed_of_lt {size n : Nat} (h : n < size) (sizes : List Nat) :
    completed (size :: sizes) n = 0 := if_neg (Nat.not_le.mpr h)

/-- A piece that completes the first message takes it off both sides. -/
theorem keepsUp_take {size n piece : Nat} (h : size ≤ n + piece) (sizes pieces : List Nat) :
    KeepsUp (size :: sizes) n (piece :: pieces) ↔ KeepsUp sizes (n + piece - size) pieces := by
  have hcompleted : ∀ m, completed (size :: sizes) (n + (piece + m)) =
      completed sizes (n + piece - size + m) + 1 := by
    intro m
    rw [completed_of_le (by omega)]
    congr 2
    omega
  constructor
  · rintro ⟨hlen, hrest⟩
    refine ⟨by simpa using hlen, ?_⟩
    intro pre post heq hne
    have hpost := hrest (piece :: pre) post (by rw [heq]; rfl) (by simp)
    rw [List.sum_cons, hcompleted, List.length_cons] at hpost
    omega
  · rintro ⟨hlen, hrest⟩
    refine ⟨by simpa using hlen, ?_⟩
    intro pre post heq hne
    obtain ⟨first, pre, rfl⟩ := List.exists_cons_of_ne_nil hne
    obtain ⟨rfl, rfl⟩ := List.cons.inj heq
    rw [List.sum_cons, hcompleted, List.length_cons]
    rcases eq_or_ne pre [] with rfl | hpre
    · have hlen : sizes.length ≤ post.length := hlen
      omega
    · have hpost := hrest pre post rfl hpre
      omega

/-- A piece that completes nothing is one less to come. -/
theorem keepsUp_wait {size n piece : Nat} (h : n + piece < size) (sizes pieces : List Nat) :
    KeepsUp (size :: sizes) n (piece :: pieces) ↔ KeepsUp (size :: sizes) (n + piece) pieces := by
  constructor
  · rintro ⟨-, hrest⟩
    have hlen := hrest [piece] pieces rfl (by simp)
    rw [List.sum_singleton, completed_of_lt h, Nat.zero_add] at hlen
    refine ⟨hlen, ?_⟩
    intro pre post heq hne
    have hpost := hrest (piece :: pre) post (by rw [heq]; rfl) (by simp)
    rwa [List.sum_cons, ← Nat.add_assoc] at hpost
  · rintro ⟨hlen, hrest⟩
    refine ⟨Nat.le_succ_of_le hlen, ?_⟩
    intro pre post heq hne
    obtain ⟨first, pre, rfl⟩ := List.exists_cons_of_ne_nil hne
    obtain ⟨rfl, rfl⟩ := List.cons.inj heq
    rcases eq_or_ne pre [] with rfl | hpre
    · rw [List.sum_singleton, completed_of_lt h, Nat.zero_add]
      exact hlen
    · have hpost := hrest pre post rfl hpre
      rwa [List.sum_cons, ← Nat.add_assoc]

theorem keepsUp_nil (n : Nat) (pieces : List Nat) : KeepsUp [] n pieces :=
  ⟨Nat.zero_le _, fun _ _ _ _ => Nat.zero_le _⟩

/-- The server is left with nothing exactly when it keeps up. -/
theorem backlog_eq_nil_iff (sizes : List Nat) (n : Nat) (pieces : List Nat) :
    backlog sizes n pieces = [] ↔ KeepsUp sizes n pieces := by
  induction pieces generalizing sizes n with
  | nil =>
    constructor
    · intro h
      rw [backlog] at h
      exact h ▸ keepsUp_nil n []
    · intro h
      simpa [backlog] using h.1
  | cons piece pieces ih =>
    cases sizes with
    | nil => simpa [backlog] using keepsUp_nil n (piece :: pieces)
    | cons size sizes =>
      unfold backlog
      split
      · next h => rw [ih, keepsUp_take h]
      · next h => rw [ih, keepsUp_wait (Nat.not_le.mp h)]

/-- From an empty start, the whole condition is about all splits of the pieces. -/
theorem keepsUp_zero_iff {sizes : List Nat} (hpos : ∀ size ∈ sizes, 0 < size) (pieces : List Nat) :
    KeepsUp sizes 0 pieces ↔
      ∀ pre post, pieces = pre ++ post →
        sizes.length ≤ completed sizes pre.sum + post.length := by
  have hzero : completed sizes 0 = 0 := by
    cases sizes with
    | nil => rfl
    | cons size sizes => exact completed_of_lt (hpos size List.mem_cons_self) sizes
  constructor
  · rintro ⟨hlen, hrest⟩ pre post heq
    rcases eq_or_ne pre [] with rfl | hne
    · obtain rfl : pieces = post := heq
      rw [List.sum_nil, hzero, Nat.zero_add]
      exact hlen
    · simpa using hrest pre post heq hne
  · intro h
    refine ⟨?_, fun pre post heq _ => by simpa using h pre post heq⟩
    have hall := h [] pieces rfl
    rwa [List.sum_nil, hzero, Nat.zero_add] at hall

end Backlog
