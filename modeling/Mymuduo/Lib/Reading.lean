import Mathlib.Data.List.Basic

/-!
# Reading records

A function that reads takes symbols from the front of what is left, may change the data it fills,
and may fail; what it did until then remains. `Gives x s p a s₁` says when `x` succeeds in the state
`s`, and with what; `IsRecord x k f` that `x` reads `k` symbols and nothing else, and makes `f` of
them.

* `Gives.bind`: one function after the other.
* `IsRecord.bind`, `IsRecord.table`, `IsRecord.fill`: records one after the other, a loop that
  collects them, and one that puts them into the data.
* `Keeps.bind`, `Keeps.loop`: what is the same after a function as before, failed or not.
* `Keeps.bind_fails`: what is the same after it if it failed.
-/

/-- What is left to read, and what was made of what was read. -/
structure Cursor (β δ : Type) where
  rest : List β
  data : δ

/-- A function that reads. -/
abbrev Reading (ε β δ α : Type) := EStateM ε (Cursor β δ) α

variable {ε β δ α γ κ : Type}

namespace Reading

/-- The next `n` symbols, or what there is of them. -/
def next (n : Nat) : Reading ε β δ (List β) := fun s =>
  .ok (s.rest.take n) { s with rest := s.rest.drop n }

/-- The data so far. -/
def filled : Reading ε β δ δ := fun s => .ok s.data s

def update (f : δ → δ) : Reading ε β δ Unit := fun s => .ok () { s with data := f s.data }

/-- The loop over `i < n`. -/
def loop (body : Nat → α → Reading ε β δ α) : Nat → α → Reading ε β δ α
  | 0, a => pure a
  | n + 1, a => loop body n a >>= body n

/-! ## Success -/

/-- In the state `s`, `x` succeeds exactly if `p`, with `a` in the state `s₁`. -/
def Gives (x : Reading ε β δ α) (s : Cursor β δ) (p : Prop) (a : α) (s₁ : Cursor β δ) : Prop :=
  ∀ b s', x s = .ok b s' ↔ p ∧ b = a ∧ s' = s₁

namespace Gives

variable {x : Reading ε β δ α} {s s₁ s₂ : Cursor β δ} {p q : Prop} {a b : α}

theorem pure (a : α) (s : Cursor β δ) : Gives (pure a : Reading ε β δ α) s True a s := by
  intro b s'
  show EStateM.Result.ok a s = .ok b s' ↔ _
  constructor
  · rintro ⟨⟩
    exact ⟨trivial, rfl, rfl⟩
  · rintro ⟨_, rfl, rfl⟩
    rfl

theorem throw (e : ε) (a : α) (s s₁ : Cursor β δ) :
    Gives (throw e : Reading ε β δ α) s False a s₁ :=
  fun _ _ => ⟨nofun, fun h => h.1.elim⟩

theorem next (n : Nat) (s : Cursor β δ) : Gives (next n : Reading ε β δ (List β)) s True
    (s.rest.take n) { s with rest := s.rest.drop n } :=
  pure (s.rest.take n) { s with rest := s.rest.drop n }

theorem filled (s : Cursor β δ) : Gives (filled : Reading ε β δ δ) s True s.data s :=
  pure s.data s

theorem update (f : δ → δ) (s : Cursor β δ) :
    Gives (update f : Reading ε β δ Unit) s True () { s with data := f s.data } :=
  pure () { s with data := f s.data }

/-- A test, and an error where it fails. -/
theorem check [Decidable p] (hx : p → Gives x s q a s₁) (e : ε) :
    Gives (if p then x else MonadExcept.throw e) s (p ∧ q) a s₁ := by
  intro b s'
  by_cases h : p
  · rw [if_pos h, hx h b s', and_iff_right h]
  · rw [if_neg h]
    exact ⟨nofun, fun hall => absurd hall.1.1 h⟩

theorem bind {g : α → Reading ε β δ γ} {c : γ} (hx : Gives x s p a s₁)
    (hg : Gives (g a) s₁ q c s₂) : Gives (x >>= g) s (p ∧ q) c s₂ := by
  intro d s'
  show EStateM.bind x g s = .ok d s' ↔ _
  unfold EStateM.bind
  cases h : x s with
  | ok b s₃ =>
    obtain ⟨hp, rfl, rfl⟩ := (hx b s₃).mp h
    exact (hg d s').trans (and_congr_left fun _ => (and_iff_right hp).symm)
  | error e s₃ =>
    refine ⟨nofun, fun hall => ?_⟩
    have hok := (hx a s₁).mpr ⟨hall.1.1, rfl, rfl⟩
    rw [h] at hok
    cases hok

theorem congr (h : Gives x s p a s₁) (hpq : p ↔ q) (hab : p → a = b ∧ s₁ = s₂) :
    Gives x s q b s₂ := by
  intro c s'
  rw [h c s', ← hpq]
  refine and_congr_right fun hp => ?_
  obtain ⟨rfl, rfl⟩ := hab hp
  exact Iff.rfl

end Gives

/-! ## Records -/

/-- `x` reads `k` symbols, of which it makes `f`. -/
def IsRecord (x : Reading ε β δ α) (k : Nat) (f : List β → α) : Prop :=
  ∀ s, Gives x s (k ≤ s.rest.length) (f s.rest) { s with rest := s.rest.drop k }

/-- The `n` records of `k` symbols. -/
def records (f : List β → α) (k n : Nat) (bs : List β) : List α :=
  (List.range n).map fun i => f (bs.drop (k * i))

theorem records_succ (f : List β → α) (k n : Nat) (bs : List β) :
    records f k (n + 1) bs = records f k n bs ++ [f (bs.drop (k * n))] := by
  rw [records, List.range_succ, List.map_append]
  rfl

/-- As many symbols for what comes second as are left of those for both. -/
theorem room_append (bs : List β) (k m : Nat) :
    k ≤ bs.length ∧ m ≤ (bs.drop k).length ↔ k + m ≤ bs.length := by
  rw [List.length_drop]
  omega

namespace IsRecord

variable {x : Reading ε β δ α} {k m : Nat} {f : List β → α}

theorem pure (a : α) : IsRecord (pure a : Reading ε β δ α) 0 fun _ => a := fun s =>
  (Gives.pure a s).congr (iff_of_true trivial (Nat.zero_le _)) fun _ => ⟨rfl, rfl⟩

theorem bind (hx : IsRecord x k f) {g : α → Reading ε β δ γ} {h : α → List β → γ}
    (hg : ∀ a, IsRecord (g a) m (h a)) :
    IsRecord (x >>= g) (k + m) fun bs => h (f bs) (bs.drop k) := fun s =>
  ((hx s).bind (hg (f s.rest) _)).congr (room_append s.rest k m)
    fun _ => ⟨rfl, by rw [List.drop_drop]⟩

/-- The same of what is read, in other words. -/
theorem congr {g : List β → α} (hx : IsRecord x k f) (hfg : ∀ bs, k ≤ bs.length → f bs = g bs) :
    IsRecord x k g := fun s =>
  (hx s).congr Iff.rfl fun hk => ⟨hfg s.rest hk, rfl⟩

/-- A loop that collects records. -/
theorem table (hx : IsRecord x k f) (n : Nat) :
    IsRecord (loop (fun _ as => x >>= fun a => Pure.pure (as ++ [a])) n []) (k * n)
      (records f k n) := by
  induction n with
  | zero => exact IsRecord.pure []
  | succ n ih =>
    have hbody : ∀ as, IsRecord (x >>= fun a => (Pure.pure (as ++ [a]) : Reading ε β δ (List α)))
        (k + 0) fun bs => as ++ [f bs] := fun as => hx.bind fun a => IsRecord.pure (as ++ [a])
    have hloop := ih.bind hbody
    simp only [← records_succ] at hloop
    exact hloop

/-- A loop that puts records into the data. -/
theorem fill (hx : IsRecord x k f) (put : α → δ → δ) (n : Nat) (s : Cursor β δ) :
    Gives (loop (fun _ _ => x >>= fun a => Reading.update (put a)) n ()) s
      (k * n ≤ s.rest.length) ()
      ⟨s.rest.drop (k * n), (records f k n s.rest).foldl (fun d a => put a d) s.data⟩ := by
  induction n with
  | zero => exact (Gives.pure () s).congr (iff_of_true trivial (Nat.zero_le _)) fun _ => ⟨rfl, rfl⟩
  | succ n ih =>
    refine (ih.bind ((hx _).bind (Gives.update (put _) _))).congr ?_ fun _ => ⟨rfl, ?_⟩
    · rw [and_true]
      exact room_append s.rest (k * n) k
    · rw [records_succ, List.foldl_append, List.drop_drop]
      rfl

end IsRecord

/-! ## What stays the same -/

/-- The state in which a function ends. -/
def final : EStateM.Result ε (Cursor β δ) α → Cursor β δ
  | .ok _ s => s
  | .error _ s => s

/-- Whatever comes of `x`, `f` of the data is as before. -/
def Keeps (f : δ → κ) (x : Reading ε β δ α) : Prop := ∀ s, f (final (x s)).data = f s.data

namespace Keeps

variable {f : δ → κ}

theorem pure (a : α) : Keeps f (pure a : Reading ε β δ α) := fun _ => rfl

theorem throw (e : ε) : Keeps f (throw e : Reading ε β δ α) := fun _ => rfl

theorem next (n : Nat) : Keeps f (next n : Reading ε β δ (List β)) := fun _ => rfl

theorem filled : Keeps f (filled : Reading ε β δ δ) := fun _ => rfl

theorem update {g : δ → δ} (hg : ∀ d, f (g d) = f d) :
    Keeps f (update g : Reading ε β δ Unit) := fun s => hg s.data

theorem ite {p : Prop} [Decidable p] {x y : Reading ε β δ α} (hx : Keeps f x) (hy : Keeps f y) :
    Keeps f (if p then x else y) := by
  split
  · exact hx
  · exact hy

theorem bind {x : Reading ε β δ α} {g : α → Reading ε β δ γ} (hx : Keeps f x)
    (hg : ∀ a, Keeps f (g a)) : Keeps f (x >>= g) := fun s => by
  have hfirst := hx s
  show f (final (EStateM.bind x g s)).data = f s.data
  unfold EStateM.bind
  cases h : x s with
  | ok a s₁ =>
    rw [h] at hfirst
    exact (hg a s₁).trans hfirst
  | error e s₁ =>
    rw [h] at hfirst
    exact hfirst

theorem loop {body : Nat → α → Reading ε β δ α} (hbody : ∀ i a, Keeps f (body i a)) (n : Nat)
    (a : α) : Keeps f (loop body n a) := by
  induction n with
  | zero => exact pure a
  | succ n ih => exact ih.bind (hbody n)

end Keeps

/-- When `x` fails, `f` of the data is as before. -/
def FailsKeeping (f : δ → κ) (x : Reading ε β δ α) : Prop :=
  ∀ s e s', x s = .error e s' → f s'.data = f s.data

/-- What comes last may change the data, where it succeeds. -/
theorem Keeps.bind_fails {f : δ → κ} {x : Reading ε β δ α} {g : α → Reading ε β δ γ}
    (hx : Keeps f x) (hg : ∀ a, FailsKeeping f (g a)) : FailsKeeping f (x >>= g) := by
  intro s e s' h
  have hfirst := hx s
  change EStateM.bind x g s = .error e s' at h
  unfold EStateM.bind at h
  cases hs : x s with
  | ok a s₁ =>
    rw [hs] at h hfirst
    exact (hg a s₁ e s' h).trans hfirst
  | error e₁ s₁ =>
    rw [hs] at h hfirst
    cases h
    exact hfirst

end Reading
