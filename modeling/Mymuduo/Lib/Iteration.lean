import Mathlib.Data.List.Basic
import Mathlib.Algebra.Order.Group.Nat

/-!
# Loops that may not end

A `while` loop is given by its body: from a state, the body either goes round again with a new
state or leaves the loop with a result. `run body n s` executes at most `n` rounds, so a loop that
never leaves is `none` for every bound (`Diverges`), and one that leaves does so with one result
only (`Returns.unique`).

`diverges_of_run_eq_none` turns a bound on the rounds into a decision: when every round that goes
on lowers a measure or enters a state that goes round for ever, `measure + 1` rounds tell a loop
that leaves from one that does not.
-/

namespace Iteration

variable {σ ρ : Type*}

/-- What one round of a loop body does. -/
inductive Next (σ ρ : Type*)
  | again (s : σ)
  | exit (r : ρ)

/-- At most `n` rounds of the loop. -/
def run (body : σ → Next σ ρ) : Nat → σ → Option ρ
  | 0, _ => none
  | n + 1, s =>
    match body s with
    | .again s' => run body n s'
    | .exit r => some r

/-- The loop entered with `s` leaves with `r`. -/
def Returns (body : σ → Next σ ρ) (s : σ) (r : ρ) : Prop :=
  ∃ n, run body n s = some r

/-- The loop entered with `s` never leaves. -/
def Diverges (body : σ → Next σ ρ) (s : σ) : Prop :=
  ∀ n, run body n s = none

variable {body : σ → Next σ ρ}

theorem run_again {s s' : σ} (h : body s = .again s') (n : Nat) :
    run body (n + 1) s = run body n s' := by
  simp only [run, h]

theorem run_exit {s : σ} {r : ρ} (h : body s = .exit r) (n : Nat) :
    run body (n + 1) s = some r := by
  simp only [run, h]

theorem run_mono {n m : Nat} {s : σ} {r : ρ} (h : run body n s = some r) (hnm : n ≤ m) :
    run body m s = some r := by
  induction n generalizing s m with
  | zero => simp [run] at h
  | succ n ih =>
    cases m with
    | zero => omega
    | succ m =>
      cases hb : body s with
      | again s' =>
        rw [run_again hb] at h ⊢
        exact ih h (by omega)
      | exit r' =>
        rw [run_exit hb] at h ⊢
        exact h

/-- A loop leaves with at most one result. -/
theorem Returns.unique {s : σ} {r r' : ρ} (h : Returns body s r) (h' : Returns body s r') :
    r = r' := by
  obtain ⟨n, hn⟩ := h
  obtain ⟨m, hm⟩ := h'
  have hl := run_mono hn (Nat.le_max_left n m)
  have hr := run_mono hm (Nat.le_max_right n m)
  exact Option.some.inj (hl.symm.trans hr)

theorem Returns.of_exit {s : σ} {r : ρ} (h : body s = .exit r) : Returns body s r :=
  ⟨1, run_exit h 0⟩

theorem Returns.of_again {s s' : σ} {r : ρ} (h : body s = .again s') (hr : Returns body s' r) :
    Returns body s r := by
  obtain ⟨n, hn⟩ := hr
  exact ⟨n + 1, by rw [run_again h, hn]⟩

theorem diverges_of_again {s s' : σ} (h : body s = .again s') (hd : Diverges body s') :
    Diverges body s := by
  intro n
  cases n with
  | zero => rfl
  | succ n => rw [run_again h, hd n]

/-- A round that changes nothing and goes on is an endless loop. -/
theorem diverges_of_fixed {s : σ} (h : body s = .again s) : Diverges body s := by
  intro n
  induction n with
  | zero => rfl
  | succ n ih => rw [run_again h, ih]

/-- A bound that decides: if each round that goes on lowers `μ` or enters an endless loop, then
more rounds than `μ s` that do not leave mean that the loop never leaves. -/
theorem diverges_of_run_eq_none {μ : σ → Nat}
    (hμ : ∀ s s', body s = .again s' → μ s' < μ s ∨ Diverges body s')
    {n : Nat} {s : σ} (hn : μ s < n) (h : run body n s = none) : Diverges body s := by
  induction n generalizing s with
  | zero => omega
  | succ n ih =>
    cases hb : body s with
    | exit r => rw [run_exit hb] at h; cases h
    | again s' =>
      refine diverges_of_again hb ?_
      rcases hμ s s' hb with hlt | hd
      · exact ih (by omega) (by rwa [run_again hb] at h)
      · exact hd

/-- From `s` the loop goes round to `s'`. -/
inductive Goes (body : σ → Next σ ρ) : σ → σ → Prop
  | refl (s : σ) : Goes body s s
  | again {s s₁ s₂ : σ} (h : body s = .again s₁) (hgo : Goes body s₁ s₂) : Goes body s s₂

theorem Goes.returns {s s' : σ} {r : ρ} (h : Goes body s s') (hr : Returns body s' r) :
    Returns body s r := by
  induction h with
  | refl => exact hr
  | again hb _ ih => exact .of_again hb (ih hr)

theorem Goes.diverges {s s' : σ} (h : Goes body s s') (hd : Diverges body s') :
    Diverges body s := by
  induction h with
  | refl => exact hd
  | again hb _ ih => exact diverges_of_again hb (ih hd)

/-- A loop that leaves does so from a state that it has come to. -/
theorem Returns.goes {s : σ} {r : ρ} (h : Returns body s r) :
    ∃ s', Goes body s s' ∧ body s' = .exit r := by
  obtain ⟨n, hn⟩ := h
  induction n generalizing s with
  | zero => cases hn
  | succ n ih =>
    cases hb : body s with
    | again s' =>
      rw [run_again hb] at hn
      obtain ⟨s₁, hgo, hexit⟩ := ih hn
      exact ⟨s₁, .again hb hgo, hexit⟩
    | exit r' =>
      rw [run_exit hb] at hn
      cases hn
      exact ⟨s, .refl s, hb⟩

theorem Goes.trans {s₁ s₂ s₃ : σ} (h : Goes body s₁ s₂) (h' : Goes body s₂ s₃) :
    Goes body s₁ s₃ := by
  induction h with
  | refl => exact h'
  | again hb _ ih => exact .again hb (ih h')

/-- What every round keeps holds wherever the loop goes. -/
theorem Goes.invariant {I : σ → Prop} (hI : ∀ s s', I s → body s = .again s' → I s') {s s' : σ}
    (h : Goes body s s') (hs : I s) : I s' := by
  induction h with
  | refl => exact hs
  | again hb _ ih => exact ih (hI _ _ hs hb)

/-- A loop that has to leave at once goes nowhere. -/
theorem Goes.eq_of_exit {s s' : σ} {r : ρ} (h : Goes body s s') (hexit : body s = .exit r) :
    s' = s := by
  cases h with
  | refl => rfl
  | again hb _ => rw [hb] at hexit; cases hexit

/-- What every round keeps and every exit passes on holds of the result. -/
theorem Returns.invariant {I : σ → Prop} {Q : ρ → Prop}
    (hI : ∀ s s', I s → body s = .again s' → I s') (hQ : ∀ s r, I s → body s = .exit r → Q r)
    {s : σ} {r : ρ} (h : Returns body s r) (hs : I s) : Q r := by
  obtain ⟨n, hn⟩ := h
  induction n generalizing s with
  | zero => cases hn
  | succ n ih =>
    cases hb : body s with
    | again s' =>
      rw [run_again hb] at hn
      exact ih (hI s s' hs hb) hn
    | exit r' =>
      rw [run_exit hb] at hn
      cases hn
      exact hQ s r hs hb

/-- A loop that keeps `I` and lowers `μ` in every round it goes on returns. -/
theorem returns_of_invariant {I : σ → Prop} {μ : σ → Nat}
    (hround : ∀ s s', I s → body s = .again s' → I s' ∧ μ s' < μ s) {s : σ} (hs : I s) :
    ∃ r, Returns body s r := by
  induction h : μ s using Nat.strong_induction_on generalizing s with
  | _ n ih =>
    cases hb : body s with
    | exit r => exact ⟨r, .of_exit hb⟩
    | again s' =>
      obtain ⟨hs', hlt⟩ := hround s s' hs hb
      obtain ⟨r, hr⟩ := ih (μ s') (h ▸ hlt) hs' rfl
      exact ⟨r, .of_again hb hr⟩

/-- A loop that lowers `μ` in every round it goes on returns. -/
theorem returns_of_measure {μ : σ → Nat} (hμ : ∀ s s', body s = .again s' → μ s' < μ s) (s : σ) :
    ∃ r, Returns body s r :=
  returns_of_invariant (I := fun _ => True) (fun s s' _ hb => ⟨trivial, hμ s s' hb⟩) trivial

/-! ## Two loops in step -/

section Simulation

variable {σ' ρ' : Type*}

/-- Two rounds do the same, up to `R` on the states and `Q` on the results. -/
inductive InStep (R : σ → σ' → Prop) (Q : ρ → ρ' → Prop) : Next σ ρ → Next σ' ρ' → Prop
  | again {s : σ} {s' : σ'} (h : R s s') : InStep R Q (.again s) (.again s')
  | exit {r : ρ} {r' : ρ'} (h : Q r r') : InStep R Q (.exit r) (.exit r')

variable {body' : σ' → Next σ' ρ'} {R : σ → σ' → Prop} {Q : ρ → ρ' → Prop}

/-- When the rounds of two loops are in step, so are as many rounds of both. -/
theorem run_inStep (hstep : ∀ s s', R s s' → InStep R Q (body s) (body' s')) (n : Nat) {s : σ}
    {s' : σ'} (hR : R s s') : Option.Rel Q (run body n s) (run body' n s') := by
  induction n generalizing s s' with
  | zero => exact .none
  | succ n ih =>
    have hround := hstep s s' hR
    cases hb : body s with
    | again s₁ =>
      cases hb' : body' s' with
      | exit r' => rw [hb, hb'] at hround; cases hround
      | again s₁' =>
        rw [hb, hb'] at hround
        rw [run_again hb, run_again hb']
        cases hround with
        | again hR₁ => exact ih hR₁
    | exit r =>
      cases hb' : body' s' with
      | again s₁' => rw [hb, hb'] at hround; cases hround
      | exit r' =>
        rw [hb, hb'] at hround
        rw [run_exit hb, run_exit hb']
        cases hround with
        | exit hQ => exact .some hQ

/-- When the rounds of two loops are in step, so are their results. -/
theorem Returns.simulate (hstep : ∀ s s', R s s' → InStep R Q (body s) (body' s')) {s : σ}
    {s' : σ'} {r' : ρ'} (hR : R s s') (h : Returns body' s' r') :
    ∃ r, Returns body s r ∧ Q r r' := by
  obtain ⟨n, hn⟩ := h
  have hrun := run_inStep hstep n hR
  rw [hn] at hrun
  cases hr : run body n s with
  | none => rw [hr] at hrun; cases hrun
  | some r =>
    rw [hr] at hrun
    cases hrun with
    | some hQ => exact ⟨r, ⟨n, hr⟩, hQ⟩

end Simulation

end Iteration
