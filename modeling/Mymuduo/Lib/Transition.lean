import Mathlib.Data.List.Basic

/-!
# Runs of a step function

`run step s es` takes the events `es` in order from the state `s`. `Meets ok step s es` says that
every step of the run satisfies `ok` in the state it is taken from, and `collect out step s es` is
what the steps hand out along the way, so that a property of a run can speak of its whole history.

* `forall_prefix_iff`: what holds all along a run is a condition on its steps.
* `meets_iff`: conditions that agree under an invariant admit the same runs.
* `run_invariant`: what every admissible step preserves holds after the run.
* `length_le_of_measure`: admissible runs end where every admissible step makes a measure smaller.
* `run_invariant_iff`: where only the admissible steps preserve it, it holds in no other run.
* `run_of_not_meets`: where the other steps leave a mark that stays, it is there after other runs.
* `run_ledger`: the same for an invariant that relates the state to what was handed out so far.
* `run_simulation`: two step functions that stay related step by step stay so over a run.
* `run_simulation_iff`: where only the admissible steps keep them related, no other run does.
* `meets_simulation`: what the relation says of a step holds all along the second run.
* `run_takes`: what waits in a queue is taken once enough steps have taken from its front.
-/

namespace Transition

variable {σ α β : Type*}

/-- The state after the events `es`. -/
def run (step : σ → α → σ) (s : σ) (es : List α) : σ :=
  es.foldl step s

/-- Every step of the run satisfies `ok` in the state it starts from. -/
def Meets (ok : σ → α → Prop) (step : σ → α → σ) : σ → List α → Prop
  | _, [] => True
  | s, e :: es => ok s e ∧ Meets ok step (step s e) es

/-- What the steps of the run hand out, in order. -/
def collect (out : σ → α → List β) (step : σ → α → σ) : σ → List α → List β
  | _, [] => []
  | s, e :: es => out s e ++ collect out step (step s e) es

variable {step : σ → α → σ} {ok : σ → α → Prop}

@[simp] theorem run_nil (s : σ) : run step s [] = s := rfl

@[simp] theorem run_cons (s : σ) (e : α) (es : List α) :
    run step s (e :: es) = run step (step s e) es := rfl

@[simp] theorem run_append (s : σ) (es es' : List α) :
    run step s (es ++ es') = run step (run step s es) es' :=
  List.foldl_append

theorem meets_append {s : σ} {es es' : List α} :
    Meets ok step s (es ++ es') ↔ Meets ok step s es ∧ Meets ok step (run step s es) es' := by
  induction es generalizing s with
  | nil => simp [Meets]
  | cons e es ih => simp [Meets, ih, and_assoc]

theorem Meets.and {ok' : σ → α → Prop} {s : σ} {es : List α} (h : Meets ok step s es)
    (h' : Meets ok' step s es) : Meets (fun s e => ok s e ∧ ok' s e) step s es := by
  induction es generalizing s with
  | nil => trivial
  | cons e es ih => exact ⟨⟨h.1, h'.1⟩, ih h.2 h'.2⟩

theorem meets_and {ok' : σ → α → Prop} {s : σ} {es : List α} :
    Meets (fun s e => ok s e ∧ ok' s e) step s es ↔
      Meets ok step s es ∧ Meets ok' step s es := by
  refine ⟨fun h => ?_, fun h => h.1.and h.2⟩
  induction es generalizing s with
  | nil => exact ⟨trivial, trivial⟩
  | cons e es ih =>
    obtain ⟨hfirst, hrest⟩ := ih h.2
    exact ⟨⟨h.1.1, hfirst⟩, h.1.2, hrest⟩

/-- A condition on the events alone holds of a run when it holds of each event. -/
theorem meets_of_forall {p : α → Prop} {s : σ} {es : List α} (h : ∀ e ∈ es, p e) :
    Meets (fun _ e => p e) step s es := by
  induction es generalizing s with
  | nil => trivial
  | cons e es ih =>
    exact ⟨h e List.mem_cons_self, ih fun e' he => h e' (List.mem_cons_of_mem _ he)⟩

/-- A condition that every step satisfies is no condition. -/
theorem meets_of_always (h : ∀ s e, ok s e) {s : σ} {es : List α} : Meets ok step s es := by
  induction es generalizing s with
  | nil => trivial
  | cons e es ih => exact ⟨h s e, ih⟩

instance decidableMeets [∀ s e, Decidable (ok s e)] :
    (s : σ) → (es : List α) → Decidable (Meets ok step s es)
  | _, [] => instDecidableTrue
  | s, e :: es =>
    have := decidableMeets (step s e) es
    inferInstanceAs (Decidable (ok s e ∧ Meets ok step (step s e) es))

theorem run_ledger_from (out : σ → α → List β) {I : σ → List β → Prop}
    (hstep : ∀ s e acc, I s acc → ok s e → I (step s e) (acc ++ out s e))
    {s : σ} {acc : List β} {es : List α} (h : I s acc) (hok : Meets ok step s es) :
    I (run step s es) (acc ++ collect out step s es) := by
  induction es generalizing s acc with
  | nil => simpa [collect] using h
  | cons e es ih =>
    have hnext := ih (hstep s e acc h hok.1) hok.2
    simpa [collect, List.append_assoc] using hnext

theorem collect_append (out : σ → α → List β) (s : σ) (es es' : List α) :
    collect out step s (es ++ es') =
      collect out step s es ++ collect out step (run step s es) es' := by
  induction es generalizing s with
  | nil => rfl
  | cons e es ih => simp [collect, ih]

/-- An invariant that relates the state to what the run handed out so far. -/
theorem run_ledger (out : σ → α → List β) {I : σ → List β → Prop}
    (hstep : ∀ s e acc, I s acc → ok s e → I (step s e) (acc ++ out s e))
    {s : σ} {es : List α} (h : I s []) (hok : Meets ok step s es) :
    I (run step s es) (collect out step s es) :=
  run_ledger_from out hstep h hok

/-- What every admissible step preserves holds after every admissible run. -/
theorem run_invariant {I : σ → Prop} (hstep : ∀ s e, I s → ok s e → I (step s e))
    {s : σ} {es : List α} (h : I s) (hok : Meets ok step s es) : I (run step s es) :=
  run_ledger (fun _ _ => ([] : List Unit)) (I := fun s _ => I s) (fun s e _ => hstep s e) h hok

/-- Where every admissible step makes a measure smaller, admissible runs are that short. -/
theorem length_le_of_measure {I : σ → Prop} {μ : σ → Nat}
    (hstep : ∀ s e, I s → ok s e → I (step s e) ∧ μ (step s e) < μ s) {s : σ} {es : List α}
    (h : I s) (hok : Meets ok step s es) : es.length ≤ μ s := by
  induction es generalizing s with
  | nil => exact Nat.zero_le _
  | cons e es ih =>
    obtain ⟨hnext, hlt⟩ := hstep s e h hok.1
    exact Nat.lt_of_le_of_lt (ih hnext hok.2) hlt

/-- Two conditions that agree as long as an invariant holds are met by the same runs. -/
theorem meets_iff {ok' : σ → α → Prop} {I : σ → Prop} {p : α → Prop}
    (hstep : ∀ s e, I s → p e → (ok s e ↔ ok' s e))
    (hkeep : ∀ s e, I s → p e → ok' s e → I (step s e)) {s : σ} {es : List α} (h : I s)
    (hes : ∀ e ∈ es, p e) : Meets ok step s es ↔ Meets ok' step s es := by
  induction es generalizing s with
  | nil => exact Iff.rfl
  | cons e es ih =>
    have he := hes e List.mem_cons_self
    have hes' := fun e' he' => hes e' (List.mem_cons_of_mem e he')
    rw [Meets, Meets, hstep s e h he]
    exact and_congr_right fun hok => ih (hkeep s e h he hok) hes'

/-- What holds all along a run holds at its start and after each step. -/
theorem forall_prefix_iff {I : σ → Prop} {s : σ} {es : List α} :
    (∀ pre, pre <+: es → I (run step s pre)) ↔
      I s ∧ Meets (fun s e => I (step s e)) step s es := by
  induction es generalizing s with
  | nil =>
    exact ⟨fun hall => ⟨hall [] List.prefix_rfl, trivial⟩,
      fun h pre hpre => by rw [List.prefix_nil.mp hpre]; exact h.1⟩
  | cons e es ih =>
    rw [Meets, ← ih]
    constructor
    · intro hall
      exact ⟨hall [] (List.nil_prefix), fun pre hpre =>
        hall (e :: pre) (List.cons_prefix_cons.mpr ⟨rfl, hpre⟩)⟩
    · rintro ⟨h, hrest⟩ pre hpre
      cases pre with
      | nil => exact h
      | cons e' pre =>
        obtain ⟨rfl, hpre'⟩ := List.cons_prefix_cons.mp hpre
        exact hrest pre hpre'

/-- Where the admissible steps are exactly those that preserve `I`, the runs that keep `I` all along
are exactly the admissible ones. -/
theorem run_invariant_iff {I : σ → Prop} {p : α → Prop}
    (hstep : ∀ s e, I s → p e → (I (step s e) ↔ ok s e)) {s : σ} {es : List α} (h : I s)
    (hes : ∀ e ∈ es, p e) :
    (∀ pre, pre <+: es → I (run step s pre)) ↔ Meets ok step s es := by
  rw [forall_prefix_iff, and_iff_right h]
  exact meets_iff hstep (fun s e hI hp hok => (hstep s e hI hp).mpr hok) h hes

/-- What every step preserves holds after every run. -/
theorem run_preserves {I : σ → Prop} (hstep : ∀ s e, I s → I (step s e)) {s : σ} (es : List α)
    (h : I s) : I (run step s es) := by
  induction es generalizing s with
  | nil => exact h
  | cons e es ih => exact ih (hstep s e h)

/-- Where a step that is not admissible leaves a mark that no step removes, a run that is not
admissible ends with the mark. -/
theorem run_of_not_meets {I D : σ → Prop} {p : α → Prop}
    (hstep : ∀ s e, I s → p e → I (step s e)) (hbad : ∀ s e, I s → p e → ¬ ok s e → D (step s e))
    (hstay : ∀ s e, I s → p e → D s → D (step s e)) {s : σ} {es : List α} (h : I s)
    (hes : ∀ e ∈ es, p e) (hnot : ¬ Meets ok step s es) : D (run step s es) := by
  induction es generalizing s with
  | nil => exact absurd trivial hnot
  | cons e es ih =>
    have hp : p e := hes e List.mem_cons_self
    have hes' : ∀ e' ∈ es, p e' := fun e' he' => hes e' (List.mem_cons_of_mem e he')
    by_cases hok : ok s e
    · exact ih (hstep s e h hp) hes' fun hmeets => hnot ⟨hok, hmeets⟩
    · have hmeets : Meets (fun _ e => p e) step (step s e) es := meets_of_forall hes'
      have hmarked : I (run step (step s e) es) ∧ D (run step (step s e) es) :=
        run_invariant (I := fun s => I s ∧ D s)
          (fun s e hI hp => ⟨hstep s e hI.1 hp, hstay s e hI.1 hp hI.2⟩)
          ⟨hstep s e h hp, hbad s e h hp hok⟩ hmeets
      exact hmarked.2

/-- A relation that every admissible step preserves holds between the ends of the two runs. -/
theorem run_simulation {τ : Type*} {step' : τ → α → τ} {R : σ → τ → Prop}
    (hstep : ∀ s t e, R s t → ok s e → R (step s e) (step' t e))
    {s : σ} {t : τ} {es : List α} (h : R s t) (hok : Meets ok step s es) :
    R (run step s es) (run step' t es) := by
  induction es generalizing s t with
  | nil => exact h
  | cons e es ih => exact ih (hstep s t e h hok.1) hok.2

/-- What the relation gives for a step of the second run holds of each of them. -/
theorem meets_simulation {τ : Type*} {step' : τ → α → τ} {ok' : τ → α → Prop} {R : σ → τ → Prop}
    (hstep : ∀ s t e, R s t → ok s e → R (step s e) (step' t e))
    (hok' : ∀ s t e, R s t → ok s e → ok' t e) {s : σ} {t : τ} {es : List α} (h : R s t)
    (hok : Meets ok step s es) : Meets ok' step' t es := by
  induction es generalizing s t with
  | nil => trivial
  | cons e es ih => exact ⟨hok' s t e h hok.1, ih (hstep s t e h hok.1) hok.2⟩

/-- Two step functions side by side. -/
def stepPair {τ : Type*} (step : σ → α → σ) (step' : τ → α → τ) (st : σ × τ) (e : α) : σ × τ :=
  (step st.1 e, step' st.2 e)

theorem run_stepPair {τ : Type*} {step' : τ → α → τ} {s : σ} {t : τ} {es : List α} :
    run (stepPair step step') (s, t) es = (run step s es, run step' t es) := by
  induction es generalizing s t with
  | nil => rfl
  | cons e es ih => exact ih

theorem meets_stepPair {τ : Type*} {step' : τ → α → τ} {s : σ} {t : τ} {es : List α} :
    Meets (fun st e => ok st.1 e) (stepPair step step') (s, t) es ↔ Meets ok step s es := by
  induction es generalizing s t with
  | nil => exact Iff.rfl
  | cons e es ih => exact and_congr_right fun _ => ih

/-- Where the admissible steps are exactly those that keep two step functions related, the runs that
keep them related all along are exactly the admissible ones. -/
theorem run_simulation_iff {τ : Type*} {step' : τ → α → τ} {R : σ → τ → Prop}
    (hstep : ∀ s t e, R s t → (R (step s e) (step' t e) ↔ ok s e)) {s : σ} {t : τ} {es : List α}
    (h : R s t) :
    (∀ pre, pre <+: es → R (run step s pre) (run step' t pre)) ↔ Meets ok step s es := by
  have hpair : (∀ pre, pre <+: es → R (run (stepPair step step') (s, t) pre).1
      (run (stepPair step step') (s, t) pre).2) ↔
      Meets (fun st e => ok st.1 e) (stepPair step step') (s, t) es :=
    run_invariant_iff (I := fun st : σ × τ => R st.1 st.2) (p := fun _ => True)
      (fun st e hR _ => hstep st.1 st.2 e hR) h fun _ _ => trivial
  simpa only [run_stepPair, meets_stepPair] using hpair

/-- The steps `p` take the front of the queue `q`, and no step does anything else to it than add at
its end. Then what has `front` before it gets to the front after `front.length` such steps. -/
theorem run_takes {τ : Type*} {q : σ → List τ} {p : α → Bool}
    (hq : ∀ s e, (if p e then (q s).tail else q s) <+: q (step s e))
    {s : σ} {front rest : List τ} {t : τ} {es : List α} (ht : q s = front ++ t :: rest)
    (hserved : front.length < es.countP p) :
    ∃ es₁ e es₂, es = es₁ ++ e :: es₂ ∧ p e = true ∧ (q (run step s es₁)).head? = some t := by
  induction es generalizing s front rest with
  | nil => cases hserved
  | cons e es ih =>
    obtain ⟨new, hnew⟩ := hq s e
    have hfurther : ∀ front', q (step s e) = front' ++ t :: (rest ++ new) →
        front'.length < es.countP p → ∃ es₁ e' es₂, e :: es = es₁ ++ e' :: es₂ ∧ p e' = true ∧
          (q (run step s es₁)).head? = some t := fun front' ht' hserved' => by
      obtain ⟨es₁, e', es₂, hes, hp, hhead⟩ := ih ht' hserved'
      exact ⟨e :: es₁, e', es₂, by rw [hes]; rfl, hp, hhead⟩
    cases hp : p e with
    | false =>
      refine hfurther front ?_ (by rwa [List.countP_cons_of_neg (by simp [hp])] at hserved)
      rw [← hnew, hp, if_neg Bool.false_ne_true, ht, List.append_assoc, List.cons_append]
    | true =>
      cases front with
      | nil => exact ⟨[], e, es, rfl, hp, by rw [run_nil, ht]; rfl⟩
      | cons f front =>
        rw [List.countP_cons_of_pos hp, List.length_cons] at hserved
        refine hfurther front ?_ (Nat.lt_of_succ_lt_succ hserved)
        rw [← hnew, hp, if_pos rfl, ht, List.cons_append, List.tail_cons, List.append_assoc,
          List.cons_append]

end Transition
