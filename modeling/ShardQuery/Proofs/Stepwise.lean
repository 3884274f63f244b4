import ShardQuery.Step
/-!
Computations over a state, by what they keep. Main statements: a sequence keeps what each of its steps keeps, whatever
comes of it, and two sequences stay in step if their steps do.
-/

set_option autoImplicit false

namespace ShardQuery.Step

variable {σ α β : Type} {R : σ → σ → Prop}

-- Every way through a step stays within a relation of states.
def Within (R : σ → σ → Prop) (step : Step σ α) : Prop := ∀ s, R s (step.perform s).2

theorem bind_within (chain : ∀ a b c, R a b → R b c → R a c) (step : Step σ α) (next : α → Step σ β)
    (first : step.Within R) (second : ∀ a, (next a).Within R) : (step >>= next).Within R := by
  intro s
  have before := first s
  rw [perform_bind]
  split
  · rename_i a t performed
    rw [performed] at before
    exact chain s t _ before (second a t)
  · rename_i e t performed
    rwa [performed] at before

theorem outcome_bind_within (refl : ∀ a, R a a) (outcome : Outcome α) (next : α → Step σ β)
    (second : ∀ a, outcome = .ok a → (next a).Within R) : (ofOutcome outcome >>= next).Within R := by
  intro s
  cases outcome with
  | ok a => exact second a rfl s
  | error e => exact refl s

variable {step step' : Step σ α}

-- From related states both come to the same outcome, and they leave related states.
def InStep (R : σ → σ → Prop) (step step' : Step σ α) : Prop :=
  ∀ s t, R s t → (step.perform s).1 = (step'.perform t).1 ∧ R (step.perform s).2 (step'.perform t).2

theorem outcome_in_step (outcome : Outcome α) : (ofOutcome outcome).InStep R (ofOutcome outcome) :=
  fun _ _ related => ⟨rfl, related⟩

theorem bind_in_step {next next' : α → Step σ β} (first : step.InStep R step')
    (second : ∀ a, (next a).InStep R (next' a)) : (step >>= next).InStep R (step' >>= next') := by
  intro s t related
  obtain ⟨same, kept⟩ := first s t related
  rw [perform_bind, perform_bind]
  rcases performed : step.perform s with ⟨outcome, left⟩
  rcases performed' : step'.perform t with ⟨outcome', right⟩
  rw [performed, performed'] at same kept
  obtain rfl : outcome = outcome' := same
  cases outcome with
  | ok a => exact second a left right kept
  | error e => exact ⟨rfl, kept⟩

-- What is done next may go by the state.
theorem get_bind_in_step {next next' : σ → Step σ β} (second : ∀ s t, R s t → (next s).InStep R (next' t)) :
    (get >>= next).InStep R (get >>= next') := by
  intro s t related
  rw [perform_bind, perform_get, perform_bind, perform_get]
  exact second s t related s t related

theorem attempt_in_step (steps : step.InStep R step') : step.attempt.InStep R step'.attempt := by
  intro s t related
  obtain ⟨same, kept⟩ := steps s t related
  exact ⟨congrArg Except.ok same, kept⟩

theorem catch_in_step {handler : EngineError → Step σ α} (steps : step.InStep R step')
    (handles : ∀ e, (handler e).InStep R (handler e)) : (tryCatch step handler).InStep R (tryCatch step' handler) := by
  intro s t related
  obtain ⟨same, kept⟩ := steps s t related
  rw [perform_tryCatch, perform_tryCatch]
  rcases performed : step.perform s with ⟨outcome, left⟩
  rcases performed' : step'.perform t with ⟨outcome', right⟩
  rw [performed, performed'] at same kept
  obtain rfl : outcome = outcome' := same
  cases outcome with
  | ok a => exact ⟨rfl, kept⟩
  | error e => exact handles e left right kept

end ShardQuery.Step
