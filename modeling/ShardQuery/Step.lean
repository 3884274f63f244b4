import ShardQuery.Error
/-!
Computations over a state that may fail and keep what they changed when they do.
-/

set_option autoImplicit false

namespace ShardQuery

abbrev Step (σ α : Type) := ExceptT EngineError (StateM σ) α

namespace Step

def perform {σ α : Type} (step : Step σ α) (s : σ) : Outcome α × σ := step.run.run s

def ofOutcome {σ α : Type} (outcome : Outcome α) : Step σ α := ExceptT.mk (pure outcome)

def attempt {σ α : Type} (step : Step σ α) : Step σ (Outcome α) :=
  ExceptT.mk fun s => let ended := step.perform s; (.ok ended.1, ended.2)

def onPart {σ τ α : Type} (part : σ → τ) (replace : σ → τ → σ) (step : Step τ α) : Step σ α :=
  ExceptT.mk fun s =>
    let ended := step.perform (part s)
    (ended.1, replace s ended.2)

variable {σ τ α β : Type}

@[simp] theorem perform_pure (a : α) (s : σ) : perform (pure a : Step σ α) s = (.ok a, s) := rfl

@[simp] theorem perform_throw (e : EngineError) (s : σ) : perform (throw e : Step σ α) s = (.error e, s) := rfl

@[simp] theorem perform_get (s : σ) : perform (get : Step σ σ) s = (.ok s, s) := rfl

@[simp] theorem perform_set (s t : σ) : perform (set t : Step σ PUnit) s = (.ok ⟨⟩, t) := rfl

@[simp] theorem perform_modify (change : σ → σ) (s : σ) :
    perform (modify change : Step σ PUnit) s = (.ok ⟨⟩, change s) := rfl

@[simp] theorem perform_ofOutcome (outcome : Outcome α) (s : σ) : perform (ofOutcome outcome) s = (outcome, s) := rfl

@[simp] theorem perform_onPart (part : σ → τ) (replace : σ → τ → σ) (step : Step τ α) (s : σ) :
    perform (onPart part replace step) s =
      ((perform step (part s)).1, replace s (perform step (part s)).2) := rfl

@[simp] theorem perform_attempt (step : Step σ α) (s : σ) :
    perform (attempt step) s = (.ok (perform step s).1, (perform step s).2) := rfl

theorem perform_tryCatch (step : Step σ α) (handler : EngineError → Step σ α) (s : σ) :
    perform (tryCatch step handler) s =
      match perform step s with
      | (.ok a, t) => (.ok a, t)
      | (.error e, t) => perform (handler e) t := by
  change perform (ExceptT.tryCatch step handler) s = _
  cases performed : perform step s with
  | mk outcome t =>
      change StateT.run step s = (outcome, t) at performed
      simp only [perform, ExceptT.tryCatch, ExceptT.run_mk, StateT.run_bind]
      rw [performed]
      cases outcome <;> rfl

theorem perform_bind (step : Step σ α) (next : α → Step σ β) (s : σ) :
    perform (step >>= next) s =
      match perform step s with
      | (.ok a, t) => perform (next a) t
      | (.error e, t) => (.error e, t) := by
  change (match perform step s with
    | (outcome, t) => (ExceptT.bindCont next outcome : StateM σ _).run t) = _
  rcases perform step s with ⟨_ | _, t⟩ <;> rfl

-- The rest of a computation after a step that succeeds.
theorem perform_bind_ok {step : Step σ α} {next : α → Step σ β} {s t : σ} {a : α}
    (done : perform step s = (.ok a, t)) : perform (step >>= next) s = perform (next a) t := by
  rw [perform_bind, done]

-- A computation that succeeds has succeeded in its first step.
theorem perform_of_bind {step : Step σ α} {next : α → Step σ β} {s u : σ} {b : β}
    (done : perform (step >>= next) s = (.ok b, u)) :
    ∃ a t, perform step s = (.ok a, t) ∧ perform (next a) t = (.ok b, u) := by
  cases first : perform step s with
  | mk outcome t =>
      rw [perform_bind, first] at done
      cases outcome with
      | error e => cases done
      | ok a => exact ⟨a, t, rfl, done⟩

theorem perform_bind_error {step : Step σ α} {next : α → Step σ β} {s t : σ} {e : EngineError}
    (failed : perform step s = (.error e, t)) : perform (step >>= next) s = (.error e, t) := by
  rw [perform_bind, failed]

end Step

end ShardQuery
