import ShardQuery.Cursor.Source
/-!
Sources pull by pull. Main statements: what a drain and a search make of the answer to one pull.
-/

set_option autoImplicit false

namespace ShardQuery.Source

variable {σ : Type} {source : Source σ} {ctx : Context} {s t : σ} {engine later : Engine}

theorem checked_running (live : ctx.check engine.clock = .ok ()) :
    source.checked.pull ctx s engine = source.pull ctx s engine := by
  simp only [checked, live]

theorem checked_failed {e : EngineError} (halted : ctx.check engine.clock = .error e) :
    source.checked.pull ctx s engine = ⟨.failed e, s, engine⟩ := by
  simp only [checked, halted]

theorem drain_eq (source : Source σ) (ctx : Context) (s : σ) (engine : Engine) :
    source.drain ctx s engine =
      match source.pull ctx s engine with
      | ⟨.row row, t, later⟩ =>
          { source.drain ctx t later with rows := (source.drain ctx t later).rows.map (row :: ·) }
      | ⟨.done, t, later⟩ => ⟨.ok [], source.close t, later⟩
      | ⟨.failed e, t, later⟩ => ⟨.error e, source.close t, later⟩ := by
  rw [drain]
  split <;> rename_i found <;> rw [found]

theorem drain_row {row : Row} (pulled : source.pull ctx s engine = ⟨.row row, t, later⟩) :
    source.drain ctx s engine =
      { source.drain ctx t later with rows := (source.drain ctx t later).rows.map (row :: ·) } := by
  rw [drain_eq, pulled]

theorem drain_done (pulled : source.pull ctx s engine = ⟨.done, t, later⟩) :
    source.drain ctx s engine = ⟨.ok [], source.close t, later⟩ := by
  rw [drain_eq, pulled]

theorem drain_failed {e : EngineError} (pulled : source.pull ctx s engine = ⟨.failed e, t, later⟩) :
    source.drain ctx s engine = ⟨.error e, source.close t, later⟩ := by
  rw [drain_eq, pulled]

-- A drain sees of a state only what the next pull makes of it.
theorem drain_congr (same : source.pull ctx s engine = source.pull ctx t later) :
    source.drain ctx s engine = source.drain ctx t later := by
  rw [drain_eq, same, ← drain_eq]

-- What holds of every row that is pulled holds of every row that is drained.
theorem drain_rows_all (source : Source σ) (ctx : Context) (holds : σ → Engine → Prop) (good : Row → Prop)
    (step : ∀ s engine row t later, holds s engine → source.pull ctx s engine = ⟨.row row, t, later⟩ →
      good row ∧ holds t later)
    (s : σ) (engine : Engine) (begun : holds s engine) (rows : List Row)
    (drained : (source.drain ctx s engine).rows = .ok rows) : ∀ row ∈ rows, good row := by
  fun_induction source.drain ctx s engine generalizing rows with
  | case1 s engine row next later pulled rest ih =>
      obtain ⟨first, kept⟩ := step s engine row next later begun pulled
      cases others : rest.rows with
      | error e =>
          rw [others] at drained
          cases drained
      | ok tail =>
          rw [others] at drained
          cases drained
          exact List.forall_mem_cons.mpr ⟨first, ih kept tail others⟩
  | case2 =>
      cases drained
      exact nofun
  | case3 => cases drained

section Seek

variable {μ : Type} {judge : Row → μ → Engine → Judgement μ} {memory learned : μ} {after : Engine}

theorem seek_eq (source : Source σ) (judge : Row → μ → Engine → Judgement μ) (ctx : Context) (s : σ) (memory : μ)
    (engine : Engine) :
    source.seek judge ctx s memory engine =
      match source.pull ctx s engine with
      | ⟨.row row, t, later⟩ =>
          match judge row memory later with
          | ⟨.ok true, learned, after⟩ => ⟨.row row, (t, learned), after⟩
          | ⟨.ok false, learned, after⟩ => source.seek judge ctx t learned after
          | ⟨.error e, learned, after⟩ => ⟨.failed e, (t, learned), after⟩
      | ⟨.done, t, later⟩ => ⟨.done, (t, memory), later⟩
      | ⟨.failed e, t, later⟩ => ⟨.failed e, (t, memory), later⟩ := by
  rw [seek]
  split
  · rename_i found
    rewrite [found]
    rfl
  · rename_i found
    rw [found]
  · rename_i found
    rw [found]

theorem seek_taken {row : Row} (pulled : source.pull ctx s engine = ⟨.row row, t, later⟩)
    (judged : judge row memory later = ⟨.ok true, learned, after⟩) :
    source.seek judge ctx s memory engine = ⟨.row row, (t, learned), after⟩ := by
  rw [seek_eq, pulled]
  simp only [judged]

theorem seek_passed {row : Row} (pulled : source.pull ctx s engine = ⟨.row row, t, later⟩)
    (judged : judge row memory later = ⟨.ok false, learned, after⟩) :
    source.seek judge ctx s memory engine = source.seek judge ctx t learned after := by
  rw [seek_eq, pulled]
  simp only [judged]

theorem seek_done (pulled : source.pull ctx s engine = ⟨.done, t, later⟩) :
    source.seek judge ctx s memory engine = ⟨.done, (t, memory), later⟩ := by
  rw [seek_eq, pulled]

theorem seek_failed {e : EngineError} (pulled : source.pull ctx s engine = ⟨.failed e, t, later⟩) :
    source.seek judge ctx s memory engine = ⟨.failed e, (t, memory), later⟩ := by
  rw [seek_eq, pulled]

end Seek

end ShardQuery.Source
