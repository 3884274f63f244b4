import ShardQuery.Row
import ShardQuery.Engine.Basic
/-!
Row sources. A source starts from the engine and is then pulled row by row; every pull may change the
engine. Main statements: a pulled row lowers the rank of a source, so a search for a row and the
exhaustion of a source come to an end.
-/

set_option autoImplicit false

namespace ShardQuery

inductive Answer where
  | row (row : Row)
  | done
  | failed (e : EngineError)

namespace Answer

def toOutcome : Answer → Outcome (Option Row)
  | .row r => .ok (some r)
  | .done => .ok none
  | .failed e => .error e

end Answer

structure Pulled (σ : Type) where
  answer : Answer
  state : σ
  engine : Engine

def Pulled.map {σ τ : Type} (change : σ → τ) (pulled : Pulled σ) : Pulled τ :=
  ⟨pulled.answer, change pulled.state, pulled.engine⟩

abbrev Rank := Nat × Nat

namespace Rank

-- Ranks are compared by their first part and then by their second.
def Below (a b : Rank) : Prop := a.1 < b.1 ∨ a.1 = b.1 ∧ a.2 < b.2

theorem below_wf : WellFounded Below :=
  Subrelation.wf (fun below => Prod.lex_def.mpr below) (Prod.lex Nat.lt_wfRel Nat.lt_wfRel).wf

theorem Below.trans {a b c : Rank} (first : Below a b) (second : Below b c) : Below a c := by
  unfold Below at *
  omega

instance : WellFoundedRelation Rank := ⟨Below, below_wf⟩

end Rank

structure Source (σ : Type) where
  start : Context → Engine → Outcome σ
  pull : Context → σ → Engine → Pulled σ
  close : σ → σ
  rank : σ → Rank
  spillFiles : σ → Nat
  falls {ctx : Context} {s t : σ} {before after : Engine} {row : Row} :
    pull ctx s before = ⟨.row row, t, after⟩ → Rank.Below (rank t) (rank s)

namespace Source

variable {σ : Type}

-- Starts only while execution may go on.
def guarded (source : Source σ) : Source σ :=
  { source with start := fun ctx engine => do
      ctx.check engine.clock
      source.start ctx engine }

-- Checks before every pull that execution may go on.
def checked (source : Source σ) : Source σ :=
  { source with
    pull := fun ctx s engine =>
      match ctx.check engine.clock with
      | .error e => ⟨.failed e, s, engine⟩
      | .ok () => source.pull ctx s engine
    falls := fun pulled => by
      split at pulled
      · cases pulled
      · exact source.falls pulled }

structure Drained (σ : Type) where
  rows : Outcome (List Row)
  state : σ
  engine : Engine

def drain (source : Source σ) (ctx : Context) (s : σ) (engine : Engine) : Drained σ :=
  match _ : source.pull ctx s engine with
  | ⟨.row r, s, engine⟩ =>
      let rest := source.drain ctx s engine
      { rest with rows := rest.rows.map (r :: ·) }
  | ⟨.done, s, engine⟩ => ⟨.ok [], source.close s, engine⟩
  | ⟨.failed e, s, engine⟩ => ⟨.error e, source.close s, engine⟩
termination_by source.rank s
decreasing_by exact source.falls ‹_›

-- What a search makes of a row: whether to stop at it, and what it remembers from now on.
structure Judgement (μ : Type) where
  verdict : Outcome Bool
  memory : μ
  engine : Engine

def seek {μ : Type} (source : Source σ) (judge : Row → μ → Engine → Judgement μ) (ctx : Context)
    (s : σ) (memory : μ) (engine : Engine) : Pulled (σ × μ) :=
  match _ : source.pull ctx s engine with
  | ⟨.row r, s, engine⟩ =>
      match judge r memory engine with
      | ⟨.ok true, memory, engine⟩ => ⟨.row r, (s, memory), engine⟩
      | ⟨.ok false, memory, engine⟩ => source.seek judge ctx s memory engine
      | ⟨.error e, memory, engine⟩ => ⟨.failed e, (s, memory), engine⟩
  | ⟨.done, s, engine⟩ => ⟨.done, (s, memory), engine⟩
  | ⟨.failed e, s, engine⟩ => ⟨.failed e, (s, memory), engine⟩
termination_by source.rank s
decreasing_by exact source.falls ‹_›

theorem seek_falls {μ : Type} (source : Source σ) (judge : Row → μ → Engine → Judgement μ)
    (ctx : Context) (s t : σ) (memory learned : μ) (before after : Engine) (row : Row)
    (found : source.seek judge ctx s memory before = ⟨.row row, (t, learned), after⟩) :
    Rank.Below (source.rank t) (source.rank s) := by
  fun_induction source.seek judge ctx s memory before with
  | case1 s memory engine r next later pulled _ _ judged =>
      cases found
      exact source.falls pulled
  | case2 s memory engine r next later pulled _ _ judged ih =>
      exact (ih found).trans (source.falls pulled)
  | case3 => cases found
  | case4 => cases found
  | case5 => cases found

end Source

end ShardQuery
