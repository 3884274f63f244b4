import ShardQuery.Proofs.Cursor.Drain
import ShardQuery.Proofs.Statement.Compiled
/-!
The end of cursors. Main statement: once a cursor of any plan has come to its end or was closed, no further call finds a
row or changes anything, and a cursor over a change to the engine makes it at its first pull or never.
-/

set_option autoImplicit false

namespace ShardQuery

namespace Source

variable {σ τ : Type} {source child : Source σ} {spent : σ → Prop} {ctx : Context} {s : σ} {engine : Engine}

-- A pull that finds nothing: the end, or that execution may not go on.
def Idle (source : Source σ) (spent : σ → Prop) (ctx : Context) (s : σ) (engine : Engine) : Prop :=
  ∃ t, spent t ∧ (source.pull ctx s engine = ⟨.done, t, engine⟩ ∨
    ∃ e, ctx.check engine.clock = .error e ∧ source.pull ctx s engine = ⟨.failed e, t, engine⟩)

-- The states in which a source is over: those at its end and those after closing, and a pull leaves none of them.
structure Ends (source : Source σ) (spent : σ → Prop) : Prop where
  done : ∀ ctx s engine t later, source.pull ctx s engine = ⟨.done, t, later⟩ → spent t
  closed : ∀ s, spent (source.close s)
  idle : ∀ ctx s engine, spent s → source.Idle spent ctx s engine

theorem guarded_ends (ends : child.Ends spent) : child.guarded.Ends spent := ⟨ends.done, ends.closed, ends.idle⟩

theorem checked_ends (ends : child.Ends spent) : child.checked.Ends spent := by
  refine ⟨?_, ends.closed, ?_⟩
  · intro ctx s engine t later pulled
    cases live : ctx.check engine.clock with
    | error e =>
        rw [checked_failed live] at pulled
        cases pulled
    | ok =>
        rw [checked_running live] at pulled
        exact ends.done ctx s engine t later pulled
  · intro ctx s engine ended
    cases live : ctx.check engine.clock with
    | error e => exact ⟨s, ended, .inr ⟨e, live, checked_failed live⟩⟩
    | ok =>
        obtain ⟨t, kept, done | ⟨e, stopped, -⟩⟩ := ends.idle ctx s engine ended
        · exact ⟨t, kept, .inl ((checked_running live).trans done)⟩
        · rw [live] at stopped
          cases stopped

theorem gathered_ends (start : Context → Engine → Outcome τ) (gather : Context → τ → Engine → Gathering τ)
    (close : τ → τ) (spillFiles : τ → Nat) : (gathered start gather close spillFiles).Ends fun s => s.2 = some [] := by
  have emptied {rows : List Row} (done : (Stock.take rows).1 = .done) : (Stock.take rows).2 = [] := by
    cases rows with
    | nil => rfl
    | cons row rows => cases done
  refine ⟨?_, fun s => rfl, ?_⟩
  · rintro ctx ⟨s, stock⟩ engine t later pulled
    cases stock with
    | some rows =>
        simp only [gathered, Pulled.mk.injEq] at pulled
        obtain ⟨done, rfl, -⟩ := pulled
        exact congrArg some (emptied done)
    | none =>
        simp only [gathered] at pulled
        split at pulled
        · simp only [Pulled.mk.injEq] at pulled
          obtain ⟨done, rfl, -⟩ := pulled
          exact congrArg some (emptied done)
        · cases pulled
  · rintro ctx ⟨s, stock⟩ engine rfl
    exact ⟨(s, some []), rfl, .inl rfl⟩

theorem listing_ends (rows : Context → Engine → Outcome (List Row)) : (listing rows).Ends fun s => s.2 = some [] :=
  checked_ends (gathered_ends _ _ _ _)

theorem read_on_done {store : Store} {node? : Option NodeId} {table : TableId} {fields : List String}
    {shards : List ShardId} {scan : Scan} (done : Scan.readOn store node? table fields shards = (.done, scan)) :
    scan = ⟨node?, [], []⟩ := by
  fun_induction Scan.readOn store node? table fields shards with
  | case1 => exact (congrArg Prod.snd done).symm
  | case2 => cases done
  | case3 shard rest empty ih => exact ih done
  | case4 => cases done

theorem scan_ends (table : TableId) (fields : List String) :
    (scan table fields).Ends fun s => s.pending = [] ∧ s.buffer = [] := by
  refine checked_ends ⟨?_, fun s => ⟨rfl, rfl⟩, ?_⟩
  · rintro ctx ⟨node?, pending, buffer⟩ engine t later pulled
    simp only [Pulled.mk.injEq] at pulled
    obtain ⟨done, rfl, -⟩ := pulled
    cases buffer with
    | cons row rest => cases done
    | nil =>
        have ended : (Scan.next engine.store table fields ⟨node?, pending, []⟩).2 = ⟨node?, [], []⟩ :=
          read_on_done (Prod.ext done rfl)
        simp [ended]
  · rintro ctx ⟨node?, pending, buffer⟩ engine ⟨rfl, rfl⟩
    exact ⟨⟨node?, [], []⟩, ⟨rfl, rfl⟩, .inl rfl⟩

-- A change is over with its first pull, whatever came of it.
theorem mutation_pulled (change : Context → Step Engine Unit) (ctx : Context) (pending : Bool) (engine : Engine) :
    ((mutation change).pull ctx pending engine).state = false := by
  simp only [mutation]
  split
  · split <;> rfl
  · rfl

theorem mutation_ends (change : Context → Step Engine Unit) : (mutation change).Ends (· = false) := by
  refine ⟨?_, fun s => rfl, ?_⟩
  · intro ctx s engine t later pulled
    have ended := mutation_pulled change ctx s engine
    rwa [pulled] at ended
  · rintro ctx s engine rfl
    exact ⟨false, rfl, .inl rfl⟩

theorem distinct_ends (child : Source σ) (channel : Channel) : (distinct child channel).Ends fun s => s.2 = none := by
  refine ⟨?_, fun s => rfl, ?_⟩
  · rintro ctx ⟨s, seen⟩ engine t later pulled
    cases seen with
    | none =>
        cases pulled
        rfl
    | some seen =>
        simp only [distinct] at pulled
        split at pulled
        · cases pulled
        · simp only [Pulled.mk.injEq] at pulled
          rw [← pulled.2.1]
  · rintro ctx ⟨s, seen⟩ engine rfl
    exact ⟨(s, none), rfl, .inl rfl⟩

section Children

variable (ends : child.Ends spent)
include ends

-- A search that comes to the end has come to that of the source, and one at the end finds nothing.
theorem seek_ends {μ : Type} (judge : Row → μ → Engine → Judgement μ) (ctx : Context) (s : σ) (memory : μ) (engine : Engine)
    {t : σ} {learned : μ} {later : Engine} (found : child.seek judge ctx s memory engine = ⟨.done, (t, learned), later⟩) :
    spent t := by
  fun_induction child.seek judge ctx s memory engine with
  | case1 => cases found
  | case2 s memory engine row next later pulled learned after judged ih => exact ih found
  | case3 => cases found
  | case4 s memory engine next later pulled =>
      cases found
      exact ends.done ctx s engine _ _ pulled
  | case5 => cases found

theorem seek_idle {μ : Type} (judge : Row → μ → Engine → Judgement μ) (ctx : Context) (memory : μ) (engine : Engine)
    (ended : spent s) : ∃ t, spent t ∧ (child.seek judge ctx s memory engine = ⟨.done, (t, memory), engine⟩ ∨
      ∃ e, ctx.check engine.clock = .error e ∧ child.seek judge ctx s memory engine = ⟨.failed e, (t, memory), engine⟩) := by
  obtain ⟨t, kept, done | ⟨e, stopped, failed⟩⟩ := ends.idle ctx s engine ended
  · exact ⟨t, kept, .inl (seek_done done)⟩
  · exact ⟨t, kept, .inr ⟨e, stopped, seek_failed failed⟩⟩

theorem filter_ends (predicate : PlanExpr) (seed : Option Row) : (filter child predicate seed).Ends spent := by
  refine ⟨?_, ends.closed, ?_⟩
  · intro ctx s engine t later pulled
    generalize found : child.pullFilter predicate seed ctx s engine = result
    simp only [filter, found, Pulled.map] at pulled
    obtain ⟨answer, ⟨u, ⟨⟩⟩, after⟩ := result
    cases pulled
    exact seek_ends ends _ ctx s () engine found
  · intro ctx s engine ended
    obtain ⟨t, kept, done | ⟨e, stopped, failed⟩⟩ := seek_idle ends
      (fun row _ engine => ⟨predicate.isTrue row seed, (), engine⟩) ctx () engine ended
    · exact ⟨t, kept, .inl (by simp only [filter, pullFilter, done, Pulled.map])⟩
    · exact ⟨t, kept, .inr ⟨e, stopped, by simp only [filter, pullFilter, failed, Pulled.map]⟩⟩

theorem project_ends (exprs : List PlanExpr) (schema : Schema) (seed : Option Row) :
    (project child exprs schema seed).Ends spent := by
  refine ⟨?_, ends.closed, ?_⟩
  · intro ctx s engine t later pulled
    simp only [project] at pulled
    split at pulled
    · split at pulled <;> cases pulled
    · exact ends.done ctx s engine t later pulled
  · intro ctx s engine ended
    obtain ⟨t, kept, done | ⟨e, stopped, failed⟩⟩ := ends.idle ctx s engine ended
    · exact ⟨t, kept, .inl (by simp only [project, done])⟩
    · exact ⟨t, kept, .inr ⟨e, stopped, by simp only [project, failed]⟩⟩

theorem advance_ends (remaining skip : Nat) (ctx : Context) (s : σ) (engine : Engine) {t : Limited σ} {later : Engine}
    (pulled : Limited.advance child ctx remaining skip s engine = ⟨.done, t, later⟩) : spent t.child := by
  induction skip generalizing s engine with
  | zero =>
      rw [Limited.advance] at pulled
      split at pulled
      · cases pulled
      · rename_i found
        cases pulled
        exact ends.done ctx s engine _ _ found
  | succ skip ih =>
      rw [Limited.advance] at pulled
      split at pulled
      · exact ih _ _ pulled
      · rename_i found
        cases pulled
        exact ends.done ctx s engine _ _ found

theorem advance_idle (remaining skip : Nat) (ctx : Context) (engine : Engine) (ended : spent s) :
    ∃ t, spent t ∧ (Limited.advance child ctx remaining skip s engine = ⟨.done, ⟨t, skip, remaining, false⟩, engine⟩ ∨
      ∃ e, ctx.check engine.clock = .error e ∧
        Limited.advance child ctx remaining skip s engine = ⟨.failed e, ⟨t, skip, remaining, false⟩, engine⟩) := by
  obtain ⟨t, kept, done | ⟨e, stopped, failed⟩⟩ := ends.idle ctx s engine ended
  · refine ⟨t, kept, .inl ?_⟩
    cases skip <;> rw [Limited.advance, done]
  · refine ⟨t, kept, .inr ⟨e, stopped, ?_⟩⟩
    cases skip <;> rw [Limited.advance, failed]

theorem limit_ends (window : Window) : (limit child window).Ends fun s => s.closed = true ∨ spent s.child := by
  have shut (s : Limited σ) : (s.shut child).closed = true := by
    rw [Limited.shut]
    split
    · assumption
    · rfl
  refine ⟨?_, fun s => .inl (shut s), ?_⟩
  · intro ctx s engine t later pulled
    simp only [limit] at pulled
    split at pulled
    · cases pulled
      exact .inl ‹_›
    · split at pulled
      · cases pulled
        exact .inl (shut s)
      · exact .inr (advance_ends ends _ _ ctx _ engine pulled)
  · rintro ctx ⟨s, skip, remaining, closed⟩ engine ended
    cases closed with
    | true => exact ⟨⟨s, skip, remaining, true⟩, .inl rfl, .inl rfl⟩
    | false =>
        cases remaining with
        | zero => exact ⟨_, .inl (shut ⟨s, skip, 0, false⟩), .inl rfl⟩
        | succ remaining =>
            have pulled : (limit child window).pull ctx ⟨s, skip, remaining + 1, false⟩ engine =
              Limited.advance child ctx (remaining + 1) skip s engine := rfl
            have within : spent s := ended.resolve_left Bool.false_ne_true
            obtain ⟨t, kept, found⟩ := advance_idle ends (remaining + 1) skip ctx engine within
            exact ⟨⟨t, skip, remaining + 1, false⟩, .inr kept, pulled ▸ found⟩

end Children

end Source

-- Whatever the operators of a plan: the states in which its source is over.
theorem Plan.pipeline_ends (seed : Option Row) (plan : Plan) (channels : List Channel) :
    ∃ spent, (plan.pipeline seed channels).source.Ends spent := by
  induction plan generalizing channels with
  | scan table name fields schema => exact ⟨_, Source.guarded_ends (Source.scan_ends table fields)⟩
  | values | showDatabases | showTables | showColumns => exact ⟨_, Source.guarded_ends (Source.listing_ends _)⟩
  | filter predicate child ih =>
      obtain ⟨spent, ends⟩ := ih channels
      exact ⟨_, Source.guarded_ends (Source.filter_ends ends predicate seed)⟩
  | project exprs schema child ih =>
      obtain ⟨spent, ends⟩ := ih channels
      exact ⟨_, Source.guarded_ends (Source.project_ends ends exprs schema seed)⟩
  | distinct child => exact ⟨_, Source.guarded_ends (Source.distinct_ends _ _)⟩
  | fanOut table child => exact ⟨_, Source.guarded_ends (Source.checked_ends (Source.gathered_ends _ _ _ _))⟩
  | orderBy keys child => exact ⟨_, Source.guarded_ends (Source.gathered_ends _ _ _ _)⟩
  | limit window child ih =>
      obtain ⟨spent, ends⟩ := ih channels
      exact ⟨_, Source.guarded_ends (Source.limit_ends ends window)⟩
  | createDatabase | dropDatabase | alterDatabase | createTable | dropTable | alterTable | insert =>
      exact ⟨_, Source.guarded_ends (Source.mutation_ends _)⟩

namespace Cursor

-- A call of a cursor, in any context and with any engine.
inductive Call where
  | next (ctx : Context) (engine : Engine)
  | close

def after (cursor : Cursor) : Call → Cursor
  | .next ctx engine => (cursor.next ctx engine).state
  | .close => cursor.close

-- Whatever is called before, a pull finds no row and leaves the engine as it is.
def Finished (cursor : Cursor) : Prop :=
  ∀ calls : List Call, ∀ ctx engine, ((calls.foldl after cursor).next ctx engine).engine = engine ∧
    (ctx.check engine.clock = .ok () → ((calls.foldl after cursor).next ctx engine).answer = .done)

theorem finished_of_spent {handle : Handle} {seed : Option Row} {spent : (handle.pipeline seed).State → Prop}
    (ends : (handle.pipeline seed).source.Ends spent) (s : (handle.pipeline seed).State) (ended : spent s) :
    (mk handle seed s).Finished := by
  intro calls ctx engine
  induction calls generalizing s with
  | nil =>
      obtain ⟨t, -, done | ⟨e, stopped, failed⟩⟩ := ends.idle ctx s engine ended
      · have pulled : next ctx ⟨handle, seed, s⟩ engine = ⟨.done, ⟨handle, seed, t⟩, engine⟩ :=
          congrArg (Pulled.map (mk handle seed)) done
        exact ⟨congrArg Pulled.engine pulled, fun _ => congrArg Pulled.answer pulled⟩
      · have pulled : next ctx ⟨handle, seed, s⟩ engine = ⟨.failed e, ⟨handle, seed, t⟩, engine⟩ :=
          congrArg (Pulled.map (mk handle seed)) failed
        refine ⟨congrArg Pulled.engine pulled, fun live => ?_⟩
        rw [live] at stopped
        cases stopped
  | cons call calls ih =>
      cases call with
      | close => exact ih _ (ends.closed s)
      | next ctx' engine' =>
          obtain ⟨t, kept, pulled⟩ := ends.idle ctx' s engine' ended
          have left : after ⟨handle, seed, s⟩ (.next ctx' engine') = ⟨handle, seed, t⟩ := by
            rcases pulled with done | ⟨e, -, failed⟩
            · exact congrArg (fun pulled => mk handle seed pulled.state) done
            · exact congrArg (fun pulled => mk handle seed pulled.state) failed
          rw [List.foldl_cons, left]
          exact ih t kept

-- What the first pull of a change does: it checks that execution may go on, and makes the change.
def changed (plan : Plan) (ctx : Context) (engine : Engine) : Engine :=
  ((do Step.ofOutcome (ctx.check engine.clock); Engine.mutate ctx plan : Step Engine Unit).perform engine).2

theorem mutation_first {pipeline : Pipeline} {plan : Plan} (same : pipeline = .of (.mutation fun ctx => Engine.mutate ctx plan))
    {ctx : Context} {begun : Engine} {s : pipeline.State} (started : pipeline.source.start ctx begun = .ok s)
    (ctx' : Context) (engine : Engine) : (pipeline.source.pull ctx' s engine).engine = changed plan ctx' engine ∧
      ∃ spent, pipeline.source.Ends spent ∧ spent (pipeline.source.pull ctx' s engine).state := by
  subst same
  obtain ⟨-, -, started⟩ := ok_of_bind started
  cases started
  refine ⟨?_, _, Source.guarded_ends (Source.mutation_ends _),
    Source.mutation_pulled (fun ctx => Engine.mutate ctx plan) ctx' true engine⟩
  change ((Source.mutation fun ctx => Engine.mutate ctx plan).pull ctx' true engine).engine = _
  rw [changed]
  simp only [Source.mutation, if_true]
  split
  · rename_i made
    rw [made]
  · rename_i failed
    rw [failed]

theorem pipeline_mutation {plan : Plan} (mutates : plan.mutates = true) (seed : Option Row) (channels : List Channel) :
    plan.pipeline seed channels = .of (.mutation fun ctx => Engine.mutate ctx plan) := by
  cases plan with
  | createDatabase | dropDatabase | alterDatabase | createTable | dropTable | alterTable | insert => rfl
  | scan | values | filter | project | distinct | fanOut | orderBy | limit | showDatabases | showTables | showColumns =>
      cases mutates

theorem ended_for_good :
    (∀ (cursor : Cursor) ctx engine, (cursor.next ctx engine).answer = .done → (cursor.next ctx engine).state.Finished) ∧
    (∀ cursor : Cursor, cursor.close.Finished) ∧
    (∀ handle seed ctx begun cursor, start ctx handle seed begun = .ok cursor → handle.plan.mutates = true →
      ∀ ctx' engine, (cursor.next ctx' engine).engine = changed handle.plan ctx' engine ∧
        (cursor.next ctx' engine).state.Finished) := by
  refine ⟨?_, ?_, ?_⟩
  · intro cursor ctx engine done
    obtain ⟨spent, ends⟩ := cursor.handle.plan.pipeline_ends cursor.seed cursor.handle.channels
    exact finished_of_spent ends _ (ends.done ctx cursor.state engine _ _ (congrArg (Pulled.mk · _ _) done))
  · intro cursor
    obtain ⟨spent, ends⟩ := cursor.handle.plan.pipeline_ends cursor.seed cursor.handle.channels
    exact finished_of_spent ends _ (ends.closed cursor.state)
  · intro handle seed ctx begun cursor started mutates ctx' engine
    obtain ⟨s, opened, rfl⟩ := ok_of_map started
    obtain ⟨made, spent, ends, ended⟩ :=
      mutation_first (pipeline_mutation mutates seed handle.channels) opened ctx' engine
    exact ⟨made, finished_of_spent ends _ ended⟩

def makeDatabase : Handle := ⟨.createDatabase "main" false .empty, []⟩

theorem database_made_once :
    let engine := Engine.make .standard 1
    let cursor : Cursor := ⟨makeDatabase, none, true⟩
    start (.of "main") makeDatabase none engine = .ok cursor ∧ (cursor.next (.of "main") engine).answer = .done ∧
      (cursor.next (.of "main") engine).engine = changed makeDatabase.plan (.of "main") engine ∧
      (changed makeDatabase.plan (.of "main") engine).catalog.databaseList.map (·.name) = ["main"] ∧
      (cursor.next (.of "main") engine).state.Finished ∧ cursor.close.Finished := by
  intro engine cursor
  obtain ⟨done, closed, changes⟩ := ended_for_good
  have started : start (.of "main") makeDatabase none engine = .ok cursor := rfl
  have ended : (cursor.next (.of "main") engine).answer = .done := rfl
  obtain ⟨made, -⟩ := changes makeDatabase none (.of "main") engine cursor started rfl (.of "main") engine
  exact ⟨started, ended, made, by decide +kernel, done cursor (.of "main") engine ended, closed cursor⟩

end Cursor

end ShardQuery
