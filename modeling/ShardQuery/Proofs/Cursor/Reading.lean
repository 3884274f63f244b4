import ShardQuery.Cursor.Basic
/-!
Sources that only read. Main statement: a plan whose operators are scans, listings and operators over their rows
changes nothing of the engine but what was reported, whatever turns its map tasks take.
-/

set_option autoImplicit false

namespace ShardQuery

namespace Engine

-- Two engines that differ in nothing but what was reported.
def Alike (a b : Engine) : Prop := ∃ warnings, b = { a with warnings }

theorem alike_refl (engine : Engine) : engine.Alike engine := ⟨engine.warnings, rfl⟩

theorem alike_trans {a b c : Engine} (first : a.Alike b) (second : b.Alike c) : a.Alike c := by
  obtain ⟨warnings, rfl⟩ := first
  obtain ⟨later, rfl⟩ := second
  exact ⟨later, rfl⟩

theorem warn_alike (engine : Engine) (channel : Channel) (text : String) : engine.Alike (engine.warn channel text) :=
  ⟨_, rfl⟩

end Engine

namespace Source

variable {σ τ : Type} {child : Source σ}

def Reading (source : Source σ) : Prop := ∀ ctx s (engine : Engine), engine.Alike (source.pull ctx s engine).engine

theorem drain_alike (reading : child.Reading) (ctx : Context) (s : σ) (engine : Engine) :
    engine.Alike (child.drain ctx s engine).engine := by
  fun_induction child.drain ctx s engine with
  | case1 s engine row next later pulled rest ih =>
      have first := reading ctx s engine
      rw [pulled] at first
      exact Engine.alike_trans first ih
  | case2 s engine next later pulled =>
      have first := reading ctx s engine
      rwa [pulled] at first
  | case3 s engine e next later pulled =>
      have first := reading ctx s engine
      rwa [pulled] at first

theorem seek_alike {μ : Type} (reading : child.Reading) (judge : Row → μ → Engine → Judgement μ)
    (judging : ∀ row memory (engine : Engine), engine.Alike (judge row memory engine).engine) (ctx : Context) (s : σ) (memory : μ)
    (engine : Engine) : engine.Alike (child.seek judge ctx s memory engine).engine := by
  have first (s : σ) (engine : Engine) {answer : Answer} {next : σ} {later : Engine}
      (pulled : child.pull ctx s engine = ⟨answer, next, later⟩) : engine.Alike later := by
    have read := reading ctx s engine
    rwa [pulled] at read
  have second (row : Row) (memory : μ) (engine : Engine) {verdict : Outcome Bool} {learned : μ} {after : Engine}
      (judged : judge row memory engine = ⟨verdict, learned, after⟩) : engine.Alike after := by
    have read := judging row memory engine
    rwa [judged] at read
  fun_induction child.seek judge ctx s memory engine with
  | case1 s memory engine row next later pulled learned after judged =>
      exact Engine.alike_trans (first s engine pulled) (second row memory later judged)
  | case2 s memory engine row next later pulled learned after judged ih =>
      exact Engine.alike_trans (first s engine pulled) (Engine.alike_trans (second row memory later judged) ih)
  | case3 s memory engine row next later pulled e learned after judged =>
      exact Engine.alike_trans (first s engine pulled) (second row memory later judged)
  | case4 s memory engine next later pulled => exact first s engine pulled
  | case5 s memory engine e next later pulled => exact first s engine pulled

theorem guarded_reading (reading : child.Reading) : child.guarded.Reading := reading

theorem checked_reading (reading : child.Reading) : child.checked.Reading := by
  intro ctx s engine
  simp only [checked]
  split
  · exact Engine.alike_refl engine
  · exact reading ctx s engine

theorem gathered_reading (start : Context → Engine → Outcome τ) (gather : Context → τ → Engine → Gathering τ)
    (close : τ → τ) (spillFiles : τ → Nat) (reads : ∀ ctx t (engine : Engine), engine.Alike (gather ctx t engine).2.2) :
    (gathered start gather close spillFiles).Reading := by
  intro ctx s engine
  have gathers := reads ctx s.1 engine
  simp only [gathered]
  split
  · exact Engine.alike_refl engine
  · split
    · rename_i collected
      rwa [collected] at gathers
    · rename_i failed
      rwa [failed] at gathers

theorem listing_reading (listed : Context → Engine → Outcome (List Row)) : (listing listed).Reading :=
  checked_reading (gathered_reading _ _ _ _ fun _ _ engine => Engine.alike_refl engine)

theorem scan_reading (table : TableId) (fields : List String) : (scan table fields).Reading :=
  checked_reading fun _ _ engine => Engine.alike_refl engine

theorem filter_reading (reading : child.Reading) (predicate : PlanExpr) (seed : Option Row) :
    (filter child predicate seed).Reading := fun ctx s engine =>
  seek_alike reading _ (fun _ _ engine => Engine.alike_refl engine) ctx s () engine

theorem project_reading (reading : child.Reading) (exprs : List PlanExpr) (schema : Schema) (seed : Option Row) :
    (project child exprs schema seed).Reading := by
  intro ctx s engine
  have read := reading ctx s engine
  simp only [project]
  split
  · rename_i pulled
    rw [pulled] at read
    split
    · exact read
    · exact read
  · exact read

theorem judge_alike (channel : Channel) (row : Row) (seen : Sightings) (engine : Engine) :
    engine.Alike (judgeNew channel row seen engine).engine := by
  rw [judgeNew]
  split
  · exact Engine.alike_refl engine
  · split
    · exact Engine.warn_alike engine channel _
    · exact Engine.alike_refl engine

theorem distinct_reading (reading : child.Reading) (channel : Channel) : (distinct child channel).Reading := by
  intro ctx s engine
  simp only [distinct]
  split
  · exact Engine.alike_refl engine
  · rename_i seen held
    have read := seek_alike reading (judgeNew channel) (judge_alike channel) ctx s.1 seen engine
    split
    · rename_i found
      rwa [found] at read
    · rename_i found
      rwa [found] at read

theorem advance_alike (reading : child.Reading) (ctx : Context) (remaining skip : Nat) (s : σ) (engine : Engine) :
    engine.Alike (Limited.advance child ctx remaining skip s engine).engine := by
  induction skip generalizing s engine with
  | zero =>
      have read := reading ctx s engine
      rw [Limited.advance]
      split
      · rename_i pulled
        rwa [pulled] at read
      · rename_i pulled
        rwa [pulled] at read
  | succ skip ih =>
      have read := reading ctx s engine
      rw [Limited.advance]
      split
      · rename_i pulled
        rw [pulled] at read
        exact Engine.alike_trans read (ih _ _)
      · rename_i pulled
        rwa [pulled] at read

theorem limit_reading (reading : child.Reading) (window : Window) : (limit child window).Reading := by
  intro ctx s engine
  simp only [limit]
  split
  · exact Engine.alike_refl engine
  · split
    · exact Engine.alike_refl engine
    · exact advance_alike reading ctx s.remaining s.skip s.child engine

theorem sorted_reading (reading : child.Reading) (keys : List SortKey) (seed : Option Row) :
    (sorted child keys seed).Reading :=
  gathered_reading _ _ _ _ fun ctx s engine => drain_alike reading ctx s engine

theorem collect_alike (reading : child.Reading) (ctx : Context) (engine : Engine) :
    engine.Alike (child.collect ctx engine).2 := by
  rw [collect]
  split
  · exact drain_alike reading ctx _ engine
  · exact Engine.alike_refl engine

theorem turn_alike (reading : child.Reading) (ctx : Context) (engine : Engine) (stage : MapStage σ) :
    engine.Alike (stage.turn child ctx engine).2 := by
  cases stage with
  | waiting =>
      rw [MapStage.turn]
      split
      · exact Engine.alike_refl engine
      · exact Engine.alike_refl engine
  | pulling s rows => exact reading ctx s engine
  | ended response => exact Engine.alike_refl engine

theorem finish_alike (reading : child.Reading) (ctx : Context) (engine : Engine) (stage : MapStage σ) :
    engine.Alike (stage.finish child ctx engine).2 := by
  cases stage with
  | waiting => exact collect_alike reading ctx engine
  | pulling s rows => exact drain_alike reading ctx s engine
  | ended response => exact Engine.alike_refl engine

theorem run_turn_alike (reading : child.Reading) (run : MapRun σ) (i : Nat) :
    run.engine.Alike (run.turn child i).engine := by
  rw [MapRun.turn]
  split
  · exact turn_alike reading _ run.engine _
  · exact Engine.alike_refl run.engine

theorem run_turns_alike (reading : child.Reading) (turns : List Nat) (run : MapRun σ) :
    run.engine.Alike (turns.foldl (MapRun.turn child) run).engine := by
  induction turns generalizing run with
  | nil => exact Engine.alike_refl run.engine
  | cons i turns ih => exact Engine.alike_trans (run_turn_alike reading run i) (ih (run.turn child i))

theorem run_finish_alike (reading : child.Reading) (stop : Bool) (stages : List (Context × MapStage σ))
    (engine : Engine) : engine.Alike (MapRun.finish child stop stages engine).2 := by
  induction stages generalizing stop engine with
  | nil => exact Engine.alike_refl engine
  | cons stage stages ih =>
      exact Engine.alike_trans (finish_alike reading (stage.1.stopped stop) engine stage.2) (ih _ _)

theorem collect_all_alike (reading : child.Reading) (turns : List Nat) (contexts : List Context) (engine : Engine) :
    engine.Alike (child.collectAll turns contexts engine).2 :=
  Engine.alike_trans (run_turns_alike reading turns (.opening contexts engine)) (run_finish_alike reading _ _ _)

theorem fan_out_reading (reading : child.Reading) (table : TableId) : (fanOut child table).Reading := by
  refine checked_reading (gathered_reading _ _ _ _ ?_)
  intro ctx t engine
  dsimp only
  split
  · exact collect_all_alike reading ctx.turns _ engine
  · exact Engine.alike_refl engine

end Source

namespace Plan

-- Whether a plan only reads.
def reads : Plan → Bool
  | .scan .. | .values .. | .showDatabases | .showTables _ | .showColumns .. => true
  | .filter _ child | .project _ _ child | .distinct child | .fanOut _ child | .orderBy _ child
  | .limit _ child => child.reads
  | _ => false

theorem pipeline_reading (seed : Option Row) (plan : Plan) (channels : List Channel) (reads : plan.reads = true) :
    (plan.pipeline seed channels).source.Reading := by
  induction plan generalizing channels with
  | scan table name fields schema => exact Source.guarded_reading (Source.scan_reading table fields)
  | values rows schema => exact Source.guarded_reading (Source.listing_reading _)
  | showDatabases => exact Source.guarded_reading (Source.listing_reading _)
  | showTables database => exact Source.guarded_reading (Source.listing_reading _)
  | showColumns database table => exact Source.guarded_reading (Source.listing_reading _)
  | filter predicate child ih =>
      exact Source.guarded_reading (Source.filter_reading (ih channels reads) predicate seed)
  | project exprs schema child ih =>
      exact Source.guarded_reading (Source.project_reading (ih channels reads) exprs schema seed)
  | distinct child ih =>
      exact Source.guarded_reading (Source.distinct_reading (ih channels.tail reads) (channels.headD 0))
  | fanOut table child ih => exact Source.guarded_reading (Source.fan_out_reading (ih channels reads) table)
  | orderBy keys child ih => exact Source.guarded_reading (Source.sorted_reading (ih channels reads) keys seed)
  | limit window child ih => exact Source.guarded_reading (Source.limit_reading (ih channels reads) window)
  | createDatabase | dropDatabase | alterDatabase | createTable | dropTable | alterTable | insert => cases reads

end Plan

end ShardQuery
