import ShardQuery.Proofs.Engine.Soundness
/-!
Engines reached by running statements. Main statements: what a run of a statement does to the engine, and that every
engine that runs of statements reach is sound.
-/

set_option autoImplicit false

namespace ShardQuery

namespace Engine

theorem compile_select {engine : Engine} {ctx : Context} {query analyzed : Select} {plan : Plan}
    (live : ctx.check engine.clock = .ok ()) (accepted : query.analyze (engine.scope ctx) = .ok analyzed)
    (compiled : analyzed.compile (engine.scope ctx) engine.gate = .ok plan) :
    engine.compile ctx (.select query) = .ok plan := by
  have planned : Statement.plan (engine.scope ctx) engine.gate (.select analyzed) = .ok plan := compiled
  refine bind_of_ok live (bind_of_ok ?_ planned)
  rw [Statement.analyze, accepted]
  rfl

theorem perform_execute (ctx : Context) (handle : Handle) (engine : Engine) :
    (execute ctx handle).perform engine =
      let answered := (handle.pipeline none).source.collect ctx engine
      (answered.1.map fun rows => ⟨handle.plan.schema, rows, answered.2.warningsOf handle⟩, answered.2) := by
  rw [execute, Step.perform_bind, Step.perform_get]
  change Step.perform (Step.ofOutcome _ >>= fun _ => _) engine = _
  rw [Step.perform_bind, Step.perform_ofOutcome, Cursor.start, Source.collect]
  cases (handle.pipeline none).source.start ctx engine with
  | error e => rfl
  | ok s =>
      change Step.perform (Step.ofOutcome ((handle.pipeline none).source.drain ctx s engine).rows >>= fun _ => _)
        ((handle.pipeline none).source.drain ctx s engine).engine = _
      rw [Step.perform_bind, Step.perform_ofOutcome]
      dsimp only
      cases ((handle.pipeline none).source.drain ctx s engine).rows with
      | error e => rfl
      | ok rows => rfl

theorem perform_run (ctx : Context) (statement : Statement) (engine : Engine) :
    (run ctx statement).perform engine =
      match engine.compile ctx statement with
      | .error e => (.error e, engine)
      | .ok plan => (execute ctx (engine.adopt plan).1).perform (engine.adopt plan).2 := by
  rw [run, Step.perform_bind, Step.perform_get]
  change Step.perform (Step.ofOutcome _ >>= fun _ => _) engine = _
  rw [Step.perform_bind, Step.perform_ofOutcome]
  cases engine.compile ctx statement with
  | error e => rfl
  | ok plan =>
      change Step.perform (get >>= fun _ => set _ >>= fun _ => _) engine = _
      rw [Step.perform_bind, Step.perform_get]
      change Step.perform (set _ >>= fun _ => _) engine = _
      rw [Step.perform_bind, Step.perform_set]
      rfl

theorem mutation_pipeline (seed : Option Row) (plan : Plan) (channels : List Channel) (mutates : plan.mutates = true) :
    plan.pipeline seed channels = .of (.mutation fun ctx => mutate ctx plan) := by
  cases plan with
  | createDatabase | dropDatabase | alterDatabase | createTable | dropTable | alterTable | insert => rfl
  | _ => cases mutates

-- A change is made at the first pull, and leaves no rows.
theorem collect_mutation (change : Context → Step Engine Unit) (ctx : Context) (engine : Engine)
    (free : ctx.check engine.clock = .ok ()) :
    (Pipeline.of (.mutation change)).source.collect ctx engine =
      (((change ctx).perform engine).1.map fun _ => [], ((change ctx).perform engine).2) := by
  have started : (Pipeline.of (.mutation change)).source.start ctx engine = .ok true := by
    change (ctx.check engine.clock >>= fun _ => Except.ok true) = _
    rw [free]
    rfl
  have done : Step.perform (Step.ofOutcome (ctx.check engine.clock) >>= fun _ => change ctx) engine =
      (change ctx).perform engine := by
    rw [Step.perform_bind, Step.perform_ofOutcome, free]
  rw [Source.collect, started]
  change (((Pipeline.of (.mutation change)).source.drain ctx true engine).rows,
    ((Pipeline.of (.mutation change)).source.drain ctx true engine).engine) = _
  cases performed : (change ctx).perform engine with
  | mk outcome later =>
      rw [performed] at done
      cases outcome with
      | ok u =>
          have pulled : (Pipeline.of (.mutation change)).source.pull ctx true engine = ⟨.done, false, later⟩ := by
            simp only [Pipeline.of, Source.guarded, Source.mutation, done, if_true]
          rw [Source.drain_done pulled]
          rfl
      | error e =>
          have pulled : (Pipeline.of (.mutation change)).source.pull ctx true engine = ⟨.failed e, false, later⟩ := by
            simp only [Pipeline.of, Source.guarded, Source.mutation, done, if_true]
          rw [Source.drain_failed pulled]
          rfl

theorem execute_becomes (ctx : Context) (plan : Plan) (channels : List Channel) (engine : Engine)
    (reads : plan.reads = true ∨ plan.mutates = true) :
    Becomes plan engine ((execute ctx ⟨plan, channels⟩).perform engine).2 := by
  rw [perform_execute]
  change Becomes plan engine ((plan.pipeline none channels).source.collect ctx engine).2
  rcases reads with reads | mutates
  · exact becomes_alike _ _ (Source.collect_alike (Plan.pipeline_reading none plan channels reads) ctx engine)
  · rw [mutation_pipeline none plan channels mutates]
    cases free : ctx.check engine.clock with
    | error e =>
        have refused : (Pipeline.of (.mutation fun ctx => mutate ctx plan)).source.start ctx engine = .error e := by
          change (ctx.check engine.clock >>= fun _ => Except.ok true) = _
          rw [free]
          rfl
        rw [Source.collect, refused]
        exact becomes_refl engine
    | ok u =>
        rw [collect_mutation _ ctx engine free]
        exact mutate_within ctx plan engine

-- A statement that compiles has the effects of its plan, and another changes nothing.
theorem run_becomes (ctx : Context) (statement : Statement) (engine : Engine) (filed : engine.catalog.Filed) :
    ((run ctx statement).perform engine).2 = engine ∨
      ∃ plan, statement.CompilesTo (engine.scope ctx) plan ∧ plan.Fits engine.catalog ∧
        Becomes plan engine ((run ctx statement).perform engine).2 := by
  rw [perform_run]
  cases compiled : engine.compile ctx statement with
  | error e => exact .inl rfl
  | ok plan =>
      obtain ⟨-, -, compiled⟩ := ok_of_bind compiled
      replace compiled := Statement.compiles_to (engine.scope ctx) engine.gate statement plan compiled
      have opened : Becomes plan engine (engine.adopt plan).2 :=
        becomes_unrecorded engine engine.store.desk engine.warnings (engine.channels + plan.distinctCount)
      have known := Statement.compile_fits (engine.scope ctx) statement plan filed compiled
      refine .inr ⟨plan, compiled, ?_, becomes_trans _ _ _ opened ?_⟩
      · rcases known with reads | ⟨-, fits⟩
        · cases plan with
          | createTable | alterTable | insert => cases reads
          | _ => trivial
        · exact fits
      · exact execute_becomes ctx plan _ _ (known.imp_right And.left)

-- What a statement leaves that makes a change.
def changed (engine : Engine) (ctx : Context) (statement : Statement) : Engine :=
  match statement.compile (engine.scope ctx) engine.gate with
  | .ok plan => ((mutate ctx plan).perform (engine.adopt plan).2).2
  | .error _ => engine

theorem run_changed (engine : Engine) (ctx : Context) (statement : Statement) (live : ctx.check engine.clock = .ok ())
    (makes : statement.asks = false) : ((run ctx statement).perform engine).2 = engine.changed ctx statement := by
  have same : engine.compile ctx statement = statement.compile (engine.scope ctx) engine.gate := by
    rw [compile, live]
    rfl
  rw [perform_run, same, changed]
  cases compiled : statement.compile (engine.scope ctx) engine.gate with
  | error e => rfl
  | ok plan =>
      have mutates : plan.mutates = true := by
        cases Statement.compiles_to (engine.scope ctx) engine.gate statement plan compiled with
        | reading _ _ asks =>
            rw [makes] at asks
            cases asks
        | createDatabase | dropDatabase | alterDatabase | createTable | dropTable | alterTable | insert => rfl
      dsimp only
      rw [perform_execute]
      change ((plan.pipeline none (engine.adopt plan).1.channels).source.collect ctx (engine.adopt plan).2).2 = _
      rw [mutation_pipeline none plan _ mutates]
      rw [collect_mutation _ ctx (engine.adopt plan).2 live]

end Engine

namespace Effect

variable {plan : Plan} {before after : Tracked}

-- Effects of one plan, one after the other.
theorem run_keeps_sound (effects : Relation.ReflTransGen (Effect plan) before after)
    (fits : plan.Fits before.engine.catalog) (sound : before.Sound) : plan.Fits after.engine.catalog ∧ after.Sound := by
  induction effects with
  | refl => exact ⟨fits, sound⟩
  | tail _ effect ih => exact ⟨effect.keeps_fit ih.1, effect.keeps_sound ih.1 ih.2⟩

-- What every effect of a plan keeps on sound engines, a run of its effects keeps.
theorem run_keeps {P : Tracked → Prop} (effects : Relation.ReflTransGen (Effect plan) before after)
    (fits : plan.Fits before.engine.catalog) (sound : before.Sound)
    (step : ∀ a b, Effect plan a b → plan.Fits a.engine.catalog → a.Sound → P a → P b) (holds : P before) : P after := by
  induction effects with
  | refl => exact holds
  | tail earlier effect ih =>
      obtain ⟨fits, sound⟩ := run_keeps_sound earlier fits sound
      exact step _ _ effect fits sound ih

theorem deleted_tables_shape (tables : List Table) (store : Store) :
    store.SameShape (tables.foldl (fun store table => store.deleteTable table.id) store) := by
  induction tables generalizing store with
  | nil => exact ⟨rfl, rfl, rfl⟩
  | cons table tables ih => exact Store.same_shape_trans _ (store.deleteTable table.id) _ ⟨rfl, rfl, rfl⟩ (ih _)

-- No effect changes the configuration, or where the records are placed.
theorem keeps_frame (effect : Effect plan before after) :
    after.engine.config = before.engine.config ∧ before.engine.store.SameShape after.engine.store := by
  cases effect with
  | databaseDropped name ifExists tables => exact ⟨rfl, deleted_tables_shape tables before.engine.store⟩
  | imported insertion width all changes shard store planned made among taken =>
      refine ⟨rfl, ?_⟩
      obtain ⟨_, -, taken⟩ := ok_of_bind taken
      obtain ⟨owners, -, taken⟩ := ok_of_bind taken
      obtain ⟨partitions, whole, -⟩ :=
        Store.apply_on_all_shape before.engine.store owners insertion.table shard changes
      rw [← Except.ok.inj taken, whole]
      exact ⟨rfl, rfl, rfl⟩
  | _ => exact ⟨rfl, ⟨rfl, rfl, rfl⟩⟩

theorem run_keeps_frame (effects : Relation.ReflTransGen (Effect plan) before after) :
    after.engine.config = before.engine.config ∧ before.engine.store.SameShape after.engine.store := by
  induction effects with
  | refl => exact ⟨rfl, ⟨rfl, rfl, rfl⟩⟩
  | tail _ effect ih =>
      obtain ⟨config, shape⟩ := effect.keeps_frame
      exact ⟨config.trans ih.1, Store.same_shape_trans _ _ _ ih.2 shape⟩

end Effect

namespace Engine

-- Engines that admitted statements reach from a new one, run one after the other, on any file system. Between two of
-- them the gate may be set anew, and other clients may be at the desk.
inductive Reached (admits : Engine → Context → Statement → Prop) (config : Config) (nodes : UInt32) : Engine → Prop
  | opening (directories : Directories) : Reached admits config nodes (.make config nodes directories)
  | served (engine : Engine) (ctx : Context) (statement : Statement) (reached : Reached admits config nodes engine)
      (admitted : admits engine ctx statement) : Reached admits config nodes ((run ctx statement).perform engine).2
  | meanwhile (engine : Engine) (gate : DenyList) (desk : TransactionDesk) (reached : Reached admits config nodes engine) :
      Reached admits config nodes { engine with gate, store := { engine.store with desk } }

variable {admits : Engine → Context → Statement → Prop} {config : Config} {nodes : UInt32} {engine : Engine}

theorem make_sound (config : Config) (nodes : UInt32) (directories : Directories) :
    Tracked.Sound ⟨make config nodes directories, []⟩ := by
  refine ⟨⟨nofun, nofun, nofun⟩, Store.make_mirrors nodes config.replicas config.shardWidth 0, ?_, nofun⟩
  intro entry member
  rcases member with member | member
  · cases member
  · cases member

theorem reached_sound (reached : Reached admits config nodes engine) : ∃ written, Tracked.Sound ⟨engine, written⟩ := by
  induction reached with
  | opening directories => exact ⟨[], make_sound config nodes directories⟩
  | served engine ctx statement _ _ ih =>
      obtain ⟨written, sound⟩ := ih
      rcases run_becomes ctx statement engine sound.filed with same | ⟨plan, -, fits, becomes⟩
      · exact ⟨written, same.symm ▸ sound⟩
      · obtain ⟨later, effects⟩ := becomes written
        exact ⟨later, (Effect.run_keeps_sound effects fits sound).2⟩
  | meanwhile engine gate desk _ ih =>
      obtain ⟨written, sound⟩ := ih
      exact ⟨written, sound.filed, Tracked.mirrors_desk _ _ sound.mirrors desk, sound.live, sound.taken⟩

theorem reached_changed (reached : Reached admits config nodes engine) (ctx : Context) (statement : Statement)
    (live : ctx.check engine.clock = .ok ()) (makes : statement.asks = false) (admitted : admits engine ctx statement) :
    Reached admits config nodes (engine.changed ctx statement) :=
  run_changed engine ctx statement live makes ▸ .served engine ctx statement reached admitted

theorem reached_frame (reached : Reached admits config nodes engine) :
    engine.config = config ∧ (make config nodes).store.SameShape engine.store := by
  induction reached with
  | opening => exact ⟨rfl, ⟨rfl, rfl, rfl⟩⟩
  | served engine ctx statement before _ ih =>
      obtain ⟨written, sound⟩ := reached_sound before
      rcases run_becomes ctx statement engine sound.filed with same | ⟨plan, -, -, becomes⟩
      · exact same.symm ▸ ih
      · obtain ⟨later, effects⟩ := becomes []
        obtain ⟨kept, shape⟩ := Effect.run_keeps_frame effects
        exact ⟨kept.trans ih.1, Store.same_shape_trans _ _ _ ih.2 shape⟩
  | meanwhile engine gate desk _ ih =>
      exact ⟨ih.1, Store.same_shape_trans _ _ _ ih.2 ⟨rfl, rfl, rfl⟩⟩

end Engine

end ShardQuery
