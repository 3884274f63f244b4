import ShardQuery.Proofs.Engine.Apart
import ShardQuery.Proofs.Engine.Conforming
import ShardQuery.Proofs.Engine.Paired
import ShardQuery.Proofs.Engine.Selected
import ShardQuery.Proofs.Statement.Unordered
/-!
Clusters of two shapes under the same statements. Main statement: whatever the number of nodes and replicas and the width
of shards, every statement succeeds on both or on neither, and a query without a window has the same rows on both, in the
order that it asks for.
-/

set_option autoImplicit false

namespace ShardQuery

-- Plans that list what the catalog has.
def Plan.Lists : Plan → Prop
  | .showDatabases | .showTables _ | .showColumns .. => True
  | _ => False

namespace Engine

section Told

variable {engine : Engine} {ctx : Context}

-- Streams, and what has to be told apart in them, do not depend on the warning channels that are open.
theorem stream_adopted (engine : Engine) (adopted : Plan) (seed : Option Row) (plan : Plan) (ctx : Context) :
    plan.stream (engine.adopt adopted).2 seed ctx = plan.stream engine seed ctx := by
  induction plan generalizing ctx with
  | fanOut _ _ ih | distinct _ ih =>
      simp only [Plan.stream, ih]
      rfl
  | filter _ _ ih | project _ _ _ ih | orderBy _ _ ih | limit _ _ ih => simp only [Plan.stream, ih]
  | scan | values | showDatabases | showTables | showColumns | createDatabase | dropDatabase | alterDatabase | createTable
  | dropTable | alterTable | insert => rfl

theorem told_adopted (engine : Engine) (adopted : Plan) (seed : Option Row) (plan : Plan) (ctx : Context)
    (told : plan.ToldApart engine seed ctx) : plan.ToldApart (engine.adopt adopted).2 seed ctx := by
  induction plan generalizing ctx with
  | fanOut table child ih => exact fun nodes placed node member => ih _ (told nodes placed node member)
  | distinct child ih =>
      refine ⟨ih ctx told.1, fun stream known => ?_⟩
      rw [stream_adopted] at known
      exact told.2 stream known
  | filter _ _ ih | project _ _ _ ih | orderBy _ _ ih | limit _ _ ih => exact ih ctx told
  | scan | values | showDatabases | showTables | showColumns | createDatabase | dropDatabase | alterDatabase | createTable
  | dropTable | alterTable | insert => trivial

-- What a plan that only reads comes to, where its stream tells an outcome.
theorem execute_tells {plan : Plan} {stream : Stream} {outcome : Outcome (List Row)} (channels : List Channel)
    (reads : plan.reads = true) (live : ctx.check engine.clock = .ok ())
    (usable : engine.CanSpill)
    (told : plan.ToldApart engine none ctx) (streams : plan.stream engine none ctx = .ok stream)
    (tells : stream.Tells outcome) :
    Agree (fun (result : QueryResult) rows => result.schema = plan.schema ∧ result.rows = rows)
      ((execute ctx ⟨plan, channels⟩).perform engine).1 outcome := by
  have hands := Plan.pipeline_streams none plan reads channels ⟨ctx, engine, false⟩ live usable told
  rw [streams] at hands
  obtain ⟨response, warnings, gives, answered⟩ := execute_gives live hands
  rw [answered]
  cases response with
  | ok rows =>
      obtain ⟨whole, rfl⟩ := gives
      cases outcome with
      | ok rows =>
          obtain rfl : stream = ⟨rows, []⟩ := tells
          exact ⟨rfl, rfl⟩
      | error e => exact absurd whole tells
  | error e =>
      cases outcome with
      | ok rows =>
          obtain rfl : stream = ⟨rows, []⟩ := tells
          cases gives
      | error e' => trivial

theorem run_tells {statement : Statement} {plan : Plan} {stream : Stream} {outcome : Outcome (List Row)}
    (compiled : engine.compile ctx statement = .ok plan) (reads : plan.reads = true)
    (usable : engine.CanSpill)
    (told : plan.ToldApart engine none ctx) (streams : plan.stream engine none ctx = .ok stream)
    (tells : stream.Tells outcome) :
    Agree (fun (result : QueryResult) rows => result.schema = plan.schema ∧ result.rows = rows)
      ((run ctx statement).perform engine).1 outcome := by
  obtain ⟨⟨⟩, live, -⟩ := ok_of_bind compiled
  rw [perform_run, compiled]
  exact execute_tells _ reads live usable (told_adopted engine plan none plan ctx told)
    ((stream_adopted engine plan none plan ctx).trans streams) tells

variable {config : Config} {nodes : UInt32}

-- The columns of the tables of an engine that no column was added to under another spelling are each of one type.
theorem reached_consistent (reached : Reached admitsNoRespelling config nodes engine) (ctx : Context) (query : Select) :
    ∀ source table, query.source? = some source → (engine.scope ctx).table source.name = .ok table → table.Consistent := by
  intro source table _ found field among other among' same
  obtain ⟨id, live⟩ := Scope.table_found found
  rw [Table.same_key (reached_apart reached id table live) field other among among' same]

-- A query comes to what the analyzed query hands out on the records of its table.
theorem selected_as_analyzed (reached : Reached admitsNoRespelling config nodes engine) (valid : config.validate = .ok ())
    (usable : engine.CanSpill) (unbound : ctx.cluster = []) {query analyzed : Select} {input output : Schema} {records : List Row} {plan : Plan}
    (accepted : query.analyze (engine.scope ctx) = .ok analyzed)
    (described : outputSchema analyzed.projection input = .ok output)
    (read : query.reads (engine.scope ctx) engine.store = .ok (input, records))
    (compiled : engine.compile ctx (.select query) = .ok plan)
    (told : plan.ToldApart engine none ctx) :
    Agree (fun (result : QueryResult) rows => result.schema = output ∧ result.rows = rows)
      ((run ctx (.select query)).perform engine).1 (analyzed.handed input output records) := by
  obtain ⟨written, sound⟩ := reached_sound reached
  obtain ⟨configured, -⟩ := reached_frame reached
  obtain ⟨found, fits⟩ := reads_fit sound ctx query (reached_consistent reached ctx query) input records read
  obtain ⟨own, shape, found', analysis⟩ := Select.analysis_of_ok accepted
  cases found.symm.trans found'
  cases described.symm.trans analysis.described
  obtain ⟨-, -, planned⟩ := ok_of_bind compiled
  have known : analyzed.compile (engine.scope ctx) engine.gate = .ok plan := by
    obtain ⟨statement, done, planned⟩ := ok_of_bind planned
    rw [Statement.analyze, accepted] at done
    cases done
    exact planned
  have valid' : engine.config.validate = .ok () := configured.symm ▸ valid
  obtain ⟨rfl, stream, streams, tells⟩ :=
    Select.compile_told valid' usable analysis unbound sound.mirrors found read fits known
  exact run_tells compiled (Select.compile_reads _ _ _ _ known) usable told streams tells

end Told

section Twofold

open ClusterShape

variable {config : Config} {shape shape' : ClusterShape} {a b : Engine}

theorem paired_alike {a' b' : Engine} (paired : Paired config shape shape' a b) (alike : a.Alike a')
    (alike' : b.Alike b') : Paired config shape shape' a' b' := by
  obtain ⟨warnings, rfl⟩ := alike
  obtain ⟨warnings', rfl⟩ := alike'
  exact ⟨paired.catalog, paired.gate, paired.desk, paired.records,
    ⟨paired.left.configured, paired.left.placed, paired.left.orderly⟩,
    ⟨paired.right.configured, paired.right.placed, paired.right.orderly⟩⟩

theorem paired_adopt (paired : Paired config shape shape' a b) (plan : Plan) :
    Paired config shape shape' (a.adopt plan).2 (b.adopt plan).2 :=
  ⟨paired.catalog, paired.gate, paired.desk, paired.records,
    ⟨paired.left.configured, paired.left.placed, paired.left.orderly⟩,
    ⟨paired.right.configured, paired.right.placed, paired.right.orderly⟩⟩

theorem paired_clock (paired : Paired config shape shape' a b) : a.clock = b.clock :=
  congrArg TransactionDesk.clock paired.desk

theorem paired_scope (paired : Paired config shape shape' a b) (ctx : Context) (turns : List Nat) :
    b.scope { ctx with turns } = a.scope ctx := by
  rw [scope, scope, paired.catalog, paired_holds paired]

theorem paired_compile (paired : Paired config shape shape' a b) (ctx : Context) (turns : List Nat)
    (statement : Statement) : b.compile { ctx with turns } statement = a.compile ctx statement := by
  rw [compile, compile, paired_scope paired, paired.gate, paired_clock paired]
  rfl

-- Both answer with the same columns and rows.
def SameRows (result result' : QueryResult) : Prop := result.schema = result'.schema ∧ result.rows = result'.rows

-- A change leaves no rows.
theorem execute_mutation (ctx : Context) {plan : Plan} (channels : List Channel) (mutates : plan.mutates = true)
    (engine : Engine) : (execute ctx ⟨plan, channels⟩).perform engine =
      match ctx.check engine.clock with
      | .error e => (.error e, engine)
      | .ok _ =>
          let made := (mutate ctx plan).perform engine
          (made.1.map fun _ => ⟨plan.schema, [], made.2.warningsOf ⟨plan, channels⟩⟩, made.2) := by
  rw [perform_execute, Handle.pipeline, mutation_pipeline none plan channels mutates]
  cases live : ctx.check engine.clock with
  | ok u =>
      rw [collect_mutation _ ctx engine live]
      dsimp only
      rcases (mutate ctx plan).perform engine with ⟨_ | _, later⟩
      · rfl
      · rfl
  | error e =>
      have refused : (Pipeline.of (.mutation fun ctx => mutate ctx plan)).source.start ctx engine = .error e := by
        change (ctx.check engine.clock >>= fun _ => Except.ok true) = _
        rw [live]
        rfl
      rw [Source.collect, refused]
      rfl

theorem execute_in_step (sound : shape.Sound) (sound' : shape'.Sound) (paired : Paired config shape shape' a b)
    (ctx : Context) (turns : List Nat) {plan : Plan} (channels channels' : List Channel)
    (known : plan.reads = true ∨ plan.mutates = true) (takes : shape.Takes plan) (takes' : shape'.Takes plan) :
    Paired config shape shape' ((execute ctx ⟨plan, channels⟩).perform a).2
        ((execute { ctx with turns } ⟨plan, channels'⟩).perform b).2 ∧
      (plan.mutates = true → Agree SameRows ((execute ctx ⟨plan, channels⟩).perform a).1
        ((execute { ctx with turns } ⟨plan, channels'⟩).perform b).1) := by
  rcases known with reads | mutates
  · rw [perform_execute, perform_execute]
    refine ⟨paired_alike paired (Source.collect_alike (Plan.pipeline_reading none plan channels reads) ctx a)
      (Source.collect_alike (Plan.pipeline_reading none plan channels' reads) { ctx with turns } b), fun mutates => ?_⟩
    cases plan with
    | createDatabase | dropDatabase | alterDatabase | createTable | dropTable | alterTable | insert => cases reads
    | _ => cases mutates
  · rw [execute_mutation ctx channels mutates, execute_mutation { ctx with turns } channels' mutates]
    have same : { ctx with turns }.check b.clock = ctx.check a.clock := congrArg ctx.check (paired_clock paired).symm
    rw [same]
    cases ctx.check a.clock with
    | ok u =>
        obtain ⟨outcome, kept⟩ := mutate_in_step sound sound' ctx turns plan takes takes' a b paired
        refine ⟨kept, fun _ => ?_⟩
        dsimp only
        rw [outcome]
        cases ((mutate { ctx with turns } plan).perform b).1 with
        | ok u => exact ⟨rfl, rfl⟩
        | error e => trivial
    | error e => exact ⟨paired, fun _ => trivial⟩

theorem run_in_step (sound : shape.Sound) (sound' : shape'.Sound) (paired : Paired config shape shape' a b)
    (filed : a.catalog.Filed) (ctx : Context) (turns : List Nat) (statement : Statement)
    (takes : ∀ plan, a.compile ctx statement = .ok plan → shape.Takes plan ∧ shape'.Takes plan) :
    Paired config shape shape' ((run ctx statement).perform a).2 ((run { ctx with turns } statement).perform b).2 ∧
      (∀ plan, a.compile ctx statement = .ok plan → plan.mutates = true →
        Agree SameRows ((run ctx statement).perform a).1 ((run { ctx with turns } statement).perform b).1) := by
  rw [perform_run, perform_run, paired_compile paired]
  cases compiled : a.compile ctx statement with
  | error e => exact ⟨paired, nofun⟩
  | ok plan =>
      obtain ⟨-, -, planned⟩ := ok_of_bind compiled
      have known := Statement.compile_fits (a.scope ctx) statement plan filed (Statement.compiles_to _ _ _ _ planned)
      obtain ⟨kept, answers⟩ := execute_in_step sound sound' (paired_adopt paired plan) ctx turns
        (a.adopt plan).1.channels (b.adopt plan).1.channels (known.imp_right And.left) (takes plan compiled).1
        (takes plan compiled).2
      refine ⟨kept, fun other same mutates => ?_⟩
      obtain rfl := Except.ok.inj same
      exact answers mutates

end Twofold

section Listings

variable {plan : Plan}

theorem listing_told (lists : plan.Lists) (catalog : Catalog) : ∃ outcome, ∀ (engine : Engine) (ctx : Context),
    engine.catalog = catalog → ∃ stream, plan.stream engine none ctx = .ok stream ∧ stream.Tells outcome := by
  cases plan with
  | showDatabases =>
      refine ⟨.ok catalog.databaseRows, fun engine ctx same => ⟨_, rfl, ?_⟩⟩
      rw [same]
      rfl
  | showTables database =>
      refine ⟨(Catalog.ask (catalog.tableList database)).map (·.map Table.listingRow), fun engine ctx same => ⟨_, rfl, ?_⟩⟩
      rw [same]
      exact Stream.of_outcome_tells _
  | showColumns database table =>
      refine ⟨(Catalog.ask (catalog.tableNamed database table)).map (·.fields.map Field.listingRow),
        fun engine ctx same => ⟨_, rfl, ?_⟩⟩
      rw [same]
      exact Stream.of_outcome_tells _
  | scan | values | filter | project | distinct | fanOut | orderBy | limit | createDatabase | dropDatabase
  | alterDatabase | createTable | dropTable | alterTable | insert => cases lists

theorem compile_kind {engine : Engine} {ctx : Context} {statement : Statement}
    (compiled : engine.compile ctx statement = .ok plan) :
    (∃ query, statement = .select query) ∨ (∀ query, statement ≠ .select query) ∧ (plan.Lists ∨ plan.mutates = true) := by
  obtain ⟨-, -, planned⟩ := ok_of_bind compiled
  cases Statement.compiles_to (engine.scope ctx) engine.gate statement plan planned with
  | createDatabase | dropDatabase | alterDatabase | createTable | dropTable | alterTable | insert =>
      exact .inr ⟨nofun, .inr rfl⟩
  | reading _ _ asks =>
      obtain ⟨analyzed, analysis, planned⟩ := ok_of_bind planned
      cases statement with
      | select query => exact .inl ⟨query, rfl⟩
      | showDatabases =>
          cases analysis
          cases planned
          exact .inr ⟨nofun, .inl trivial⟩
      | showTables =>
          obtain ⟨_, -, analysis⟩ := ok_of_bind analysis
          cases analysis
          obtain ⟨_, -, planned⟩ := ok_of_bind planned
          cases planned
          exact .inr ⟨nofun, .inl trivial⟩
      | showColumns table =>
          obtain ⟨_, -, analysis⟩ := ok_of_bind analysis
          cases analysis
          obtain ⟨_, -, planned⟩ := ok_of_bind planned
          cases planned
          exact .inr ⟨nofun, .inl trivial⟩
      | createDatabase | dropDatabase | alterDatabase | createTable | dropTable | alterTable | insert | createView
      | createFunction | createModel | delete => cases asks

end Listings

section SideBySide

open ClusterShape

-- Engines of two shapes, each on its file system, that are given the same statements. Map tasks may take their turns in different orders, and
-- between two statements the gates may be set anew, and other clients may be at both desks.
inductive SideBySide (config : Config) (shape shape' : ClusterShape) : Engine → Engine → Prop
  | opening (directories directories' : Directories) :
      SideBySide config shape shape' (shape.engine config directories) (shape'.engine config directories')
  | served (a b : Engine) (ctx : Context) (turns : List Nat) (statement : Statement)
      (before : SideBySide config shape shape' a b) (spelled : ¬ statement.Respells (a.scope ctx))
      (takes : ∀ plan, a.compile ctx statement = .ok plan → shape.Takes plan ∧ shape'.Takes plan) :
      SideBySide config shape shape' ((run ctx statement).perform a).2 ((run { ctx with turns } statement).perform b).2
  | meanwhile (a b : Engine) (gate : DenyList) (desk : TransactionDesk) (before : SideBySide config shape shape' a b) :
      SideBySide config shape shape' { a with gate, store := { a.store with desk } }
        { b with gate, store := { b.store with desk } }

variable {config : Config} {shape shape' : ClusterShape} {a b : Engine} {ctx : Context} {turns : List Nat}

theorem side_by_side_paired (sound : shape.Sound) (sound' : shape'.Sound) (beside : SideBySide config shape shape' a b) :
    Reached admitsNoRespelling (shape.configure config) shape.nodes a ∧
      Reached admitsNoRespelling (shape'.configure config) shape'.nodes b ∧ Paired config shape shape' a b := by
  induction beside with
  | opening directories directories' =>
      exact ⟨.opening directories, .opening directories', make_paired config shape shape' directories directories'⟩
  | served a b ctx turns statement _ spelled takes ih =>
      obtain ⟨reached, reached', paired⟩ := ih
      obtain ⟨written, tracked⟩ := reached_sound reached
      refine ⟨.served a ctx statement reached spelled, .served b { ctx with turns } statement reached' ?_,
        (run_in_step sound sound' paired tracked.filed ctx turns statement takes).1⟩
      rw [admitsNoRespelling, paired_scope paired]
      exact spelled
  | meanwhile a b gate desk _ ih =>
      obtain ⟨reached, reached', paired⟩ := ih
      refine ⟨.meanwhile a gate desk reached, .meanwhile b gate desk reached', paired.catalog, rfl, rfl, paired.records,
        ⟨paired.left.configured, ?_, Store.orderly_desk paired.left.orderly desk⟩,
        ⟨paired.right.configured, ?_, Store.orderly_desk paired.right.orderly desk⟩⟩
      · exact Store.same_shape_trans _ _ _ paired.left.placed ⟨rfl, rfl, rfl⟩
      · exact Store.same_shape_trans _ _ _ paired.right.placed ⟨rfl, rfl, rfl⟩

theorem side_by_side_changed (beside : SideBySide config shape shape' a b) (ctx : Context) (turns : List Nat)
    (statement : Statement) (live : ctx.check a.clock = .ok ()) (live' : ctx.check b.clock = .ok ())
    (makes : statement.asks = false) (spelled : ¬ statement.Respells (a.scope ctx))
    (takes : ∀ plan, a.compile ctx statement = .ok plan → shape.Takes plan ∧ shape'.Takes plan) :
    SideBySide config shape shape' (a.changed ctx statement) (b.changed { ctx with turns } statement) := by
  rw [← run_changed a ctx statement live makes, ← run_changed b { ctx with turns } statement live' makes]
  exact .served a b ctx turns statement beside spelled takes

-- A query reads the same records on both, in some order.
theorem reads_alike {query : Select} {scope : Scope} {input : Schema} (found : query.input scope = .ok input)
    {store store' : Store} {written written' : List LogEntry} (alike : store.Alike store') (mirrors : store.Mirrors written)
    (mirrors' : store'.Mirrors written') : ∃ records records', query.reads scope store = .ok (input, records) ∧
      query.reads scope store' = .ok (input, records') ∧ records.Perm records' := by
  rw [Select.input] at found
  rw [Select.reads, Select.reads]
  cases source : query.source? with
  | none =>
      rw [source] at found
      cases found
      exact ⟨_, _, rfl, rfl, .refl _⟩
  | some given =>
      rw [source] at found
      obtain ⟨table, held, rfl⟩ := ok_of_map found
      dsimp only
      rw [held]
      exact ⟨_, _, rfl, rfl, Store.alike_rows alike mirrors mirrors' table.id _⟩

-- What one statement comes to on both: the same columns, and the same rows, those of a query in any order.
def SameResult (statement : Statement) (result result' : QueryResult) : Prop :=
  result.schema = result'.schema ∧ match statement with
    | .select query => query.window? = none → Row.AsOften result.rows result'.rows
    | _ => result.rows = result'.rows

-- The rows are in the order of the sort keys, which are compared as they are analyzed, and so as they are written where
-- they have values as such.
def Ordered (query analyzed : Select) (result : QueryResult) : Prop :=
  analyzed.InOrder result.schema result.rows ∧
    ((∀ row ∈ result.rows, ∃ values, query.keysIn result.schema row = .ok values) →
      query.InOrder result.schema result.rows)

theorem analyzed_ordered {query analyzed : Select} {input output : Schema} {records : List Row}
    (analysis : query.Analysis analyzed input output) (fits : ∀ record ∈ records, record.Fits input)
    {outcome : Outcome QueryResult}
    (agree : Agree (fun result rows => result.schema = output ∧ result.rows = rows) outcome
      (analyzed.handed input output records)) {result : QueryResult} (done : outcome = .ok result) :
    Ordered query analyzed result := by
  obtain ⟨rows, handed, shaped, same⟩ := agree_ok agree done
  have arranged := Select.handed_in_order analysis fits handed
  rw [Ordered, shaped, same]
  exact ⟨arranged, Select.in_order_written analysis.ordered (Select.handed_fits analysis.described fits handed) arranged⟩

theorem selected_alike (sound : shape.Sound) (sound' : shape'.Sound) (valid : (shape.configure config).validate = .ok ())
    (valid' : (shape'.configure config).validate = .ok ()) (usable : a.CanSpill) (usable' : b.CanSpill)
    (beside : SideBySide config shape shape' a b) (unbound : ctx.cluster = []) {query : Select} {plan : Plan}
    (compiled : a.compile ctx (.select query) = .ok plan) (told : plan.ToldApart a none ctx)
    (told' : plan.ToldApart b none { ctx with turns }) :
    Agree (SameResult (.select query)) ((run ctx (.select query)).perform a).1
        ((run { ctx with turns } (.select query)).perform b).1 ∧
      ∀ analyzed, query.analyze (a.scope ctx) = .ok analyzed → ∀ result,
        ((run ctx (.select query)).perform a).1 = .ok result ∨
          ((run { ctx with turns } (.select query)).perform b).1 = .ok result → Ordered query analyzed result := by
  obtain ⟨reached, reached', paired⟩ := side_by_side_paired sound sound' beside
  obtain ⟨written, tracked⟩ := reached_sound reached
  obtain ⟨written', tracked'⟩ := reached_sound reached'
  obtain ⟨-, -, planned⟩ := ok_of_bind compiled
  obtain ⟨_, analysis, -⟩ := ok_of_bind planned
  obtain ⟨analyzed, accepted, -⟩ := ok_of_map analysis
  obtain ⟨input, output, found, analysis⟩ := Select.analysis_of_ok accepted
  obtain ⟨records, records', read, read', same⟩ := reads_alike found paired.records tracked.mirrors tracked'.mirrors
  have fits := (reads_fit tracked ctx query (reached_consistent reached ctx query) input records read).2
  have fits' : ∀ record ∈ records', record.Fits input := fun record listed => fits record (same.mem_iff.mpr listed)
  have unbound' : { ctx with turns }.cluster = [] := unbound
  have accepted' : query.analyze (b.scope { ctx with turns }) = .ok analyzed := by rwa [paired_scope paired]
  rw [← paired_scope paired ctx turns] at read'
  have answers := selected_as_analyzed reached valid usable unbound accepted analysis.described read compiled told
  have answers' := selected_as_analyzed reached' valid' usable' unbound' accepted' analysis.described read'
    ((paired_compile paired ctx turns _).trans compiled) told'
  refine ⟨?_, fun other done result either => ?_⟩
  · refine agree_join answers answers' (Select.handed_agree analysis.described same fits) ?_
    rintro result result' rows rows' ⟨shaped, rfl⟩ ⟨shaped', rfl⟩ often
    exact ⟨shaped.trans shaped'.symm, fun none => often (analysis.window.trans none)⟩
  · obtain rfl := Except.ok.inj (accepted.symm.trans done)
    rcases either with done | done
    · exact analyzed_ordered analysis fits answers done
    · exact analyzed_ordered analysis fits' answers' done

theorem listed_alike (paired : Paired config shape shape' a b) (usable : a.CanSpill) (usable' : b.CanSpill)
    {statement : Statement} {plan : Plan} (compiled : a.compile ctx statement = .ok plan) (lists : plan.Lists) :
    Agree SameRows ((run ctx statement).perform a).1 ((run { ctx with turns } statement).perform b).1 := by
  obtain ⟨outcome, told⟩ := listing_told lists a.catalog
  obtain ⟨stream, streams, tells⟩ := told a ctx rfl
  obtain ⟨stream', streams', tells'⟩ := told b { ctx with turns } paired.catalog.symm
  have plain : plan.reads = true ∧ plan.ToldApart a none ctx ∧ plan.ToldApart b none { ctx with turns } := by
    cases plan with
    | showDatabases | showTables | showColumns => exact ⟨rfl, trivial, trivial⟩
    | scan | values | filter | project | distinct | fanOut | orderBy | limit | createDatabase | dropDatabase
    | alterDatabase | createTable | dropTable | alterTable | insert => cases lists
  have compiled' := (paired_compile paired ctx turns statement).trans compiled
  refine agree_join (run_tells compiled plain.1 usable plain.2.1 streams tells)
    (run_tells compiled' plain.1 usable' plain.2.2 streams' tells') (agree_of_eq rfl) ?_
  rintro result result' rows rows' ⟨shaped, rfl⟩ ⟨shaped', rfl⟩ same
  exact ⟨shaped.trans shaped'.symm, same⟩

theorem sound_of_valid (valid : (shape.configure config).validate = .ok ()) (counts : shape.replicas % 2 ^ 32 ≠ 0) :
    shape.Sound := by
  refine ⟨fun none => ?_, counts⟩
  rw [Config.validate] at valid
  split at valid
  · cases valid
  · split at valid
    · cases valid
    · split at valid
      · cases valid
      · rw [if_pos (.inl none)] at valid
        cases valid

-- The next statement comes to the same on both.
theorem shapes_agree (config : Config) (shape shape' : ClusterShape) (valid : (shape.configure config).validate = .ok ())
    (valid' : (shape'.configure config).validate = .ok ()) (a b : Engine) (usable : a.CanSpill) (usable' : b.CanSpill)
    (counts : shape.replicas % 2 ^ 32 ≠ 0) (counts' : shape'.replicas % 2 ^ 32 ≠ 0)
    (beside : SideBySide config shape shape' a b) (ctx : Context) (turns : List Nat) (unbound : ctx.cluster = [])
    (statement : Statement)
    (takes : ∀ plan, a.compile ctx statement = .ok plan → shape.Takes plan ∧ shape'.Takes plan)
    (told : ∀ plan, a.compile ctx statement = .ok plan →
      plan.ToldApart a none ctx ∧ plan.ToldApart b none { ctx with turns }) :
    Agree (SameResult statement) ((run ctx statement).perform a).1 ((run { ctx with turns } statement).perform b).1 ∧
      ∀ query analyzed, statement = .select query → query.analyze (a.scope ctx) = .ok analyzed → ∀ result,
        ((run ctx statement).perform a).1 = .ok result ∨ ((run { ctx with turns } statement).perform b).1 = .ok result →
          Ordered query analyzed result := by
  have sound := sound_of_valid valid counts
  have sound' := sound_of_valid valid' counts'
  obtain ⟨reached, -, paired⟩ := side_by_side_paired sound sound' beside
  obtain ⟨written, tracked⟩ := reached_sound reached
  cases compiled : a.compile ctx statement with
  | error e =>
      rw [perform_run, perform_run, paired_compile paired, compiled]
      refine ⟨trivial, fun query analyzed _ _ result either => ?_⟩
      rcases either with done | done
      · cases done
      · cases done
  | ok plan =>
      rcases compile_kind compiled with ⟨query, rfl⟩ | ⟨asksNot, other⟩
      · obtain ⟨alike, ordered⟩ := selected_alike sound sound' valid valid' usable usable' beside unbound compiled
          (told plan compiled).1 (told plan compiled).2
        refine ⟨alike, fun own analyzed same => ?_⟩
        obtain rfl := Statement.select.inj same
        exact ordered analyzed
      · have rows : Agree SameRows ((run ctx statement).perform a).1 ((run { ctx with turns } statement).perform b).1 := by
          rcases other with lists | mutates
          · exact listed_alike paired usable usable' compiled lists
          · exact (run_in_step sound sound' paired tracked.filed ctx turns statement takes).2 plan compiled mutates
        refine ⟨agree_imp rows fun result result' _ _ same => ⟨same.1, ?_⟩, fun query _ same => (asksNot query same).elim⟩
        cases statement with
        | select query => exact (asksNot query rfl).elim
        | _ => exact same.2

end SideBySide

section Tallies

-- The table of `tally` in a cluster of any shape.
def tallied (shape : ClusterShape) : Engine :=
  (((shape.engine smallShards).changed (.of "main") (.createDatabase "main" false .empty)).changed (.of "main")
    (.createTable "tally" false tallyFields none)).changed (.of "main")
      (.insert "tally" [idColumn, "n"] ([(1, 4), (2, 7), (3, 4), (4, 9), (6, 7)].map fun entry =>
        [.literal (.int entry.1), .literal (.int entry.2)]))

theorem tallied_beside {shape shape' : ClusterShape} (wide : 2 ≤ shape.width) (wide' : 2 ≤ shape'.width) :
    SideBySide smallShards shape shape' (tallied shape) (tallied shape') := by
  have takes (plan : Plan) : shape.Takes plan ∧ shape'.Takes plan :=
    ⟨ClusterShape.takes_of_width wide plan, ClusterShape.takes_of_width wide' plan⟩
  refine side_by_side_changed (side_by_side_changed (side_by_side_changed (.opening _ _) (.of "main") [] _ rfl rfl rfl id ?_)
    (.of "main") [] _ rfl rfl rfl id ?_) (.of "main") [] _ rfl rfl rfl id ?_
  all_goals exact fun plan _ => takes plan

-- The records of `tally` lie in two shards, each on its node.
def twoShards : ClusterShape := ⟨2, 1, 4⟩

-- They lie in one shard, which two of three nodes have.
def oneShard : ClusterShape := ⟨3, 2, 1048576⟩

def talliedQuery : Select := { tallyQuery with window? := none }

def talliedSums : Plan :=
  .project [.binary (.column 1) .plus (.literal (.int 1))] ⟨[⟨"m", .int, true, none⟩]⟩
    (.filter (.binary (.column 1) .lt (.literal (.int 9))) (Select.compileScan tallyTable "x"))

def talliedPlan : Plan := .orderBy [⟨.column 0, true⟩] (.distinct (.fanOut tallyTable.id (.distinct talliedSums)))

-- Sums as they come out of operators.
def sums (values : List Int64) : Stream := ⟨values.map fun n => ⟨[.int n]⟩, []⟩

-- The sums of the records of each node have to be told apart, and then those that are left on all nodes.
theorem tallied_told {engine : Engine} {ctx : Context} {nodes : List ClusterNode} (each : ClusterNode → List Int64)
    (all : List Int64) (placed : Source.nodesFor ctx tallyTable.id engine = .ok nodes)
    (summed : ∀ node ∈ nodes, talliedSums.stream engine none (ctx.onNode nodes node) = .ok (sums (each node)))
    (apart : ∀ node ∈ nodes, Row.ToldApart engine.config.pageSize (sums (each node)).rows)
    (merged : (Plan.fanOut tallyTable.id (.distinct talliedSums)).stream engine none ctx = .ok (sums all))
    (allApart : Row.ToldApart engine.config.pageSize (sums all).rows) : talliedPlan.ToldApart engine none ctx := by
  refine ⟨fun others found node member => ⟨trivial, fun stream known => ?_⟩, fun stream known => ?_⟩
  · obtain rfl := Except.ok.inj (placed.symm.trans found)
    obtain rfl := Except.ok.inj ((summed node member).symm.trans known)
    exact apart node member
  · obtain rfl := Except.ok.inj (merged.symm.trans known)
    exact allApart

theorem tallied_scans {shape : ClusterShape} {held : List ShardId}
    (holds : (tallied shape).store.shards tallyTable.id = held) (ctx : Context) (nodes : List ClusterNode)
    (node : ClusterNode) : Source.scanShards (ctx.onNode nodes node) (tallied shape).store tallyTable.id =
      held.filter node.serves := by
  rw [← holds]
  rfl

theorem two_shards_summed :
    (Plan.fanOut tallyTable.id (.distinct talliedSums)).stream (tallied twoShards) none takingTurns =
      .ok (sums [5, 8, 8]) ∧
    talliedPlan.ToldApart (tallied twoShards) none takingTurns := by
  have held : (tallied twoShards).store.shards tallyTable.id = [0, 1] :=
    Store.shards_of_held [0, 1] (by decide +kernel) (by decide)
  have placed : Source.nodesFor takingTurns tallyTable.id (tallied twoShards) = .ok [⟨⟨0⟩, [0]⟩, ⟨⟨1⟩, [1]⟩] := by
    rw [Source.nodesFor, held]
    decide +kernel
  have merged : (Plan.fanOut tallyTable.id (.distinct talliedSums)).stream (tallied twoShards) none takingTurns =
      .ok (sums [5, 8, 8]) := by
    simp only [Plan.stream, placed, talliedSums, Select.compileScan, tallied_scans held]
    decide +kernel
  refine ⟨merged, tallied_told (fun node => if node.serves 0 then [5, 8, 5] else [8]) _ placed ?_ ?_ merged ?_⟩
  · simp only [Plan.stream, talliedSums, Select.compileScan, tallied_scans held]
    decide +kernel
  · intro node member
    constructor
    · revert node
      decide +kernel
    · revert node
      decide +kernel
  · exact ⟨by decide +kernel, by decide +kernel⟩

theorem one_shard_told : talliedPlan.ToldApart (tallied oneShard) none (.of "main") := by
  have held : (tallied oneShard).store.shards tallyTable.id = [0] :=
    Store.shards_of_held [0, 0] (by decide +kernel) (by decide)
  have placed : Source.nodesFor (.of "main") tallyTable.id (tallied oneShard) = .ok [⟨⟨0⟩, [0]⟩] := by
    rw [Source.nodesFor, held]
    decide +kernel
  refine tallied_told (fun _ => [5, 8, 5, 8]) [5, 8] placed ?_ (fun _ _ => ⟨by decide +kernel, by decide +kernel⟩) ?_
    ⟨by decide +kernel, by decide +kernel⟩
  · simp only [Plan.stream, talliedSums, Select.compileScan, tallied_scans held]
    decide +kernel
  · simp only [Plan.stream, placed, talliedSums, Select.compileScan, tallied_scans held]
    decide +kernel

theorem two_swapped {α : Type} {le : α → α → Bool} {first second : α} (later : le first second = false) :
    [first, second].mergeSort le = [second, first] := by
  simp [List.mergeSort, later]

-- The greater sum comes first.
theorem two_shards_streams : talliedPlan.stream (tallied twoShards) none takingTurns = .ok (sums [8, 5]) := by
  have told : (Plan.distinct (.fanOut tallyTable.id (.distinct talliedSums))).stream (tallied twoShards) none takingTurns =
        .ok (sums [5, 8]) ∧
      (sums [5, 8]).rows.mapM (SortKey.keyed [⟨.column 0, true⟩] none) =
        .ok [([.int 5], ⟨[.int 5]⟩), ([.int 8], ⟨[.int 8]⟩)] := by
    rw [Plan.stream, two_shards_summed.1]
    decide +kernel
  obtain ⟨distinct, keyed⟩ := told
  have ordered : SortKey.sortRows [⟨.column 0, true⟩] none (sums [5, 8]).rows = .ok (sums [8, 5]).rows := by
    refine bind_of_ok keyed ?_
    rw [SortKey.sort, SortKey.arrange, two_swapped (by decide)]
    rfl
  rw [talliedPlan, Plan.stream, distinct]
  change Except.ok (Stream.arranged _ _) = _
  rw [Stream.arranged, if_pos (show (sums [5, 8]).errors = [] from rfl), ordered]
  rfl

theorem two_shards_answered : ∃ result,
    ((run takingTurns (.select talliedQuery)).perform (tallied twoShards)).1 = .ok result ∧ result.rows = (sums [8, 5]).rows := by
  have planned : (tallied twoShards).compile takingTurns (.select talliedQuery) = .ok talliedPlan := rfl
  have tells : (sums [8, 5]).Tells (.ok (sums [8, 5]).rows) := rfl
  obtain ⟨result, answered, -, same⟩ :=
    agree_ok_right (run_tells planned rfl nofun two_shards_summed.2 two_shards_streams tells) rfl
  exact ⟨result, answered, same⟩

theorem tallies_agree : ∃ result result',
    ((run takingTurns (.select talliedQuery)).perform (tallied twoShards)).1 = .ok result ∧
    ((run (.of "main") (.select talliedQuery)).perform (tallied oneShard)).1 = .ok result' ∧
    result.rows = (sums [8, 5]).rows ∧ SameResult (.select talliedQuery) result result' ∧
    ∃ analyzed, Ordered talliedQuery analyzed result' := by
  obtain ⟨result, answered, rows⟩ := two_shards_answered
  have planned : (tallied twoShards).compile takingTurns (.select talliedQuery) = .ok talliedPlan := rfl
  have takes (plan : Plan) : twoShards.Takes plan ∧ oneShard.Takes plan :=
    ⟨ClusterShape.takes_of_width (by decide) plan, ClusterShape.takes_of_width (by decide) plan⟩
  have told (plan : Plan) (compiled : (tallied twoShards).compile takingTurns (.select talliedQuery) = .ok plan) :
      plan.ToldApart (tallied twoShards) none takingTurns ∧ plan.ToldApart (tallied oneShard) none (.of "main") := by
    obtain rfl := Except.ok.inj (planned.symm.trans compiled)
    exact ⟨two_shards_summed.2, one_shard_told⟩
  obtain ⟨agree, ordered⟩ := shapes_agree smallShards twoShards oneShard (by decide) (by decide) (tallied twoShards)
    (tallied oneShard) (can_spill_of_memory rfl) (can_spill_of_memory rfl) (by decide) (by decide)
    (tallied_beside (by decide) (by decide)) takingTurns [] rfl (.select talliedQuery) (fun plan _ => takes plan) told
  obtain ⟨result', answered', same⟩ := agree_ok agree answered
  obtain ⟨-, -, planned⟩ := ok_of_bind planned
  obtain ⟨_, analysis, -⟩ := ok_of_bind planned
  rw [Statement.analyze] at analysis
  obtain ⟨analyzed, accepted, -⟩ := ok_of_map analysis
  have arranged := ordered _ analyzed rfl accepted result' (.inr answered')
  exact ⟨result, result', answered, answered', rows, same, analyzed, arranged⟩

end Tallies

section Uncounted

def counted : ClusterShape := ⟨1, 1, 1048576⟩

-- In 32 bits it has no replicas.
def uncounted : ClusterShape := ⟨1, 4294967296, 1048576⟩

def everyTally : Select := ⟨false, [.wildcard none], some ⟨"tally", none⟩, none, [], none⟩

def everyTallyPlan : Plan :=
  .fanOut tallyTable.id (.project [.column 0, .column 1]
    ⟨[⟨idColumn, .id, false, some "tally"⟩, ⟨"n", .int, true, some "tally"⟩]⟩ (Select.compileScan tallyTable "tally"))

def tallyRecords : List Row := [(1, 4), (2, 7), (3, 4), (4, 9), (6, 7)].map fun entry => ⟨[.id entry.1, .int entry.2]⟩

theorem counted_streams : everyTallyPlan.stream (tallied counted) none (.of "main") = .ok ⟨tallyRecords, []⟩ := by
  have held : (tallied counted).store.shards tallyTable.id = [0] :=
    Store.shards_of_held [0] (by decide +kernel) (by decide)
  have placed : Source.nodesFor (.of "main") tallyTable.id (tallied counted) = .ok [⟨⟨0⟩, [0]⟩] := by
    rw [Source.nodesFor, held]
    decide +kernel
  simp only [Plan.stream, everyTallyPlan, placed, Select.compileScan, tallied_scans held]
  decide +kernel

theorem uncounted_streams : everyTallyPlan.stream (tallied uncounted) none (.of "main") = .ok ⟨[], []⟩ := by
  have held : (tallied uncounted).store.shards tallyTable.id = [] :=
    Store.shards_of_held [] (by decide +kernel) (by decide)
  have placed : Source.nodesFor (.of "main") tallyTable.id (tallied uncounted) = .ok [] := by
    rw [Source.nodesFor, held]
    decide +kernel
  simp only [Plan.stream, everyTallyPlan, placed]
  decide +kernel

theorem every_tally_answered {shape : ClusterShape} {rows : List Row}
    (planned : (tallied shape).compile (.of "main") (.select everyTally) = .ok everyTallyPlan)
    (streams : everyTallyPlan.stream (tallied shape) none (.of "main") = .ok ⟨rows, []⟩)
    (spares : (tallied shape).config.spillToDisk = false) :
    ∃ result, ((run (.of "main") (.select everyTally)).perform (tallied shape)).1 = .ok result ∧ result.rows = rows := by
  have told : everyTallyPlan.ToldApart (tallied shape) none (.of "main") := fun _ _ _ _ => trivial
  have tells : (⟨rows, []⟩ : Stream).Tells (.ok rows) := rfl
  obtain ⟨result, answered, -, same⟩ := agree_ok_right (run_tells planned rfl (can_spill_of_memory spares) told streams tells) rfl
  exact ⟨result, answered, same⟩

-- A count of replicas that is cut to none is accepted, and then nothing that is inserted is kept.
theorem uncounted_rows_lost : (counted.configure smallShards).validate = .ok () ∧
    (uncounted.configure smallShards).validate = .ok () ∧
    SideBySide smallShards counted uncounted (tallied counted) (tallied uncounted) ∧
    ∃ result result', ((run (.of "main") (.select everyTally)).perform (tallied counted)).1 = .ok result ∧
      ((run (.of "main") (.select everyTally)).perform (tallied uncounted)).1 = .ok result' ∧
      result.rows = tallyRecords ∧ result'.rows = [] ∧ ¬ SameResult (.select everyTally) result result' := by
  obtain ⟨result, answered, rows⟩ := every_tally_answered rfl counted_streams rfl
  obtain ⟨result', answered', rows'⟩ := every_tally_answered rfl uncounted_streams rfl
  refine ⟨by decide, by decide, tallied_beside (by decide) (by decide), result, result', answered, answered', rows, rows',
    fun same => ?_⟩
  have often := same.2 rfl ⟨[.id 1, .int 4]⟩
  rw [rows, rows'] at often
  exact absurd often (by decide)

end Uncounted

end Engine

end ShardQuery
