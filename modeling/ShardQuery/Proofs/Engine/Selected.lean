import ShardQuery.Engine.Run
import ShardQuery.Proofs.Engine.Reached
import ShardQuery.Proofs.Statement.Answered
/-!
Queries on engines that statements reach. Main statement: a query gives the rows that it means, as far as columns that
are stored under one key are of one type.
-/

set_option autoImplicit false

namespace ShardQuery

-- Columns of a table that are stored under one key are of one type.
def Table.Consistent (table : Table) : Prop :=
  ∀ a ∈ table.fields, ∀ b ∈ table.fields, Text.lower a.name = Text.lower b.name → a.type = b.type

instance (table : Table) : Decidable table.Consistent :=
  inferInstanceAs (Decidable (∀ a ∈ table.fields, ∀ b ∈ table.fields, Text.lower a.name = Text.lower b.name → a.type = b.type))

namespace Tracked

variable {state : Tracked}

-- A record has values of their types under the keys of the fields of its table.
theorem field_typed (sound : state.Sound) {table : Table} (live : state.engine.catalog.tables.get? table.id = some table)
    (consistent : table.Consistent) (field : Field) (among : field ∈ table.fields) (shard : ShardId) (id : RecordId) :
    (Store.fieldValue id (amended state.engine.store.log table.id shard id) (Text.lower field.name)).Of
      (some field.type) := by
  have wellformed := sound.filed.wellformed table.id table live
  rw [Store.fieldValue]
  split
  · rename_i isId
    obtain ⟨key, rest, fields, called, kind⟩ := wellformed.headed
    have first : key ∈ table.fields := fields ▸ List.mem_cons_self
    have named : Text.lower field.name = Text.lower key.name := by
      rw [beq_iff_eq.mp isId, called]
      rfl
    rw [consistent field among key first named, kind]
    exact .inr rfl
  · cases held : (amended state.engine.store.log table.id shard id).get? (Text.lower field.name) with
    | none => exact .inl rfl
    | some v =>
        obtain ⟨entry, logged, about, change, update, item, set, keyed, rfl⟩ :=
          amended_logged state.engine.store.log table.id shard id (Text.lower field.name) v held
        obtain ⟨-, other, among', called, typed⟩ := sound.taken entry logged table (about ▸ live) change update item set
        rw [← Text.lower_of_same _ _ called] at keyed
        rw [consistent field among other among' keyed.symm]
        exact .inr typed

theorem table_rows_fit (sound : state.Sound) {table : Table}
    (live : state.engine.catalog.tables.get? table.id = some table) (consistent : table.Consistent) (relation : String) :
    ∀ record ∈ state.engine.store.tableRows table.id (table.fields.map (·.name)), record.Fits (table.schema relation) := by
  intro record member
  obtain ⟨⟨id, fields⟩, listed, rfl⟩ := List.mem_map.mp member
  obtain ⟨node, -, own⟩ := List.mem_flatMap.mp listed
  obtain ⟨shard, -, held⟩ := Store.mem_records_at.mp own
  obtain ⟨-, -, same, -⟩ := Store.held_present sound.mirrors held
  dsimp only at same
  subst same
  rw [Row.Fits, Store.recordRow, Table.schema, List.map_map, List.forall₂_map_left_iff, List.forall₂_map_right_iff,
    List.forall₂_same]
  exact fun field among => field_typed sound live consistent field among shard id

end Tracked

namespace Engine

-- The projected rows of a query before duplicates are taken out.
def images (engine : Engine) (ctx : Context) (query : Select) : Outcome (List Row) := do
  let (input, records) ← query.reads (engine.scope ctx) engine.store
  query.images input records

-- What a query means: the columns that the analysis declares, and the rows that the statement gives as it is written.
def meaning (engine : Engine) (ctx : Context) (query : Select) : Outcome (Schema × List Row) := do
  let analyzed ← query.analyze (engine.scope ctx)
  let (input, records) ← query.reads (engine.scope ctx) engine.store
  let output ← outputSchema analyzed.projection input
  return (output, ← query.answer input output records)

variable {config : Config} {nodes : UInt32} {engine : Engine}

theorem reads_fit {written : List LogEntry} (sound : Tracked.Sound ⟨engine, written⟩) (ctx : Context) (query : Select)
    (consistent : ∀ source table, query.source? = some source → (engine.scope ctx).table source.name = .ok table →
      table.Consistent) (input : Schema) (records : List Row)
    (read : query.reads (engine.scope ctx) engine.store = .ok (input, records)) :
    query.input (engine.scope ctx) = .ok input ∧ ∀ record ∈ records, record.Fits input := by
  rw [Select.reads] at read
  rw [Select.input]
  cases written : query.source? with
  | none =>
      rw [written] at read
      cases read
      exact ⟨rfl, List.forall_mem_singleton.mpr .nil⟩
  | some source =>
      rw [written] at read
      obtain ⟨table, found, same⟩ := ok_of_map read
      cases same
      refine ⟨by dsimp only; rw [found]; rfl, ?_⟩
      obtain ⟨id, live⟩ := Scope.table_found found
      have under := sound.filed.tables id table live
      subst under
      exact Tracked.table_rows_fit sound live (consistent source table written found) source.relation

variable {ctx : Context} {statement : Statement} {plan : Plan} {rows : List Row} {e : EngineError}

-- A statement gives the rows that its plan hands out.
theorem run_answers (compiled : engine.compile ctx statement = .ok plan)
    (answers : plan.Answers ctx (engine.adopt plan).2 rows) :
    ∃ warnings, ((run ctx statement).perform engine).1 = .ok ⟨plan.schema, rows, warnings⟩ := by
  obtain ⟨later, collected, -⟩ := Source.collect_answers (answers (engine.adopt plan).1.channels) (alike_refl _)
  replace collected : ((engine.adopt plan).1.pipeline none).source.collect ctx (engine.adopt plan).2 = (.ok rows, later) :=
    collected
  refine ⟨later.warningsOf (engine.adopt plan).1, ?_⟩
  rw [perform_run, compiled]
  dsimp only
  rw [perform_execute, collected]
  rfl

theorem run_refuses (compiled : engine.compile ctx statement = .ok plan)
    (refuses : (plan.pipeline none (engine.adopt plan).1.channels).source.Refuses ctx (engine.adopt plan).2 e) :
    ((run ctx statement).perform engine).1 = .error e := by
  obtain ⟨later, collected, -⟩ := Source.collect_refuses refuses (alike_refl _)
  replace collected : ((engine.adopt plan).1.pipeline none).source.collect ctx (engine.adopt plan).2 = (.error e, later) :=
    collected
  rw [perform_run, compiled]
  dsimp only
  rw [perform_execute, collected]
  rfl

-- A query gives the rows that it means.
theorem selected_as_written (config : Config) (nodes : UInt32) (engine : Engine)
    (reached : Reached (fun _ _ _ => True) config nodes engine) (valid : config.validate = .ok ())
    (usable : engine.CanSpill) (ctx : Context) (live : ctx.check engine.clock = .ok ()) (unbound : ctx.cluster = []) (query : Select)
    (allowed : ∀ source, query.source? = some source → engine.gate.check source.name .read = .ok ())
    (consistent : ∀ source table, query.source? = some source → (engine.scope ctx).table source.name = .ok table →
      table.Consistent)
    (told : query.distinct = true → ∀ images, engine.images ctx query = .ok images →
      Row.ToldApart config.pageSize images)
    (output : Schema) (rows : List Row) (meant : engine.meaning ctx query = .ok (output, rows)) :
    (∃ warnings, ((run ctx (.select query)).perform engine).1 = .ok ⟨output, rows, warnings⟩) ∧
      ∀ source table, query.source? = some source → (engine.scope ctx).table source.name = .ok table →
        engine.store.Arranged table.id := by
  obtain ⟨written, sound⟩ := reached_sound reached
  refine ⟨?_, fun _ table _ _ => Store.arranged sound.mirrors table.id⟩
  obtain ⟨analyzed, accepted, meant⟩ := ok_of_bind meant
  obtain ⟨⟨input, records⟩, read, meant⟩ := ok_of_bind meant
  obtain ⟨described, declared, meant⟩ := ok_of_bind meant
  obtain ⟨answered, answer, meant⟩ := ok_of_bind meant
  cases meant
  obtain ⟨found, fits⟩ := reads_fit sound ctx query consistent input records read
  obtain ⟨own, shape, found', analysis⟩ := Select.analysis_of_ok accepted
  rw [found] at found'
  cases found'
  have same := analysis.described
  rw [declared] at same
  cases same
  obtain ⟨plan, compiled, shaped, answers⟩ :=
    Select.compile_answers analysis (engine.scope ctx) engine.gate found allowed
  have planned := compile_select live accepted compiled
  have apart (images : List Row) (evaluated : query.images input records = .ok images) :
      query.ToldApart (engine.adopt plan).2 images := by
    obtain ⟨configured, -⟩ := reached_frame reached
    intro distinct
    change Row.ToldApart engine.config.pageSize images ∧ engine.config.validate = .ok () ∧
      engine.CanSpill
    rw [configured]
    exact ⟨told distinct images (bind_of_ok read evaluated), valid, usable⟩
  rw [← shaped]
  exact run_answers planned
    (answers ctx (engine.adopt plan).2 written records rows live unbound sound.mirrors read fits apart answer)

section Tally

def smallShards : Config := { Config.standard with pageSize := 64, poolPages := 2, spillToDisk := false, shardWidth := 2 }

def tallyFields : List Field := [⟨idColumn, .id, false⟩, ⟨"n", .int, true⟩]

def tallyTable : Table := ⟨"tally", .ofName (.ofName "main") "tally", .ofName "main", tallyFields, none⟩

-- A new engine with a table whose records lie on two nodes.
def tally : Engine :=
  (((make smallShards 2).changed (.of "main") (.createDatabase "main" false .empty)).changed (.of "main")
    (.createTable "tally" false tallyFields none)).changed (.of "main")
      (.insert "tally" [idColumn, "n"] ([(1, 4), (2, 7), (3, 4), (4, 9), (6, 7)].map fun entry =>
        [.literal (.int entry.1), .literal (.int entry.2)]))

theorem tally_reached : Reached (fun _ _ _ => True) smallShards 2 tally :=
  reached_changed (reached_changed (reached_changed (.opening _) (.of "main") _ rfl rfl trivial) (.of "main") _ rfl rfl trivial)
    (.of "main") _ rfl rfl trivial

def tallyQuery : Select :=
  ⟨true, [.expr (.binary (.column (some "x") "N") .plus (.literal (.int 1))) (some "m")], some ⟨"tally", some "x"⟩,
    some (.binary (.column none "n") .lt (.literal (.int 9))), [⟨.column none "m", true⟩], some ⟨5, 0⟩⟩

-- The tasks of both nodes take turns.
def takingTurns : Context := { Context.of "main" with turns := [1, 0, 1] }

-- Its rows before duplicates are taken out.
def tallyImages : List Row := [⟨[.int 5]⟩, ⟨[.int 8]⟩, ⟨[.int 5]⟩, ⟨[.int 8]⟩]

theorem tally_known : (tally.scope takingTurns).table "tally" = .ok tallyTable ∧
    ∃ answer images, tally.meaning takingTurns tallyQuery = .ok answer ∧
      tally.images takingTurns tallyQuery = .ok images ∧ Row.ToldApart smallShards.pageSize images := by
  have told : (tally.scope takingTurns).table "tally" = .ok tallyTable ∧
      (tally.meaning takingTurns tallyQuery).isOk = true ∧
      tally.images takingTurns tallyQuery = .ok tallyImages ∧
      (∀ a ∈ tallyImages, ∀ b ∈ tallyImages, a.fingerprint = b.fingerprint → (a == b) = true) ∧
      ∀ row ∈ tallyImages, (HashIndex.neighbours (tallyImages.map Row.fingerprint).dedup row.fingerprint).length ≤
        BucketPage.capacity smallShards.pageSize := by decide +kernel
  obtain ⟨known, succeeds, evaluated, faithful, roomy⟩ := told
  cases meant : tally.meaning takingTurns tallyQuery with
  | ok answer => exact ⟨known, answer, tallyImages, rfl, evaluated, faithful, roomy⟩
  | error e =>
      rw [meant] at succeeds
      cases succeeds

theorem tally_selected : ∃ output rows warnings, tally.meaning takingTurns tallyQuery = .ok (output, rows) ∧
    ((run takingTurns (.select tallyQuery)).perform tally).1 = .ok ⟨output, rows, warnings⟩ ∧
    tally.store.Arranged tallyTable.id := by
  obtain ⟨known, answer, images, meant, evaluated, apart⟩ := tally_known
  have consistent : tallyTable.Consistent := by decide
  have live : takingTurns.check tally.clock = .ok () := by decide +kernel
  have allowed : tally.gate.check "tally" .read = .ok () := by decide +kernel
  have spares : tally.config.spillToDisk = false := congrArg Config.spillToDisk (reached_frame tally_reached).1
  obtain ⟨⟨warnings, answered⟩, arranged⟩ := selected_as_written smallShards 2 tally tally_reached (by decide)
    (can_spill_of_memory spares) takingTurns live rfl tallyQuery (fun _ own => Option.some.inj own ▸ allowed)
    (fun source table own found => by
      cases own
      rw [← Except.ok.inj (known.symm.trans found)]
      exact consistent)
    (fun _ others evaluated' => Except.ok.inj (evaluated.symm.trans evaluated') ▸ apart) answer.1 answer.2 meant
  exact ⟨answer.1, answer.2, warnings, meant, answered, arranged ⟨"tally", some "x"⟩ tallyTable rfl known⟩

end Tally

section Spellings

def spelledFields : List Field := [⟨idColumn, .id, false⟩, ⟨"é", .int, true⟩]

def spelledTable : Table :=
  ⟨"spelled", .ofName (.ofName "main") "spelled", .ofName "main", spelledFields ++ [⟨"É", .timestamp, true⟩], none⟩

-- A new engine with a table, a second spelling of one of its columns, and a record with a value in the first.
def spelled : Engine :=
  ((((make Config.standard 1).changed (.of "main") (.createDatabase "main" false .empty)).changed (.of "main")
    (.createTable "spelled" false spelledFields none)).changed (.of "main")
      (.alterTable "spelled" (.addColumn ⟨"É", .timestamp, true⟩))).changed (.of "main")
        (.insert "spelled" [idColumn, "é"] [[.literal (.int 1), .literal (.int 5)]])

theorem spelled_reached : Reached (fun _ _ _ => True) Config.standard 1 spelled :=
  reached_changed (reached_changed (reached_changed (reached_changed (.opening _) (.of "main") _ rfl rfl trivial)
    (.of "main") _ rfl rfl trivial) (.of "main") _ rfl rfl trivial) (.of "main") _ rfl rfl trivial

def spelledQuery : Select :=
  ⟨false, [.expr (.column none idColumn) none], some ⟨"spelled", none⟩,
    some (.binary (.column none "É") .eq (.literal (.int 5))), [], none⟩

def spelledNode : ClusterNode := ⟨⟨0⟩, [0]⟩

-- What the task of the only node reads.
def spelledRows : Outcome (List (List Row)) :=
  (Source.scanShards ((Context.of "main").onNode [spelledNode] spelledNode) spelled.store spelledTable.id).mapM
    (spelled.store.readShard (some ⟨0⟩) spelledTable.id · (spelledTable.fields.map (·.name)))

theorem spelled_known : spelledRows = .ok [[⟨[.id 1, .int 5, .int 5]⟩]] ∧
    spelled.store.placement (spelled.store.shards spelledTable.id) = .ok [spelledNode] ∧
    ∃ output, spelled.meaning (.of "main") spelledQuery = .ok (output, [⟨[.id 1]⟩]) := by
  have told : spelledRows = .ok [[⟨[.id 1, .int 5, .int 5]⟩]] ∧
      spelled.store.placement (spelled.store.shards spelledTable.id) = .ok [spelledNode] ∧
      (spelled.meaning (.of "main") spelledQuery).map Prod.snd = .ok [⟨[.id 1]⟩] := by decide +kernel
  obtain ⟨read, placed, meant⟩ := told
  obtain ⟨⟨output, rows⟩, meant, rfl⟩ := ok_of_map meant
  exact ⟨read, placed, output, meant⟩

-- The literal is taken for a moment, which the value under the key of both columns is not.
theorem spelled_refused : ∃ e, ((run (.of "main") (.select spelledQuery)).perform spelled).1 = .error e := by
  let predicate : PlanExpr := .binary (.column 2) .eq (.literal (.timestamp 5))
  let output : Schema := ⟨[⟨idColumn, .id, false, some "spelled"⟩]⟩
  let clash : EngineError := .typeMismatch "cannot compare 5 and 5"
  let scan := Select.compileScan spelledTable "spelled"
  let plan := Plan.fanOut spelledTable.id (.project [.column 0] output (.filter predicate scan))
  let base := (spelled.adopt plan).2
  obtain ⟨read, placed, -⟩ := spelled_known
  have planned : spelled.compile (.of "main") (.select spelledQuery) = .ok plan := rfl
  have live : (Context.of "main").check base.clock = .ok () := rfl
  have here : ((Context.of "main").onNode [spelledNode] spelledNode).check base.clock = .ok () := rfl
  have scanned : (scan.pipeline none []).source.Answers ((Context.of "main").onNode [spelledNode] spelledNode) base
      [⟨[.id 1, .int 5, .int 5]⟩] :=
    Source.guarded_answers here (Source.scan_answers here [[⟨[.id 1, .int 5, .int 5]⟩]] read)
  have filtered : ((Plan.filter predicate scan).pipeline none []).source.Refuses
      ((Context.of "main").onNode [spelledNode] spelledNode) base clash :=
    Source.guarded_refuses here (Source.filter_refuses predicate none _ scanned rfl)
  have projected := Source.guarded_refuses here (Source.project_refuses [.column 0] output none rfl filtered)
  have spread : (plan.pipeline none []).source.Refuses (.of "main") base clash := by
    refine Source.guarded_refuses live (Source.fan_out_refuses spelledTable.id spelledNode live rfl ?_ rfl projected)
    rintro engine ⟨warnings, rfl⟩
    exact placed
  exact ⟨clash, run_refuses planned spread⟩

-- Columns whose names differ for the catalog and share one key in the store.
theorem second_spelling_refused : Reached (fun _ _ _ => True) Config.standard 1 spelled ∧
    Config.standard.validate = .ok () ∧ (Context.of "main").check spelled.clock = .ok () ∧
    (∃ output, spelled.meaning (.of "main") spelledQuery = .ok (output, [⟨[.id 1]⟩])) ∧
    ∃ e, ((run (.of "main") (.select spelledQuery)).perform spelled).1 = .error e := by
  obtain ⟨-, -, meant⟩ := spelled_known
  exact ⟨spelled_reached, rfl, rfl, meant, spelled_refused⟩

end Spellings
end Engine

end ShardQuery
