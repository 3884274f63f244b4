import ShardQuery.Proofs.Cursor.Drained
import ShardQuery.Proofs.Cursor.Suited
import ShardQuery.Proofs.Engine.Reached
import ShardQuery.Proofs.Statement.Answered
/-!
What queries hand out over tables of the declared types. Main statement: the plan of an accepted query, and every part
of it, hands out rows that conform to its schema, unless a number gets too large or an index too deep.
-/

set_option autoImplicit false

namespace ShardQuery

-- The record has values of the declared types, and nulls only where the schema lets them be.
def Table.Admits (table : Table) (id : RecordId) (record : Record) : Prop :=
  ∀ field ∈ table.fields, (Store.fieldValue id record (Text.lower field.name)).dataType? = some field.type ∨
    Store.fieldValue id record (Text.lower field.name) = .null ∧ field.nullable = true ∧ field.name ≠ idColumn

instance (table : Table) (id : RecordId) (record : Record) : Decidable (table.Admits id record) :=
  List.decidableBAll _ _

def Table.Suited (table : Table) (store : Store) : Prop :=
  ∀ node shard id record, (Store.records (store.partition node) table.id shard).get? id = some record →
    table.Admits id record

theorem Table.suited_listed (table : Table) (store : Store) (listed : ∀ partition ∈ store.partitions,
    ∀ entry ∈ partition.entries, entry.1.table = table.id → ∀ record ∈ entry.2.entries, table.Admits record.1 record.2) :
    table.Suited store := by
  intro node shard id record held
  rw [Store.records] at held
  cases found : (store.partition node).get? ⟨table.id, shard⟩ with
  | none =>
      rw [found] at held
      cases held
  | some kept =>
      rw [found] at held
      cases there : store.partitions[node.index.toNat]? with
      | none =>
          rw [Store.partition, there] at found
          cases found
      | some partition =>
          rw [Store.partition, there] at found
          exact listed partition (List.mem_of_getElem? there) _ ((SortedMap.get?_eq_some _ _ _).mp found) rfl (id, record)
            ((SortedMap.get?_eq_some _ _ _).mp held)

def Table.Narrow (table : Table) : Prop := ∀ field ∈ table.fields, field.type.scale ≤ DataType.maxScale

instance (table : Table) : Decidable table.Narrow :=
  inferInstanceAs (Decidable (∀ field ∈ table.fields, field.type.scale ≤ DataType.maxScale))

theorem Table.schema_narrow {table : Table} (narrow : table.Narrow) (relation : String) : (table.schema relation).Narrow := by
  intro column member
  obtain ⟨field, among, rfl⟩ := List.mem_map.mp member
  exact narrow field among

theorem Table.scan_suited {table : Table} {store : Store} (suited : table.Suited store) (relation : String) :
    (Select.compileScan table relation).Suited store := by
  intro node shard id record held
  rw [Store.recordRow, Row.Conforms, Table.schema, List.map_map, List.forall₂_map_left_iff, List.forall₂_map_right_iff,
    List.forall₂_same]
  intro field member
  refine (suited node shard id record held field member).imp_right fun ⟨null, nullable, other⟩ => ⟨null, ?_⟩
  rw [nullable, Bool.true_and, bne_iff_ne]
  exact other

namespace Select

-- All literals are of types that compare with each other where they are compared.
structure Narrow (query : Select) : Prop where
  projection : ∀ item ∈ query.projection, item.Narrow
  condition : ∀ condition, query.condition? = some condition → condition.Narrow
  order : ∀ item ∈ query.orderBy, item.key.Narrow

variable {query analyzed : Select} {input output : Schema} {store : Store}

theorem items_narrow (analysis : query.Analysis analyzed input output) (narrow : query.Narrow) (columns : input.Narrow) :
    ∀ item ∈ analyzed.projection, item.Narrow := by
  intro item member
  obtain ⟨expanded, projected, whole⟩ := analysis.projected
  rw [whole] at member
  obtain ⟨items, among, inside⟩ := List.mem_flatten.mp member
  obtain ⟨written, listed, done⟩ := map_m_ok_origin projected items among
  exact SelectItem.analyze_narrow columns written items (narrow.projection written listed) done item inside

theorem local_suited (analysis : query.Analysis analyzed input output) (narrow : query.Narrow) (columns : input.Narrow)
    {source plan : Plan} (own : source.schema = input) (suited : source.Suited store)
    (compiled : analyzed.compileLocal source = .ok plan) : plan.Suited store ∧ plan.schema = output := by
  subst own
  obtain ⟨filtered, condition, compiled⟩ := ok_of_bind compiled
  obtain ⟨exprs, binds, compiled⟩ := ok_of_bind compiled
  obtain ⟨described, known, compiled⟩ := ok_of_bind compiled
  cases known.symm.trans analysis.described
  have below : filtered.Suited store ∧ filtered.schema = source.schema := by
    have conditioned := analysis.conditioned
    cases written : query.condition? with
    | none =>
        rw [written] at conditioned
        rw [← Except.ok.inj conditioned] at condition
        cases condition
        exact ⟨suited, rfl⟩
    | some given =>
        rw [written] at conditioned
        obtain ⟨analyzedCondition, done, conditioned⟩ := ok_of_bind conditioned
        rw [← Except.ok.inj conditioned] at condition
        obtain ⟨bound, binds, rfl⟩ := ok_of_map condition
        refine ⟨⟨suited, fun row conforms => ?_⟩, rfl⟩
        exact condition_comes columns (Row.conforms_fits conforms) (narrow.condition given written) done binds
  have sized : exprs.length = output.size :=
    (map_m_ok_iff.mp binds).length_eq.symm.trans (described_iff.mp known).length_eq
  have projected : (Plan.project exprs output filtered).Suited store := by
    refine ⟨below.1, sized, fun row conforms => ?_⟩
    exact projection_comes columns (below.2 ▸ conforms) (items_narrow analysis narrow columns) known binds
  split at compiled
  · cases compiled
    exact ⟨projected, rfl⟩
  · cases compiled
    exact ⟨projected, rfl⟩

theorem rows_suited (analysis : query.Analysis analyzed input output) (narrow : query.Narrow) (scope : Scope)
    (gate : DenyList) (found : query.input scope = .ok input)
    (stored : ∀ source table, query.source? = some source → scope.table source.name = .ok table →
      table.Narrow ∧ table.Suited store) {plan : Plan} (compiled : analyzed.compileRows scope gate = .ok plan) :
    plan.Suited store ∧ plan.schema = output ∧ input.Narrow := by
  rw [compileRows, analysis.source] at compiled
  rw [Select.input] at found
  cases written : query.source? with
  | none =>
      rw [written] at found compiled
      cases found
      have columns : Schema.empty.Narrow := List.forall_mem_nil _
      have values : (Plan.values [.empty] .empty).Suited store := fun row member => by
        obtain rfl := List.mem_singleton.mp member
        exact .nil
      obtain ⟨suited, shaped⟩ := local_suited analysis narrow columns rfl values compiled
      exact ⟨suited, shaped, columns⟩
  | some source =>
      rw [written] at found compiled
      obtain ⟨table, held, rfl⟩ := ok_of_map found
      obtain ⟨⟨⟩, -, compiled⟩ := ok_of_bind compiled
      obtain ⟨table', held', compiled⟩ := ok_of_bind compiled
      cases held.symm.trans held'
      obtain ⟨here, compiledHere, compiled⟩ := ok_of_bind compiled
      obtain ⟨narrowed, filled⟩ := stored source table written held
      have columns := Table.schema_narrow narrowed source.relation
      obtain ⟨suited, shaped⟩ :=
        local_suited analysis narrow columns rfl (Table.scan_suited filled source.relation) compiledHere
      split at compiled
      · cases compiled
        exact ⟨suited, shaped, columns⟩
      · cases compiled
        exact ⟨suited, shaped, columns⟩

theorem compile_suited (analysis : query.Analysis analyzed input output) (narrow : query.Narrow) (scope : Scope)
    (gate : DenyList) (found : query.input scope = .ok input)
    (stored : ∀ source table, query.source? = some source → scope.table source.name = .ok table →
      table.Narrow ∧ table.Suited store) {plan : Plan} (compiled : analyzed.compile scope gate = .ok plan) :
    plan.Suited store := by
  obtain ⟨rows, first, compiled⟩ := ok_of_bind compiled
  obtain ⟨keys, binds, compiled⟩ := ok_of_bind compiled
  obtain ⟨suited, shaped, columns⟩ := rows_suited analysis narrow scope gate found stored first
  have outputs := described_narrow columns (items_narrow analysis narrow columns) analysis.described
  have arranged : Plan.Suited store (.orderBy keys rows) := by
    refine ⟨suited, fun key among => ?_⟩
    obtain ⟨item, listed, bound⟩ := map_m_ok_origin binds key among
    obtain ⟨inner, bindsKey, bound⟩ := ok_of_bind bound
    cases bound
    obtain ⟨written, own, done⟩ := map_m_ok_origin analysis.ordered item listed
    obtain ⟨type, comes⟩ := key_comes outputs (narrow.order written own) done (shaped ▸ bindsKey)
    exact ⟨type, fun row conforms => comes row (Row.conforms_fits (shaped ▸ conforms))⟩
  split at compiled
  · cases compiled
    cases analyzed.window? with
    | none => exact suited
    | some window => exact suited
  · cases compiled
    cases analyzed.window? with
    | none => exact arranged
    | some window => exact arranged

end Select

namespace Engine

variable {engine : Engine} {ctx : Context}

-- A plan whose source has a stream is answered with it.
theorem execute_gives {plan : Plan} {channels : List Channel} {stream : Stream} (live : ctx.check engine.clock = .ok ())
    (streams : (plan.pipeline none channels).source.Streams ⟨ctx, engine, false⟩ (.ok stream)) :
    ∃ response warnings, stream.Gives response ∧ ((execute ctx ⟨plan, channels⟩).perform engine).1 =
      response.map fun rows => ⟨plan.schema, rows, warnings⟩ := by
  obtain ⟨response, later, collected, -, heard⟩ := Source.collect_streams streams
    ⟨⟨false, Bool.le_refl _, ctx.stopped_false.symm⟩, Engine.alike_refl engine⟩
  refine ⟨response, later.warningsOf ⟨plan, channels⟩, ?_, ?_⟩
  · rcases heard with gives | ⟨stopped, -⟩
    · exact gives
    · exact absurd stopped (Bool.eq_false_iff.mp (Context.running_of_check live))
  · rw [perform_execute, Handle.pipeline]
    simp only [collected]

theorem execute_streams {plan : Plan} {channels : List Channel} {stream : Stream} (live : ctx.check engine.clock = .ok ())
    (streams : (plan.pipeline none channels).source.Streams ⟨ctx, engine, false⟩ (.ok stream)) :
    Comes (fun result => result.schema = plan.schema ∧ result.rows = stream.rows) (· ∈ stream.errors)
      ((execute ctx ⟨plan, channels⟩).perform engine).1 := by
  obtain ⟨response, warnings, gives, answered⟩ := execute_gives live streams
  rw [answered]
  cases response with
  | ok rows => exact ⟨rfl, gives.2⟩
  | error e => exact gives

theorem suited_conforms (valid : engine.config.validate = .ok ())
    (usable : engine.CanSpill)
    (live : ctx.check engine.clock = .ok ()) (owned : engine.store.Owned) (placed : ctx.Placed engine.store) (plan : Plan)
    (suited : plan.Suited engine.store) (channels : List Channel) :
    Comes (fun result => result.schema = plan.schema ∧ ∀ row ∈ result.rows, row.Conforms plan.schema)
      EngineError.Exceeds ((execute ctx ⟨plan, channels⟩).perform engine).1 := by
  obtain ⟨stream, streams, meets⟩ := plan.suited_streams channels ⟨ctx, engine, false⟩ live valid usable owned placed suited
  have executed := execute_streams live streams
  cases answer : ((execute ctx ⟨plan, channels⟩).perform engine).1 with
  | ok result =>
      rw [answer] at executed
      exact ⟨executed.1, executed.2 ▸ meets.rows⟩
  | error e =>
      rw [answer] at executed
      exact meets.errors e executed

-- Rows of the declared types pass the check of their schema unless they hold a set, which compares with nothing.
theorem accepted_rows_conform (engine : Engine) (ctx : Context) (query analyzed : Select)
    (valid : engine.config.validate = .ok ())
    (usable : engine.CanSpill)
    (live : ctx.check engine.clock = .ok ()) (owned : engine.store.Owned) (placed : ctx.Placed engine.store)
    (accepted : query.analyze (engine.scope ctx) = .ok analyzed)
    (allowed : ∀ source, query.source? = some source → engine.gate.check source.name .read = .ok ())
    (narrow : query.Narrow)
    (stored : ∀ source table, query.source? = some source → (engine.scope ctx).table source.name = .ok table →
      table.Narrow ∧ table.Suited engine.store) :
    ∃ plan, engine.compile ctx (.select query) = .ok plan ∧ ∀ part : Plan, part.Within plan → ∀ channels,
      Comes (fun result => result.schema = part.schema ∧ ∀ row ∈ result.rows, row.Conforms part.schema ∧
          (part.schema.checkRow row = .ok () ↔ ∀ v ∈ row.values, v.isSet = false))
        EngineError.Exceeds ((execute ctx ⟨part, channels⟩).perform engine).1 := by
  obtain ⟨input, output, found, analysis⟩ := Select.analysis_of_ok accepted
  obtain ⟨plan, compiled, -, -⟩ := Select.compile_answers analysis (engine.scope ctx) engine.gate found allowed
  have suited := Select.compile_suited analysis narrow (engine.scope ctx) engine.gate found stored compiled
  refine ⟨plan, compile_select live accepted compiled, fun part within channels => ?_⟩
  have conforms := suited_conforms valid usable live owned placed part (Plan.suited_within suited within) channels
  refine comes_imp conforms fun result _ ⟨shaped, rows⟩ => ⟨shaped, fun row member => ⟨rows row member, ?_⟩⟩
  exact Schema.check_row_iff (rows row member)

section Tagged

def taggedFields : List Field := [⟨idColumn, .id, false⟩, ⟨"tags", .idSet, true⟩, ⟨"price", .decimal 2, true⟩]

def taggedTable : Table := ⟨"tagged", .ofName (.ofName "main") "tagged", .ofName "main", taggedFields, none⟩

-- A table with a column of sets, and records on two nodes.
def tagged : Engine :=
  { ((make Config.standard 2).changed (.of "main") (.createDatabase "main" false .empty)).changed (.of "main")
      (.createTable "tagged" false taggedFields none) with
    store := StoreRequest.performAll (.make 2 1 1048576 0) [
      .importRows ⟨taggedTable.id, 0, [⟨1, [], [("tags", .idSet [3, 5]), ("price", .decimal 150 2)]⟩, ⟨2, [], []⟩]⟩ true,
      .importRows ⟨taggedTable.id, 1, [⟨1048576, [], [("price", .decimal 990 2)]⟩]⟩ false] }

theorem tagged_owned : tagged.store.Owned :=
  Store.orderly_owned (Store.perform_all_orderly _ _ (Store.make_orderly 2 1 1048576 0)).1

theorem tagged_known : (tagged.scope (.of "main")).table "tagged" = .ok taggedTable ∧ taggedTable.Narrow := by
  decide +kernel

theorem tagged_suited : taggedTable.Suited tagged.store :=
  taggedTable.suited_listed tagged.store (by decide +kernel)

def dearestQuery : Select :=
  ⟨true, [.expr (.binary (.column none "price") .plus (.literal (.int 1))) (some "dearer")], some ⟨"tagged", some "t"⟩,
    some (.isNull (.column (some "t") "tags") true), [⟨.column none "dearer", true⟩], some ⟨5, 0⟩⟩

-- An addition that may overflow, over a condition on sets, with duplicates taken out.
theorem dearest_conforms : (Context.of "main").Placed tagged.store ∧ dearestQuery.Narrow ∧
    ∃ plan, tagged.compile (.of "main") (.select dearestQuery) = .ok plan ∧ ∀ part : Plan, part.Within plan → ∀ channels,
      Comes (fun result => result.schema = part.schema ∧ ∀ row ∈ result.rows, row.Conforms part.schema ∧
          (part.schema.checkRow row = .ok () ↔ ∀ v ∈ row.values, v.isSet = false))
        EngineError.Exceeds ((execute (.of "main") ⟨part, channels⟩).perform tagged).1 := by
  obtain ⟨known, scales⟩ := tagged_known
  have placed : (Context.of "main").Placed tagged.store := by
    rintro node (bound | among)
    · cases bound
    · cases among
  have narrow : dearestQuery.Narrow := by
    refine ⟨?_, ?_, ?_⟩
    · intro item member
      obtain rfl := List.mem_singleton.mp member
      exact ⟨trivial, fun type same => Option.some.inj same ▸ by decide⟩
    · rintro _ ⟨⟩
      trivial
    · intro item member
      obtain rfl := List.mem_singleton.mp member
      trivial
  obtain ⟨analyzed, accepted⟩ : ∃ analyzed, dearestQuery.analyze (tagged.scope (.of "main")) = .ok analyzed := ⟨_, rfl⟩
  refine ⟨placed, narrow, ?_⟩
  exact accepted_rows_conform tagged (.of "main") dearestQuery analyzed (by decide) (by decide +kernel) rfl tagged_owned placed
    accepted (fun _ own => Option.some.inj own ▸ rfl) narrow fun source table own found => by
      cases own
      cases known.symm.trans found
      exact ⟨scales, tagged_suited⟩

def wholeQuery : Select := ⟨false, [.wildcard none], some ⟨"tagged", none⟩, none, [], none⟩

def wholePlan : Plan :=
  .fanOut taggedTable.id (.project [.column 0, .column 1, .column 2] (taggedTable.schema "tagged")
    (Select.compileScan taggedTable "tagged"))

theorem tagged_shards : tagged.store.shards taggedTable.id = [0, 1] :=
  Store.shards_of_held [0, 1] (by decide +kernel) (by decide)

theorem whole_plan_stream : wholePlan.stream tagged none (.of "main") =
    .ok ⟨[⟨[.id 1, .idSet [3, 5], .decimal 150 2]⟩, ⟨[.id 2, .null, .null]⟩, ⟨[.id 1048576, .null, .decimal 990 2]⟩], []⟩ := by
  have placed : Source.nodesFor (.of "main") taggedTable.id tagged = .ok [⟨⟨0⟩, [0]⟩, ⟨⟨1⟩, [1]⟩] := by
    rw [Source.nodesFor, tagged_shards]
    decide +kernel
  have shards (nodes : List ClusterNode) (node : ClusterNode) :
      Source.scanShards ((Context.of "main").onNode nodes node) tagged.store taggedTable.id = [0, 1].filter node.serves := by
    rw [← tagged_shards]
    rfl
  simp only [wholePlan, Plan.stream, placed, Select.compileScan, shards]
  decide +kernel

-- A stored set is of the type of its column, and is refused by it.
theorem tagged_row_refused : tagged.store.Owned ∧ taggedTable.Narrow ∧ taggedTable.Suited tagged.store ∧
    tagged.compile (.of "main") (.select wholeQuery) = .ok wholePlan ∧
    ∃ result row, ((execute (.of "main") ⟨wholePlan, []⟩).perform tagged).1 = .ok result ∧ row ∈ result.rows ∧
      wholePlan.schema.checkRow row = .error (.typeMismatch "value of type idset in column 'tags' of type idset") := by
  have live : Source.Setting.Live ⟨.of "main", tagged, false⟩ := rfl
  have streams := Plan.pipeline_streams none wholePlan rfl [] ⟨.of "main", tagged, false⟩ live (by decide +kernel)
    fun _ _ _ _ => trivial
  rw [whole_plan_stream] at streams
  refine ⟨tagged_owned, tagged_known.2, tagged_suited, rfl, ?_⟩
  have executed := execute_streams live streams
  cases answer : ((execute (.of "main") ⟨wholePlan, []⟩).perform tagged).1 with
  | ok result =>
      rw [answer] at executed
      refine ⟨result, ⟨[.id 1, .idSet [3, 5], .decimal 150 2]⟩, rfl, ?_, by decide +kernel⟩
      rw [executed.2]
      exact List.mem_cons_self
  | error e =>
      rw [answer] at executed
      cases executed

end Tagged

end Engine

end ShardQuery
