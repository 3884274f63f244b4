import ShardQuery.Proofs.Engine.Apart
import ShardQuery.Proofs.Engine.Filled
import ShardQuery.Proofs.Engine.Selected
/-!
Columns that a statement does not name. Main statement: as long as no column is added under another spelling of one that
is there, no table has two columns under one key, and a statement leaves the values of every column that it neither
drops nor fills.
-/

set_option autoImplicit false

namespace ShardQuery

namespace Table

-- A spelling of one column is stored under the key of no other.
theorem other_key {table : Table} (apart : table.Apart) (field : Field) (among : field ∈ table.fields) {name : String}
    (spells : ∃ other ∈ table.fields, Text.same other.name name = true)
    (different : Text.same field.name name = false) :
    Text.lower field.name ≠ Text.lower name := by
  obtain ⟨other, among', named⟩ := spells
  intro same
  rw [← Text.lower_of_same _ _ named] at same
  rw [same_key apart field other among among' same, named] at different
  cases different

end Table

-- Whether a statement neither drops nor fills a column of a table. An insertion looks its table up again, under the
-- name of the table that it found.
def Statement.Spares (scope : Scope) (table : Table) (name : String) : Statement → Prop
  | .dropDatabase dropped _ => table.database ≠ .ofName dropped
  | .dropTable dropped _ => table.id ≠ .ofName (.ofName scope.database) dropped
  | .alterTable changed (.dropColumn column) => table.id = .ofName (.ofName scope.database) changed →
      Text.same name column = false
  | .insert into columns _ => ∀ found filled, scope.table into = .ok found → scope.table found.name = .ok filled →
      table.id = filled.id → columns ≠ [] ∧ ∀ column ∈ columns, Text.same name column = false
  | _ => True

def Plan.Spares (table : Table) (name : String) : Plan → Prop
  | .dropDatabase dropped _ => table.database ≠ .ofName dropped
  | .dropTable database dropped _ => table.id ≠ .ofName (.ofName database) dropped
  | .alterTable database changed (.dropColumn column) => table.id = .ofName (.ofName database) changed →
      Text.same name column = false
  | .insert insertion => table.id = insertion.table → ∀ column ∈ insertion.columns, Text.same name column = false
  | _ => True

theorem Insertion.targets_named (table : Table) (columns : List String) (given : columns ≠ []) (targets : List Field)
    (found : Insertion.targets table columns = .ok targets) :
    ∀ field ∈ targets, ∃ column ∈ columns, Text.same field.name column = true := by
  rw [Insertion.targets, if_neg fun none => given (List.isEmpty_iff.mp none)] at found
  intro field among
  obtain ⟨column, listed, held⟩ := targets_from_found table columns [] targets found field among
  exact ⟨column, listed, (Table.field_named held).2⟩

theorem Statement.plan_spares {scope : Scope} {statement : Statement} {plan : Plan}
    (compiled : statement.CompilesTo scope plan) (table : Table) (name : String)
    (spares : statement.Spares scope table name) : plan.Spares table name := by
  cases compiled with
  | reading _ _ _ reads =>
      cases plan with
      | dropDatabase | dropTable | alterTable | insert => cases reads
      | _ => trivial
  | createDatabase | alterDatabase | createTable => trivial
  | dropDatabase | dropTable => exact spares
  | alterTable _ change =>
      cases change with
      | addColumn column => trivial
      | dropColumn column => exact spares
  | insert _ columns _ _ source filled targets _ _ found targeted _ _ again =>
      intro here column member
      obtain ⟨given, others⟩ := spares source filled found again here
      obtain ⟨target, among, rfl⟩ := List.mem_map.mp member
      obtain ⟨written, listed, named⟩ := Insertion.targets_named source columns given targets targeted target among
      refine Bool.eq_false_iff.mpr fun same => ?_
      have other := others written listed
      rw [Text.same_trans _ _ _ same named] at other
      cases other

namespace Catalog

variable {catalog : Catalog} {database name : String} {table : Table}

-- A field goes that the name is a spelling of.
theorem drop_field_finds {column : String} {later : Catalog} (found : catalog.tableNamed database name = .ok table)
    (dropped : catalog.dropField database name column = .ok later) :
    ∃ field ∈ table.fields, Text.same field.name column = true := by
  rw [dropField, found] at dropped
  change (if _ then _ else _) = _ at dropped
  split at dropped
  · cases dropped
  · rename_i fewer
    by_contra none
    refine fewer (congrArg List.length (List.filter_eq_self.mpr fun field among => ?_))
    rw [Bool.not_eq_true', Bool.eq_false_iff]
    exact fun same => none ⟨field, among, same⟩

-- What the name of a table stands for.
theorem named_id (filed : catalog.Filed) (found : catalog.tableNamed database name = .ok table) :
    table.id = .ofName (.ofName database) name := by
  obtain ⟨owner, owned, under, -⟩ := named_under_id filed found
  rw [under, filed.databases _ owner (Engine.database_named_found owned)]

theorem drop_table_found {later : Catalog} (dropped : catalog.dropTable database name = .ok (table, later)) :
    catalog.tableNamed database name = .ok table := by
  obtain ⟨found, named, dropped⟩ := ok_of_bind dropped
  obtain ⟨owner, -, dropped⟩ := ok_of_bind dropped
  cases dropped
  exact named

theorem table_list_owned {tables : List Table} (filed : catalog.Filed)
    (listed : catalog.tableList database = .ok tables) (among : table ∈ tables) : table.database = .ofName database := by
  obtain ⟨owner, owned, listed⟩ := ok_of_bind listed
  cases listed
  rw [List.mem_mergeSort, List.mem_filter, beq_iff_eq] at among
  rw [among.2, filed.databases _ owner (Engine.database_named_found owned)]

-- A table is there, of its database, and has a field.
def HasColumn (catalog : Catalog) (table : Table) (field : Field) : Prop :=
  ∃ own, catalog.tables.get? table.id = some own ∧ own.database = table.database ∧ field ∈ own.fields

theorem HasColumn.replacing {field : Field} (has : catalog.HasColumn table field) (changed : Table)
    (kept : ∀ own, catalog.tables.get? changed.id = some own → table.id = changed.id → field ∈ own.fields →
      changed.database = own.database ∧ field ∈ changed.fields) :
    (catalog.replacing changed).HasColumn table field := by
  obtain ⟨own, held, owner, among⟩ := has
  by_cases here : table.id = changed.id
  · obtain ⟨same, still⟩ := kept own (here ▸ held) here among
    exact ⟨changed, (get?_replacing catalog changed _).trans (if_pos here), same.trans owner, still⟩
  · exact ⟨own, (get?_replacing catalog changed _).trans ((if_neg here).trans held), owner, among⟩

end Catalog

namespace Tracked

-- Records that are there stay, with what they have under a key.
def Retains (before after : Tracked) (table : TableId) (key : String) : Prop :=
  ∀ shard id, present before.written table shard id = true → present after.written table shard id = true ∧
    (amended after.engine.store.log table shard id).get? key =
      (amended before.engine.store.log table shard id).get? key

variable {before between after : Tracked} {table : TableId} {key : String}

theorem retains_refl (state : Tracked) : state.Retains state table key := fun _ _ there => ⟨there, rfl⟩

theorem retains_trans (first : before.Retains between table key) (second : between.Retains after table key) :
    before.Retains after table key := by
  intro shard id there
  obtain ⟨still, same⟩ := first shard id there
  obtain ⟨stays, same'⟩ := second shard id still
  exact ⟨stays, same'.trans same⟩

end Tracked

namespace Effect

variable {plan : Plan} {before after : Tracked} {table : Table} {field : Field}

theorem retains_without (gone : List Table) (later : Catalog) (sound : before.Sound)
    (has : before.engine.catalog.HasColumn table field) (elsewhere : ∀ other ∈ gone, table.id ≠ other.id)
    (tables : ∀ id other, later.tables.get? id = some other ↔
      before.engine.catalog.tables.get? id = some other ∧ other ∉ gone) :
    later.HasColumn table field ∧ before.Retains ⟨{ before.engine with
        catalog := later, store := gone.foldl (fun store table => store.deleteTable table.id) before.engine.store },
      gone.foldl Tracked.withoutTable before.written⟩ table.id (Text.lower field.name) := by
  obtain ⟨own, held, owner, among⟩ := has
  refine ⟨⟨own, (tables table.id own).mpr ⟨held, fun inside => ?_⟩, owner, among⟩, fun shard record there => ?_⟩
  · exact elsewhere own inside (sound.filed.tables table.id own held).symm
  · refine ⟨?_, ?_⟩
    · rw [present, present_without gone before.written table.id shard record elsewhere]
      exact there
    · change (amended (gone.foldl _ before.engine.store).log table.id shard record).get? _ = _
      rw [log_without, amended, present_without gone before.engine.store.log table.id shard record elsewhere, amended]

-- A plan leaves the values of a column that it spares.
theorem retains (effect : Effect plan before after) (spares : plan.Spares table field.name)
    (fits : plan.Fits before.engine.catalog) (sound : before.Sound) (apart : before.engine.catalog.Apart)
    (has : before.engine.catalog.HasColumn table field) :
    after.engine.catalog.HasColumn table field ∧ before.Retains after table.id (Text.lower field.name) := by
  cases effect with
  | unrecorded | databases => exact ⟨has, fun _ _ there => ⟨there, rfl⟩⟩
  | databaseDropped name ifExists gone catalog planned listed dropped =>
      subst planned
      obtain ⟨-, live, kept⟩ := Catalog.drop_database_made sound.filed listed dropped
      refine retains_without gone catalog sound has (fun other member same => ?_) kept
      obtain ⟨own, held, owner, -⟩ := has
      rw [same, live other member] at held
      obtain rfl : other = own := Option.some.inj held
      exact spares (owner.symm.trans (Catalog.table_list_owned sound.filed listed member))
  | tableDropped database name ifExists gone catalog planned dropped =>
      subst planned
      obtain ⟨-, -, kept⟩ := Catalog.drop_table_made sound.filed dropped
      have named := Catalog.named_id sound.filed (Catalog.drop_table_found dropped)
      refine retains_without [gone] catalog sound has (List.forall_mem_singleton.mpr fun same => ?_) kept
      exact spares (same.trans named)
  | tableMade database name ifNotExists fields description made catalog planned creates =>
      obtain ⟨free, -, rfl⟩ := Catalog.create_table_made creates
      refine ⟨has.replacing made fun own held => ?_, fun _ _ there => ⟨there, rfl⟩⟩
      rw [free] at held
      cases held
  | fieldAdded database name column changed catalog planned found checked added =>
      obtain ⟨-, rfl⟩ := Catalog.create_field_made sound.filed column found added
      obtain ⟨-, -, -, held⟩ := Catalog.named_under_id sound.filed found
      refine ⟨has.replacing _ fun own held' _ among => ?_, fun _ _ there => ⟨there, rfl⟩⟩
      obtain rfl : changed = own := Option.some.inj (held.symm.trans held')
      exact ⟨rfl, List.mem_append_left _ among⟩
  | fieldDropped database name column changed catalog planned found dropped =>
      subst planned
      have spells := Catalog.drop_field_finds found dropped
      have named := Catalog.named_id sound.filed found
      obtain rfl := Catalog.drop_field_made sound.filed column found dropped
      obtain ⟨-, -, -, held⟩ := Catalog.named_under_id sound.filed found
      have other (here : table.id = changed.id) : Text.same field.name column = false := spares (here.trans named)
      refine ⟨has.replacing _ fun own held' here among => ?_, fun shard record there => ⟨there, ?_⟩⟩
      · obtain rfl : changed = own := Option.some.inj (held.symm.trans held')
        refine ⟨rfl, List.mem_filter.mpr ⟨among, ?_⟩⟩
        rw [other here]
        rfl
      · refine (congrArg (SortedMap.get? · _)
          (Store.amended_deleted_field before.engine.store changed.id column table.id shard record)).trans ?_
        split
        · rename_i here
          obtain ⟨own, held', -, among⟩ := has
          rw [here] at held'
          obtain rfl : changed = own := Option.some.inj (held.symm.trans held')
          rw [SortedMap.get?_erase,
            if_neg (Table.other_key (apart changed.id changed held) field among spells (other here))]
        · rfl
  | imported insertion width all changes shard store planned made inside taken =>
      subst planned
      refine ⟨has, fun shard' record there => ?_⟩
      obtain ⟨into, filled, held, fills⟩ := fits
      obtain ⟨-, logged, -⟩ := Store.import_mirrors before.engine.store store before.written
        ⟨insertion.table, shard, changes⟩ sound.mirrors taken
      change present (before.written ++ [_]) table.id shard' record = true ∧
        (amended store.log table.id shard' record).get? _ = _
      rw [logged, present_append, amended_append, there]
      by_cases here : insertion.table = table.id ∧ shard = shard'
      · obtain ⟨own, held', -, among⟩ := has
        rw [← here.1, fills.into, sound.filed.tables into filled held] at held'
        obtain rfl : filled = own := Option.some.inj (held.symm.trans held')
        have others (column : String) (member : column ∈ insertion.columns) :
            Text.lower column ≠ Text.lower field.name := by
          obtain ⟨i, listed⟩ := List.mem_iff_getElem?.mp member
          obtain ⟨type, -, other, among', named, -⟩ := forall₂_at fills.columns i column listed
          have spells : ∃ other ∈ filled.fields, Text.same other.name column = true := ⟨other, among', named⟩
          exact Ne.symm
            (Table.other_key (apart into filled held) field among spells (spares here.1.symm column member))
        have spared (change : RowUpdate) (member : change ∈ changes.filter (·.id == record)) :
            change.Spares (Text.lower field.name) :=
          InsertPlan.updates_spare insertion filled fills width all made change
            (inside change (List.mem_filter.mp member).1) _ others
        rw [LogEntry.updatesOf, if_pos here]
        exact ⟨RowUpdate.leaves_spared _ spared, Record.amend_all_spared _ _ spared⟩
      · rw [LogEntry.updatesOf, if_neg here]
        exact ⟨rfl, rfl⟩

theorem run_retains (effects : Relation.ReflTransGen (Effect plan) before after) (spares : plan.Spares table field.name)
    (fits : plan.Fits before.engine.catalog) (keeps : plan.KeepsApart before.engine.catalog) (sound : before.Sound)
    (apart : before.engine.catalog.Apart) (has : before.engine.catalog.HasColumn table field) :
    before.Retains after table.id (Text.lower field.name) := by
  refine (run_keeps (P := fun state => (plan.KeepsApart state.engine.catalog ∧ state.engine.catalog.Apart) ∧
    state.engine.catalog.HasColumn table field ∧ before.Retains state table.id (Text.lower field.name)) effects fits
    sound (fun a b effect fits sound holds => ?_) ⟨⟨keeps, apart⟩, has, Tracked.retains_refl before⟩).2.2
  obtain ⟨⟨keeps, apart⟩, has, retained⟩ := holds
  obtain ⟨stays, next⟩ := effect.retains spares fits sound apart has
  exact ⟨⟨effect.keeps_keeping_apart keeps sound, effect.keeps_apart fits keeps sound apart⟩, stays,
    Tracked.retains_trans retained next⟩

end Effect

-- What a store reads of a column it still reads later, in every shard and from every node.
def Store.Retains (store later : Store) (table : TableId) (name : String) : Prop :=
  ∀ node? shard rows, store.readShard node? table shard [idColumn, name] = .ok rows →
    ∃ more, later.readShard node? table shard [idColumn, name] = .ok more ∧ ∀ row ∈ rows, row ∈ more

theorem Tracked.Retains.read {before after : Tracked} {table : TableId} {name : String}
    (retains : before.Retains after table (Text.lower name)) (sound : before.Sound) (sound' : after.Sound)
    (shape : before.engine.store.SameShape after.engine.store) :
    before.engine.store.Retains after.engine.store table name := by
  intro node? shard rows read
  obtain ⟨owners, counted, read⟩ := ok_of_bind read
  obtain ⟨node, served, read⟩ := ok_of_bind read
  cases read
  have ring := Store.same_shape_ring _ _ shape shard
  have counted' : after.engine.store.owners shard = .ok owners := by
    rw [← counted, Store.owners, Store.owners, ring, shape.replicas]
  refine ⟨_, bind_of_ok counted' (bind_of_ok served rfl), fun row member => ?_⟩
  obtain ⟨⟨id, record⟩, listed, rfl⟩ := List.mem_map.mp member
  obtain ⟨owner, there, same, -⟩ := Store.held_present sound.mirrors ((SortedMap.get?_eq_some _ _ _).mpr listed)
  obtain ⟨stays, valued⟩ := retains shard id there
  have inside := Store.ring_inside before.engine.store sound.mirrors.shaped shard node owner
  have held : (Store.records (after.engine.store.partition node) table shard).get? id =
      some (amended after.engine.store.log table shard id) := by
    rw [sound'.mirrors.holding node (shape.nodes ▸ inside), if_pos (ring ▸ owner), if_pos stays]
  refine List.mem_map.mpr ⟨_, (SortedMap.get?_eq_some _ _ _).mp held, ?_⟩
  subst same
  have isId : (Text.lower idColumn == idColumn) = true := rfl
  simp only [Store.recordRow, Store.fieldValue, List.map_cons, List.map_nil, isId, valued, if_true]

namespace Engine

variable {config : Config} {nodes : UInt32} {engine : Engine}

theorem run_retains (engine : Engine) (reached : Reached admitsNoRespelling config nodes engine) (ctx : Context)
    (statement : Statement) (others : ¬ statement.Respells (engine.scope ctx)) (table : Table) (field : Field)
    (live : engine.catalog.tables.get? table.id = some table) (among : field ∈ table.fields)
    (spares : statement.Spares (engine.scope ctx) table field.name) :
    engine.store.Retains ((run ctx statement).perform engine).2.store table.id field.name := by
  obtain ⟨written, sound⟩ := reached_sound reached
  rcases run_becomes ctx statement engine sound.filed with same | ⟨plan, compiled, fits, becomes⟩
  · rw [same]
    exact fun _ _ rows read => ⟨rows, read, fun _ member => member⟩
  · obtain ⟨later, effects⟩ := becomes written
    have retains := Effect.run_retains effects (Statement.plan_spares compiled table field.name spares) fits
      (Statement.keeps_apart compiled others) sound (reached_apart reached) ⟨table, live, rfl, among⟩
    exact retains.read sound (Effect.run_keeps_sound effects fits sound).2 (Effect.run_keeps_frame effects).2

-- As long as no column is added under another spelling of one that is there, no table has two columns under one key:
-- whatever asks for that is refused, and a statement leaves the values of the columns that it does not name.
theorem columns_kept_apart (config : Config) (nodes : UInt32) (engine : Engine)
    (reached : Reached admitsNoRespelling config nodes engine) :
    engine.catalog.Apart ∧ ∀ (ctx : Context) (statement : Statement), ¬ statement.Respells (engine.scope ctx) →
      (statement.Doubles (engine.scope ctx) → ∃ e, (run ctx statement).perform engine = (.error e, engine)) ∧
      ∀ table field, engine.catalog.tables.get? table.id = some table → field ∈ table.fields →
        statement.Spares (engine.scope ctx) table field.name →
          engine.store.Retains ((run ctx statement).perform engine).2.store table.id field.name := by
  refine ⟨reached_apart reached, fun ctx statement others => ⟨doubling_refused engine ctx statement others, ?_⟩⟩
  exact fun table field => run_retains engine reached ctx statement others table field

section Accents

def accentedTable : Table :=
  ⟨"accented", .ofName (.ofName "main") "accented", .ofName "main", spelledFields ++ [⟨"ü", .int, true⟩], none⟩

def beforeAccent : Engine :=
  ((make Config.standard 1).changed (.of "main") (.createDatabase "main" false .empty)).changed (.of "main")
    (.createTable "accented" false spelledFields none)

-- A new engine with a table, a column that was added to it, and a record with values in both.
def accented : Engine :=
  (beforeAccent.changed (.of "main") (.alterTable "accented" (.addColumn ⟨"ü", .int, true⟩))).changed (.of "main")
    (.insert "accented" [idColumn, "é", "ü"] [[.literal (.int 1), .literal (.int 5), .literal (.int 6)]])

theorem accented_known :
    (beforeAccent.scope (.of "main")).table "accented" = .ok { accentedTable with fields := spelledFields } ∧
    accented.catalog.tables.get? accentedTable.id = some accentedTable ∧
    accented.store.readShard none accentedTable.id 0 [idColumn, "é"] = .ok [⟨[.id 1, .int 5]⟩] := by
  decide +kernel

theorem accented_reached : Reached admitsNoRespelling Config.standard 1 accented := by
  have before : Reached admitsNoRespelling Config.standard 1 beforeAccent :=
    reached_changed (reached_changed (.opening _) (.of "main") _ rfl rfl id) (.of "main") _ rfl rfl id
  refine reached_changed (reached_changed before (.of "main") _ rfl rfl ?_) (.of "main") _ rfl rfl id
  rintro ⟨table, found, ⟨field, among, doubled⟩, -⟩
  rw [← Except.ok.inj (accented_known.1.symm.trans found)] at among
  refine doubled (fun same => ?_)
  rcases List.mem_cons.mp among with rfl | among
  · exact absurd same (by decide)
  · rw [List.mem_singleton.mp among] at same
    exact absurd same (by decide)

theorem spelled_doubled : ¬ spelledTable.Apart := by
  intro apart
  have same : Text.lower "é" = Text.lower "É" := by decide
  exact (List.pairwise_cons.mp (List.pairwise_cons.mp apart).2).1 _ List.mem_cons_self same

-- A table with two columns under one key is not made, and a value stays when another column is dropped.
theorem dropped_column_alone : accented.catalog.Apart ∧
    (∃ e, (run (.of "main") (.createTable "spelled" false spelledTable.fields none)).perform accented =
      (.error e, accented)) ∧
    ∃ more, ((run (.of "main") (.alterTable "accented" (.dropColumn "ü"))).perform accented).2.store.readShard none
      accentedTable.id 0 [idColumn, "é"] = .ok more ∧ (⟨[.id 1, .int 5]⟩ : Row) ∈ more := by
  obtain ⟨apart, kept⟩ := columns_kept_apart Config.standard 1 accented accented_reached
  obtain ⟨-, live, read⟩ := accented_known
  refine ⟨apart, (kept (.of "main") _ id).1 spelled_doubled, ?_⟩
  have among : (⟨"é", .int, true⟩ : Field) ∈ accentedTable.fields := List.mem_cons_of_mem _ List.mem_cons_self
  have spares : Text.same "é" "ü" = false := by decide
  obtain ⟨more, still, kept⟩ :=
    (kept (.of "main") (.alterTable "accented" (.dropColumn "ü")) id).2 accentedTable _ live among (fun _ => spares)
      none 0 _ read
  exact ⟨more, still, kept _ List.mem_cons_self⟩

-- The second spelling of a column is added. It reads the values of the first, and takes them along when it is dropped.
theorem second_spelling_shares : Reached (fun _ _ _ => True) Config.standard 1 spelled ∧
    spelled.catalog.tables.get? spelledTable.id = some spelledTable ∧ ¬ spelledTable.Apart ∧
    spelled.store.readShard none spelledTable.id 0 [idColumn, "é", "É"] = .ok [⟨[.id 1, .int 5, .int 5]⟩] ∧
    ((run (.of "main") (.alterTable "spelled" (.dropColumn "É"))).perform spelled).2.store.readShard none
      spelledTable.id 0 [idColumn, "é"] = .ok [⟨[.id 1, .null]⟩] := by
  have told : spelled.catalog.tables.get? spelledTable.id = some spelledTable ∧
      spelled.store.readShard none spelledTable.id 0 [idColumn, "é", "É"] = .ok [⟨[.id 1, .int 5, .int 5]⟩] ∧
      (spelled.changed (.of "main") (.alterTable "spelled" (.dropColumn "É"))).store.readShard none spelledTable.id 0
        [idColumn, "é"] = .ok [⟨[.id 1, .null]⟩] := by decide +kernel
  obtain ⟨live, shared, gone⟩ := told
  rw [run_changed spelled (.of "main") _ rfl rfl]
  exact ⟨spelled_reached, live, spelled_doubled, shared, gone⟩

end Accents

end Engine

end ShardQuery
