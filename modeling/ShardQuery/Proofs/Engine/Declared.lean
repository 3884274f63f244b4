import ShardQuery.Proofs.Engine.Apart
import ShardQuery.Proofs.Store.Placement
/-!
Data and the columns that are declared. Main statements: every column of the catalog was declared by a statement, and
with ASCII names everything that is stored or logged is a value of a column that is there, so that a table or a column
that is made anew has no data.
-/

set_option autoImplicit false

namespace ShardQuery

def Field.Ascii (field : Field) : Prop := field.name.toList.all (·.toNat < 128) = true

instance (field : Field) : Decidable field.Ascii :=
  inferInstanceAs (Decidable (field.name.toList.all (·.toNat < 128) = true))

-- Names of ASCII letters that are not spellings of each other have keys of their own.
theorem Table.ascii_apart {table : Table} (wellformed : table.Wellformed) (ascii : ∀ field ∈ table.fields, field.Ascii) :
    table.Apart := by
  refine wellformed.distinct.imp_of_mem fun {a b} among among' different alike => ?_
  rw [Text.same_of_lower a.name b.name (ascii a among) (ascii b among') alike] at different
  cases different

-- Whether a statement declares the column, for a new table or for one that is there.
def Statement.Declares (column : Field) : Statement → Prop
  | .createTable _ _ columns _ => column ∈ columns
  | .alterTable _ (.addColumn added) => column = added
  | _ => False

def Plan.Declares (column : Field) : Plan → Prop
  | .createTable _ _ _ columns _ => column ∈ columns
  | .alterTable _ _ (.addColumn added) => column = added
  | _ => False

theorem Statement.plan_declares {scope : Scope} {statement : Statement} {plan : Plan}
    (compiled : statement.CompilesTo scope plan) (column : Field) (declares : plan.Declares column) :
    statement.Declares column := by
  cases compiled with
  | reading _ _ _ reads =>
      cases plan with
      | createTable | alterTable => cases reads
      | _ => exact declares.elim
  | createTable => exact declares
  | alterTable name change =>
      cases change with
      | addColumn added => exact declares
      | dropColumn dropped => exact declares.elim
  | _ => exact declares.elim

-- Whether a table of the catalog has the column.
def Catalog.Has (catalog : Catalog) (id : TableId) (column : Field) : Prop :=
  ∃ table, catalog.tables.get? id = some table ∧ column ∈ table.fields

theorem Catalog.has_replacing {catalog : Catalog} {table : Table} {id : TableId} {column : Field}
    (has : (catalog.replacing table).Has id column) :
    catalog.Has id column ∨ id = table.id ∧ column ∈ table.fields := by
  obtain ⟨other, found, among⟩ := has
  rw [get?_replacing] at found
  split at found
  · rename_i here
    exact .inr ⟨here, Option.some.inj found ▸ among⟩
  · exact .inl ⟨other, found, among⟩

namespace Effect

variable {plan : Plan} {before after : Tracked}

-- A column that is there after an effect was there before, or the plan declares it.
theorem column_origin (effect : Effect plan before after) (sound : before.Sound) (id : TableId) (column : Field)
    (has : after.engine.catalog.Has id column) : before.engine.catalog.Has id column ∨ plan.Declares column := by
  cases effect with
  | unrecorded | databases | imported => exact .inl has
  | databaseDropped name ifExists tables catalog planned listed dropped =>
      obtain ⟨-, -, left⟩ := Catalog.drop_database_made sound.filed listed dropped
      obtain ⟨table, found, among⟩ := has
      exact .inl ⟨table, ((left id table).mp found).1, among⟩
  | tableMade database name ifNotExists fields description table catalog planned made =>
      subst planned
      obtain ⟨-, rfl, rfl⟩ := Catalog.create_table_made made
      exact (Catalog.has_replacing has).imp_right And.right
  | tableDropped database name ifExists table catalog planned dropped =>
      obtain ⟨-, -, left⟩ := Catalog.drop_table_made sound.filed dropped
      obtain ⟨table, found, among⟩ := has
      exact .inl ⟨table, ((left id table).mp found).1, among⟩
  | fieldAdded database name added table catalog planned found checked made =>
      subst planned
      obtain ⟨-, rfl⟩ := Catalog.create_field_made sound.filed added found made
      obtain ⟨-, -, -, held⟩ := Catalog.named_under_id sound.filed found
      rcases Catalog.has_replacing has with old | ⟨rfl, among⟩
      · exact .inl old
      · rcases List.mem_append.mp among with old | new
        · exact .inl ⟨table, held, old⟩
        · exact .inr (List.mem_singleton.mp new)
  | fieldDropped database name dropped table catalog planned found made =>
      obtain rfl := Catalog.drop_field_made sound.filed dropped found made
      obtain ⟨-, -, -, held⟩ := Catalog.named_under_id sound.filed found
      rcases Catalog.has_replacing has with old | ⟨rfl, among⟩
      · exact .inl old
      · exact .inl ⟨table, held, (List.mem_filter.mp among).1⟩

theorem run_column_origin (effects : Relation.ReflTransGen (Effect plan) before after)
    (fits : plan.Fits before.engine.catalog) (sound : before.Sound) (id : TableId) (column : Field)
    (has : after.engine.catalog.Has id column) : before.engine.catalog.Has id column ∨ plan.Declares column := by
  refine run_keeps (P := fun state => state.engine.catalog.Has id column →
    before.engine.catalog.Has id column ∨ plan.Declares column) effects fits sound ?_ .inl has
  intro a b effect _ sound origin has
  rcases effect.column_origin sound id column has with old | declared
  · exact origin old
  · exact .inr declared

-- Declaring columns does not touch the data.
theorem declaring_keeps_data (effect : Effect plan before after) (column : Field) (declares : plan.Declares column) :
    after.engine.store.partitions = before.engine.store.partitions ∧ after.engine.store.log = before.engine.store.log := by
  cases effect with
  | unrecorded | databases | tableMade | fieldAdded => exact ⟨rfl, rfl⟩
  | databaseDropped | tableDropped | fieldDropped | imported =>
      subst plan
      exact declares.elim

theorem run_declaring_keeps_data (effects : Relation.ReflTransGen (Effect plan) before after) (column : Field)
    (declares : plan.Declares column) :
    after.engine.store.partitions = before.engine.store.partitions ∧ after.engine.store.log = before.engine.store.log := by
  induction effects with
  | refl => exact ⟨rfl, rfl⟩
  | tail _ effect ih =>
      obtain ⟨partitions, log⟩ := effect.declaring_keeps_data column declares
      exact ⟨partitions.trans ih.1, log.trans ih.2⟩

end Effect

namespace Store

-- Whether some node holds a shard of the table, or the log has an entry about it.
def Knows (store : Store) (table : TableId) : Prop :=
  (∃ node shard, ((store.partition node).get? ⟨table, shard⟩).isSome = true) ∨ ∃ entry ∈ store.log, entry.table = table

-- Whether a record of the table has the value under the key, or the log sets it there.
def Keeps (store : Store) (table : TableId) (key : String) (v : Value) : Prop :=
  (∃ node shard id record, (records (store.partition node) table shard).get? id = some record ∧ record.get? key = some v) ∨
    ∃ entry ∈ store.log, entry.table = table ∧ ∃ change ∈ entry.updates, ∃ item ∈ change.set,
      Text.lower item.1 = key ∧ item.2 = v

theorem same_data {a b : Store} (partitions : a.partitions = b.partitions) (log : a.log = b.log) (table : TableId) :
    (a.Knows table ↔ b.Knows table) ∧ ∀ key v, a.Keeps table key v ↔ b.Keeps table key v := by
  have same (node : NodeId) : a.partition node = b.partition node := by
    rw [partition, partitions, partition]
  refine ⟨?_, fun key v => ?_⟩
  · rw [Knows, Knows, log]
    simp only [same]
  · rw [Keeps, Keeps, log]
    simp only [same]

-- What a record holds is also in the log.
theorem kept_logged {store : Store} {written : List LogEntry} (mirrors : store.Mirrors written) {table : TableId}
    {key : String} {v : Value} (keeps : store.Keeps table key v) :
    ∃ entry ∈ store.log, entry.table = table ∧ ∃ change ∈ entry.updates, ∃ item ∈ change.set,
      Text.lower item.1 = key ∧ item.2 = v := by
  rcases keeps with ⟨node, shard, id, record, held, recorded⟩ | logged
  · obtain ⟨-, -, rfl, -⟩ := held_present mirrors held
    exact amended_logged store.log table shard id key v recorded
  · exact logged

theorem unknown_unlisted {store : Store} {table : TableId} (shaped : store.Shaped) (unknown : ¬ store.Knows table) :
    store.shards table = [] := by
  refine List.eq_nil_iff_forall_not_mem.mpr fun shard listed => ?_
  obtain ⟨partition, among, held⟩ := ((shards_ascending store table).2 shard).mp listed
  obtain ⟨node, -, rfl⟩ := (partition_among shaped partition).mp among
  exact unknown (.inl ⟨node, shard, held⟩)

theorem unknown_unread {store : Store} {table : TableId} (unknown : ¬ store.Knows table) (node : Option NodeId)
    (shard : ShardId) (fields : List String) (rows : List Row) (read : store.readShard node table shard fields = .ok rows) :
    rows = [] := by
  obtain ⟨owners, -, read⟩ := ok_of_bind read
  obtain ⟨node, -, read⟩ := ok_of_bind read
  have blank : records (store.partition node) table shard = .empty := by
    rw [records]
    cases found : (store.partition node).get? ⟨table, shard⟩ with
    | none => rfl
    | some held => exact absurd (.inl ⟨node, shard, Option.isSome_iff_exists.mpr ⟨held, found⟩⟩) unknown
  rw [blank] at read
  exact (Except.ok.inj read).symm

theorem unkept_null {store : Store} {table : TableId} {name : String} (notId : Text.lower name ≠ idColumn)
    (unkept : ∀ v, ¬ store.Keeps table (Text.lower name) v) (node : Option NodeId) (shard : ShardId) (rows : List Row)
    (read : store.readShard node table shard [name] = .ok rows) : ∀ row ∈ rows, row = ⟨[.null]⟩ := by
  obtain ⟨owners, -, read⟩ := ok_of_bind read
  obtain ⟨node, -, read⟩ := ok_of_bind read
  rw [← Except.ok.inj read]
  intro row among
  obtain ⟨entry, listed, rfl⟩ := List.mem_map.mp among
  have held := (SortedMap.get?_eq_some _ entry.1 entry.2).mpr listed
  have missing : entry.2.get? (Text.lower name) = none := by
    cases found : entry.2.get? (Text.lower name) with
    | none => rfl
    | some v => exact absurd (.inl ⟨node, shard, entry.1, entry.2, held, found⟩) (unkept v)
  rw [recordRow, List.map_singleton, fieldValue, if_neg fun isId => notId (beq_iff_eq.mp isId), missing]
  rfl

end Store

-- A value under the key of the one column of the table that is stored there, and of its type.
def Table.Stores (table : Table) (key : String) (v : Value) : Prop :=
  ∃ field ∈ table.fields, Text.lower field.name = key ∧ Text.same field.name idColumn = false ∧ v ≠ .null ∧
    v.dataType? = some field.type ∧ ∀ other ∈ table.fields, Text.lower other.name = key → other = field

namespace Tracked

variable {state : Tracked}

theorem known_live (sound : state.Sound) (id : TableId) (knows : state.engine.store.Knows id) :
    ∃ table, state.engine.catalog.tables.get? id = some table := by
  rcases knows with ⟨node, shard, held⟩ | ⟨entry, logged, rfl⟩
  · obtain ⟨records, found⟩ := Option.isSome_iff_exists.mp held
    obtain ⟨record, fields, recorded⟩ := Partition.held_filled _ (sound.mirrors.trimmed node) ⟨id, shard⟩ records found
    have there : (Store.records (state.engine.store.partition node) id shard).get? record = some fields := by
      rw [Store.records, found]
      exact recorded
    obtain ⟨-, present, -, -⟩ := Store.held_present sound.mirrors there
    obtain ⟨entry, written, rfl, -⟩ := present_written present
    exact sound.live entry (.inr written)
  · exact sound.live entry (.inl logged)

theorem kept_declared (sound : state.Sound) (ascii : ∀ id column, state.engine.catalog.Has id column → column.Ascii)
    (id : TableId) (key : String) (v : Value) (keeps : state.engine.store.Keeps id key v) :
    ∃ table, state.engine.catalog.tables.get? id = some table ∧ table.Stores key v := by
  obtain ⟨entry, logged, rfl, change, update, item, set, rfl, rfl⟩ := Store.kept_logged sound.mirrors keeps
  obtain ⟨table, live⟩ := sound.live entry (.inl logged)
  have apart := Table.ascii_apart (sound.filed.wellformed entry.table table live) fun field among =>
    ascii entry.table field ⟨table, live, among⟩
  obtain ⟨notId, field, among, called, typed⟩ := sound.taken entry logged table live change update item set
  have named := Text.lower_of_same _ _ called
  refine ⟨table, live, field, among, named, ?_, ?_, typed, ?_⟩
  · refine Bool.eq_false_iff.mpr fun isId => ?_
    rw [Text.same_trans _ _ _ (Text.same_symm _ _ called) isId] at notId
    cases notId
  · intro null
    rw [null] at typed
    cases typed
  · intro other among' alike
    exact Table.same_key apart other field among' among (alike.trans named.symm)

end Tracked

namespace Engine

variable {admits : Engine → Context → Statement → Prop} {config : Config} {nodes : UInt32} {engine : Engine}

-- What holds of all columns that are declared holds of those of the catalog.
theorem reached_columns (good : Field → Prop) (reached : Reached admits config nodes engine)
    (declared : ∀ engine ctx statement, admits engine ctx statement → ∀ column, statement.Declares column → good column)
    (id : TableId) (column : Field) (has : engine.catalog.Has id column) : good column := by
  induction reached with
  | opening =>
      obtain ⟨table, found, -⟩ := has
      cases found
  | served engine ctx statement before admitted ih =>
      obtain ⟨written, sound⟩ := reached_sound before
      rcases run_becomes ctx statement engine sound.filed with same | ⟨plan, compiled, fits, becomes⟩
      · exact ih (same ▸ has)
      · obtain ⟨later, effects⟩ := becomes written
        rcases Effect.run_column_origin effects fits sound id column has with old | new
        · exact ih old
        · exact declared engine ctx statement admitted column (Statement.plan_declares compiled column new)
  | meanwhile engine gate desk _ ih => exact ih has

-- A column that a statement adds finds the data as it was before.
theorem run_adding (ctx : Context) (statement : Statement) (sound : ∃ written, Tracked.Sound ⟨engine, written⟩)
    (id : TableId) (column : Field) (has : ((run ctx statement).perform engine).2.catalog.Has id column)
    (new : ¬ engine.catalog.Has id column) :
    statement.Declares column ∧ ((run ctx statement).perform engine).2.store.partitions = engine.store.partitions ∧
      ((run ctx statement).perform engine).2.store.log = engine.store.log := by
  obtain ⟨written, sound⟩ := sound
  rcases run_becomes ctx statement engine sound.filed with same | ⟨plan, compiled, fits, becomes⟩
  · exact absurd (same ▸ has) new
  · obtain ⟨later, effects⟩ := becomes written
    rcases Effect.run_column_origin effects fits sound id column has with old | declared
    · exact absurd old new
    · exact ⟨Statement.plan_declares compiled column declared, Effect.run_declaring_keeps_data effects column declared⟩

-- Statements that declare only columns with ASCII names.
def admitsAscii (_ : Engine) (_ : Context) (statement : Statement) : Prop :=
  ∀ column, statement.Declares column → column.Ascii

section Made

variable {written : List LogEntry} (ctx : Context) (statement : Statement) (id : TableId) (made : Table)

-- A table that was not there has no data when it is made.
theorem new_table_unknown (sound : Tracked.Sound ⟨engine, written⟩) (wellformed : made.Wellformed)
    (found : ((run ctx statement).perform engine).2.catalog.tables.get? id = some made)
    (new : engine.catalog.tables.get? id = none) : ¬ ((run ctx statement).perform engine).2.store.Knows id := by
  obtain ⟨key, rest, fields, -⟩ := wellformed.headed
  have absent : ¬ engine.catalog.Has id key := by
    intro ⟨table, held, _⟩
    rw [new] at held
    cases held
  have has : ((run ctx statement).perform engine).2.catalog.Has id key := ⟨made, found, fields ▸ List.mem_cons_self⟩
  obtain ⟨-, partitions, log⟩ := run_adding ctx statement ⟨written, sound⟩ id key has absent
  rw [(Store.same_data partitions log id).1]
  intro knows
  obtain ⟨table, held⟩ := Tracked.known_live sound id knows
  rw [new] at held
  cases held

-- A column that its table did not have has no values when it is made.
theorem new_column_unkept (sound : Tracked.Sound ⟨engine, written⟩)
    (ascii : ∀ id column, engine.catalog.Has id column → column.Ascii) (admitted : admitsAscii engine ctx statement)
    (found : ((run ctx statement).perform engine).2.catalog.tables.get? id = some made) (table : Table)
    (held : engine.catalog.tables.get? id = some table) (column : Field) (among : column ∈ made.fields)
    (fresh : table.field? column.name = none) :
    Text.lower column.name ≠ idColumn ∧
      ∀ v, ¬ ((run ctx statement).perform engine).2.store.Keeps id (Text.lower column.name) v := by
  have new : ¬ engine.catalog.Has id column := by
    intro ⟨other, held', among'⟩
    obtain rfl : table = other := Option.some.inj (held.symm.trans held')
    have different := Table.field_none fresh column among'
    rw [Text.same_refl] at different
    cases different
  obtain ⟨declares, partitions, log⟩ := run_adding ctx statement ⟨written, sound⟩ id column ⟨made, found, among⟩ new
  have elsewhere (field : Field) (inside : field ∈ table.fields) : Text.lower field.name ≠ Text.lower column.name := by
    intro alike
    have same := Text.same_of_lower _ _ (ascii id field ⟨table, held, inside⟩) (admitted column declares) alike
    rw [Table.field_none fresh field inside] at same
    cases same
  refine ⟨?_, fun v => ?_⟩
  · obtain ⟨key, rest, fields, called, -⟩ := (sound.filed.wellformed id table held).headed
    have apart := elsewhere key (fields ▸ List.mem_cons_self)
    rw [called] at apart
    exact Ne.symm apart
  · rw [(Store.same_data partitions log id).2]
    intro keeps
    obtain ⟨other, held', field, inside, named, -⟩ := Tracked.kept_declared sound ascii id _ v keeps
    obtain rfl : table = other := Option.some.inj (held.symm.trans held')
    exact elsewhere field inside named

end Made

theorem stored_declared (reached : Reached admitsAscii config nodes engine) :
    (∀ id, engine.store.Knows id → ∃ table, engine.catalog.tables.get? id = some table) ∧
    (∀ id key v, engine.store.Keeps id key v → ∃ table, engine.catalog.tables.get? id = some table ∧ table.Stores key v) ∧
    ∀ ctx statement, admitsAscii engine ctx statement → let after := ((run ctx statement).perform engine).2
      ∀ id made, after.catalog.tables.get? id = some made →
        (engine.catalog.tables.get? id = none → ¬ after.store.Knows id ∧ after.store.shards id = [] ∧
          ∀ node shard fields rows, after.store.readShard node id shard fields = .ok rows → rows = []) ∧
        ∀ table, engine.catalog.tables.get? id = some table → ∀ column ∈ made.fields, table.field? column.name = none →
          (∀ v, ¬ after.store.Keeps id (Text.lower column.name) v) ∧ ∀ node shard rows,
            after.store.readShard node id shard [column.name] = .ok rows → ∀ row ∈ rows, row = ⟨[.null]⟩ := by
  have ascii : ∀ id column, engine.catalog.Has id column → column.Ascii :=
    reached_columns Field.Ascii reached fun _ _ _ admitted => admitted
  obtain ⟨written, sound⟩ := reached_sound reached
  refine ⟨Tracked.known_live sound, Tracked.kept_declared sound ascii, ?_⟩
  intro ctx statement admitted after id made found
  have next : Reached admitsAscii config nodes after := .served engine ctx statement reached admitted
  obtain ⟨later, sound'⟩ := reached_sound next
  refine ⟨?_, ?_⟩
  · intro new
    have unknown : ¬ after.store.Knows id :=
      new_table_unknown ctx statement id made sound (sound'.filed.wellformed id made found) found new
    exact ⟨unknown, Store.unknown_unlisted sound'.mirrors.shaped unknown, Store.unknown_unread unknown⟩
  · intro table held column among fresh
    obtain ⟨notId, unkept⟩ :=
      new_column_unkept ctx statement id made sound ascii admitted found table held column among fresh
    exact ⟨unkept, Store.unkept_null notId unkept⟩

section Prices

def goodsTable (columns : List Field) : Table :=
  ⟨"goods", .ofName (.ofName "main") "goods", .ofName "main", ⟨idColumn, .id, false⟩ :: columns, none⟩

-- A table with one record, and what is left when its column is dropped.
def stocked : Engine :=
  (((make Config.standard 1).changed (.of "main") (.createDatabase "main" false .empty)).changed (.of "main")
    (.createTable "goods" false (goodsTable [⟨"price", .decimal 2, true⟩]).fields none)).changed (.of "main")
      (.insert "goods" [idColumn, "Price"] [[.literal (.int 1), .literal (.decimal 150 2)]])

def unpriced : Engine := stocked.changed (.of "main") (.alterTable "goods" (.dropColumn "price"))

def wholePrice : Statement := .alterTable "goods" (.addColumn ⟨"PRICE", .int, true⟩)

theorem stocked_known :
    stocked.store.readShard none (goodsTable []).id 0 ["price"] = .ok [⟨[.decimal 150 2]⟩] ∧
    unpriced.catalog.tables.get? (goodsTable []).id = some (goodsTable []) ∧
    (unpriced.changed (.of "main") wholePrice).catalog.tables.get? (goodsTable []).id =
      some (goodsTable [⟨"PRICE", .int, true⟩]) ∧
    (unpriced.changed (.of "main") wholePrice).store.shards (goodsTable []).id = [0] := by
  decide +kernel

theorem unpriced_reached : Reached admitsAscii Config.standard 1 stocked ∧
    Reached admitsAscii Config.standard 1 unpriced := by
  have opened : Reached admitsAscii Config.standard 1 ((make Config.standard 1).changed (.of "main")
      (.createDatabase "main" false .empty)) := reached_changed (.opening _) (.of "main") _ rfl rfl nofun
  have made := reached_changed opened (.of "main")
    (.createTable "goods" false (goodsTable [⟨"price", .decimal 2, true⟩]).fields none) rfl rfl
      (show ∀ column ∈ (goodsTable [⟨"price", .decimal 2, true⟩]).fields, column.Ascii by decide)
  have filled := reached_changed made (.of "main")
    (.insert "goods" [idColumn, "Price"] [[.literal (.int 1), .literal (.decimal 150 2)]]) rfl rfl nofun
  exact ⟨filled, reached_changed filled (.of "main") _ rfl rfl nofun⟩

-- A column that is made again at another type shows nothing of the values that it had.
theorem column_made_again_null :
    (∃ v, stocked.store.readShard none (goodsTable []).id 0 ["price"] = .ok [⟨[v]⟩] ∧ v ≠ .null) ∧
    (∀ v, stocked.store.Keeps (goodsTable []).id "price" v → ∃ table,
      stocked.catalog.tables.get? (goodsTable []).id = some table ∧ table.Stores "price" v) ∧
    ((run (.of "main") wholePrice).perform unpriced).2.store.shards (goodsTable []).id = [0] ∧
    ∀ node shard rows, ((run (.of "main") wholePrice).perform unpriced).2.store.readShard node (goodsTable []).id shard
      ["PRICE"] = .ok rows → ∀ row ∈ rows, row = ⟨[.null]⟩ := by
  obtain ⟨priced, bare, made, listed⟩ := stocked_known
  obtain ⟨reached, reached'⟩ := unpriced_reached
  obtain ⟨-, typed, -⟩ := stored_declared reached
  obtain ⟨-, -, anew⟩ := stored_declared reached'
  have ascii : admitsAscii unpriced (.of "main") wholePrice := by
    intro column added
    rw [show column = ⟨"PRICE", .int, true⟩ from added]
    decide
  have after : ((run (.of "main") wholePrice).perform unpriced).2 = unpriced.changed (.of "main") wholePrice :=
    run_changed unpriced (.of "main") wholePrice rfl rfl
  obtain ⟨-, columns⟩ := anew (.of "main") wholePrice ascii (goodsTable []).id _ (after ▸ made)
  obtain ⟨-, null⟩ := columns (goodsTable []) bare ⟨"PRICE", .int, true⟩ (List.mem_cons_of_mem _ List.mem_cons_self)
    (by decide)
  exact ⟨⟨_, priced, nofun⟩, typed (goodsTable []).id "price", after ▸ listed, null⟩

end Prices

end Engine

end ShardQuery
