import ShardQuery.Proofs.Cursor.Answers
import ShardQuery.Proofs.Engine.Reached
import ShardQuery.Proofs.Statement.Careful
import ShardQuery.Proofs.Store.Listing
/-!
Columns that cannot be null. Main statement: as long as statements are careful, no row that a scan of a table reads is
null in a column that is declared not to be.
-/

set_option autoImplicit false

namespace ShardQuery

namespace Record

-- A value that is given stays, or is set to another one.
theorem set_fields_fill (record : Record) (items : List (String × Value)) (key : String)
    (taken : ∀ item ∈ items, Text.same item.1 idColumn = false ∧ item.2.isNull = false)
    (given : (record.get? key).isSome = true ∨ ∃ item ∈ items, Text.lower item.1 = key) :
    ((record.setFields items).get? key).isSome = true := by
  induction items generalizing record with
  | nil =>
      rcases given with held | ⟨item, member, -⟩
      · exact held
      · cases member
  | cons item items ih =>
      obtain ⟨notId, present⟩ := taken item List.mem_cons_self
      have set : record.setField item = record.insert (Text.lower item.1) item.2 := by
        rw [setField, if_neg (Bool.eq_false_iff.mp notId), if_neg (Bool.eq_false_iff.mp present)]
      refine ih (record.setField item) (fun other member => taken other (List.mem_cons_of_mem _ member)) ?_
      rw [set, SortedMap.get?_insert]
      split
      · exact .inl rfl
      · rename_i other
        rcases given with held | ⟨wanted, member, named⟩
        · exact .inl held
        · rcases List.mem_cons.mp member with rfl | later
          · exact absurd named.symm other
          · exact .inr ⟨wanted, later, named⟩

-- After updates that all set a field, the field is there, as it is where there were no updates.
theorem amended_fill (changes : List RowUpdate) (record : Record) (key : String)
    (taken : ∀ change ∈ changes, ∀ item ∈ change.set, Text.same item.1 idColumn = false ∧ item.2.isNull = false)
    (given : ∀ change ∈ changes, ∃ item ∈ change.set, Text.lower item.1 = key)
    (held : changes = [] → (record.get? key).isSome = true) :
    ((changes.foldl amend record).get? key).isSome = true := by
  induction changes generalizing record with
  | nil => exact held rfl
  | cons change changes ih =>
      refine ih (record.amend change) (fun other member => taken other (List.mem_cons_of_mem _ member))
        (fun other member => given other (List.mem_cons_of_mem _ member)) fun _ => ?_
      exact set_fields_fill _ change.set key (taken change List.mem_cons_self) (.inr (given change List.mem_cons_self))

-- No record holds null as the value of a field.
def Nullless (record : Record) : Prop := ∀ key v, record.get? key = some v → v.isNull = false

theorem amend_all_nullless (changes : List RowUpdate) (record : Record) (nullless : record.Nullless) :
    (changes.foldl amend record).Nullless :=
  amend_all_every changes record nullless fun _ _ _ _ present => present

end Record

namespace Tracked

-- Every record that is there has a value for every field of its table that cannot be null. Without replicas no record
-- is ever there.
def Filled (state : Tracked) : Prop :=
  0 < state.engine.store.replicas.toNat → ∀ id table, state.engine.catalog.tables.get? id = some table →
    ∀ field ∈ table.fields, field.nullable = false → field.name ≠ idColumn → ∀ shard record,
      present state.written id shard record = true →
        ((amended state.engine.store.log id shard record).get? (Text.lower field.name)).isSome = true

variable {state : Tracked}

-- A store in which some table has no record that is there.
theorem absent_of_empty (sound : state.Sound) (copies : 0 < state.engine.store.replicas.toNat) (table : TableId)
    (empty : state.engine.holdsRows table = false) (shard : ShardId) (record : RecordId) :
    present state.written table shard record = false := by
  rw [Bool.eq_false_iff]
  intro there
  have listed := (Store.listed_iff sound.mirrors copies table shard).mpr ⟨record, there⟩
  rw [Engine.holdsRows, Bool.not_eq_false', List.isEmpty_iff] at empty
  rw [empty] at listed
  cases listed

theorem absent_of_new (sound : state.Sound) (table : TableId) (free : state.engine.catalog.tables.get? table = none)
    (shard : ShardId) (record : RecordId) : present state.written table shard record = false := by
  have untouched : updatesFor state.written table shard record = [] := by
    refine List.flatMap_eq_nil_iff.mpr fun entry member => ?_
    obtain ⟨other, found⟩ := sound.live entry (.inr member)
    refine updates_of_other table shard record entry ?_
    rintro rfl
    rw [free] at found
    cases found
  rw [present, untouched]
  rfl

end Tracked

namespace Effect

variable {plan : Plan} {before after : Tracked}

theorem present_without (gone : List Table) (written : List LogEntry) (table : TableId) (shard : ShardId)
    (record : RecordId) (kept : ∀ other ∈ gone, table ≠ other.id) :
    updatesFor (gone.foldl Tracked.withoutTable written) table shard record = updatesFor written table shard record := by
  induction gone generalizing written with
  | nil => rfl
  | cons first gone ih =>
      rw [List.foldl_cons, ih _ fun other member => kept other (List.mem_cons_of_mem _ member), Tracked.withoutTable,
        updates_for_deleted_table, if_neg (kept first List.mem_cons_self)]

theorem log_without (gone : List Table) (store : Store) :
    (gone.foldl (fun store table => store.deleteTable table.id) store).log = gone.foldl Tracked.withoutTable store.log := by
  induction gone generalizing store with
  | nil => rfl
  | cons first gone ih => exact ih (store.deleteTable first.id)

theorem filled_without (gone : List Table) (later : Catalog) (filled : before.Filled)
    (tables : ∀ id table, later.tables.get? id = some table ↔
      before.engine.catalog.tables.get? id = some table ∧ table ∉ gone)
    (filed : ∀ table ∈ gone, before.engine.catalog.tables.get? table.id = some table) :
    Tracked.Filled ⟨{ before.engine with
        catalog := later, store := gone.foldl (fun store table => store.deleteTable table.id) before.engine.store },
      gone.foldl Tracked.withoutTable before.written⟩ := by
  intro copies id table found field among needed named shard record there
  obtain ⟨held, kept⟩ := (tables id table).mp found
  have elsewhere : ∀ other ∈ gone, id ≠ other.id := by
    rintro other member rfl
    rw [filed other member] at held
    exact kept (Option.some.inj held ▸ member)
  rw [present, present_without gone before.written id shard record elsewhere] at there
  change ((amended (gone.foldl _ before.engine.store).log id shard record).get? _).isSome = true
  rw [log_without, amended, present_without gone before.engine.store.log id shard record elsewhere]
  refine filled ?_ id table held field among needed named shard record there
  exact (deleted_tables_shape gone before.engine.store).replicas ▸ copies

theorem keeps_filled (effect : Effect plan before after) (fits : plan.Fits before.engine.catalog)
    (keeps : plan.KeepsFilled before.engine.catalog) (sound : before.Sound) (filled : before.Filled) : after.Filled := by
  cases effect with
  | unrecorded | databases => exact filled
  | databaseDropped name ifExists tables catalog planned listed dropped =>
      obtain ⟨-, live, kept⟩ := Catalog.drop_database_made sound.filed listed dropped
      exact filled_without tables catalog filled kept live
  | tableMade database name ifNotExists fields description table catalog planned made =>
      obtain ⟨free, -, rfl⟩ := Catalog.create_table_made made
      intro copies id other found field among needed named shard record there
      change (before.engine.catalog.replacing table).tables.get? id = some other at found
      rw [Catalog.get?_replacing] at found
      split at found
      · rename_i new
        rw [new, Tracked.absent_of_new sound table.id free shard record] at there
        cases there
      · exact filled copies id other found field among needed named shard record there
  | tableDropped database name ifExists table catalog planned dropped =>
      obtain ⟨-, live, kept⟩ := Catalog.drop_table_made sound.filed dropped
      exact filled_without [table] catalog filled kept live
  | fieldAdded database name column table catalog planned found checked added =>
      obtain ⟨new, rfl⟩ := Catalog.create_field_made sound.filed column found added
      obtain ⟨-, -, -, held⟩ := Catalog.named_under_id sound.filed found
      intro copies id other found field among needed named shard record there
      change (before.engine.catalog.replacing _).tables.get? id = some other at found
      rw [Catalog.get?_replacing] at found
      split at found
      · rename_i same
        subst same
        cases found
        rcases List.mem_append.mp among with old | added
        · exact filled copies table.id table held field old needed named shard record there
        · obtain rfl := List.mem_singleton.mp added
          rw [checkAddColumn, needed] at checked
          cases rows : before.engine.holdsRows table.id with
          | true =>
              rw [rows] at checked
              cases checked
          | false =>
              rw [Tracked.absent_of_empty sound copies table.id rows shard record] at there
              cases there
      · exact filled copies id other found field among needed named shard record there
  | fieldDropped database name column table catalog planned found dropped =>
      subst planned
      obtain rfl := Catalog.drop_field_made sound.filed column found dropped
      obtain ⟨-, -, -, held⟩ := Catalog.named_under_id sound.filed found
      have logged (id : TableId) (shard : ShardId) (record : RecordId) :
          amended (before.engine.store.deleteField table.id column).log id shard record =
            if id = table.id then (amended before.engine.store.log id shard record).erase (Text.lower column)
            else amended before.engine.store.log id shard record :=
        Store.amended_deleted_field before.engine.store table.id column id shard record
      intro copies id other found' field among needed named shard record there
      change (before.engine.catalog.replacing _).tables.get? id = some other at found'
      rw [Catalog.get?_replacing] at found'
      change ((amended (before.engine.store.deleteField table.id column).log id shard record).get? _).isSome = true
      rw [logged]
      split at found'
      · rename_i same
        subst same
        cases found'
        obtain ⟨old, kept⟩ := List.mem_filter.mp among
        rw [if_pos rfl, SortedMap.get?_erase, if_neg]
        · exact filled copies table.id table held field old needed named shard record there
        · intro same
          rw [keeps table found field old needed same] at kept
          cases kept
      · rename_i elsewhere
        rw [if_neg elsewhere]
        exact filled copies id other found' field among needed named shard record there
  | imported insertion width all changes shard store planned made among taken =>
      subst planned
      obtain ⟨id, table, held, fills⟩ := fits
      have under : insertion.table = id := fills.into.trans (sound.filed.tables id table held)
      obtain ⟨-, logged, shape⟩ := Store.import_mirrors before.engine.store store before.written
        ⟨insertion.table, shard, changes⟩ sound.mirrors taken
      intro copies id' other found field inside needed named shard' record there
      change ((amended store.log id' shard' record).get? _).isSome = true
      have old := filled (shape.replicas ▸ copies) id' other found field inside needed named shard' record
      rw [present_append] at there
      rw [logged, amended_append]
      by_cases here : insertion.table = id' ∧ shard = shard'
      · obtain ⟨rfl, rfl⟩ := here
        obtain rfl : table = other := by
          change before.engine.catalog.tables.get? insertion.table = some other at found
          rw [under, held] at found
          exact Option.some.inj found
        rw [LogEntry.updatesOf, if_pos ⟨rfl, rfl⟩] at there ⊢
        have evaluated (change : RowUpdate) (member : change ∈ changes.filter (·.id == record)) : change ∈ all :=
          among change (List.mem_filter.mp member).1
        refine Record.amended_fill _ _ _ ?_ ?_ ?_
        · intro change member item set
          obtain ⟨notId, _, -, -, typed⟩ :=
            InsertPlan.updates_taken insertion table fills width all made change (evaluated change member) item set
          exact ⟨notId, Value.not_null_of_type typed⟩
        · intro change member
          obtain ⟨v, set⟩ := InsertPlan.updates_given insertion table (sound.filed.wellformed id table held) fills
            (keeps table found) width all made change (evaluated change member) field inside needed named
          exact ⟨_, set, rfl⟩
        · intro none
          rw [none] at there
          exact old there
      · rw [LogEntry.updatesOf, if_neg here] at there ⊢
        exact old there

-- After an effect, a plan still leaves no column null that cannot be.
theorem keeps_keeping (effect : Effect plan before after) (keeps : plan.KeepsFilled before.engine.catalog)
    (sound : before.Sound) : plan.KeepsFilled after.engine.catalog := by
  cases effect with
  | unrecorded => exact keeps
  | databases databases planned =>
      cases plan with
      | createDatabase | alterDatabase => trivial
      | _ => cases planned
  | databaseDropped name ifExists tables catalog planned =>
      subst planned
      trivial
  | tableMade database name ifNotExists fields description table catalog planned =>
      subst planned
      trivial
  | tableDropped database name ifExists table catalog planned =>
      subst planned
      trivial
  | fieldAdded database name column table catalog planned =>
      subst planned
      trivial
  | fieldDropped database name column table catalog planned found dropped =>
      subst planned
      obtain rfl := Catalog.drop_field_made sound.filed column found dropped
      intro other found'
      have same : other = { table with fields := table.fields.filter fun field => !Text.same field.name column } :=
        Catalog.named_replacing sound.filed found _ rfl found'
      subst same
      intro field among
      exact keeps table found field (List.mem_filter.mp among).1
  | imported => exact keeps

theorem run_keeps_filled (effects : Relation.ReflTransGen (Effect plan) before after)
    (fits : plan.Fits before.engine.catalog) (keeps : plan.KeepsFilled before.engine.catalog) (sound : before.Sound)
    (filled : before.Filled) : plan.KeepsFilled after.engine.catalog ∧ after.Filled := by
  refine run_keeps (P := fun state => plan.KeepsFilled state.engine.catalog ∧ state.Filled) effects fits sound
    (fun a b effect fits sound both => ?_) ⟨keeps, filled⟩
  exact ⟨effect.keeps_keeping both.1 sound, effect.keeps_filled fits both.1 sound both.2⟩

end Effect

namespace Store

def Reads (store : Store) (table : TableId) (fields : List String) (row : Row) : Prop :=
  ∃ node? shard rows, store.readShard node? table shard fields = .ok rows ∧ row ∈ rows

-- A row that is read is of a record that is there.
theorem read_record {store : Store} {written : List LogEntry} (mirrors : store.Mirrors written) (table : TableId)
    (fields : List String) (row : Row) (reads : store.Reads table fields row) :
    0 < store.replicas.toNat ∧ ∃ shard id, present written table shard id = true ∧
      row = recordRow fields id (amended store.log table shard id) := by
  obtain ⟨node?, shard, rows, read, member⟩ := reads
  obtain ⟨owners, counted, read⟩ := ok_of_bind read
  obtain ⟨node, served, read⟩ := ok_of_bind read
  cases read
  have owner : node ∈ store.ring shard := by
    have listed : owners = store.ring shard := by
      rw [Store.owners] at counted
      split at counted
      · exact (Except.ok.inj counted).symm
      · cases counted
    subst listed
    cases node? with
    | some asked =>
        dsimp only at served
        split at served
        · rename_i held
          exact Except.ok.inj served ▸ List.contains_iff_mem.mp held
        · cases served
    | none =>
        cases first : (store.ring shard).head? with
        | none =>
            rw [first] at served
            cases served
        | some primary =>
            rw [first] at served
            exact Except.ok.inj served ▸ List.mem_of_head? first
  have copies : 0 < store.replicas.toNat := by
    obtain ⟨k, within, -⟩ := List.mem_map.mp owner
    exact Nat.zero_lt_of_lt (List.mem_range.mp within)
  obtain ⟨⟨id, record⟩, among, rfl⟩ := List.mem_map.mp member
  refine ⟨copies, shard, id, ?_⟩
  have found := (SortedMap.get?_eq_some _ _ _).mpr among
  rw [mirrors.holding node (ring_inside store mirrors.shaped shard node owner), if_pos owner] at found
  split at found
  · rename_i there
    exact ⟨there, Option.some.inj found ▸ rfl⟩
  · cases found

end Store

-- A scan hands out rows of shards of its table.
theorem Source.scan_rows_read (table : TableId) (fields : List String) (ctx : Context) (engine : Engine) (rows : List Row)
    (scanned : ((Pipeline.of (.scan table fields)).source.collect ctx engine).1 = .ok rows) :
    ∀ row ∈ rows, engine.store.Reads table fields row := by
  have found (node? : Option NodeId) (shards : List ShardId) (row : Row) (scan : Scan)
      (read : Scan.readOn engine.store node? table fields shards = (.row row, scan)) :
      engine.store.Reads table fields row ∧ ∀ row ∈ scan.buffer, engine.store.Reads table fields row := by
    fun_induction Scan.readOn engine.store node? table fields shards with
    | case1 => cases read
    | case2 => cases read
    | case3 shard rest empty ih => exact ih read
    | case4 shard rest first buffer full =>
        cases read
        exact ⟨⟨node?, shard, _, full, List.mem_cons_self⟩,
          fun row among => ⟨node?, shard, _, full, List.mem_cons_of_mem _ among⟩⟩
  have step (s : Scan) (later : Engine) (row : Row) (t : Scan) (after : Engine)
      (holds : later = engine ∧ ∀ row ∈ s.buffer, engine.store.Reads table fields row)
      (pulled : (Source.scan table fields).pull ctx s later = ⟨.row row, t, after⟩) :
      engine.store.Reads table fields row ∧ after = engine ∧ ∀ row ∈ t.buffer, engine.store.Reads table fields row := by
    obtain ⟨rfl, buffered⟩ := holds
    simp only [Source.scan, Source.checked] at pulled
    split at pulled
    · cases pulled
    · simp only [Pulled.mk.injEq] at pulled
      obtain ⟨answer, state, rfl⟩ := pulled
      obtain ⟨node?, pending, buffer⟩ := s
      cases buffer with
      | nil =>
          obtain ⟨read, rest⟩ := found node? pending row t (Prod.ext answer state)
          exact ⟨read, rfl, rest⟩
      | cons first rest =>
          cases answer
          subst state
          exact ⟨buffered row List.mem_cons_self, rfl, fun other among => buffered other (List.mem_cons_of_mem _ among)⟩
  rw [Source.collect] at scanned
  split at scanned
  · rename_i s started
    refine Source.drain_rows_all (Pipeline.of (.scan table fields)).source ctx _ _ step s engine ⟨rfl, ?_⟩ rows scanned
    obtain ⟨_, -, started⟩ := ok_of_bind started
    cases started
    split
    · exact List.forall_mem_nil _
    · exact List.forall_mem_nil _
  · cases scanned

namespace Engine

variable {config : Config} {nodes : UInt32} {engine : Engine}

def admitsCareful (engine : Engine) (ctx : Context) (statement : Statement) : Prop :=
  statement.Careful (engine.scope ctx)

theorem reached_filled (reached : Reached admitsCareful config nodes engine) :
    ∃ written, Tracked.Sound ⟨engine, written⟩ ∧ Tracked.Filled ⟨engine, written⟩ := by
  induction reached with
  | opening directories => exact ⟨[], make_sound config nodes directories, fun _ _ _ => nofun⟩
  | served engine ctx statement _ careful ih =>
      obtain ⟨written, sound, filled⟩ := ih
      rcases run_becomes ctx statement engine sound.filed with same | ⟨plan, compiled, fits, becomes⟩
      · exact ⟨written, same.symm ▸ sound, same.symm ▸ filled⟩
      · obtain ⟨later, effects⟩ := becomes written
        have keeps := Statement.careful_keeps (engine.scope ctx) statement plan sound.filed careful compiled
        exact ⟨later, (Effect.run_keeps_sound effects fits sound).2,
          (Effect.run_keeps_filled effects fits keeps sound filled).2⟩
  | meanwhile engine gate desk _ ih =>
      obtain ⟨written, sound, filled⟩ := ih
      exact ⟨written,
        ⟨sound.filed, Tracked.mirrors_desk _ _ sound.mirrors desk, sound.live, sound.taken⟩, filled⟩

theorem read_filled (reached : Reached admitsCareful config nodes engine) (id : TableId) (table : Table)
    (live : engine.catalog.tables.get? id = some table) (row : Row)
    (reads : engine.store.Reads id (table.fields.map (·.name)) row) (relation : String) (i : Nat) (column : Column)
    (declared : (table.schema relation).get? i = some column) (needed : column.nullable = false) :
    ∃ v, row.get? i = some v ∧ v.isNull = false := by
  obtain ⟨written, sound, filled⟩ := reached_filled reached
  obtain ⟨copies, shard, record, there, rfl⟩ := Store.read_record sound.mirrors id _ row reads
  rw [Schema.get?, Table.schema, List.getElem?_map, Option.map_eq_some_iff] at declared
  obtain ⟨field, held, rfl⟩ := declared
  have valued : (Store.recordRow (table.fields.map (·.name)) record (amended engine.store.log id shard record)).get? i =
      some (Store.fieldValue record (amended engine.store.log id shard record) (Text.lower field.name)) := by
    rw [Store.recordRow, Row.get?, List.getElem?_map, List.getElem?_map, held]
    rfl
  refine ⟨_, valued, ?_⟩
  rw [Store.fieldValue]
  split
  · rfl
  · rename_i notId
    have named : field.name ≠ idColumn := by
      rintro same
      rw [same] at notId
      exact notId rfl
    have required : field.nullable = false := by
      simpa [named] using needed
    have given := filled copies id table live field (List.mem_of_getElem? held) required named shard record there
    obtain ⟨v, found⟩ := Option.isSome_iff_exists.mp given
    rw [found]
    exact Record.amend_all_nullless _ .empty nofun _ v found

-- After statements that are careful, a scan of a table reads no null in a column that cannot be null.
theorem scanned_columns_filled (config : Config) (nodes : UInt32) (engine : Engine)
    (reached : Reached admitsCareful config nodes engine) (id : TableId) (table : Table)
    (live : engine.catalog.tables.get? id = some table) (ctx : Context) (relation : String) (rows : List Row)
    (scanned : (((Select.compileScan table relation).pipeline none []).source.collect ctx engine).1 = .ok rows)
    (row : Row) (member : row ∈ rows) (i : Nat) (column : Column)
    (declared : (table.schema relation).get? i = some column) (needed : column.nullable = false) :
    ∃ v, row.get? i = some v ∧ v.isNull = false := by
  obtain ⟨written, sound, -⟩ := reached_filled reached
  obtain rfl := sound.filed.tables id table live
  exact read_filled reached table.id table live row
    (Source.scan_rows_read table.id (table.fields.map Field.name) ctx engine rows scanned row member) relation i column
    declared needed

section Ledger

def ledgerFields : List Field := [⟨idColumn, .id, false⟩, ⟨"amount", .int, false⟩]

def ledger : Table := ⟨"ledger", .ofName (.ofName "main") "ledger", .ofName "main", ledgerFields, none⟩

-- A new engine with a table that cannot hold null, and a record whose amount is given as an expression.
def ledgerBefore : Engine :=
  ((make Config.standard 1).changed (.of "main") (.createDatabase "main" false .empty)).changed (.of "main")
    (.createTable "ledger" false ledgerFields none)

def insertAmount (amount : Expr) : Statement := .insert "ledger" [idColumn, "amount"] [[.literal (.int 1), amount]]

def ledgerWith (amount : Expr) : Engine := ledgerBefore.changed (.of "main") (insertAmount amount)

theorem ledger_before_reached (admits : Engine → Context → Statement → Prop)
    (database : admits (make Config.standard 1) (.of "main") (.createDatabase "main" false .empty))
    (table : ∀ engine, admits engine (.of "main") (.createTable "ledger" false ledgerFields none)) :
    Reached admits Config.standard 1 ledgerBefore :=
  reached_changed (reached_changed (.opening _) (.of "main") _ rfl rfl database) (.of "main") _ rfl rfl (table _)

def ledgerRows (amount : Expr) : Outcome (List (List Row)) :=
  (Source.scanShards (.of "main") (ledgerWith amount).store ledger.id).mapM
    ((ledgerWith amount).store.readShard none ledger.id · (ledger.fields.map (·.name)))

def nullSum : Expr := .binary (.literal .null) .plus (.literal (.int 1))

-- What the scan reads. The amount of a computed cell is null.
theorem ledger_known : (ledgerBefore.scope (.of "main")).table "ledger" = .ok ledger ∧
    ∀ amount v, (amount, v) ∈ [(.literal (.int 5), .int 5), (nullSum, .null)] →
      (ledgerWith amount).catalog.tables.get? ledger.id = some ledger ∧
      (((Select.compileScan ledger "ledger").pipeline none []).source.collect (.of "main") (ledgerWith amount)).1 =
        .ok [⟨[.id 1, v]⟩] := by
  have told : (ledgerBefore.scope (.of "main")).table "ledger" = .ok ledger ∧
      ∀ given ∈ [(Expr.literal (.int 5), Value.int 5), (nullSum, .null)],
        (ledgerWith given.1).catalog.tables.get? ledger.id = some ledger ∧
        ledgerRows given.1 = .ok [[⟨[.id 1, given.2]⟩]] := by decide +kernel
  refine ⟨told.1, fun amount v listed => ?_⟩
  obtain ⟨live, read⟩ := told.2 (amount, v) listed
  exact ⟨live, Source.collect_scan (ledgerWith amount) rfl [[⟨[.id 1, v]⟩]] read⟩

theorem ledger_literal_filled : ∃ rows row v,
    (((Select.compileScan ledger "ledger").pipeline none []).source.collect (.of "main")
      (ledgerWith (.literal (.int 5)))).1 = .ok rows ∧ row ∈ rows ∧ row.get? 1 = some v ∧ v.isNull = false := by
  obtain ⟨known, scans⟩ := ledger_known
  obtain ⟨live, scanned⟩ := scans _ _ List.mem_cons_self
  have reached : Reached admitsCareful Config.standard 1 (ledgerWith (.literal (.int 5))) := by
    refine reached_changed (ledger_before_reached _ trivial fun _ => trivial) (.of "main") _ rfl rfl ?_
    intro table found
    obtain rfl : ledger = table := Except.ok.inj (known.symm.trans found)
    refine ⟨known, fun targets _ cells member cell among _ _ => ?_⟩
    rw [List.mem_singleton.mp member] at among
    have given := (List.of_mem_zip among).1
    simp only [List.mem_cons, List.not_mem_nil, or_false] at given
    rcases given with given | given
    · exact .inl ⟨_, given⟩
    · exact .inl ⟨_, given⟩
  obtain ⟨v, valued, present⟩ := scanned_columns_filled Config.standard 1 (ledgerWith (.literal (.int 5))) reached ledger.id
    ledger live (.of "main") "ledger" _ scanned _ List.mem_cons_self 1 ⟨"amount", .int, false, some "ledger"⟩ rfl rfl
  exact ⟨_, _, v, scanned, List.mem_cons_self, valued, present⟩

-- An expression without a type is not taken for null, and its value is written down as it comes.
theorem computed_null_scanned :
    let engine := ledgerWith (.binary (.literal .null) .plus (.literal (.int 1)))
    Reached (fun _ _ _ => True) Config.standard 1 engine ∧ engine.catalog.tables.get? ledger.id = some ledger ∧
      (ledger.schema "ledger").get? 1 = some ⟨"amount", .int, false, some "ledger"⟩ ∧
      ∃ rows row v, (((Select.compileScan ledger "ledger").pipeline none []).source.collect (.of "main") engine).1 =
        .ok rows ∧ row ∈ rows ∧ row.get? 1 = some v ∧ v.isNull = true := by
  obtain ⟨live, scanned⟩ := ledger_known.2 nullSum .null (List.mem_cons_of_mem _ List.mem_cons_self)
  refine ⟨?_, live, rfl, [⟨[.id 1, .null]⟩], ⟨[.id 1, .null]⟩, .null, scanned, List.mem_cons_self, rfl, rfl⟩
  exact reached_changed (ledger_before_reached _ trivial fun _ => trivial) (.of "main") _ rfl rfl trivial

end Ledger

end Engine

end ShardQuery
