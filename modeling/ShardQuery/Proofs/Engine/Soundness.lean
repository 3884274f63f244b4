import ShardQuery.Proofs.Engine.Effects
import ShardQuery.Proofs.Statement.Inserted
import ShardQuery.Proofs.Store.History
/-!
The engine between statements. Main statement: every effect of a compiled plan keeps the catalog filed, the store at
what its log says, and the log at values that the tables of the catalog take.
-/

set_option autoImplicit false

namespace ShardQuery

-- Log entries are about tables of the catalog, and set only what these take.
structure Tracked.Sound (state : Tracked) : Prop where
  filed : state.engine.catalog.Filed
  mirrors : state.engine.store.Mirrors state.written
  live : ∀ entry, entry ∈ state.engine.store.log ∨ entry ∈ state.written →
    ∃ table, state.engine.catalog.tables.get? entry.table = some table
  taken : ∀ entry ∈ state.engine.store.log, ∀ table, state.engine.catalog.tables.get? entry.table = some table →
    ∀ change ∈ entry.updates, ∀ item ∈ change.set, table.Takes item

namespace Table

theorem check_columns_apart (columns : List Field) (seen : List String) (checked : checkColumns seen columns = .ok ()) :
    (∀ column ∈ columns, Text.lower column.name ∉ seen) ∧
      columns.Pairwise fun a b => Text.lower a.name ≠ Text.lower b.name := by
  induction columns generalizing seen with
  | nil => exact ⟨nofun, .nil⟩
  | cons column rest ih =>
      by_cases known : seen.contains (Text.lower column.name) = true
      · simp only [checkColumns, if_pos known] at checked
        cases checked
      · simp only [checkColumns, if_neg known] at checked
        obtain ⟨_, -, checked⟩ := ok_of_bind checked
        obtain ⟨new, apart⟩ := ih _ checked
        refine ⟨?_, .cons (fun other later same => new other later (same ▸ List.mem_cons_self)) apart⟩
        intro other member
        rcases List.mem_cons.mp member with rfl | later
        · exact fun held => known (List.contains_iff_mem.mpr held)
        · exact fun held => new other later (List.mem_cons_of_mem _ held)

theorem valid_apart {columns : List Field} (valid : validateColumns columns = .ok ()) :
    columns.Pairwise fun a b => Text.lower a.name ≠ Text.lower b.name := by
  rw [validateColumns] at valid
  split at valid
  · split at valid
    · exact (check_columns_apart columns [] valid).2
    · cases valid
  · cases valid

theorem valid_wellformed (table : Table) (valid : validateColumns table.fields = .ok ()) : table.Wellformed := by
  have apart := valid_apart valid
  rw [validateColumns] at valid
  split at valid
  · rename_i first found
    split at valid
    · rename_i keyed
      rw [Bool.and_eq_true, beq_iff_eq, beq_iff_eq] at keyed
      obtain ⟨rest, fields⟩ := List.head?_eq_some_iff.mp found
      refine ⟨⟨first, rest, fields, keyed⟩, apart.imp fun other => ?_⟩
      exact Bool.eq_false_iff.mpr fun alike => other (Text.lower_of_same _ _ alike)
    · cases valid
  · cases valid

theorem with_field_wellformed (table : Table) (column : Field) (wellformed : table.Wellformed)
    (new : table.field? column.name = none) :
    Wellformed { table with fields := table.fields ++ [column] } := by
  obtain ⟨key, rest, fields, keyed⟩ := wellformed.headed
  refine ⟨⟨key, rest ++ [column], by rw [fields]; rfl, keyed⟩, ?_⟩
  refine List.pairwise_append.mpr ⟨wellformed.distinct, List.pairwise_singleton _ _, ?_⟩
  intro field among other member
  rw [List.mem_singleton.mp member]
  exact Bool.eq_false_iff.mpr (List.find?_eq_none.mp new field among)

theorem without_field_wellformed (table : Table) (name : String) (wellformed : table.Wellformed)
    (keeps : Text.same name idColumn = false) :
    Wellformed { table with fields := table.fields.filter fun field => !Text.same field.name name } := by
  obtain ⟨key, rest, fields, called, kind⟩ := wellformed.headed
  refine ⟨⟨key, rest.filter fun field => !Text.same field.name name, ?_, called, kind⟩, wellformed.distinct.filter _⟩
  have kept : (!Text.same key.name name) = true := by
    rw [Bool.not_eq_true', Bool.eq_false_iff]
    intro same
    rw [called] at same
    rw [Text.same_symm _ _ same] at keeps
    cases keeps
  change table.fields.filter _ = _
  rw [fields, List.filter_cons, if_pos kept]

theorem takes_more (table : Table) (column : Field) (item : String × Value) (takes : table.Takes item) :
    Takes { table with fields := table.fields ++ [column] } item := by
  obtain ⟨notId, field, among, found⟩ := takes
  exact ⟨notId, field, List.mem_append_left _ among, found⟩

-- A value whose field is dropped is one that the log forgets.
theorem takes_without (table : Table) (name : String) (item : String × Value) (takes : table.Takes item)
    (other : Text.lower item.1 ≠ Text.lower name) :
    Takes { table with fields := table.fields.filter fun field => !Text.same field.name name } item := by
  obtain ⟨notId, field, among, called, kind⟩ := takes
  refine ⟨notId, field, List.mem_filter.mpr ⟨among, ?_⟩, called, kind⟩
  rw [Bool.not_eq_true', Bool.eq_false_iff]
  intro same
  rw [← Text.lower_of_same _ _ called, Text.lower_of_same _ _ same] at other
  exact other rfl

end Table

namespace Catalog

-- The catalog with a table in the place of the one that has its id.
def replacing (catalog : Catalog) (table : Table) : Catalog :=
  { catalog with tables := catalog.tables.insert table.id table }

theorem get?_replacing (catalog : Catalog) (table : Table) (id : TableId) :
    (catalog.replacing table).tables.get? id = if id = table.id then some table else catalog.tables.get? id :=
  SortedMap.get?_insert catalog.tables table.id id table

theorem filed_replacing (catalog : Catalog) (table : Table) (filed : catalog.Filed) (wellformed : table.Wellformed) :
    (catalog.replacing table).Filed := by
  refine ⟨filed.databases, ?_, ?_⟩
  · intro id other found
    rw [get?_replacing] at found
    split at found
    · rename_i same
      rw [← Option.some.inj found, same]
    · exact filed.tables id other found
  · intro id other found
    rw [get?_replacing] at found
    split at found
    · exact Option.some.inj found ▸ wellformed
    · exact filed.wellformed id other found

-- Fewer tables, and whatever databases there are under their own ids.
theorem filed_fewer (catalog fewer : Catalog) (filed : catalog.Filed)
    (databases : ∀ id database, fewer.databases.get? id = some database → database.id = id)
    (tables : ∀ id table, fewer.tables.get? id = some table → catalog.tables.get? id = some table) : fewer.Filed :=
  ⟨databases, fun id table found => filed.tables id table (tables id table found),
    fun id table found => filed.wellformed id table (tables id table found)⟩

variable {catalog later : Catalog} {database name : String} {table : Table}

-- A table is found under its own id.
theorem named_under_id (filed : catalog.Filed) (found : catalog.tableNamed database name = .ok table) :
    ∃ owner, catalog.databaseNamed database = .ok owner ∧ table.id = .ofName owner.id name ∧
      catalog.tables.get? table.id = some table := by
  obtain ⟨owner, named, held⟩ := table_named_found found
  have same := filed.tables _ table held
  exact ⟨owner, named, same, same ▸ held⟩

theorem replace_table_made (filed : catalog.Filed) (found : catalog.tableNamed database name = .ok table)
    (changed : Table) (same : changed.id = table.id) (replaced : catalog.replaceTable database name changed = .ok later) :
    later = catalog.replacing changed := by
  obtain ⟨owner, named, filedUnder, -⟩ := named_under_id filed found
  rw [replaceTable, named] at replaced
  rw [replacing, same, filedUnder]
  exact (Except.ok.inj replaced).symm

-- The table that a name finds after it was changed.
theorem named_replacing (filed : catalog.Filed) (found : catalog.tableNamed database name = .ok table) (changed : Table)
    {other : Table} (same : changed.id = table.id)
    (found' : (catalog.replacing changed).tableNamed database name = .ok other) :
    other = changed := by
  obtain ⟨owner, owned, under, -⟩ := named_under_id filed found
  obtain ⟨owner', owned', held⟩ := table_named_found found'
  obtain rfl : owner = owner' := Except.ok.inj (owned.symm.trans owned')
  rw [get?_replacing, if_pos (same.trans under).symm] at held
  exact (Option.some.inj held).symm

theorem create_field_made (filed : catalog.Filed) (column : Field)
    (found : catalog.tableNamed database name = .ok table)
    (added : catalog.createField database name column = .ok later) :
    table.field? column.name = none ∧ later = catalog.replacing { table with fields := table.fields ++ [column] } := by
  rw [createField, found] at added
  change (if (table.field? column.name).isSome = true then _ else _) = _ at added
  split at added
  · cases added
  · rename_i new
    exact ⟨Option.not_isSome_iff_eq_none.mp new, replace_table_made filed found _ rfl added⟩

theorem drop_field_made (filed : catalog.Filed) (column : String)
    (found : catalog.tableNamed database name = .ok table)
    (dropped : catalog.dropField database name column = .ok later) :
    later = catalog.replacing
      { table with fields := table.fields.filter fun field => !Text.same field.name column } := by
  rw [dropField, found] at dropped
  change (if _ then _ else _) = _ at dropped
  split at dropped
  · cases dropped
  · exact replace_table_made filed found _ rfl dropped

theorem create_table_made {fields : List Field} {description : Option String}
    (made : catalog.createTable database name fields description = .ok (table, later)) :
    catalog.tables.get? table.id = none ∧ table.fields = fields ∧ later = catalog.replacing table := by
  obtain ⟨owner, -, made⟩ := ok_of_bind made
  dsimp only at made
  split at made
  · cases made
  · rename_i free
    cases made
    exact ⟨Option.not_isSome_iff_eq_none.mp free, rfl, rfl⟩

theorem drop_table_made (filed : catalog.Filed) (dropped : catalog.dropTable database name = .ok (table, later)) :
    later.databases = catalog.databases ∧ (∀ other ∈ [table], catalog.tables.get? other.id = some other) ∧
      ∀ id other, later.tables.get? id = some other ↔ catalog.tables.get? id = some other ∧ other ∉ [table] := by
  obtain ⟨found, named, dropped⟩ := ok_of_bind dropped
  obtain ⟨owner, owned, under, held⟩ := named_under_id filed named
  rw [owned] at dropped
  cases dropped
  refine ⟨rfl, List.forall_mem_singleton.mpr held, fun id other => ?_⟩
  rw [← under, SortedMap.get?_erase, List.mem_singleton]
  by_cases same : id = table.id
  · rw [if_pos same, same, held]
    exact ⟨nofun, fun both => absurd (Option.some.inj both.1).symm both.2⟩
  · rw [if_neg same]
    refine ⟨fun kept => ⟨kept, ?_⟩, fun both => both.1⟩
    rintro rfl
    exact same (filed.tables id other kept).symm

theorem drop_database_made {tables : List Table} (filed : catalog.Filed)
    (listed : catalog.tableList database = .ok tables) (dropped : catalog.dropDatabase database = .ok later) :
    later.databases = catalog.databases.erase (.ofName database) ∧
      (∀ table ∈ tables, catalog.tables.get? table.id = some table) ∧
      ∀ id table, later.tables.get? id = some table ↔ catalog.tables.get? id = some table ∧ table ∉ tables := by
  obtain ⟨owner, named, listed⟩ := ok_of_bind listed
  rw [dropDatabase, named] at dropped
  cases dropped
  cases listed
  have under := filed.databases _ owner (Engine.database_named_found named)
  refine ⟨rfl, fun table member => ?_, fun id table => ?_⟩
  · rw [List.mem_mergeSort, List.mem_filter, SortedMap.mem_items] at member
    obtain ⟨⟨id, held⟩, -⟩ := member
    rw [filed.tables id table held]
    exact held
  rw [SortedMap.get?_filter, Option.filter_eq_some_iff]
  refine and_congr_right fun held => ?_
  rw [List.mem_mergeSort, List.mem_filter, SortedMap.mem_items, under, bne_iff_ne, beq_iff_eq]
  exact ⟨fun elsewhere inside => elsewhere inside.2, fun outside own => outside ⟨⟨id, held⟩, own⟩⟩

end Catalog

namespace Tracked

variable {plan : Plan} {state : Tracked}

theorem mirrors_desk (store : Store) (written : List LogEntry) (mirrors : store.Mirrors written) (desk : TransactionDesk) :
    Store.Mirrors { store with desk } written := by
  refine ⟨?_, mirrors.trimmed, mirrors.holding, mirrors.vanished, ?_⟩
  · exact ⟨mirrors.shaped.peopled, mirrors.shaped.enough, mirrors.shaped.partitioned⟩
  · intro entry member
    exact Store.fits_same_shape store _ entry ⟨rfl, rfl, rfl⟩ (mirrors.fits entry member)

-- Tables that are gone take their records and their log entries along.
theorem delete_tables (tables : List Table) (store : Store) (written : List LogEntry) (mirrors : store.Mirrors written) :
    (tables.foldl (fun store table => store.deleteTable table.id) store).Mirrors (tables.foldl withoutTable written) ∧
      (∀ entry, entry ∈ (tables.foldl (fun store table => store.deleteTable table.id) store).log ↔
        entry ∈ store.log ∧ ∀ table ∈ tables, entry.table ≠ table.id) ∧
      ∀ entry, entry ∈ tables.foldl withoutTable written ↔ entry ∈ written ∧ ∀ table ∈ tables, entry.table ≠ table.id := by
  induction tables generalizing store written with
  | nil => exact ⟨mirrors, fun _ => by simp, fun _ => by simp⟩
  | cons table tables ih =>
      obtain ⟨kept, logged, imports⟩ := ih (store.deleteTable table.id) (withoutTable written table)
        (Store.delete_table_mirrors store written table.id mirrors)
      refine ⟨kept, fun entry => (logged entry).trans ?_, fun entry => (imports entry).trans ?_⟩
      · rw [Store.deleteTable, List.mem_filter, bne_iff_ne, List.forall_mem_cons, and_assoc]
      · rw [withoutTable, List.mem_filter, bne_iff_ne, List.forall_mem_cons, and_assoc]

theorem sound_without (gone : List Table) (later : Catalog) (sound : state.Sound)
    (databases : ∀ id database, later.databases.get? id = some database → database.id = id)
    (tables : ∀ id table, later.tables.get? id = some table ↔
      state.engine.catalog.tables.get? id = some table ∧ table ∉ gone) :
    Sound ⟨{ state.engine with
        catalog := later, store := gone.foldl (fun store table => store.deleteTable table.id) state.engine.store },
      gone.foldl withoutTable state.written⟩ := by
  obtain ⟨mirrors, logged, imports⟩ := delete_tables gone state.engine.store state.written sound.mirrors
  refine ⟨?_, mirrors, ?_, ?_⟩
  · exact Catalog.filed_fewer _ later sound.filed databases fun id table found => ((tables id table).mp found).1
  · intro entry member
    have before : (entry ∈ state.engine.store.log ∨ entry ∈ state.written) ∧ ∀ table ∈ gone, entry.table ≠ table.id := by
      rcases member with inLog | inWritten
      · obtain ⟨among, elsewhere⟩ := (logged entry).mp inLog
        exact ⟨.inl among, elsewhere⟩
      · obtain ⟨among, elsewhere⟩ := (imports entry).mp inWritten
        exact ⟨.inr among, elsewhere⟩
    obtain ⟨table, found⟩ := sound.live entry before.1
    refine ⟨table, (tables _ table).mpr ⟨found, fun inside => before.2 table inside ?_⟩⟩
    exact (sound.filed.tables _ table found).symm
  · intro entry member table found
    exact sound.taken entry ((logged entry).mp member).1 table ((tables _ table).mp found).1

theorem sound_replacing (table : Table) (store : Store) (written : List LogEntry) (sound : state.Sound)
    (wellformed : table.Wellformed) (mirrors : store.Mirrors written)
    (origins : ∀ entry, entry ∈ store.log ∨ entry ∈ written →
      ∃ before, (before ∈ state.engine.store.log ∨ before ∈ state.written) ∧ before.table = entry.table)
    (taken : ∀ entry ∈ store.log, entry.table = table.id → ∀ change ∈ entry.updates, ∀ item ∈ change.set, table.Takes item)
    (others : ∀ entry ∈ store.log, entry.table ≠ table.id → entry ∈ state.engine.store.log) :
    Sound ⟨{ state.engine with catalog := state.engine.catalog.replacing table, store }, written⟩ := by
  refine ⟨Catalog.filed_replacing _ table sound.filed wellformed, mirrors, ?_, ?_⟩
  · intro entry member
    obtain ⟨before, among, same⟩ := origins entry member
    change ∃ found, (state.engine.catalog.replacing table).tables.get? entry.table = some found
    rw [Catalog.get?_replacing]
    split
    · exact ⟨table, rfl⟩
    · exact same ▸ sound.live before among
  · intro entry member other found
    change (state.engine.catalog.replacing table).tables.get? entry.table = some other at found
    rw [Catalog.get?_replacing] at found
    split at found
    · rename_i here
      exact Option.some.inj found ▸ taken entry member here
    · rename_i elsewhere
      exact sound.taken entry (others entry member elsewhere) other found

end Tracked

-- What an effect leaves of the plan's fit.
theorem Effect.keeps_fit {plan : Plan} {before after : Tracked} (effect : Effect plan before after)
    (fits : plan.Fits before.engine.catalog) : plan.Fits after.engine.catalog := by
  cases effect with
  | unrecorded => exact fits
  | databases databases planned =>
      cases plan with
      | createDatabase | alterDatabase => trivial
      | _ => cases planned
  | databaseDropped name ifExists tables catalog planned =>
      subst planned
      trivial
  | tableMade database name ifNotExists fields description table catalog planned =>
      subst planned
      exact fits
  | tableDropped database name ifExists table catalog planned =>
      subst planned
      trivial
  | fieldAdded database name column table catalog planned =>
      subst planned
      trivial
  | fieldDropped database name column table catalog planned =>
      subst planned
      exact fits
  | imported => exact fits

theorem Effect.keeps_sound {plan : Plan} {before after : Tracked} (effect : Effect plan before after)
    (fits : plan.Fits before.engine.catalog) (sound : before.Sound) : after.Sound := by
  cases effect with
  | unrecorded desk warnings channels =>
      exact ⟨sound.filed, Tracked.mirrors_desk _ _ sound.mirrors desk, sound.live, sound.taken⟩
  | databases databases planned named =>
      refine ⟨⟨?_, sound.filed.tables, sound.filed.wellformed⟩, sound.mirrors, sound.live, sound.taken⟩
      intro id database found
      rcases named id database found with same | ⟨old, held, same⟩
      · exact same
      · exact same ▸ sound.filed.databases id old held
  | databaseDropped name ifExists tables catalog planned listed dropped =>
      obtain ⟨databases, -, kept⟩ := Catalog.drop_database_made sound.filed listed dropped
      refine Tracked.sound_without tables catalog sound ?_ kept
      intro id database found
      rw [databases, SortedMap.get?_erase] at found
      split at found
      · cases found
      · exact sound.filed.databases id database found
  | tableMade database name ifNotExists fields description table catalog planned made =>
      subst planned
      obtain ⟨free, filled, rfl⟩ := Catalog.create_table_made made
      have wellformed := Table.valid_wellformed table (filled ▸ fits)
      refine Tracked.sound_replacing table _ _ sound wellformed sound.mirrors (fun entry member => ⟨entry, member, rfl⟩) ?_
        fun entry member _ => member
      intro entry member here
      obtain ⟨other, found⟩ := sound.live entry (.inl member)
      rw [here, free] at found
      cases found
  | tableDropped database name ifExists table catalog planned dropped =>
      obtain ⟨databases, -, kept⟩ := Catalog.drop_table_made sound.filed dropped
      exact Tracked.sound_without [table] catalog sound (databases ▸ sound.filed.databases) kept
  | fieldAdded database name column table catalog planned found checked added =>
      obtain ⟨new, rfl⟩ := Catalog.create_field_made sound.filed column found added
      obtain ⟨-, -, -, held⟩ := Catalog.named_under_id sound.filed found
      have wellformed := Table.with_field_wellformed table column (sound.filed.wellformed _ table held) new
      refine Tracked.sound_replacing _ _ _ sound wellformed sound.mirrors (fun entry member => ⟨entry, member, rfl⟩) ?_
        fun entry member _ => member
      intro entry member here change inside item set
      exact Table.takes_more table column item (sound.taken entry member table (here ▸ held) change inside item set)
  | fieldDropped database name column table catalog planned found dropped =>
      subst planned
      obtain rfl := Catalog.drop_field_made sound.filed column found dropped
      obtain ⟨-, -, -, held⟩ := Catalog.named_under_id sound.filed found
      have wellformed := Table.without_field_wellformed table column (sound.filed.wellformed _ table held) fits
      have mirrors := Store.delete_field_mirrors _ _ table.id column sound.mirrors
      refine Tracked.sound_replacing _ _ _ sound wellformed mirrors ?_ ?_ ?_
      · intro entry member
        rcases member with edited | imported
        · obtain ⟨before, among, rfl⟩ := List.mem_map.mp edited
          refine ⟨before, .inl among, ?_⟩
          split
          · rfl
          · rfl
        · exact ⟨entry, .inr imported, rfl⟩
      · intro entry member here change inside item set
        obtain ⟨before, among, rfl⟩ := List.mem_map.mp member
        by_cases own : before.table = table.id
        · rw [if_pos (beq_iff_eq.mpr own)] at inside
          obtain ⟨whole, among', rfl⟩ := List.mem_map.mp inside
          obtain ⟨set, other⟩ := List.mem_filter.mp set
          exact Table.takes_without table column item
            (sound.taken before among table (own ▸ held) whole among' item set) (bne_iff_ne.mp other)
        · rw [if_neg fun same => own (beq_iff_eq.mp same)] at here
          exact absurd here own
      · intro entry member elsewhere
        obtain ⟨before, among, rfl⟩ := List.mem_map.mp member
        by_cases own : before.table = table.id
        · rw [if_pos (beq_iff_eq.mpr own)] at elsewhere
          exact absurd own elsewhere
        · rw [if_neg fun same => own (beq_iff_eq.mp same)]
          exact among
  | imported insertion width all changes shard store planned made among taken =>
      subst planned
      obtain ⟨id, table, held, fills⟩ := fits
      have here : before.engine.catalog.tables.get? insertion.table = some table := by
        rw [fills.into, sound.filed.tables id table held]
        exact held
      obtain ⟨mirrors, logged, -⟩ := Store.import_mirrors before.engine.store store before.written
        ⟨insertion.table, shard, changes⟩ sound.mirrors taken
      refine ⟨sound.filed, mirrors, ?_, ?_⟩
      · intro entry member
        change entry ∈ store.log ∨ entry ∈ before.written ++ _ at member
        rw [logged, List.mem_append, List.mem_append, List.mem_singleton] at member
        rcases member with (old | rfl) | (old | rfl)
        · exact sound.live entry (.inl old)
        · exact ⟨table, here⟩
        · exact sound.live entry (.inr old)
        · exact ⟨table, here⟩
      · intro entry member other found change inside item set
        change entry ∈ store.log at member
        rw [logged, List.mem_append, List.mem_singleton] at member
        rcases member with old | rfl
        · exact sound.taken entry old other found change inside item set
        · obtain rfl : table = other := Option.some.inj (here.symm.trans found)
          exact InsertPlan.updates_taken insertion table fills width all made change (among change inside) item set

end ShardQuery
