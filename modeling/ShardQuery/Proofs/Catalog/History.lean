import ShardQuery.Proofs.Catalog.Nested
/-!
One change, made to a catalog and to the nested one. Main statement: where the ids of the names in use are apart, both
give the same answer, and the one still has what the other has.
-/

set_option autoImplicit false

namespace ShardQuery

namespace Catalog

-- The same answer, and the same content after it.
def Follows (names : List String) : Lookup Catalog → Lookup NestedCatalog → Prop
  | .ok catalog, .ok nested => catalog.Tracks names nested
  | .error cause, .error cause' => cause = cause'
  | _, _ => False

section Step

variable {names : List String} {catalog : Catalog} {nested : NestedCatalog} {key owner name : String}
  {database : NestedDatabase} {table : NestedTable} (apart : Apart names) (tracks : catalog.Tracks names nested)

theorem record_id (keyed : nested.Keyed names) (held : nested.get? key = some database) :
    database.record.id = DatabaseId.ofKey key :=
  congrArg DatabaseId.ofKey (keyed.databases key database held).1

include apart tracks

theorem get_database (known : Text.lower name ∈ names.map Text.lower) :
    catalog.databases.get? (.ofName name) = nested.databaseAt (Text.lower name) :=
  SortedMap.shows_get (NestedCatalog.databases_placed apart tracks.keyed) tracks.databases (Text.lower name) known

theorem get_table (known : Text.lower owner ∈ names.map Text.lower) (known' : Text.lower name ∈ names.map Text.lower) :
    catalog.tables.get? (.ofKeys (Text.lower owner, Text.lower name)) = nested.tableAt (Text.lower owner, Text.lower name) :=
  SortedMap.shows_get (NestedCatalog.tables_placed apart tracks.keyed) tracks.tables _ ⟨known, known'⟩

theorem database_named_nested (known : Text.lower name ∈ names.map Text.lower) :
    catalog.databaseNamed name = (nested.database name).map (·.record) := by
  rw [databaseNamed, get_database apart tracks known, NestedCatalog.databaseAt, NestedCatalog.database]
  cases nested.get? (Text.lower name) with
  | none => rfl
  | some database => rfl

omit apart in
theorem table_id (held : nested.get? (Text.lower owner) = some database) :
    TableId.ofName database.record.id name = .ofKeys (Text.lower owner, Text.lower name) := by
  rw [record_id tracks.keyed held]
  rfl

omit apart tracks in
theorem table_named_within {database : Database} (named : catalog.databaseNamed owner = .ok database) :
    catalog.tableNamed owner name =
      (catalog.tables.get? (.ofName database.id name)).elim (.error (.tableNameMissing name)) .ok := by
  rw [tableNamed, named]
  dsimp only [bind, Except.bind]
  cases catalog.tables.get? (.ofName database.id name) with
  | none => rfl
  | some table => rfl

theorem table_named_nested (known : Text.lower owner ∈ names.map Text.lower) (known' : Text.lower name ∈ names.map Text.lower) :
    catalog.tableNamed owner name =
      nested.database owner >>= fun database => (database.table name).map (·.record database) := by
  have named := database_named_nested apart tracks known
  cases found : nested.database owner with
  | error cause =>
      rw [tableNamed, named, found]
      rfl
  | ok database =>
      have held := NestedCatalog.database_ok.mp found
      rw [found] at named
      rw [table_named_within named, table_id tracks held, get_table apart tracks known known', NestedCatalog.tableAt, held]
      change _ = (database.table name).map (·.record database)
      rw [Option.bind_some, NestedDatabase.table]
      cases database.tables.get? (Text.lower name) with
      | none => rfl
      | some table => rfl

-- Another record for a database, which keeps its name and its tables.
theorem tracks_database (changed : NestedDatabase) (known : Text.lower name ∈ names.map Text.lower)
    (tables : NestedCatalog.tableAt (nested.insert (Text.lower name) changed) = nested.tableAt)
    (keyed : NestedCatalog.Keyed names (nested.insert (Text.lower name) changed)) :
    Tracks names { catalog with databases := catalog.databases.insert (.ofName name) changed.record }
      (nested.insert (Text.lower name) changed) := by
  refine ⟨?_, tables.symm ▸ tracks.tables, keyed⟩
  refine SortedMap.shows_insert (NestedCatalog.databases_placed apart tracks.keyed) tracks.databases _ known changed.record ?_ ?_
  · rw [NestedCatalog.database_at_insert, if_pos rfl]
  · intro other different
    rw [NestedCatalog.database_at_insert, if_neg different]

theorem create_database_follows (known : Text.lower name ∈ names.map Text.lower) (options : SortedMap String String) :
    Follows names ((CatalogChange.createDatabase name options).attempt catalog)
      (nested.attempt (.createDatabase name options)) := by
  have there : catalog.databases.contains (.ofName name) = nested.contains (Text.lower name) := by
    rw [SortedMap.contains, get_database apart tracks known, NestedCatalog.databaseAt, Option.isSome_map, SortedMap.contains]
  change Follows names (Except.map _ (if catalog.databases.contains (.ofName name) then _ else _)) (if _ then _ else _)
  rw [there]
  cases held : nested.contains (Text.lower name) with
  | true => exact rfl
  | false =>
      refine tracks_database apart tracks ⟨name, options, .empty⟩ known ?_ ?_
      · refine NestedCatalog.table_at_kept fun key => ?_
        rw [SortedMap.contains, Option.isSome_eq_false_iff, Option.isNone_iff_eq_none] at held
        rw [NestedCatalog.tableAt, held]
        rfl
      · refine NestedCatalog.keyed_insert tracks.keyed _ _ ⟨rfl, known⟩ fun key table inside => ?_
        rw [SortedMap.get?_empty] at inside
        cases inside

theorem set_option_follows (known : Text.lower name ∈ names.map Text.lower) (option setting : String) :
    Follows names ((CatalogChange.setOption name option setting).attempt catalog)
      (nested.attempt (.setOption name option setting)) := by
  rw [CatalogChange.attempt, setOption, database_named_nested apart tracks known, NestedCatalog.attempt]
  cases found : nested.database name with
  | error cause => exact rfl
  | ok database =>
      have held := NestedCatalog.database_ok.mp found
      have named := tracks.keyed.databases _ database held
      refine tracks_database apart tracks
        { database with options := database.options.insert (Text.lower option) setting } known ?_ ?_
      · refine NestedCatalog.table_at_kept fun key => ?_
        rw [NestedCatalog.tableAt, held]
        rfl
      · exact NestedCatalog.keyed_insert tracks.keyed _ _ named (tracks.keyed.tables _ database held)

theorem drop_database_follows (known : Text.lower name ∈ names.map Text.lower) :
    Follows names ((CatalogChange.dropDatabase name).attempt catalog) (nested.attempt (.dropDatabase name)) := by
  rw [CatalogChange.attempt, dropDatabase, database_named_nested apart tracks known, NestedCatalog.attempt]
  cases found : nested.database name with
  | error cause => exact rfl
  | ok database =>
      refine ⟨?_, ?_, NestedCatalog.keyed_erase tracks.keyed _⟩
      · refine SortedMap.shows_erase (NestedCatalog.databases_placed apart tracks.keyed) tracks.databases _ known ?_ ?_
        · rw [NestedCatalog.databaseAt, SortedMap.get?_erase, if_pos rfl]
          rfl
        · intro other different
          rw [NestedCatalog.databaseAt, SortedMap.get?_erase, if_neg different]
          rfl
      · refine SortedMap.shows_filter tracks.tables _ fun place table => ?_
        rw [NestedCatalog.tableAt, SortedMap.get?_erase]
        by_cases here : place.1 = Text.lower name
        · rw [if_pos here]
          simp only [Option.bind_none, reduceCtorEq, false_iff]
          rintro ⟨held, elsewhere⟩
          obtain ⟨owner, holds, held⟩ := Option.bind_eq_some_iff.mp held
          obtain ⟨table, -, rfl⟩ := Option.map_eq_some_iff.mp held
          have own : owner.record.id = .ofName name := (record_id tracks.keyed holds).trans (congrArg _ here)
          exact absurd own (bne_iff_ne.mp elsewhere)
        · rw [if_neg here]
          refine (and_iff_left_of_imp fun held => ?_).symm
          obtain ⟨owner, holds, held⟩ := Option.bind_eq_some_iff.mp held
          obtain ⟨table, -, rfl⟩ := Option.map_eq_some_iff.mp held
          refine bne_iff_ne.mpr fun same => here ?_
          have there := (tracks.keyed.databases _ owner holds).2
          exact databases_apart apart _ _ there known ((record_id tracks.keyed holds).symm.trans same)

omit apart in
-- Other tables for a database.
theorem tracks_tables (tables : SortedMap TableId Table) (changed : SortedMap String NestedTable)
    (held : nested.get? (Text.lower owner) = some database)
    (shows : tables.Shows TableId.ofKeys
      (NestedCatalog.tableAt (nested.insert (Text.lower owner) { database with tables := changed })))
    (keyed : ∀ key' table, changed.get? key' = some table → Text.lower table.name = key' ∧ key' ∈ names.map Text.lower) :
    Tracks names { catalog with tables } (nested.insert (Text.lower owner) { database with tables := changed }) := by
  refine ⟨?_, shows, NestedCatalog.keyed_insert tracks.keyed _ _ (tracks.keyed.databases _ database held) keyed⟩
  have same : NestedCatalog.databaseAt (nested.insert (Text.lower owner) { database with tables := changed }) =
      nested.databaseAt := by
    funext other
    rw [NestedCatalog.database_at_insert]
    split
    · rename_i here
      rw [NestedCatalog.databaseAt, here, held]
      rfl
    · rfl
  exact same.symm ▸ tracks.databases

theorem tracks_table (table : NestedTable) (known : Text.lower owner ∈ names.map Text.lower) (known' : Text.lower name ∈ names.map Text.lower)
    (held : nested.get? (Text.lower owner) = some database) (named : Text.lower table.name = Text.lower name) :
    Tracks names
      { catalog with tables := catalog.tables.insert (.ofName database.record.id name) (table.record database) }
      (nested.insert (Text.lower owner) (database.putting name table)) := by
  refine tracks_tables tracks _ _ held ?_ ?_
  · rw [table_id tracks held]
    refine SortedMap.shows_insert (NestedCatalog.tables_placed apart tracks.keyed) tracks.tables _ ⟨known, known'⟩
      (table.record database) ?_ ?_
    · rw [NestedCatalog.table_at_insert, if_pos rfl, SortedMap.get?_insert, if_pos rfl]
      rfl
    · refine NestedCatalog.table_at_elsewhere held fun other different => ?_
      rw [SortedMap.get?_insert, if_neg different]
  · intro key' found there
    rw [SortedMap.get?_insert] at there
    split at there
    · rename_i here
      cases there
      exact here ▸ ⟨named, known'⟩
    · exact tracks.keyed.tables _ database held key' found there

theorem create_table_follows (known : Text.lower owner ∈ names.map Text.lower)
    (known' : Text.lower name ∈ names.map Text.lower) (fields : List Field) (description : Option String) :
    Follows names ((CatalogChange.createTable owner name fields description).attempt catalog)
      (nested.attempt (.createTable owner name fields description)) := by
  rw [CatalogChange.attempt, createTable, database_named_nested apart tracks known, NestedCatalog.attempt]
  cases found : nested.database owner with
  | error cause => exact rfl
  | ok database =>
      have held := NestedCatalog.database_ok.mp found
      have there : catalog.tables.contains (.ofName database.record.id name) =
          database.tables.contains (Text.lower name) := by
        rw [SortedMap.contains, table_id tracks held, get_table apart tracks known known', NestedCatalog.tableAt, held,
          Option.bind_some, Option.isSome_map, SortedMap.contains]
      change Follows names (Except.map _ (do
          if catalog.tables.contains (.ofName database.record.id name) then throw (.tableNameExists name)
          return _))
        (do
          if database.tables.contains (Text.lower name) then throw (.tableNameExists name)
          return _)
      rw [there]
      cases database.tables.contains (Text.lower name) with
      | true => exact rfl
      | false => exact tracks_table apart tracks ⟨name, fields, description⟩ known known' held rfl

theorem drop_table_follows (known : Text.lower owner ∈ names.map Text.lower)
    (known' : Text.lower name ∈ names.map Text.lower) :
    Follows names ((CatalogChange.dropTable owner name).attempt catalog) (nested.attempt (.dropTable owner name)) := by
  rw [CatalogChange.attempt, dropTable, table_named_nested apart tracks known known',
    database_named_nested apart tracks known, NestedCatalog.attempt]
  cases found : nested.database owner with
  | error cause => exact rfl
  | ok database =>
      have held := NestedCatalog.database_ok.mp found
      change Follows names (Except.map _ ((database.table name).map (·.record database) >>= fun table => _))
        (database.table name >>= fun _ =>
          pure (nested.insert (Text.lower owner) { database with tables := database.tables.erase (Text.lower name) }))
      cases database.table name with
      | error cause => exact rfl
      | ok table =>
          refine tracks_tables tracks _ _ held ?_ ?_
          · rw [table_id tracks held]
            refine SortedMap.shows_erase (NestedCatalog.tables_placed apart tracks.keyed) tracks.tables _ ⟨known, known'⟩ ?_ ?_
            · rw [NestedCatalog.table_at_insert, if_pos rfl, SortedMap.get?_erase, if_pos rfl]
              rfl
            · refine NestedCatalog.table_at_elsewhere held fun other different => ?_
              rw [SortedMap.get?_erase, if_neg different]
          · intro key' found there
            rw [SortedMap.get?_erase] at there
            split at there
            · cases there
            · exact tracks.keyed.tables _ database held key' found there

theorem replace_table_follows (known : Text.lower owner ∈ names.map Text.lower)
    (known' : Text.lower name ∈ names.map Text.lower) (found : nested.database owner = .ok database)
    (named : Text.lower table.name = Text.lower name) :
    Follows names (catalog.replaceTable owner name (table.record database))
      (.ok (nested.insert (Text.lower owner) (database.putting name table))) := by
  rw [replaceTable, database_named_nested apart tracks known, found]
  exact tracks_table apart tracks table known known' (NestedCatalog.database_ok.mp found) named

-- A change of the fields of a table. Whether it is refused depends on the fields that the table has.
theorem change_fields_follows (known : Text.lower owner ∈ names.map Text.lower)
    (known' : Text.lower name ∈ names.map Text.lower) (refused : List Field → Bool) (cause : CatalogError)
    (revise : List Field → List Field) :
    Follows names
      (do
        let table ← catalog.tableNamed owner name
        if refused table.fields then throw cause
        catalog.replaceTable owner name { table with fields := revise table.fields })
      (do
        let database ← nested.database owner
        let table ← database.table name
        if refused table.fields then throw cause
        return nested.insert (Text.lower owner) (database.putting name { table with fields := revise table.fields })) := by
  rw [table_named_nested apart tracks known known']
  cases found : nested.database owner with
  | error cause => exact rfl
  | ok database =>
      change Follows names ((database.table name).map (·.record database) >>= fun table => do
          if refused table.fields then throw cause
          catalog.replaceTable owner name { table with fields := revise table.fields })
        (database.table name >>= fun table => do
          if refused table.fields then throw cause
          return nested.insert (Text.lower owner) (database.putting name { table with fields := revise table.fields }))
      cases held : database.table name with
      | error cause => exact rfl
      | ok table =>
          have named := tracks.keyed.tables _ database (NestedCatalog.database_ok.mp found) _ table
            (NestedCatalog.table_ok.mp held)
          change Follows names (do
              if refused table.fields then throw cause
              catalog.replaceTable owner name (NestedTable.record database { table with fields := revise table.fields }))
            (do
              if refused table.fields then throw cause
              return _)
          cases refused table.fields with
          | true => exact rfl
          | false => exact replace_table_follows apart tracks known known' found named.1

theorem create_field_follows (known : Text.lower owner ∈ names.map Text.lower)
    (known' : Text.lower name ∈ names.map Text.lower) (field : Field) :
    Follows names ((CatalogChange.createField owner name field).attempt catalog)
      (nested.attempt (.createField owner name field)) := by
  rw [CatalogChange.attempt, createField]
  simp only [Table.field?, List.isSome_find?]
  exact change_fields_follows apart tracks known known' (·.any (Text.same ·.name field.name)) (.fieldExists field.name)
    (· ++ [field])

theorem drop_field_follows (known : Text.lower owner ∈ names.map Text.lower)
    (known' : Text.lower name ∈ names.map Text.lower) (field : String) :
    Follows names ((CatalogChange.dropField owner name field).attempt catalog)
      (nested.attempt (.dropField owner name field)) := by
  rw [CatalogChange.attempt, dropField]
  simp only [List.length_filter_eq_length_iff, ← List.all_eq_true]
  exact change_fields_follows apart tracks known known' (·.all (!Text.same ·.name field)) (.fieldMissing field)
    (·.filter (!Text.same ·.name field))

theorem attempt_follows (change : CatalogChange)
    (known : ∀ name ∈ change.names, Text.lower name ∈ names.map Text.lower) :
    Follows names (change.attempt catalog) (nested.attempt change) := by
  cases change with
  | createDatabase name options =>
      exact create_database_follows apart tracks (known name (List.mem_singleton_self name)) options
  | dropDatabase name => exact drop_database_follows apart tracks (known name (List.mem_singleton_self name))
  | setOption name option setting =>
      exact set_option_follows apart tracks (known name (List.mem_singleton_self name)) option setting
  | createTable owner name fields description =>
      exact create_table_follows apart tracks (known owner (.head _)) (known name (.tail _ (.head _))) fields description
  | dropTable owner name =>
      exact drop_table_follows apart tracks (known owner (.head _)) (known name (.tail _ (.head _)))
  | createField owner name field =>
      exact create_field_follows apart tracks (known owner (.head _)) (known name (.tail _ (.head _))) field
  | dropField owner name field =>
      exact drop_field_follows apart tracks (known owner (.head _)) (known name (.tail _ (.head _))) field

-- One change: the same answer on both sides, and the same content after it.
theorem perform_follows (change : CatalogChange)
    (known : ∀ name ∈ change.names, Text.lower name ∈ names.map Text.lower) :
    (change.perform catalog).1 = (nested.perform change).1 ∧
      Tracks names (change.perform catalog).2 (nested.perform change).2 := by
  have follows := attempt_follows apart tracks change known
  rw [CatalogChange.perform_attempt, NestedCatalog.perform]
  cases done : change.attempt catalog with
  | error cause =>
      cases done' : nested.attempt change with
      | error cause' =>
          rw [done, done'] at follows
          exact ⟨congrArg Except.error follows, tracks⟩
      | ok later =>
          rw [done, done'] at follows
          cases follows
  | ok later =>
      cases done' : nested.attempt change with
      | error cause =>
          rw [done, done'] at follows
          cases follows
      | ok later' =>
          rw [done, done'] at follows
          exact ⟨rfl, follows⟩

end Step

end Catalog

end ShardQuery
