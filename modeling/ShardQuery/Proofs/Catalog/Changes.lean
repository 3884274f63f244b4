import ShardQuery.Catalog
/-!
Changes to a catalog, made on the catalog itself: what an operation has done when it comes upon an error stays done.
Main statement: it has done nothing then, so that every change is made as a whole or not at all.
-/

set_option autoImplicit false

namespace ShardQuery

namespace Catalog

def createDatabaseInPlace (catalog : Catalog) (name : String) (options : SortedMap String String) :
    Lookup Unit × Catalog :=
  let database := Database.named name options
  if catalog.databases.contains database.id then (.error (.databaseNameExists name), catalog)
  else (.ok (), { catalog with databases := catalog.databases.insert database.id database })

-- The database is taken out before anyone asks whether it was there.
def dropDatabaseInPlace (catalog : Catalog) (name : String) : Lookup Unit × Catalog :=
  let id := DatabaseId.ofName name
  let taken := { catalog with databases := catalog.databases.erase id }
  match catalog.databases.get? id with
  | none => (.error (.databaseNameMissing name), taken)
  | some _ => (.ok (), { taken with tables := taken.tables.filter fun _ table => table.database != id })

def setOptionInPlace (catalog : Catalog) (name option setting : String) : Lookup Unit × Catalog :=
  let id := DatabaseId.ofName name
  match catalog.databases.get? id with
  | none => (.error (.databaseNameMissing name), catalog)
  | some database =>
      let changed := { database with options := database.options.insert (Text.lower option) setting }
      (.ok (), { catalog with databases := catalog.databases.insert id changed })

-- A change within a database.
def within (catalog : Catalog) (owner : String) (change : Database → Lookup Unit × Catalog) : Lookup Unit × Catalog :=
  match catalog.databaseNamed owner with
  | .error cause => (.error cause, catalog)
  | .ok database => change database

def createTableInPlace (catalog : Catalog) (owner name : String) (fields : List Field) (description : Option String) :
    Lookup Unit × Catalog :=
  catalog.within owner fun database =>
    let table : Table := ⟨name, .ofName database.id name, database.id, fields, description⟩
    if catalog.tables.contains table.id then (.error (.tableNameExists name), catalog)
    else (.ok (), { catalog with tables := catalog.tables.insert table.id table })

def dropTableInPlace (catalog : Catalog) (owner name : String) : Lookup Unit × Catalog :=
  catalog.within owner fun database =>
    let id := TableId.ofName database.id name
    let taken := { catalog with tables := catalog.tables.erase id }
    match catalog.tables.get? id with
    | none => (.error (.tableNameMissing name), taken)
    | some _ => (.ok (), taken)

-- A change to a table, which stays where it is.
def onTable (catalog : Catalog) (owner name : String) (change : Table → Lookup Unit × Table) : Lookup Unit × Catalog :=
  catalog.within owner fun database =>
    let id := TableId.ofName database.id name
    match catalog.tables.get? id with
    | none => (.error (.tableNameMissing name), catalog)
    | some table =>
        let changed := change table
        (changed.1, { catalog with tables := catalog.tables.insert id changed.2 })

def createFieldInPlace (catalog : Catalog) (owner name : String) (field : Field) : Lookup Unit × Catalog :=
  catalog.onTable owner name fun table =>
    if (table.field? field.name).isSome then (.error (.fieldExists field.name), table)
    else (.ok (), { table with fields := table.fields ++ [field] })

-- Whether there was such a field is seen from the number of those that are left.
def dropFieldInPlace (catalog : Catalog) (owner name field : String) : Lookup Unit × Catalog :=
  catalog.onTable owner name fun table =>
    let kept := table.fields.filter fun other => !Text.same other.name field
    let changed := { table with fields := kept }
    if kept.length = table.fields.length then (.error (.fieldMissing field), changed) else (.ok (), changed)

end Catalog

-- What a client changes of the catalog.
inductive CatalogChange where
  | createDatabase (name : String) (options : SortedMap String String)
  | dropDatabase (name : String)
  | setOption (name option setting : String)
  | createTable (database name : String) (fields : List Field) (description : Option String)
  | dropTable (database name : String)
  | createField (database table : String) (field : Field)
  | dropField (database table field : String)

namespace CatalogChange

-- The databases and tables that the change names.
def names : CatalogChange → List String
  | .createDatabase name _ | .dropDatabase name | .setOption name _ _ => [name]
  | .createTable database name _ _ | .dropTable database name | .createField database name _
  | .dropField database name _ => [database, name]

def attempt (catalog : Catalog) : CatalogChange → Catalog.Lookup Catalog
  | .createDatabase name options => (catalog.createDatabase name options).map (·.2)
  | .dropDatabase name => catalog.dropDatabase name
  | .setOption name option setting => catalog.setOption name option setting
  | .createTable database name fields description => (catalog.createTable database name fields description).map (·.2)
  | .dropTable database name => (catalog.dropTable database name).map (·.2)
  | .createField database table field => catalog.createField database table field
  | .dropField database table field => catalog.dropField database table field

-- The answer to the change, and the catalog that there is after it.
def perform (catalog : Catalog) : CatalogChange → Catalog.Lookup Unit × Catalog
  | .createDatabase name options => catalog.createDatabaseInPlace name options
  | .dropDatabase name => catalog.dropDatabaseInPlace name
  | .setOption name option setting => catalog.setOptionInPlace name option setting
  | .createTable database name fields description => catalog.createTableInPlace database name fields description
  | .dropTable database name => catalog.dropTableInPlace database name
  | .createField database table field => catalog.createFieldInPlace database table field
  | .dropField database table field => catalog.dropFieldInPlace database table field

end CatalogChange

namespace Catalog

-- The new catalog, or the old one with the error.
def orElse (catalog : Catalog) : Lookup Catalog → Lookup Unit × Catalog
  | .ok later => (.ok (), later)
  | .error cause => (.error cause, catalog)

variable (catalog : Catalog)

theorem create_database_in_place (name : String) (options : SortedMap String String) :
    catalog.createDatabaseInPlace name options = catalog.orElse ((catalog.createDatabase name options).map (·.2)) := by
  unfold createDatabaseInPlace createDatabase
  dsimp only
  split
  · rfl
  · rfl

theorem drop_database_in_place (name : String) :
    catalog.dropDatabaseInPlace name = catalog.orElse (catalog.dropDatabase name) := by
  unfold dropDatabaseInPlace dropDatabase databaseNamed
  dsimp only
  cases found : catalog.databases.get? (.ofName name) with
  | none =>
      rw [SortedMap.erase_missing _ _ found]
      rfl
  | some database => rfl

theorem set_option_in_place (name option setting : String) :
    catalog.setOptionInPlace name option setting = catalog.orElse (catalog.setOption name option setting) := by
  unfold setOptionInPlace setOption databaseNamed
  dsimp only
  cases catalog.databases.get? (.ofName name) with
  | none => rfl
  | some database => rfl

theorem create_table_in_place (owner name : String) (fields : List Field) (description : Option String) :
    catalog.createTableInPlace owner name fields description =
      catalog.orElse ((catalog.createTable owner name fields description).map (·.2)) := by
  unfold createTableInPlace createTable within
  cases catalog.databaseNamed owner with
  | error cause => rfl
  | ok database =>
      cases held : catalog.tables.contains (.ofName database.id name) with
      | true =>
          simp only [bind, Except.bind, held, if_true]
          rfl
      | false =>
          simp only [bind, Except.bind, held]
          rfl

theorem drop_table_in_place (owner name : String) :
    catalog.dropTableInPlace owner name = catalog.orElse ((catalog.dropTable owner name).map (·.2)) := by
  unfold dropTableInPlace dropTable tableNamed within
  cases catalog.databaseNamed owner with
  | error cause => rfl
  | ok database =>
      cases found : catalog.tables.get? (.ofName database.id name) with
      | none =>
          simp only [bind, Except.bind, found, SortedMap.erase_missing _ _ found]
          rfl
      | some table =>
          simp only [bind, Except.bind, found]
          rfl

-- A change to a table that keeps the table when it fails.
theorem on_table_in_place (owner name : String) (change : Table → Lookup Unit × Table) (attempt : Table → Lookup Table)
    (whole : ∀ table, change table = match attempt table with
      | .ok later => (.ok (), later)
      | .error cause => (.error cause, table)) :
    catalog.onTable owner name change = catalog.orElse (do
      let changed ← attempt (← catalog.tableNamed owner name)
      catalog.replaceTable owner name changed) := by
  unfold onTable tableNamed replaceTable within
  cases catalog.databaseNamed owner with
  | error cause => rfl
  | ok database =>
      cases found : catalog.tables.get? (.ofName database.id name) with
      | none =>
          simp only [bind, Except.bind, found]
          rfl
      | some table =>
          simp only [bind, Except.bind, pure, Except.pure, found, whole]
          cases attempt table with
          | ok later => rfl
          | error cause =>
              dsimp only
              rw [SortedMap.insert_held _ _ _ found]
              rfl

theorem create_field_in_place (owner name : String) (field : Field) :
    catalog.createFieldInPlace owner name field = catalog.orElse (catalog.createField owner name field) := by
  refine (catalog.on_table_in_place owner name _ (fun table =>
    if (table.field? field.name).isSome then .error (.fieldExists field.name)
    else .ok { table with fields := table.fields ++ [field] }) fun table => ?_).trans ?_
  · split
    · rfl
    · rfl
  · rw [createField]
    congr 1
    refine bind_congr fun table => ?_
    dsimp only
    split
    · rfl
    · rfl

theorem drop_field_in_place (owner name field : String) :
    catalog.dropFieldInPlace owner name field = catalog.orElse (catalog.dropField owner name field) := by
  refine (catalog.on_table_in_place owner name _ (fun table =>
    let kept := table.fields.filter fun other => !Text.same other.name field
    if kept.length = table.fields.length then .error (.fieldMissing field) else .ok { table with fields := kept })
    fun table => ?_).trans ?_
  · dsimp only
    split
    · rename_i all
      rw [List.filter_eq_self.mpr (List.length_filter_eq_length_iff.mp all)]
    · rfl
  · rw [dropField]
    congr 1
    refine bind_congr fun table => ?_
    dsimp only
    split
    · rfl
    · rfl

end Catalog

-- What a change has done before it fails leaves the catalog as it was.
theorem CatalogChange.perform_attempt (catalog : Catalog) (change : CatalogChange) :
    change.perform catalog = catalog.orElse (change.attempt catalog) := by
  cases change with
  | createDatabase name options => exact catalog.create_database_in_place name options
  | dropDatabase name => exact catalog.drop_database_in_place name
  | setOption name option setting => exact catalog.set_option_in_place name option setting
  | createTable owner name fields description => exact catalog.create_table_in_place owner name fields description
  | dropTable owner name => exact catalog.drop_table_in_place owner name
  | createField owner name field => exact catalog.create_field_in_place owner name field
  | dropField owner name field => exact catalog.drop_field_in_place owner name field

end ShardQuery
