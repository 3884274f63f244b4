import ShardQuery.Table
/-!
The catalog: databases and tables under the ids of their names. An operation that fails has no
catalog to return, so nothing changes.
-/

set_option autoImplicit false

namespace ShardQuery

structure Catalog where
  databases : SortedMap DatabaseId Database
  tables : SortedMap TableId Table

namespace Catalog

abbrev Lookup (α : Type) := Except CatalogError α

def empty : Catalog := ⟨.empty, .empty⟩

def database? (catalog : Catalog) (id : DatabaseId) : Lookup Database :=
  match catalog.databases.get? id with
  | some database => .ok database
  | none => .error (.databaseIdMissing id)

def databaseNamed (catalog : Catalog) (name : String) : Lookup Database :=
  match catalog.databases.get? (.ofName name) with
  | some database => .ok database
  | none => .error (.databaseNameMissing name)

def databaseList (catalog : Catalog) : List Database :=
  catalog.databases.items.mergeSort fun a b => decide (a.name ≤ b.name)

def createDatabase (catalog : Catalog) (name : String) (options : SortedMap String String) :
    Lookup (Database × Catalog) :=
  let database := Database.named name options
  if catalog.databases.contains database.id then .error (.databaseNameExists name)
  else .ok (database, { catalog with databases := catalog.databases.insert database.id database })

def dropDatabase (catalog : Catalog) (name : String) : Lookup Catalog := do
  let _ ← catalog.databaseNamed name
  return ⟨catalog.databases.erase (.ofName name),
    catalog.tables.filter fun _ table => table.database != .ofName name⟩

-- Options are kept under their lowercased names.
def setOption (catalog : Catalog) (name option setting : String) : Lookup Catalog := do
  let database ← catalog.databaseNamed name
  let changed := { database with options := database.options.insert (Text.lower option) setting }
  return { catalog with databases := catalog.databases.insert (.ofName name) changed }

def table? (catalog : Catalog) (id : TableId) : Lookup Table :=
  match catalog.tables.get? id with
  | some table => .ok table
  | none => .error (.tableIdMissing id)

def tableKeyed (catalog : Catalog) (key : String) : Lookup Table :=
  match catalog.tables.items.find? (·.key == key) with
  | some table => .ok table
  | none => .error (.tableKeyMissing key)

def tableNamed (catalog : Catalog) (database name : String) : Lookup Table := do
  let database ← catalog.databaseNamed database
  match catalog.tables.get? (.ofName database.id name) with
  | some table => return table
  | none => throw (.tableNameMissing name)

def tableList (catalog : Catalog) (database : String) : Lookup (List Table) := do
  let database ← catalog.databaseNamed database
  let own := catalog.tables.items.filter (·.database == database.id)
  return own.mergeSort fun a b => decide (a.name ≤ b.name)

def createTable (catalog : Catalog) (database name : String) (fields : List Field)
    (description : Option String) : Lookup (Table × Catalog) := do
  let database ← catalog.databaseNamed database
  let table : Table := ⟨name, .ofName database.id name, database.id, fields, description⟩
  if catalog.tables.contains table.id then throw (.tableNameExists name)
  return (table, { catalog with tables := catalog.tables.insert table.id table })

def dropTable (catalog : Catalog) (database name : String) : Lookup (Table × Catalog) := do
  let table ← catalog.tableNamed database name
  let id := TableId.ofName (← catalog.databaseNamed database).id name
  return (table, { catalog with tables := catalog.tables.erase id })

def fieldNamed (catalog : Catalog) (database table field : String) : Lookup Field := do
  let table ← catalog.tableNamed database table
  match table.field? field with
  | some found => return found
  | none => throw (.fieldMissing field)

def replaceTable (catalog : Catalog) (database name : String) (table : Table) : Lookup Catalog := do
  let id := TableId.ofName (← catalog.databaseNamed database).id name
  return { catalog with tables := catalog.tables.insert id table }

def createField (catalog : Catalog) (database table : String) (field : Field) : Lookup Catalog := do
  let found ← catalog.tableNamed database table
  if (found.field? field.name).isSome then throw (.fieldExists field.name)
  catalog.replaceTable database table { found with fields := found.fields ++ [field] }

def dropField (catalog : Catalog) (database table field : String) : Lookup Catalog := do
  let found ← catalog.tableNamed database table
  let kept := found.fields.filter fun other => !Text.same other.name field
  if kept.length = found.fields.length then throw (.fieldMissing field)
  catalog.replaceTable database table { found with fields := kept }

end Catalog

end ShardQuery
