import ShardQuery.Proofs.Catalog.Changes
import ShardQuery.Proofs.Outcome
/-!
A catalog as tables within databases, each under its lowercased name, with what every change makes of it, and when a
catalog has what the nested one has. Main statement: a map that shows what is at some places goes on showing it when
one place changes, as long as the places in use have different keys.
-/

set_option autoImplicit false

namespace ShardQuery

namespace SortedMap

section Shows

variable {κ ν ι : Type} [Ord κ] [Std.TransOrd κ] [Std.LawfulEqOrd κ] [DecidableEq κ]

-- The map has what is shown at the places, each under the key of its place.
def Shows (map : SortedMap κ ν) (key : ι → κ) (shown : ι → Option ν) : Prop :=
  ∀ k item, map.get? k = some item ↔ ∃ place, key place = k ∧ shown place = some item

-- The places in use have different keys.
structure Placed (key : ι → κ) (inside : ι → Prop) (shown : ι → Option ν) : Prop where
  apart : ∀ a b, inside a → inside b → key a = key b → a = b
  within : ∀ place item, shown place = some item → inside place

variable {map : SortedMap κ ν} {key : ι → κ} {inside : ι → Prop} {shown later : ι → Option ν}
  (placed : Placed key inside shown) (shows : map.Shows key shown) (place : ι) (here : inside place)

include placed shows here

omit [Std.TransOrd κ] [Std.LawfulEqOrd κ] [DecidableEq κ] in
theorem shows_get : map.get? (key place) = shown place := by
  apply Option.ext
  intro item
  rw [shows]
  constructor
  · rintro ⟨other, same, held⟩
    exact placed.apart other place (placed.within other item held) here same ▸ held
  · intro held
    exact ⟨place, rfl, held⟩

theorem shows_insert (item : ν) (changed : later place = some item) (others : ∀ other, other ≠ place → later other = shown other) :
    (map.insert (key place) item).Shows key later := by
  intro k found
  rw [get?_insert]
  by_cases same : k = key place
  · rw [if_pos same, same, ← changed]
    constructor
    · intro held
      exact ⟨place, rfl, held⟩
    · rintro ⟨other, alike, held⟩
      by_cases equal : other = place
      · exact equal ▸ held
      · rw [others other equal] at held
        exact absurd (placed.apart other place (placed.within other found held) here alike) equal
  · rw [if_neg same, shows]
    refine exists_congr fun other => and_congr_right fun alike => ?_
    rw [others other]
    rintro rfl
    exact same alike.symm

omit [Std.TransOrd κ] in
theorem shows_erase (gone : later place = none) (others : ∀ other, other ≠ place → later other = shown other) :
    (map.erase (key place)).Shows key later := by
  intro k found
  rw [get?_erase]
  by_cases same : k = key place
  · rw [if_pos same, same]
    refine ⟨nofun, ?_⟩
    rintro ⟨other, alike, held⟩
    by_cases equal : other = place
    · rw [equal, gone] at held
      cases held
    · rw [others other equal] at held
      exact absurd (placed.apart other place (placed.within other found held) here alike) equal
  · rw [if_neg same, shows]
    refine exists_congr fun other => and_congr_right fun alike => ?_
    rw [others other]
    rintro rfl
    exact same alike.symm

omit [Std.TransOrd κ] [DecidableEq κ] placed here in
theorem shows_filter (keep : κ → ν → Bool)
    (kept : ∀ place item, later place = some item ↔ shown place = some item ∧ keep (key place) item = true) :
    (map.filter keep).Shows key later := by
  intro k found
  rw [get?_filter, Option.filter_eq_some_iff, shows]
  constructor
  · rintro ⟨⟨place, rfl, held⟩, keeps⟩
    exact ⟨place, rfl, (kept place found).mpr ⟨held, keeps⟩⟩
  · rintro ⟨place, rfl, held⟩
    obtain ⟨before, keeps⟩ := (kept place found).mp held
    exact ⟨⟨place, rfl, before⟩, keeps⟩

end Shows

end SortedMap

structure NestedTable where
  name : String
  fields : List Field
  description : Option String

structure NestedDatabase where
  name : String
  options : SortedMap String String
  tables : SortedMap String NestedTable

abbrev NestedCatalog := SortedMap String NestedDatabase

namespace NestedDatabase

-- What a catalog keeps of the database.
def record (database : NestedDatabase) : Database := ⟨.ofName database.name, database.name, database.options⟩

def table (database : NestedDatabase) (name : String) : Catalog.Lookup NestedTable :=
  match database.tables.get? (Text.lower name) with
  | some table => .ok table
  | none => .error (.tableNameMissing name)

def putting (database : NestedDatabase) (name : String) (table : NestedTable) : NestedDatabase :=
  { database with tables := database.tables.insert (Text.lower name) table }

end NestedDatabase

-- What a catalog keeps of a table of the database.
def NestedTable.record (database : NestedDatabase) (table : NestedTable) : Table :=
  ⟨table.name, .ofName (.ofName database.name) table.name, .ofName database.name, table.fields, table.description⟩

namespace NestedCatalog

def database (nested : NestedCatalog) (name : String) : Catalog.Lookup NestedDatabase :=
  match nested.get? (Text.lower name) with
  | some database => .ok database
  | none => .error (.databaseNameMissing name)

def attempt (nested : NestedCatalog) : CatalogChange → Catalog.Lookup NestedCatalog
  | .createDatabase name options =>
      if nested.contains (Text.lower name) then .error (.databaseNameExists name)
      else .ok (nested.insert (Text.lower name) ⟨name, options, .empty⟩)
  | .dropDatabase name => do
      let _ ← nested.database name
      return nested.erase (Text.lower name)
  | .setOption name option setting => do
      let database ← nested.database name
      let options := database.options.insert (Text.lower option) setting
      return nested.insert (Text.lower name) { database with options }
  | .createTable owner name fields description => do
      let database ← nested.database owner
      if database.tables.contains (Text.lower name) then throw (.tableNameExists name)
      return nested.insert (Text.lower owner) (database.putting name ⟨name, fields, description⟩)
  | .dropTable owner name => do
      let database ← nested.database owner
      let _ ← database.table name
      return nested.insert (Text.lower owner) { database with tables := database.tables.erase (Text.lower name) }
  | .createField owner name field => do
      let database ← nested.database owner
      let table ← database.table name
      if table.fields.any (Text.same ·.name field.name) then throw (.fieldExists field.name)
      return nested.insert (Text.lower owner) (database.putting name { table with fields := table.fields ++ [field] })
  | .dropField owner name field => do
      let database ← nested.database owner
      let table ← database.table name
      if table.fields.all (!Text.same ·.name field) then throw (.fieldMissing field)
      let fields := table.fields.filter (!Text.same ·.name field)
      return nested.insert (Text.lower owner) (database.putting name { table with fields })

def perform (nested : NestedCatalog) (change : CatalogChange) : Catalog.Lookup Unit × NestedCatalog :=
  match nested.attempt change with
  | .ok later => (.ok (), later)
  | .error cause => (.error cause, nested)

-- The record of the database under a key, and of the table under a key in it.
def databaseAt (nested : NestedCatalog) (key : String) : Option Database := (nested.get? key).map (·.record)

def tableAt (nested : NestedCatalog) (place : String × String) : Option Table :=
  (nested.get? place.1).bind fun database => (database.tables.get? place.2).map (·.record database)

-- The databases and tables that there are.
def HasDatabase (nested : NestedCatalog) (database : Database) : Prop := ∃ key, nested.databaseAt key = some database

def HasTable (nested : NestedCatalog) (table : Table) : Prop := ∃ place, nested.tableAt place = some table

end NestedCatalog

-- Names with different lowercase forms have different ids, and so have tables of these names in such databases.
structure Apart (names : List String) : Prop where
  databases : ∀ a ∈ names, ∀ b ∈ names, DatabaseId.ofName a = DatabaseId.ofName b → Text.lower a = Text.lower b
  tables : ∀ d ∈ names, ∀ e ∈ names, ∀ a ∈ names, ∀ b ∈ names,
    TableId.ofName (.ofName d) a = TableId.ofName (.ofName e) b → Text.lower d = Text.lower e ∧ Text.lower a = Text.lower b

-- The ids of the names with a lowercase form.
def DatabaseId.ofKey (key : String) : DatabaseId := ⟨Hash.sip13 (Text.utf8 key ++ [0xff])⟩

def TableId.ofKeys (keys : String × String) : TableId :=
  ⟨Hash.sip13 (Bytes.word64 (DatabaseId.ofKey keys.1).code ++ (Text.utf8 keys.2 ++ [0xff]))⟩

section Keys

variable {names : List String} (apart : Apart names)

include apart

theorem databases_apart (a b : String) (known : a ∈ names.map Text.lower) (known' : b ∈ names.map Text.lower)
    (same : DatabaseId.ofKey a = DatabaseId.ofKey b) : a = b := by
  obtain ⟨name, listed, rfl⟩ := List.mem_map.mp known
  obtain ⟨name', listed', rfl⟩ := List.mem_map.mp known'
  exact apart.databases name listed name' listed' same

theorem tables_apart (a b : String × String) (known : a.1 ∈ names.map Text.lower ∧ a.2 ∈ names.map Text.lower)
    (known' : b.1 ∈ names.map Text.lower ∧ b.2 ∈ names.map Text.lower) (same : TableId.ofKeys a = TableId.ofKeys b) :
    a = b := by
  obtain ⟨owner, table⟩ := a
  obtain ⟨owner', table'⟩ := b
  obtain ⟨d, among, (rfl : Text.lower d = owner)⟩ := List.mem_map.mp known.1
  obtain ⟨t, listed, (rfl : Text.lower t = table)⟩ := List.mem_map.mp known.2
  obtain ⟨e, among', (rfl : Text.lower e = owner')⟩ := List.mem_map.mp known'.1
  obtain ⟨u, listed', (rfl : Text.lower u = table')⟩ := List.mem_map.mp known'.2
  obtain ⟨owners, tables⟩ := apart.tables d among e among' t listed u listed' same
  rw [owners, tables]

end Keys

-- Everything is under the lowercase form of its name, and the names are known.
structure NestedCatalog.Keyed (names : List String) (nested : NestedCatalog) : Prop where
  databases : ∀ key database, nested.get? key = some database →
    Text.lower database.name = key ∧ key ∈ names.map Text.lower
  tables : ∀ key database, nested.get? key = some database → ∀ key' table, database.tables.get? key' = some table →
    Text.lower table.name = key' ∧ key' ∈ names.map Text.lower

-- Everything is filed under the id of its name, and the database of every table is there.
structure Catalog.Derived (catalog : Catalog) : Prop where
  databases : ∀ id database, catalog.databases.get? id = some database → database.id = id ∧ id = .ofName database.name
  tables : ∀ id table, catalog.tables.get? id = some table → table.id = id ∧ id = .ofName table.database table.name
  owned : ∀ id table, catalog.tables.get? id = some table →
    ∃ database, catalog.databases.get? table.database = some database

-- The catalog has what the nested one has.
structure Catalog.Tracks (names : List String) (catalog : Catalog) (nested : NestedCatalog) : Prop where
  databases : catalog.databases.Shows DatabaseId.ofKey nested.databaseAt
  tables : catalog.tables.Shows TableId.ofKeys nested.tableAt
  keyed : nested.Keyed names

namespace NestedCatalog

variable {names : List String} {nested : NestedCatalog}

theorem database_ok {name : String} {database : NestedDatabase} :
    nested.database name = .ok database ↔ nested.get? (Text.lower name) = some database := by
  rw [NestedCatalog.database]
  cases nested.get? (Text.lower name) with
  | none => exact ⟨nofun, nofun⟩
  | some other => exact ⟨fun same => congrArg some (Except.ok.inj same), fun same => congrArg Except.ok (Option.some.inj same)⟩

theorem table_ok {database : NestedDatabase} {name : String} {table : NestedTable} :
    database.table name = .ok table ↔ database.tables.get? (Text.lower name) = some table := by
  rw [NestedDatabase.table]
  cases database.tables.get? (Text.lower name) with
  | none => exact ⟨nofun, nofun⟩
  | some other => exact ⟨fun same => congrArg some (Except.ok.inj same), fun same => congrArg Except.ok (Option.some.inj same)⟩

theorem database_at_insert (key other : String) (database : NestedDatabase) :
    NestedCatalog.databaseAt (nested.insert key database) other =
      if other = key then some database.record else nested.databaseAt other := by
  rw [databaseAt, SortedMap.get?_insert, apply_ite (Option.map _)]
  rfl

theorem table_at_insert (key : String) (database : NestedDatabase) (place : String × String) :
    NestedCatalog.tableAt (nested.insert key database) place =
      if place.1 = key then (database.tables.get? place.2).map (·.record database) else nested.tableAt place := by
  rw [tableAt, SortedMap.get?_insert]
  split
  · rfl
  · rfl

-- The tables are where they were when the database keeps its own.
theorem table_at_kept {key : String} {database : NestedDatabase}
    (kept : ∀ name, (database.tables.get? name).map (·.record database) = nested.tableAt (key, name)) :
    NestedCatalog.tableAt (nested.insert key database) = nested.tableAt := by
  funext place
  rw [table_at_insert]
  split
  · rename_i here
    rw [kept, ← here]
  · rfl

-- Within a database, only the table under one key changes.
theorem table_at_elsewhere {key name : String} {database : NestedDatabase} {tables : SortedMap String NestedTable}
    (held : nested.get? key = some database) (others : ∀ other, other ≠ name → tables.get? other = database.tables.get? other)
    (place : String × String) (different : place ≠ (key, name)) :
    NestedCatalog.tableAt (nested.insert key { database with tables }) place = nested.tableAt place := by
  rw [table_at_insert]
  split
  · rename_i here
    have elsewhere : place.2 ≠ name := fun same => different (Prod.ext here same)
    rw [others place.2 elsewhere, tableAt, here, held]
    rfl
  · rfl

theorem databases_placed (apart : Apart names) (keyed : nested.Keyed names) :
    SortedMap.Placed DatabaseId.ofKey (· ∈ names.map Text.lower) nested.databaseAt := by
  refine ⟨databases_apart apart, fun key database held => ?_⟩
  obtain ⟨database, found, -⟩ := Option.map_eq_some_iff.mp held
  exact (keyed.databases key database found).2

theorem tables_placed (apart : Apart names) (keyed : nested.Keyed names) :
    SortedMap.Placed TableId.ofKeys (fun place => place.1 ∈ names.map Text.lower ∧ place.2 ∈ names.map Text.lower)
      nested.tableAt := by
  refine ⟨tables_apart apart, fun place table held => ?_⟩
  obtain ⟨database, found, held⟩ := Option.bind_eq_some_iff.mp held
  obtain ⟨table, found', -⟩ := Option.map_eq_some_iff.mp held
  exact ⟨(keyed.databases _ database found).2, (keyed.tables _ database found _ table found').2⟩

-- A database under the key of its name, with tables under the keys of theirs.
theorem keyed_insert (keyed : nested.Keyed names) (key : String) (database : NestedDatabase)
    (named : Text.lower database.name = key ∧ key ∈ names.map Text.lower)
    (tables : ∀ key' table, database.tables.get? key' = some table →
      Text.lower table.name = key' ∧ key' ∈ names.map Text.lower) :
    Keyed names (nested.insert key database) := by
  refine ⟨fun other found held => ?_, fun other found held => ?_⟩
  · rw [SortedMap.get?_insert] at held
    split at held
    · rename_i same
      cases held
      exact same ▸ named
    · exact keyed.databases other found held
  · rw [SortedMap.get?_insert] at held
    split at held
    · cases held
      exact tables
    · exact keyed.tables other found held

theorem keyed_erase (keyed : nested.Keyed names) (key : String) : Keyed names (nested.erase key) := by
  have before {other : String} {database : NestedDatabase} (held : SortedMap.get? (nested.erase key) other = some database) :
      nested.get? other = some database := by
    rw [SortedMap.get?_erase] at held
    split at held
    · cases held
    · exact held
  exact ⟨fun other database held => keyed.databases other database (before held),
    fun other database held => keyed.tables other database (before held)⟩

end NestedCatalog

end ShardQuery
